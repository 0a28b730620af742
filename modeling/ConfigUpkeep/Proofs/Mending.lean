/-
# ConfigUpkeep.Proofs.Mending -- a mended document is clean, and is left as it is

Lines are *clean* if every keyed table that they use is declared on one of them, and no
banner stands directly behind an alias (`Repair.Clean`).  A check finds issues exactly in
documents that are not clean (`Repair.hadIssues_check`).

Each pass of a check does away with one kind of issue and brings none of the other:

* declaring the missing tables leaves every used table declared (`declared_declaredLines`),
  and padding lines keeps it so (`Declared.padded`), since nobody uses a table on a mute line;
* spacing leaves no banner crowded (`spaced_spacedLines`).

So one round mends everything (`Repair.clean_check`), and since clean lines are left as
they are (`Repair.check_of_clean`), a second round finds nothing (`Repair.check_check`).
-/
import Mathlib.Data.List.Chain
import ConfigUpkeep.Proofs.Padding

namespace ConfigUpkeep

set_option autoImplicit false

namespace Repair

/-! ## Declared tables -/

/-- The table is declared on one of the lines if one of them uses it. -/
def Declared (uses : Uses) (ls : List Text) (category : Category) : Prop :=
  (∃ l ∈ ls, uses category l = true) → ∃ l ∈ ls, Line.declares (.keyed category) l = true

theorem isUndeclared_eq_false {uses : Uses} {ls : List Text} {category : Category} :
    isUndeclared uses ls category = false ↔ Declared uses ls category := by
  simp only [isUndeclared, Declared, Bool.and_eq_false_iff, Bool.not_eq_false', List.any_eq_true,
    List.any_eq_false]
  constructor
  · rintro (unused | declared) ⟨l, member, used⟩
    · exact absurd used (unused l member)
    · exact declared
  · intro declared
    by_cases used : ∃ l ∈ ls, uses category l = true
    · exact Or.inr (declared used)
    · exact Or.inl fun l member here => used ⟨l, member, here⟩

/-- Nobody uses a table on a mute line. -/
def Blind (uses : Uses) : Prop := ∀ category l, Line.Mute l → uses category l = false

theorem blind_isAssignment : Blind fun category => Line.isAssignment (.keyed category) :=
  fun category _ mute => mute.unassigned (.keyed category)

section

variable {uses : Uses} {ls ms : List Text} {category : Category}

theorem exists_uses_of_padded (blind : Blind uses) (padded : Padded ls ms)
    (used : ∃ l ∈ ms, uses category l = true) : ∃ l ∈ ls, uses category l = true := by
  obtain ⟨l, member, here⟩ := used
  rcases padded.mem_or_mute member with old | mute
  · exact ⟨l, old, here⟩
  · rw [blind category l mute] at here
    cases here

/-- A declared table stays declared when mute lines are added. -/
theorem Declared.padded (blind : Blind uses) (declared : Declared uses ls category)
    (padded : Padded ls ms) : Declared uses ms category := by
  intro used
  obtain ⟨l, member, declares⟩ := declared (exists_uses_of_padded blind padded used)
  exact ⟨l, padded.sublist.subset member, declares⟩

/-- An awaited table that is used gets its guard. -/
theorem guard_mem_declaredLines {awaited : List Category} (listed : category ∈ awaited)
    (used : ∃ l ∈ ls, uses category l = true) :
    (Table.keyed category).guardedDeclaration ∈ declaredLines uses awaited ls := by
  induction ls generalizing awaited with
  | nil =>
      obtain ⟨l, member, -⟩ := used
      cases member
  | cons line rest ih =>
      rw [declaredLines, List.mem_append]
      by_cases here : uses category line = true
      · left
        refine List.mem_flatMap.2 ⟨category, List.mem_filter.2 ⟨listed, here⟩, ?_⟩
        exact List.mem_cons_self ..
      · right
        obtain ⟨l, member, there⟩ := used
        rcases List.mem_cons.1 member with rfl | later
        · exact absurd there here
        · refine List.mem_cons_of_mem _ (ih ?_ ⟨l, later, there⟩)
          simpa [listed] using here

/-- After the declarations every table is declared that is used. -/
theorem declared_declaredLines (blind : Blind uses) (ls : List Text) (category : Category) :
    Declared uses (declaredLines uses (Category.all.filter (isUndeclared uses ls)) ls)
      category := by
  have padded := padded_declaredLines uses (Category.all.filter (isUndeclared uses ls)) ls
  cases missing : isUndeclared uses ls category with
  | false => exact (isUndeclared_eq_false.1 missing).padded blind padded
  | true =>
      intro used
      have awaited : category ∈ Category.all.filter (isUndeclared uses ls) := by
        simp [category.mem_all, missing]
      exact ⟨_, guard_mem_declaredLines awaited (exists_uses_of_padded blind padded used),
        Line.declares_guardedDeclaration _⟩

/-- The first line stays first, or comes behind a guard. -/
theorem head?_declaredLines {awaited : List Category} {l : Text}
    (first : (declaredLines uses awaited ls).head? = some l) :
    ls.head? = some l ∨ ∃ category, (Table.keyed category).guardedDeclaration = l := by
  cases ls with
  | nil => exact Or.inl first
  | cons line rest =>
      rw [declaredLines] at first
      cases here : awaited.filter fun category => uses category line with
      | nil =>
          rw [here] at first
          exact Or.inl first
      | cons category later =>
          rw [here] at first
          exact Or.inr ⟨category, Option.some.inj first⟩

end

/-- Where no table is awaited no line is added. -/
theorem declaredLines_nil (uses : Uses) (ls : List Text) :
    declaredLines uses [] ls = ls ∧ usedFirst uses [] ls = [] := by
  induction ls with
  | nil => exact ⟨rfl, rfl⟩
  | cons line rest ih => simp [declaredLines, usedFirst, ih]

/-- A document whose tables are declared is left as it is. -/
theorem declarations_of_declared {uses : Uses} {document : Text}
    (declared : ∀ category, Declared uses document.lines category) :
    declarations uses document = ⟨document, []⟩ := by
  have nothing : Category.all.filter (isUndeclared uses document.lines) = [] := by
    simp [List.filter_eq_nil_iff, isUndeclared_eq_false.2 (declared _)]
  obtain ⟨kept, none_⟩ := declaredLines_nil uses document.lines
  simp [declarations, nothing, kept, none_, Text.unlines_lines]

/-- An awaited table that is used is listed among the issues. -/
theorem mem_usedFirst {uses : Uses} {ls : List Text} {category : Category}
    {awaited : List Category} (listed : category ∈ awaited)
    (used : ∃ l ∈ ls, uses category l = true) : category ∈ usedFirst uses awaited ls := by
  induction ls generalizing awaited with
  | nil =>
      obtain ⟨l, member, -⟩ := used
      cases member
  | cons line rest ih =>
      rw [usedFirst, List.mem_append]
      by_cases here : uses category line = true
      · exact Or.inl (List.mem_filter.2 ⟨listed, here⟩)
      · obtain ⟨l, member, there⟩ := used
        rcases List.mem_cons.1 member with rfl | later
        · exact absurd there here
        · exact Or.inr (ih (by simpa [listed] using here) ⟨l, later, there⟩)

/-- A table is listed among the issues if and only if some table is not declared. -/
theorem issues_declarations {uses : Uses} {document : Text} :
    (declarations uses document).issues = [] ↔ ∀ category, Declared uses document.lines category := by
  constructor
  · intro none_ category
    rw [← isUndeclared_eq_false]
    cases missing : isUndeclared uses document.lines category with
    | false => rfl
    | true =>
        have awaited : category ∈ Category.all.filter (isUndeclared uses document.lines) := by
          simp [category.mem_all, missing]
        have used : ∃ l ∈ document.lines, uses category l = true := by
          simp only [isUndeclared, Bool.and_eq_true, List.any_eq_true] at missing
          exact missing.1
        have listed := mem_usedFirst awaited used
        rw [List.map_eq_nil_iff.1 none_] at listed
        cases listed
  · intro declared
    rw [declarations_of_declared declared]

/-! ## Spaced banners -/

/-- No banner stands directly behind an alias. -/
def Spaced (ls : List Text) : Prop := ls.IsChain fun line next => isCrowded line next = false

theorem isCrowded_nil_left (next : Text) : isCrowded [] next = false := rfl

theorem isCrowded_nil_right (line : Text) : isCrowded line [] = false := by
  simp [isCrowded, Line.isBanner, Line.starts]

theorem head?_spacedLines (ls : List Text) : (spacedLines ls).head? = ls.head? := by
  fun_induction spacedLines ls <;> rfl

theorem spaced_spacedLines (ls : List Text) : Spaced (spacedLines ls) := by
  fun_induction spacedLines ls with
  | case1 => exact .nil
  | case2 line => exact .singleton line
  | case3 line next rest crowded ih =>
      refine .cons_cons (isCrowded_nil_right line) (List.isChain_cons.2 ⟨?_, ih⟩)
      intro first _
      exact isCrowded_nil_left first
  | case4 line next rest free ih =>
      refine List.isChain_cons.2 ⟨?_, ih⟩
      intro first begins
      rw [head?_spacedLines] at begins
      cases begins
      simpa using free

/-- A banner is counted if and only if one is crowded. -/
theorem crowdedBanners_eq_zero {ls : List Text} : crowdedBanners ls = 0 ↔ Spaced ls := by
  fun_induction crowdedBanners ls with
  | case1 => simp [Spaced]
  | case2 => simp [Spaced]
  | case3 line next rest ih =>
      rw [Spaced] at ih
      rw [Spaced, List.isChain_cons_cons, Nat.add_eq_zero_iff, ih]
      cases isCrowded line next <;> simp

/-- Lines on which no banner is crowded are left as they are. -/
theorem spacedLines_of_spaced {ls : List Text} (spaced : Spaced ls) : spacedLines ls = ls := by
  fun_induction spacedLines ls with
  | case1 => rfl
  | case2 => rfl
  | case3 line next rest crowded ih =>
      rw [Spaced, List.isChain_cons_cons, crowded] at spaced
      cases spaced.1
  | case4 line next rest free ih =>
      rw [Spaced, List.isChain_cons_cons] at spaced
      rw [ih spaced.2]

theorem spacing_of_spaced {document : Text} (spaced : Spaced document.lines) :
    spacing document = ⟨document, []⟩ := by
  simp [spacing, spacedLines_of_spaced spaced, crowdedBanners_eq_zero.2 spaced, Text.unlines_lines]

/-! ## Clean documents -/

/-- Every keyed table that the lines use is declared on one of them, and no banner stands
directly behind an alias. -/
structure Clean (ls : List Text) : Prop where
  declared : ∀ category, Declared (fun category => Line.isAssignment (.keyed category)) ls category
  spaced : Spaced ls

/-- A clean document is left as it is. -/
theorem check_of_clean {document : Text} (clean : Clean document.lines) :
    check document = ⟨document, []⟩ := by
  rw [check, declarations_of_declared clean.declared, andThen, spacing_of_spaced clean.spaced]
  rfl

theorem lines_declarations (uses : Uses) (document : Text) :
    (declarations uses document).document.lines =
      declaredLines uses (Category.all.filter (isUndeclared uses document.lines)) document.lines :=
  (padded_declaredLines uses _ _).lines_unlines

theorem lines_spacing (document : Text) :
    (spacing document).document.lines = spacedLines document.lines :=
  (padded_spacedLines _).lines_unlines

/-- The lines of a mended document: those of the document, declared and then spaced. -/
theorem lines_check (document : Text) : (check document).document.lines =
    spacedLines (declaredLines (fun category => Line.isAssignment (.keyed category))
      (Category.all.filter
        (isUndeclared (fun category => Line.isAssignment (.keyed category)) document.lines))
      document.lines) := by
  rw [check, andThen, lines_spacing, lines_declarations]

/-- **A mended document is clean.** -/
theorem clean_check (document : Text) : Clean (check document).document.lines := by
  rw [lines_check]
  refine ⟨fun category => ?_, spaced_spacedLines _⟩
  exact (declared_declaredLines blind_isAssignment document.lines category).padded
    blind_isAssignment (padded_spacedLines _)

/-- A mended document starts as the document did, or with a line feed, or with a guard. -/
theorem head?_check {document : Text} {c : Char}
    (starts : (check document).document.head? = some c) (solid : c ≠ '\n') :
    document.head? = some c ∨ c = '[' := by
  rw [← Text.unlines_lines (check document).document, Text.head?_unlines_iff solid, lines_check,
    head?_spacedLines] at starts
  obtain ⟨l, first, here⟩ := starts
  rcases head?_declaredLines first with old | ⟨category, rfl⟩
  · rw [← Text.unlines_lines document, Text.head?_unlines_iff solid]
    exact Or.inl ⟨l, old, here⟩
  · exact Or.inr (Option.some.inj here).symm

/-- A check finds issues in the documents that are not clean, and in no others. -/
theorem hadIssues_check {document : Text} :
    (check document).hadIssues = false ↔ Clean document.lines := by
  constructor
  · intro nothing
    have none_ : (check document).issues = [] := by
      simpa [hadIssues] using nothing
    obtain ⟨declared, spaced⟩ := List.append_eq_nil_iff.1 none_
    have tables := issues_declarations.1 declared
    rw [declarations_of_declared tables] at spaced
    exact ⟨tables, crowdedBanners_eq_zero.1 ((List.replicate_eq_nil_iff _).1 spaced)⟩
  · intro clean
    rw [check_of_clean clean]
    rfl

/-- **One round mends everything**: what a check returns is clean, and a check of it finds no
issue, applies no remedy, and returns it as it is. -/
theorem check_check (document : Text) :
    let mended := (check document).document
    Clean mended.lines ∧ (check mended).issues = [] ∧ (check mended).remedies = [] ∧
      (check mended).hadIssues = false ∧ (check mended).document = mended := by
  intro mended
  have clean : Clean mended.lines := clean_check document
  rw [check_of_clean clean]
  exact ⟨clean, rfl, rfl, rfl, rfl⟩

end Repair

end ConfigUpkeep
