/-
# ConfigUpkeep.Proofs.Insertion -- where a repair inserts lines

A repair takes no line away and changes none; it inserts lines, and this module says where.
What is inserted in front of a line depends on the line and on the lines above it
(`Insertion`):

* in front of the first line that uses a table which is declared nowhere stand the
  declaration of the table and an empty line (`Insertion.guards`, and
  `Repair.declarationLines_eq` for their characters);
* in front of a banner directly behind an alias stands an empty line (`Insertion.spaces`).

The declarations of a pass are such an insertion (`Repair.declaredLines_eq_into`), and a
check makes both insertions into the lines of the document itself (`Repair.check_inserts`),
although its second pass works on what the first one left.  The reason is that neither pass
sees what the other one inserts: no table is used on an empty line or on a banner
(`Repair.Uses.Orderly`), and a declaration is neither an alias nor a banner.  So the two
passes can also change places (`Repair.passes_independent`).
-/
import ConfigUpkeep.Proofs.Mending

namespace ConfigUpkeep

set_option autoImplicit false

/-! ## Insertions -/

/-- What is inserted between the lines above a line and the line. -/
abbrev Insertion := List Text → Text → List Text

namespace Insertion

/-- The lines with the insertion made in front of each of them; `above` stand above them. -/
def into (insertion : Insertion) : List Text → List Text → List Text
  | _, [] => []
  | above, line :: below =>
      insertion above line ++ line :: into insertion (above ++ [line]) below

/-- No line is lost, and none changes its place. -/
theorem sublist_into (insertion : Insertion) (above ls : List Text) :
    ls.Sublist (insertion.into above ls) := by
  induction ls generalizing above with
  | nil => exact .slnil
  | cons line below ih =>
      exact ((ih _).cons_cons line).trans (List.sublist_append_right _ _)

/-- The declarations of the awaited tables that are used on the line and on none above it. -/
def guards (uses : Repair.Uses) (awaited : List Category) : Insertion := fun above line =>
  (awaited.filter fun category => uses category line && !above.any (uses category)).flatMap
    Repair.declarationLines

/-- An empty line, if the line is a banner and the last line above it an alias. -/
def spaces : Insertion := fun above line =>
  if above.getLast?.any fun last => Repair.isCrowded last line then [[]] else []

/-- One insertion followed by another, in front of the same line. -/
def followedBy (first second : Insertion) : Insertion := fun above line =>
  first above line ++ second above line

end Insertion

namespace Repair

/-! ## Declarations as an insertion -/

/-- The lines that are inserted for a table, by their characters: its guarded declaration and an
empty line. -/
theorem declarationLines_eq (category : Category) :
    declarationLines category =
      ["[[ -z $\x7b(t)" ++ (Table.keyed category).name ++ "\x7d ]] && declare -gA " ++
        (Table.keyed category).name, []] := by
  have regroup (a b c d name : Text) :
      a ++ name ++ b ++ c ++ (d ++ name) = a ++ name ++ (b ++ (c ++ d)) ++ name := by simp
  have middle : ("\x7d" ++ (" ]] && " ++ "declare -gA ") : Text) = "\x7d ]] && declare -gA " := by
    decide +kernel
  have line : (Table.keyed category).guardedDeclaration = _ :=
    regroup "[[ -z $\x7b(t)" "\x7d" " ]] && " "declare -gA " (Table.keyed category).name
  rw [declarationLines, line, middle]

/-- **Declarations are inserted in front of first uses**: the tables awaited behind the lines
above are those that none of these lines uses. -/
theorem declaredLines_eq_into (uses : Uses) (awaited : List Category) (above ls : List Text) :
    declaredLines uses (awaited.filter fun category => !above.any (uses category)) ls =
      (Insertion.guards uses awaited).into above ls := by
  induction ls generalizing above with
  | nil => rfl
  | cons line below ih =>
      have later : (awaited.filter fun category => !above.any (uses category)).filter
            (fun category => !uses category line) =
          awaited.filter fun category => !(above ++ [line]).any (uses category) := by
        rw [List.filter_filter]
        congr 1
        funext category
        simp [Bool.and_comm]
      simp only [declaredLines, Insertion.into, Insertion.guards]
      rw [List.filter_filter, later, ih]

theorem declaredLines_eq_into_nil (uses : Uses) (awaited : List Category) (ls : List Text) :
    declaredLines uses awaited ls = (Insertion.guards uses awaited).into [] ls := by
  have start := declaredLines_eq_into uses awaited [] ls
  simpa only [List.any_nil, Bool.not_false, List.filter_true] using start

/-! ## Spacing, line by line -/

/-- The empty line between a line and the lines below it: there is one if they start with a
banner that the line crowds. -/
def gap (line : Text) (below : List Text) : List Text :=
  if below.head?.any (isCrowded line) then [[]] else []

theorem spacedLines_cons (line : Text) (below : List Text) :
    spacedLines (line :: below) = line :: (gap line below ++ spacedLines below) := by
  cases below with
  | nil => rfl
  | cons next below =>
      rw [spacedLines, gap, List.head?_cons, Option.any_some]
      split <;> rfl

/-- Lines that assign no alias crowd no banner. -/
theorem spacedLines_append {block : List Text}
    (unaliased : ∀ l ∈ block, Line.isAssignment .aliases l = false) (ls : List Text) :
    spacedLines (block ++ ls) = block ++ spacedLines ls := by
  induction block with
  | nil => rfl
  | cons line block ih =>
      obtain ⟨here, later⟩ := List.forall_mem_cons.1 unaliased
      have none_ : gap line (block ++ ls) = [] := by
        rw [gap]
        cases (block ++ ls).head? <;> simp [isCrowded, here]
      rw [List.cons_append, spacedLines_cons, none_, List.nil_append, ih later, List.cons_append]

theorem crowdedBanners_cons (line : Text) (below : List Text) :
    crowdedBanners (line :: below) = (gap line below).length + crowdedBanners below := by
  have whole := length_spacedLines (line :: below)
  rw [spacedLines_cons, List.length_cons, List.length_append, length_spacedLines,
    List.length_cons] at whole
  omega

theorem crowdedBanners_append {block : List Text}
    (unaliased : ∀ l ∈ block, Line.isAssignment .aliases l = false) (ls : List Text) :
    crowdedBanners (block ++ ls) = crowdedBanners ls := by
  have whole := length_spacedLines (block ++ ls)
  rw [spacedLines_append unaliased, List.length_append, length_spacedLines,
    List.length_append] at whole
  omega

/-! ## Passes that do not see each other -/

/-- No table is used on an empty line or on a banner, and at most one on any line. -/
structure Uses.Orderly (uses : Uses) : Prop where
  empty : ∀ category, uses category [] = false
  banner : ∀ category {line}, Line.isBanner line = true → uses category line = false
  unique : ∀ {a b line}, uses a line = true → uses b line = true → a = b

theorem orderly_isAssignment :
    Uses.Orderly fun category => Line.isAssignment (.keyed category) where
  empty category := by cases category <;> rfl
  banner category line banner := by
    rw [Line.isBanner, Bool.and_eq_true, Line.starts_iff] at banner
    obtain ⟨⟨rest, rfl⟩, -⟩ := banner
    obtain ⟨opening, begins⟩ := (Table.keyed category).opening_eq_cons
    rw [Line.isAssignment, begins]
    exact Line.starts_eq_false (by decide) opening rest
  unique {a b line} first second := by
    rw [Line.isAssignment, Line.starts_iff] at second
    obtain ⟨rest, rfl⟩ := second
    rw [Line.isAssignment_opening_append, decide_eq_true_iff] at first
    exact Table.keyed.inj first

theorem orderly_isIndentedAssignment :
    Uses.Orderly fun category => Line.isIndentedAssignment (.keyed category) where
  empty category := orderly_isAssignment.empty category
  banner category line banner := by
    have unindented : line.dropIndent = line := by
      rw [Line.isBanner, Bool.and_eq_true, Line.starts_iff] at banner
      obtain ⟨⟨rest, rfl⟩, -⟩ := banner
      rfl
    rw [Line.isIndentedAssignment, unindented]
    exact orderly_isAssignment.banner category banner
  unique first second := orderly_isAssignment.unique first second

theorem unaliased_of_mem_declarations {categories : List Category} :
    ∀ l ∈ categories.flatMap declarationLines, Line.isAssignment .aliases l = false := by
  intro l member
  obtain ⟨category, -, declared⟩ := List.mem_flatMap.1 member
  exact (mute_of_mem_declarationLines l declared).unassigned .aliases

section

variable {uses : Uses}

theorem declaredLines_nil_cons (empty : ∀ category, uses category [] = false)
    (awaited : List Category) (ls : List Text) :
    declaredLines uses awaited ([] :: ls) = [] :: declaredLines uses awaited ls := by
  simp [declaredLines, empty]

/-- Declaring tables leaves the first line a banner, or leaves it none. -/
theorem gap_declaredLines (orderly : uses.Orderly) (line : Text) (awaited : List Category)
    (ls : List Text) : gap line (declaredLines uses awaited ls) = gap line ls := by
  cases ls with
  | nil => rfl
  | cons next below =>
      cases here : awaited.filter fun category => uses category next with
      | nil =>
          rw [declaredLines, here]
          rfl
      | cons category others =>
          have first : category ∈ awaited.filter fun category => uses category next := by
            rw [here]
            exact List.mem_cons_self ..
          have used : uses category next = true := (List.mem_filter.1 first).2
          have unbannered : Line.isBanner next = false := by
            rw [Bool.eq_false_iff]
            intro banner
            rw [orderly.banner category banner] at used
            cases used
          have guard : Line.isBanner (Table.keyed category).guardedDeclaration = false := rfl
          simp [gap, declaredLines, here, declarationLines, isCrowded, unbannered, guard]

/-- **The two passes change places**: spacing declared lines declares spaced lines. -/
theorem spacedLines_declaredLines (orderly : uses.Orderly) (awaited : List Category)
    (ls : List Text) :
    spacedLines (declaredLines uses awaited ls) = declaredLines uses awaited (spacedLines ls) := by
  induction ls generalizing awaited with
  | nil => rfl
  | cons line below ih =>
      have skip (awaited : List Category) (ms : List Text) :
          declaredLines uses awaited (gap line below ++ ms) =
            gap line below ++ declaredLines uses awaited ms := by
        rw [gap]
        split
        · exact declaredLines_nil_cons orderly.empty awaited ms
        · rfl
      rw [spacedLines_cons, declaredLines, declaredLines,
        spacedLines_append unaliased_of_mem_declarations, spacedLines_cons,
        gap_declaredLines orderly, ih, skip]

/-- An empty line changes nothing for who does not see it. -/
theorem any_spacedLines {p : Text → Bool} (blind : p [] = false) (ls : List Text) :
    (spacedLines ls).any p = ls.any p := by
  induction ls with
  | nil => rfl
  | cons line below ih =>
      have skip : (gap line below).any p = false := by
        rw [gap]
        split <;> simp [blind]
      rw [spacedLines_cons, List.any_cons, List.any_append, skip, ih, List.any_cons,
        Bool.false_or]

theorem isUndeclared_spacedLines (orderly : uses.Orderly) (ls : List Text) :
    isUndeclared uses (spacedLines ls) = isUndeclared uses ls := by
  funext category
  have undeclared : Line.declares (.keyed category) [] = false := by cases category <;> rfl
  rw [isUndeclared, any_spacedLines (orderly.empty category), any_spacedLines undeclared,
    isUndeclared]

theorem usedFirst_spacedLines (orderly : uses.Orderly) (awaited : List Category)
    (ls : List Text) : usedFirst uses awaited (spacedLines ls) = usedFirst uses awaited ls := by
  induction ls generalizing awaited with
  | nil => rfl
  | cons line below ih =>
      have skip (awaited : List Category) (ms : List Text) :
          usedFirst uses awaited (gap line below ++ ms) = usedFirst uses awaited ms := by
        rw [gap]
        split
        · simp [usedFirst, orderly.empty]
        · rfl
      rw [spacedLines_cons, usedFirst, usedFirst, skip, ih]

/-- Declaring tables crowds no banner and relieves none: both orders of the passes insert as
many lines. -/
theorem crowdedBanners_declaredLines (orderly : uses.Orderly) (awaited : List Category)
    (ls : List Text) : crowdedBanners (declaredLines uses awaited ls) = crowdedBanners ls := by
  have declaredFirst := length_spacedLines (declaredLines uses awaited ls)
  have spacedFirst := length_declaredLines uses awaited (spacedLines ls)
  rw [spacedLines_declaredLines orderly, length_declaredLines uses awaited ls] at declaredFirst
  rw [usedFirst_spacedLines orderly, length_spacedLines] at spacedFirst
  omega

end

/-! ## The order of the passes -/

/-- Two passes come to the same document in either order, and each of them reports and mends the
same, whether the other one came before it or not. -/
structure Independent (first second : Text → Repair) (document : Text) : Prop where
  same : ((first document).andThen second).document = ((second document).andThen first).document
  firstIssues : (first (second document).document).issues = (first document).issues
  firstRemedies : (first (second document).document).remedies = (first document).remedies
  secondIssues : (second (first document).document).issues = (second document).issues
  secondRemedies : (second (first document).document).remedies = (second document).remedies

theorem independent_of_orderly {uses : Uses} (orderly : uses.Orderly) (document : Text) :
    Independent (declarations uses) spacing document := by
  have declaredIssues : (declarations uses (spacing document).document).issues =
      (declarations uses document).issues := by
    simp only [declarations, lines_spacing, isUndeclared_spacedLines orderly,
      usedFirst_spacedLines orderly]
  have spacedIssues : (spacing (declarations uses document).document).issues =
      (spacing document).issues := by
    simp only [spacing, lines_declarations, crowdedBanners_declaredLines orderly]
  refine ⟨?_, declaredIssues, ?_, spacedIssues, ?_⟩
  · show Text.unlines (spacedLines (declarations uses document).document.lines) =
      (declarations uses (spacing document).document).document
    rw [lines_declarations, spacedLines_declaredLines orderly, declarations, lines_spacing,
      isUndeclared_spacedLines orderly]
  · rw [remedies, declaredIssues, remedies]
  · rw [remedies, spacedIssues, remedies]

/-- **The passes of a repair are independent**, whether uses are looked for in the first column
or at any indent. -/
theorem passes_independent (document : Text) :
    Independent (declarations fun category => Line.isAssignment (.keyed category)) spacing
        document ∧
      Independent (declarations fun category => Line.isIndentedAssignment (.keyed category)) spacing
        document :=
  ⟨independent_of_orderly orderly_isAssignment document,
    independent_of_orderly orderly_isIndentedAssignment document⟩

/-! ## Tables that lack a declaration -/

/-- The tables are those that the lines use and nowhere declare, in the order of their first
uses. -/
structure Lacks (uses : Uses) (ls : List Text) (tables : List Category) : Prop where
  mem_iff : ∀ category, category ∈ tables ↔
    (∃ l ∈ ls, uses category l = true) ∧ ∀ l ∈ ls, Line.declares (.keyed category) l = false
  ordered : tables.Pairwise fun a b => ls.findIdx (uses a) < ls.findIdx (uses b)

theorem isUndeclared_iff {uses : Uses} {ls : List Text} {category : Category} :
    isUndeclared uses ls category = true ↔
      (∃ l ∈ ls, uses category l = true) ∧
        ∀ l ∈ ls, Line.declares (.keyed category) l = false := by
  simp [isUndeclared]

section

variable {uses : Uses} {ls : List Text}

theorem mem_usedFirst_iff {awaited : List Category} {category : Category} :
    category ∈ usedFirst uses awaited ls ↔
      category ∈ awaited ∧ ∃ l ∈ ls, uses category l = true := by
  refine ⟨fun member => ?_, fun ⟨listed, used⟩ => mem_usedFirst listed used⟩
  induction ls generalizing awaited with
  | nil => cases member
  | cons line below ih =>
      rw [usedFirst, List.mem_append, List.mem_filter] at member
      rcases member with ⟨listed, here⟩ | later
      · exact ⟨listed, line, List.mem_cons_self .., here⟩
      · obtain ⟨listed, l, there, used⟩ := ih later
        exact ⟨(List.mem_filter.1 listed).1, l, List.mem_cons_of_mem _ there, used⟩

/-- Of two tables listed one behind the other the first one is used first. -/
theorem pairwise_usedFirst (orderly : uses.Orderly) {awaited : List Category}
    (nodup : awaited.Nodup) (ls : List Text) :
    (usedFirst uses awaited ls).Pairwise fun a b => ls.findIdx (uses a) < ls.findIdx (uses b) := by
  induction ls generalizing awaited with
  | nil => exact .nil
  | cons line below ih =>
      rw [usedFirst, List.pairwise_append]
      have unused {category : Category}
          (member : category ∈ usedFirst uses
            (awaited.filter fun category => !uses category line) below) :
          uses category line = false := by
        simpa using (List.mem_filter.1 (mem_usedFirst_iff.1 member).1).2
      refine ⟨?_, ?_, fun a here b later => ?_⟩
      · refine (nodup.filter _).imp_of_mem fun {a b} first second apart => ?_
        exact absurd (orderly.unique (List.mem_filter.1 first).2 (List.mem_filter.1 second).2) apart
      · refine (ih (nodup.filter _)).imp_of_mem fun {a b} first second before => ?_
        simpa [List.findIdx_cons, unused first, unused second] using before
      · have used : uses a line = true := (List.mem_filter.1 here).2
        simp [List.findIdx_cons, used, unused later]

theorem nodup_all : Category.all.Nodup := by decide

/-- The tables that a pass declares are those that lack a declaration. -/
theorem lacks_usedFirst (orderly : uses.Orderly) (ls : List Text) :
    Lacks uses ls (usedFirst uses (Category.all.filter (isUndeclared uses ls)) ls) where
  mem_iff category := by
    rw [mem_usedFirst_iff, List.mem_filter, isUndeclared_iff]
    constructor
    · rintro ⟨⟨-, lacking⟩, -⟩
      exact lacking
    · intro lacking
      exact ⟨⟨category.mem_all, lacking⟩, lacking.1⟩
  ordered := pairwise_usedFirst orderly (nodup_all.filter _) ls

/-- On each line at most one table is declared, so the order in which tables are awaited does not
count. -/
theorem guards_of_perm (orderly : uses.Orderly) {first second : List Category}
    (perm : first.Perm second) : Insertion.guards uses first = Insertion.guards uses second := by
  funext above line
  have alone (tables : List Category) :
      (tables.filter fun category => uses category line && !above.any (uses category)).Pairwise
        (· = ·) := by
    refine List.pairwise_of_forall_mem_list fun a here b there => ?_
    rw [List.mem_filter, Bool.and_eq_true] at here there
    exact orderly.unique here.2.1 there.2.1
  have same := (perm.filter fun category =>
    uses category line && !above.any (uses category)).eq_of_pairwise
      (fun _ _ _ _ equal _ => equal) (alone first) (alone second)
  rw [Insertion.guards, same, Insertion.guards]

theorem Lacks.nodup {tables : List Category} (lacks : Lacks uses ls tables) : tables.Nodup := by
  refine lacks.ordered.imp fun {a b} before same => ?_
  rw [same] at before
  exact Nat.lt_irrefl _ before

theorem Lacks.perm {tables : List Category} (lacks : Lacks uses ls tables) :
    (Category.all.filter (isUndeclared uses ls)).Perm tables := by
  rw [List.perm_ext_iff_of_nodup (nodup_all.filter _) lacks.nodup]
  intro category
  rw [List.mem_filter, isUndeclared_iff, lacks.mem_iff]
  exact and_iff_right category.mem_all

/-- Lines and a way to use tables determine which tables lack a declaration, and their order. -/
theorem Lacks.eq {first second : List Category} (left : Lacks uses ls first)
    (right : Lacks uses ls second) : first = second :=
  (left.perm.symm.trans right.perm).eq_of_pairwise
    (fun _ _ _ _ before after => absurd after (Nat.lt_asymm before)) left.ordered right.ordered

/-- **What declaring tables inserts.** -/
theorem lines_declarations_eq_into (orderly : uses.Orderly) {document : Text}
    {tables : List Category} (lacks : Lacks uses document.lines tables) :
    (declarations uses document).document.lines =
      (Insertion.guards uses tables).into [] document.lines := by
  rw [lines_declarations, declaredLines_eq_into_nil, guards_of_perm orderly lacks.perm]

/-- **What declaring tables reports.** -/
theorem issues_declarations_eq (orderly : uses.Orderly) {document : Text}
    {tables : List Category} (lacks : Lacks uses document.lines tables) :
    (declarations uses document).issues = tables.map .undeclared := by
  rw [lacks.eq (lacks_usedFirst orderly document.lines), declarations]

end

/-! ## Checks -/

/-- Declarations crowd no banner. -/
theorem spacedLines_guards_append (uses : Uses) (awaited : List Category) (above : List Text)
    (line : Text) (ls : List Text) :
    spacedLines (Insertion.guards uses awaited above line ++ ls) =
      Insertion.guards uses awaited above line ++ spacedLines ls :=
  spacedLines_append unaliased_of_mem_declarations ls

/-- Spaces go between the declared lines as they go between the lines themselves. -/
theorem spacedLines_guards {uses : Uses} (orderly : uses.Orderly) (awaited : List Category)
    (line : Text) (above below : List Text) :
    spacedLines (line :: (Insertion.guards uses awaited).into (above ++ [line]) below) =
      line :: (Insertion.spaces.followedBy (Insertion.guards uses awaited)).into
        (above ++ [line]) below := by
  induction below generalizing line above with
  | nil => rfl
  | cons next below ih =>
      have space : Insertion.spaces (above ++ [line]) next = gap line (next :: below) := by
        rw [Insertion.spaces, gap, List.getLast?_concat, List.head?_cons]
        rfl
      have kept := gap_declaredLines orderly line
        (awaited.filter fun category => !(above ++ [line]).any (uses category)) (next :: below)
      rw [declaredLines_eq_into] at kept
      rw [spacedLines_cons, kept, Insertion.into, Insertion.into, Insertion.followedBy, space,
        spacedLines_guards_append, ih, List.append_assoc (gap line (next :: below))]

theorem spacedLines_declaredLines_eq_into {uses : Uses} (orderly : uses.Orderly)
    (awaited : List Category) (ls : List Text) :
    spacedLines (declaredLines uses awaited ls) =
      (Insertion.spaces.followedBy (Insertion.guards uses awaited)).into [] ls := by
  rw [declaredLines_eq_into_nil]
  cases ls with
  | nil => rfl
  | cons line below =>
      have rest := spacedLines_guards orderly awaited line [] below
      rw [List.nil_append] at rest
      rw [Insertion.into, Insertion.into, spacedLines_guards_append, List.nil_append, rest]
      rfl

/-- How many lines crowd the line below them. -/
theorem crowdedBanners_eq_countP (ls : List Text) :
    crowdedBanners ls = (ls.zip ls.tail).countP fun pair => isCrowded pair.1 pair.2 := by
  fun_induction crowdedBanners ls with
  | case1 => rfl
  | case2 => rfl
  | case3 line next below ih =>
      rw [List.tail_cons, List.zip_cons_cons, List.countP_cons, ih, Nat.add_comm]
      rfl

section

variable {document : Text} {tables : List Category}
  (lacks : Lacks (fun category => Line.isAssignment (.keyed category)) document.lines tables)

include lacks

/-- **What a check inserts.** -/
theorem lines_check_eq_into : (check document).document.lines =
    (Insertion.spaces.followedBy
      (Insertion.guards (fun category => Line.isAssignment (.keyed category)) tables)).into []
      document.lines := by
  rw [lines_check, spacedLines_declaredLines_eq_into orderly_isAssignment,
    guards_of_perm orderly_isAssignment lacks.perm]

/-- **What a check reports**: first the tables that lack a declaration, then a crowded banner
for each that there is. -/
theorem issues_check : (check document).issues = tables.map .undeclared ++
    List.replicate (crowdedBanners document.lines) .crowdedBanner := by
  rw [check, andThen, (independent_of_orderly orderly_isAssignment document).secondIssues,
    issues_declarations_eq orderly_isAssignment lacks]
  rfl

theorem count_crowdedBanner_check :
    (check document).issues.count .crowdedBanner = crowdedBanners document.lines := by
  have declared : (tables.map Issue.undeclared).count .crowdedBanner = 0 := by
    simp [List.count_eq_zero]
  rw [issues_check lacks, List.count_append, declared, List.count_replicate_self, Nat.zero_add]

theorem length_lines_check : (check document).document.lines.length =
    document.lines.length + 2 * tables.length + crowdedBanners document.lines := by
  rw [lines_check, length_spacedLines, length_declaredLines,
    crowdedBanners_declaredLines orderly_isAssignment,
    lacks.eq (lacks_usedFirst orderly_isAssignment document.lines)]

/-- A check changes a document exactly if it finds issues. -/
theorem hadIssues_check_iff :
    (check document).hadIssues = true ↔ (check document).document ≠ document := by
  constructor
  · intro had same
    have grows := length_lines_check lacks
    rw [same] at grows
    have noTable : tables = [] := List.length_eq_zero_iff.1 (by omega)
    have noSpace : crowdedBanners document.lines = 0 := by omega
    rw [hadIssues, issues_check lacks, noTable, noSpace] at had
    cases had
  · intro changed
    rw [← Bool.not_eq_false, hadIssues_check]
    intro clean
    rw [check_of_clean clean] at changed
    exact changed rfl

end

/-- What a check finds in a document and does about it: some tables lack a declaration, and some
banners are crowded by an alias. -/
structure Mends (document : Text) (tables : List Category) (repair : Repair) : Prop where
  lacks : Lacks (fun category => Line.isAssignment (.keyed category)) document.lines tables
  lines : repair.document.lines = (Insertion.spaces.followedBy
    (Insertion.guards (fun category => Line.isAssignment (.keyed category)) tables)).into []
      document.lines
  issues : repair.issues = tables.map .undeclared ++
    List.replicate ((document.lines.zip document.lines.tail).countP fun pair =>
      isCrowded pair.1 pair.2) .crowdedBanner
  remedies : repair.remedies.length = repair.issues.length
  grows : repair.document.lines.length =
    document.lines.length + 2 * tables.length + repair.issues.count .crowdedBanner
  changes : repair.hadIssues = true ↔ repair.document ≠ document

/-- **A check only inserts lines, in the right places, and reports each of them.** -/
theorem check_inserts (document : Text) : ∃ tables, Mends document tables (check document) := by
  have lacks := lacks_usedFirst orderly_isAssignment document.lines
  exact ⟨_,
    { lacks := lacks
      lines := lines_check_eq_into lacks
      issues := by rw [issues_check lacks, crowdedBanners_eq_countP]
      remedies := List.length_map _
      grows := by rw [length_lines_check lacks, count_crowdedBanner_check lacks]
      changes := hadIssues_check_iff lacks }⟩

end Repair

end ConfigUpkeep
