/-
# ConfigUpkeep.Proofs.Edits -- which edits turn a template into its filling

The walk of `Layout` is a machine.  This module says what the machine does without one:
`Edited values ls out` relates the lines of a template to the lines of its filling by the
four edits that are allowed, each stated by what stands in the template and not by how it
is searched.

* A line is shown as the document's own setting of the scalar that it sets (`Shown`).
* Behind the guard of the alias table the aliases are put in, and the lines up to the next
  delimiter are left out.
* Behind a section header that is not the last line, the introduction is kept, the entries
  are put in, and the examples are left out, with the blank line that separates labelled
  examples from a rule (`Parted`, `Gap`).
* Every other line is shown and nothing else happens.

What is put in is spelled out by `aliasBlock_eq` and `entryBlock_eq`.

The relation determines the result (`edited_iff`): it holds of what the walk writes
(`edited_run`, by induction on the number of lines) and of nothing else
(`eq_run_of_edited`, by induction on the edits).
-/
import Mathlib.Data.List.TakeWhile
import ConfigUpkeep.Proofs.Walk

namespace ConfigUpkeep

set_option autoImplicit false

namespace Line

/-- No section header starts another one. -/
theorem eq_of_sectionHeader_isPrefix {a b : Category}
    (starts : sectionHeader a <+: sectionHeader b) : a = b := by
  rw [← List.isPrefixOf_iff_prefix] at starts
  cases a <;> cases b <;> first | rfl | exact absurd starts (by decide)

/-- A line opens the section of a category exactly if it starts with its header. -/
theorem sectionOpened_eq_some {category : Category} {line : Text} :
    sectionOpened line = some category ↔ sectionHeader category <+: line := by
  have begins_of_opened : ∀ {other}, sectionOpened line = some other →
      sectionHeader other <+: line := by
    intro other opens
    have starts_ := List.find?_some opens
    exact (starts_iff _ _).1 starts_
  constructor
  · exact begins_of_opened
  · intro begins
    cases opens : sectionOpened line with
    | none =>
        have silent := List.find?_eq_none.1 opens category (Category.mem_all category)
        exact absurd ((starts_iff _ _).2 begins) silent
    | some other =>
        rcases List.prefix_or_prefix_of_prefix begins (begins_of_opened opens) with inside | inside
        · rw [eq_of_sectionHeader_isPrefix inside]
        · rw [eq_of_sectionHeader_isPrefix inside]

/-- A text does not start the line exactly if the test for it fails. -/
theorem starts_eq_false_iff {opening line : Text} :
    starts opening line = false ↔ ¬ opening <+: line := by
  rw [← starts_iff, Bool.not_eq_true]

theorem isDelimiter_eq_true {line : Text} : isDelimiter line = true ↔ delimiter <:+: line :=
  Text.mentions_iff _ _

theorem isDelimiter_eq_false {line : Text} : isDelimiter line = false ↔ ¬ delimiter <:+: line := by
  rw [← isDelimiter_eq_true, Bool.not_eq_true]

theorem guardsAliases_eq_true {line : Text} :
    guardsAliases line = true ↔ Table.aliases.unsetTest <:+: line :=
  Text.mentions_iff _ _

theorem guardsAliases_eq_false {line : Text} :
    guardsAliases line = false ↔ ¬ Table.aliases.unsetTest <:+: line := by
  rw [← guardsAliases_eq_true, Bool.not_eq_true]

end Line

namespace Layout

/-! ## The edits -/

/-- `Shown settings line shown`: the line is copied as `shown`, which is the first of the
settings whose scalar the line sets, or else the line itself. -/
inductive Shown (settings : List Setting) (line : Text) : Text → Prop where
  | own : (∀ setting ∈ settings, ¬ setting.scalar.opening <+: line) → Shown settings line line
  | given {earlier later : List Setting} {setting : Setting} :
      settings = earlier ++ setting :: later → setting.scalar.opening <+: line →
      (∀ other ∈ earlier, ¬ other.scalar.opening <+: line) →
      Shown settings line (setting.scalar.opening ++ setting.value)

/-- `Gap category gap rest`: of the lines `gap ++ rest` behind the examples the gap is left
out, which is one blank line directly before a rule, and in the sections with labelled
examples only. -/
inductive Gap (category : Category) : List Text → List Text → Prop where
  | dropped {blank rule : Text} {later : List Text} : category ≠ .ide → blank.isBlank = true →
      Line.isRule rule = true → Gap category [blank] (rule :: later)
  | kept {rest : List Text} : (∀ blank rule later, rest = blank :: rule :: later →
      category ≠ .ide → blank.isBlank = true → Line.isRule rule = false) → Gap category [] rest

/-- The lines behind a section header: an introduction up to the first example or the end, the
maximal run of examples, the gap behind them, and the rest. -/
structure Parted (category : Category) (behind introduction examples gap rest : List Text) :
    Prop where
  whole : behind = introduction ++ (examples ++ (gap ++ rest))
  prose : ∀ l ∈ introduction, isExample category l = false
  shown : ∀ l ∈ examples, isExample category l = true
  /-- The introduction ends at an example, or nothing follows it. -/
  reached : examples = [] → gap ++ rest = []
  /-- The first line behind the examples is none. -/
  maximal : ∀ l ∈ (gap ++ rest).head?, isExample category l = false
  gap : Gap category gap rest

/-- `Edited values ls out`: the lines `out` are the template's lines `ls` after the edits. -/
inductive Edited (values : Values) : List Text → List Text → Prop where
  | done : Edited values [] []
  | plain {line shown : Text} {rest out : List Text} : Shown values.settings line shown →
      ¬ Table.aliases.unsetTest <:+: shown →
      (∀ category, Line.sectionHeader category <+: shown → rest = []) →
      Edited values rest out → Edited values (line :: rest) (shown :: out)
  | guard {line shown : Text} {skipped rest out : List Text} : Shown values.settings line shown →
      Table.aliases.unsetTest <:+: shown →
      (∀ l ∈ skipped, ¬ Line.delimiter <:+: l) → (∀ l ∈ rest.head?, Line.delimiter <:+: l) →
      Edited values rest out →
      Edited values (line :: (skipped ++ rest)) (shown :: (aliasBlock values.aliases ++ out))
  | header {line shown : Text} {category : Category}
      {behind introduction examples gap rest out : List Text} :
      Shown values.settings line shown → ¬ Table.aliases.unsetTest <:+: shown →
      Line.sectionHeader category <+: shown → behind ≠ [] →
      Parted category behind introduction examples gap rest → Edited values rest out →
      Edited values (line :: behind)
        (shown :: (introduction ++ entryBlock category (values.entries category) ++ out))

/-! ### What is put in

The edits name the blocks that are put in; these are their characters. -/

/-- Behind the guard stand an empty line and one line for each alias, or nothing if there is no
alias. -/
theorem aliasBlock_eq (aliases : List Alias) :
    aliasBlock aliases = if aliases = [] then [] else
      [] :: aliases.map fun alias_ =>
        ("REPO_MAPPINGS[" ++ alias_.shorthand ++ "]=\"" ++ alias_.canonical ++ "\"" : Text) := by
  rw [aliasBlock]
  cases aliases with
  | nil => rfl
  | cons first others => rfl

/-- In place of the examples stands one line for each entry between two empty lines, or nothing if
there is no entry. -/
theorem entryBlock_eq (category : Category) (entries : List Entry) :
    entryBlock category entries = if entries = [] then [] else
      [] :: (entries.map fun entry =>
        ((Table.keyed category).name ++ "[" ++ entry.key ++ "]=\"" ++ entry.value ++ "\"" : Text)) ++
          [[]] := by
  rw [entryBlock]
  cases entries with
  | nil => rfl
  | cons first others => rfl

/-! ## Each edit is what the walk does there -/

/-- A line is copied as what the walk puts in its place. -/
theorem shown_iff {settings : List Setting} {line shown : Text} :
    Shown settings line shown ↔ shown = substitute settings line := by
  rw [substitute]
  constructor
  · rintro (silent | ⟨rfl, sets, first⟩)
    · have nothing : settings.find?
          (fun setting => Line.starts setting.scalar.opening line) = none := by
        simpa [Line.starts_eq_false_iff] using silent
      rw [nothing]
    · rename_i earlier later setting
      have found : (earlier ++ setting :: later).find?
          (fun setting => Line.starts setting.scalar.opening line) = some setting := by
        rw [List.find?_eq_some_iff_append]
        exact ⟨(Line.starts_iff _ _).2 sets, earlier, later, rfl,
          by simpa [Line.starts_eq_false_iff] using first⟩
      rw [found]
      rfl
  · rintro rfl
    cases found : settings.find? fun setting => Line.starts setting.scalar.opening line with
    | none => exact .own (by simpa [Line.starts_eq_false_iff] using found)
    | some setting =>
        obtain ⟨sets, earlier, later, listed, first⟩ := List.find?_eq_some_iff_append.1 found
        exact .given listed ((Line.starts_iff _ _).1 sets)
          (by simpa [Line.starts_eq_false_iff] using first)

/-- Behind the examples the walk leaves out the gap. -/
theorem dropGap_of_gap {category : Category} {gap rest : List Text}
    (split : Gap category gap rest) : dropGap category (gap ++ rest) = rest := by
  cases split with
  | dropped labelled blank rule => simp [dropGap, labelled, blank, rule]
  | kept none_ =>
      rcases rest with _ | ⟨blank, _ | ⟨rule, later⟩⟩
      · rfl
      · rfl
      · rw [List.nil_append, dropGap, if_neg]
        rintro ⟨labelled, isBlank, isRule⟩
        rw [none_ blank rule later rfl labelled isBlank] at isRule
        cases isRule

/-- Whatever stands behind the examples, there is a gap or there is none. -/
theorem exists_gap (category : Category) (left : List Text) :
    ∃ gap rest, left = gap ++ rest ∧ Gap category gap rest := by
  by_cases splits : ∃ blank rule later, left = blank :: rule :: later ∧ category ≠ .ide ∧
      blank.isBlank = true ∧ Line.isRule rule = true
  · obtain ⟨blank, rule, later, rfl, labelled, isBlank, isRule⟩ := splits
    exact ⟨[blank], rule :: later, rfl, .dropped labelled isBlank isRule⟩
  · refine ⟨[], left, rfl, .kept fun blank rule later same labelled isBlank => ?_⟩
    rw [← Bool.not_eq_true]
    exact fun isRule => splits ⟨blank, rule, later, same, labelled, isBlank, isRule⟩

namespace Parted

variable {category : Category} {behind introduction examples gap rest : List Text}

/-- The introduction is what the walk copies, and the rest is where it goes on. -/
theorem walked (parted : Parted category behind introduction examples gap rest) :
    (behind.takeWhile fun l => !isExample category l) = introduction ∧
      Walk.behindExamples category behind = rest := by
  obtain ⟨rfl, prose, shown, reached, maximal, split⟩ := parted
  obtain ⟨copied, left⟩ := Walk.takeWhile_and_behindExamples prose shown reached maximal
  exact ⟨copied, left.trans (dropGap_of_gap split)⟩

end Parted

/-- Whatever stands behind the guard, its lines up to the next delimiter can be skipped. -/
theorem exists_skipped (behind : List Text) :
    ∃ skipped rest, behind = skipped ++ rest ∧ (∀ l ∈ skipped, ¬ Line.delimiter <:+: l) ∧
      ∀ l ∈ rest.head?, Line.delimiter <:+: l := by
  refine ⟨behind.takeWhile fun l => !Line.isDelimiter l,
    behind.dropWhile fun l => !Line.isDelimiter l, List.takeWhile_append_dropWhile.symm,
    fun l member => ?_, fun l first => ?_⟩
  · have passed := List.mem_takeWhile_imp member
    rwa [Bool.not_eq_true', Line.isDelimiter_eq_false] at passed
  · have stops := List.eq_false_of_mem_head?_dropWhile first
    rwa [Bool.not_eq_false', Line.isDelimiter_eq_true] at stops

/-- Whatever stands behind a section header can be parted. -/
theorem exists_parted (category : Category) (behind : List Text) :
    ∃ introduction examples gap rest, Parted category behind introduction examples gap rest := by
  obtain ⟨gap, rest, left, split⟩ := exists_gap category
    ((behind.dropWhile fun l => !isExample category l).dropWhile (isExample category))
  refine ⟨behind.takeWhile fun l => !isExample category l,
    (behind.dropWhile fun l => !isExample category l).takeWhile (isExample category), gap, rest, ?_⟩
  refine ⟨?_, fun l member => ?_, fun l member => ?_, fun none_ => ?_, fun l member => ?_, split⟩
  · rw [← left, List.takeWhile_append_dropWhile, List.takeWhile_append_dropWhile]
  · simpa using List.mem_takeWhile_imp member
  · exact List.mem_takeWhile_imp member
  · rw [← left]
    cases here : behind.dropWhile fun l => !isExample category l with
    | nil => rfl
    | cons example_ others =>
        have first : example_ ∈ (behind.dropWhile fun l => !isExample category l).head? := by
          rw [here]
          rfl
        have stops := List.eq_false_of_mem_head?_dropWhile first
        rw [here, List.takeWhile_cons_of_pos (by simpa using stops)] at none_
        cases none_
  · rw [← left] at member
    exact List.eq_false_of_mem_head?_dropWhile member

/-! ## The walk makes the edits -/

variable {values : Values}

/-- Only what the walk writes comes out of the edits. -/
theorem eq_run_of_edited {ls out : List Text} (edited : Edited values ls out) :
    out = Walk.run values ⟨.copying, ls⟩ := by
  induction edited with
  | done => exact (Walk.run_nil values .copying).symm
  | @plain line shown rest out copied unguarded last edited ih =>
      obtain rfl := shown_iff.1 copied
      rw [← Line.guardsAliases_eq_false] at unguarded
      cases opens : Line.sectionOpened (substitute values.settings line) with
      | none =>
          have plain : ∀ l ∈ [line], Plain (substitute values.settings l) :=
            List.forall_mem_singleton.2 ⟨unguarded, opens⟩
          rw [ih]
          exact (Walk.run_copying_append values plain rest).symm
      | some category =>
          -- the header of a section stands on the last line: there is nothing behind it
          obtain rfl := last category (Line.sectionOpened_eq_some.1 opens)
          rw [Walk.run_step values (List.cons_ne_nil line []), ih]
          simp [Walk.step, unguarded, Walk.run_nil]
  | @guard line shown skipped rest out copied guards skips stops edited ih =>
      obtain rfl := shown_iff.1 copied
      have passed : ∀ l ∈ skipped, (!Line.isDelimiter l) = true := by
        simpa [Line.isDelimiter_eq_false] using skips
      have stopped : ∀ l ∈ rest.head?, (!Line.isDelimiter l) = false := by
        simpa [Line.isDelimiter_eq_true] using stops
      rw [Walk.run_guard values (Line.guardsAliases_eq_true.2 guards),
        List.dropWhile_append_of_head? passed stopped, ← ih, List.cons_append]
  | @header line shown category behind introduction examples gap rest out copied unguarded opens
      some_ parted edited ih =>
      obtain rfl := shown_iff.1 copied
      obtain ⟨introduced, left⟩ := parted.walked
      rw [Walk.run_header values (Line.guardsAliases_eq_false.2 unguarded)
        (Line.sectionOpened_eq_some.2 opens) some_, introduced, left, ← ih]

/-- What the walk writes comes out of the edits. -/
theorem edited_run (values : Values) (ls : List Text) :
    Edited values ls (Walk.run values ⟨.copying, ls⟩) := by
  suffices made : ∃ out, Edited values ls out by
    obtain ⟨out, edited⟩ := made
    rwa [← eq_run_of_edited edited]
  -- every edit consumes a line at least
  induction shorter : ls.length using Nat.strong_induction_on generalizing ls with
  | _ length ih =>
      cases ls with
      | nil => exact ⟨[], .done⟩
      | cons line behind =>
          subst shorter
          have copied : Shown values.settings line (substitute values.settings line) :=
            shown_iff.2 rfl
          by_cases guards : Table.aliases.unsetTest <:+: substitute values.settings line
          · obtain ⟨skipped, rest, rfl, skips, stops⟩ := exists_skipped behind
            have fewer : rest.length < (line :: (skipped ++ rest)).length := by
              simp only [List.length_cons, List.length_append]
              omega
            obtain ⟨out, edited⟩ := ih _ fewer rest rfl
            exact ⟨_, .guard copied guards skips stops edited⟩
          · by_cases opens : ∃ category,
                Line.sectionHeader category <+: substitute values.settings line ∧ behind ≠ []
            · obtain ⟨category, begins, some_⟩ := opens
              obtain ⟨introduction, examples, gap, rest, parted⟩ := exists_parted category behind
              have fewer : rest.length < (line :: behind).length := by
                rw [parted.whole]
                simp only [List.length_cons, List.length_append]
                omega
              obtain ⟨out, edited⟩ := ih _ fewer rest rfl
              exact ⟨_, .header copied guards begins some_ parted edited⟩
            · obtain ⟨out, edited⟩ := ih _ (Nat.lt_succ_self behind.length) behind rfl
              have last : ∀ category,
                  Line.sectionHeader category <+: substitute values.settings line → behind = [] := by
                intro category begins
                exact Decidable.byContradiction fun some_ => opens ⟨category, begins, some_⟩
              exact ⟨_, .plain copied guards last edited⟩

/-- The edits of the lines of a template come out as what the walk writes, and as nothing else. -/
theorem edited_iff {ls out : List Text} :
    Edited values ls out ↔ out = Walk.run values ⟨.copying, ls⟩ := by
  constructor
  · exact eq_run_of_edited
  · rintro rfl
    exact edited_run values ls

/-- **A filled template is the template after the edits**: whatever the values and the
template, exactly one list of lines comes out of the edits, and its text is the filling. -/
theorem fill_eq_unlines_edited (values : Values) (template : Text) :
    ∃ out, fill values template = Text.unlines out ∧
      ∀ other, Edited values template.lines other ↔ other = out :=
  ⟨Walk.run values (Walk.start template), rfl, fun _ => edited_iff⟩

end Layout

end ConfigUpkeep
