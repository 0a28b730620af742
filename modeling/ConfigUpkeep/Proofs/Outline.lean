/-
# ConfigUpkeep.Proofs.Outline -- templates with a guard and three sections

A template is well laid out if it has the guard of the aliases and then the header of each
section, each once, with a rule between any two of them and one behind the last section.
Such a template is taken apart into an `Outline`, and what the walk writes is computed part
by part.

* Up to the sections nothing depends on what the template shows (`Outline.run_lines`): the
  aliases stand behind the guard, and lines up to the next delimiter are dropped.
* A section with an example in it ends where the next one starts
  (`Outline.run_section_append`).  One without takes the next header for its own text.
* If every section but the last shows an example, the template is filled in everywhere
  (`Outline.run_eq_filled`).

Lines behind a header are copied as they are up to the first example.  So of the lines that
set a scalar only some are seen by the walk; `Outline.settingsOn_filled` and
`Outline.settingsOn_lines` count them side by side.
-/
import Mathlib.Data.List.TakeWhile
import ConfigUpkeep.Proofs.Normalization

namespace ConfigUpkeep

set_option autoImplicit false

/-! ## Comments -/

namespace Line

/-- A comment sets no scalar. -/
theorem silent_comment (scalar : Scalar) (rest : Text) :
    starts scalar.opening ('#' :: rest) = false := by
  obtain ⟨c, first, opening, begins⟩ := scalar.opening_eq_cons
  have apart : c ≠ '#' := by
    rintro rfl
    revert first
    decide
  rw [begins]
  exact starts_eq_false apart opening rest

/-- A blank line sets no scalar. -/
theorem silent_of_isBlank {line : Text} (blank : line.isBlank = true) (scalar : Scalar) :
    starts scalar.opening line = false := by
  cases line with
  | nil => exact mute_nil.silent scalar
  | cons d line =>
      obtain ⟨c, first, opening, begins⟩ := scalar.opening_eq_cons
      rw [Text.isBlank, List.all_cons, Bool.and_eq_true] at blank
      have apart : c ≠ d := by
        rintro rfl
        simp only [List.mem_cons, List.not_mem_nil, or_false] at first
        rcases first with rfl | rfl | rfl <;> exact absurd blank.1 (by decide)
      rw [begins]
      exact starts_eq_false apart opening line

theorem exists_of_sectionOpened {line : Text} {category : Category}
    (opens : sectionOpened line = some category) : ∃ rest, line = sectionHeader category ++ rest := by
  have found := List.find?_some opens
  obtain ⟨rest, written⟩ := (starts_iff _ _).1 found
  exact ⟨rest, written.symm⟩

/-- A header sets no scalar. -/
theorem silent_of_sectionOpened {line : Text} {category : Category}
    (opens : sectionOpened line = some category) (scalar : Scalar) :
    starts scalar.opening line = false := by
  obtain ⟨rest, rfl⟩ := exists_of_sectionOpened opens
  cases category <;> exact silent_comment scalar _

/-- A header is no rule. -/
theorem isRule_of_sectionOpened {line : Text} {category : Category}
    (opens : sectionOpened line = some category) : isRule line = false := by
  obtain ⟨rest, rfl⟩ := exists_of_sectionOpened opens
  cases category <;> rfl

theorem isBlank_of_sectionOpened {line : Text} {category : Category}
    (opens : sectionOpened line = some category) : line.isBlank = false := by
  obtain ⟨rest, rfl⟩ := exists_of_sectionOpened opens
  cases category <;> rfl

end Line

namespace Layout

/-- An example is a comment. -/
theorem exists_of_isExample {category : Category} {line : Text}
    (example_ : isExample category line = true) : ∃ rest, line = '#' :: rest := by
  have comment {opening : Text} (begins : opening.head? = some '#')
      (starts : Line.starts opening line = true) : ∃ rest, line = '#' :: rest := by
    obtain ⟨rest, rfl⟩ := (Line.starts_iff _ _).1 starts
    cases opening with
    | nil => cases begins
    | cons c opening =>
        obtain rfl := Option.some.inj begins
        exact ⟨opening ++ rest, rfl⟩
  rw [isExample, Bool.or_eq_true] at example_
  rcases example_ with labelled | assigned
  · have labels : ∀ label ∈ Line.exampleLabels category, label.head? = some '#' := by
      cases category <;> decide
    obtain ⟨label, listed, starts⟩ := List.any_eq_true.1 labelled
    exact comment (labels label listed) starts
  · exact comment rfl assigned

/-- A header is no example, of whatever section. -/
theorem isExample_of_sectionOpened {line : Text} {opened category : Category}
    (opens : Line.sectionOpened line = some opened) : isExample category line = false := by
  obtain ⟨rest, rfl⟩ := Line.exists_of_sectionOpened opens
  cases opened <;> cases category <;> rfl

/-! ## Lines that set a scalar -/

/-- The values that the lines give a scalar, in line order. -/
def settingsOn (scalar : Scalar) (ls : List Text) : List Text :=
  ls.filterMap fun l => scalar.opening.isPrefixOf? l

section

variable {scalar : Scalar}

@[simp] theorem settingsOn_append (ls ms : List Text) :
    settingsOn scalar (ls ++ ms) = settingsOn scalar ls ++ settingsOn scalar ms :=
  List.filterMap_append

theorem settingsOn_cons (l : Text) (ls : List Text) :
    settingsOn scalar (l :: ls) = settingsOn scalar [l] ++ settingsOn scalar ls :=
  settingsOn_append [l] ls

/-- Lines set no scalar exactly if none of them starts like a setting. -/
theorem settingsOn_eq_nil {ls : List Text} :
    settingsOn scalar ls = [] ↔ ∀ l ∈ ls, Line.starts scalar.opening l = false := by
  rw [settingsOn, List.filterMap_eq_nil_iff]
  refine forall₂_congr fun l _ => ?_
  constructor
  · intro none_
    rw [Bool.eq_false_iff]
    intro starts
    obtain ⟨value, rfl⟩ := (Line.starts_iff _ _).1 starts
    rw [Text.isPrefixOf?_eq_some.2 rfl] at none_
    cases none_
  · exact Scalar.isPrefixOf?_eq_none

/-- A value is given exactly by the line that sets it. -/
theorem mem_settingsOn {ls : List Text} {value : Text} :
    value ∈ settingsOn scalar ls ↔ scalar.assignment value ∈ ls := by
  rw [settingsOn, List.mem_filterMap]
  constructor
  · rintro ⟨l, member, given⟩
    rwa [Scalar.assignment, ← Text.isPrefixOf?_eq_some.1 given]
  · intro member
    exact ⟨_, member, Text.isPrefixOf?_eq_some.2 rfl⟩

/-- Substitution puts the document's value in place of each value that the lines give. -/
theorem settingsOn_substitute (settings : List Setting) (ls : List Text) :
    settingsOn scalar (ls.map (substitute settings)) =
      (settingsOn scalar ls).map fun own => (Setting.valueIn? settings scalar).getD own := by
  rw [settingsOn, settingsOn, List.filterMap_map, List.map_filterMap]
  congr 1
  funext l
  exact isPrefixOf?_substitute settings scalar l

theorem settingsOn_entries (table : Table) (entries : List Entry) :
    settingsOn scalar (entries.map (Entry.assignment table)) = [] := by
  rw [settingsOn_eq_nil]
  intro l member
  obtain ⟨entry, -, rfl⟩ := List.mem_map.1 member
  have silent := Entry.silent_assignment entry table scalar []
  rwa [List.append_nil] at silent

theorem settingsOn_aliasBlock (aliases : List Alias) :
    settingsOn scalar (aliasBlock aliases) = [] := by
  have listed : settingsOn scalar ((aliases.map Alias.toEntry).map (Entry.assignment .aliases)) =
      [] := settingsOn_entries .aliases _
  rw [List.map_map] at listed
  rw [aliasBlock]
  split
  · rfl
  · rw [settingsOn_cons, settingsOn_eq_nil.2 (by simpa using Line.mute_nil.silent scalar)]
    exact listed

theorem settingsOn_entryBlock (category : Category) (entries : List Entry) :
    settingsOn scalar (entryBlock category entries) = [] := by
  have gap : settingsOn scalar [[]] = [] :=
    settingsOn_eq_nil.2 (by simpa using Line.mute_nil.silent scalar)
  rw [entryBlock]
  split
  · rfl
  · rw [settingsOn_append, settingsOn_cons, gap, settingsOn_entries]
    rfl

end

/-! ## Sections -/

/-- The lines start with the header of a section, if there are any. -/
def StartSection (ls : List Text) : Prop :=
  ∀ l ∈ ls.head?, ∃ opened, Line.sectionOpened l = some opened

section

variable {category : Category} {ls later : List Text}

/-- Lines with an example among them are searched no further for the first one. -/
theorem takeWhile_append_of_shows (shows_ : ∃ l ∈ ls, isExample category l = true) :
    ((ls ++ later).takeWhile fun l => !isExample category l) =
        (ls.takeWhile fun l => !isExample category l) ∧
      ((ls ++ later).dropWhile fun l => !isExample category l) =
        (ls.dropWhile fun l => !isExample category l) ++ later := by
  induction ls with
  | nil =>
      obtain ⟨l, member, -⟩ := shows_
      cases member
  | cons l ls ih =>
      cases first : isExample category l with
      | true => simp [first]
      | false =>
          have rest : ∃ m ∈ ls, isExample category m = true := by
            obtain ⟨m, member, example_⟩ := shows_
            rcases List.mem_cons.1 member with rfl | later
            · rw [first] at example_
              cases example_
            · exact ⟨m, later, example_⟩
          simp [first, ih rest]

/-- What goes with the examples of a section is looked for up to the next header only. -/
theorem dropGap_append (header : StartSection later) :
    dropGap category (ls ++ later) = dropGap category ls ++ later := by
  cases later with
  | nil => rw [List.append_nil, List.append_nil]
  | cons next rest =>
      obtain ⟨opened, opens⟩ := header next rfl
      have noRule := Line.isRule_of_sectionOpened opens
      have shown := Line.isBlank_of_sectionOpened opens
      rcases ls with _ | ⟨gap, _ | ⟨rule, ls⟩⟩
      · cases rest <;> simp [dropGap, shown]
      · simp [dropGap, noRule]
      · simp only [List.cons_append, dropGap]
        split <;> rfl

/-- The examples of a section end at the next header. -/
theorem behindExamples_append (shows_ : ∃ l ∈ ls, isExample category l = true)
    (header : StartSection later) :
    Walk.behindExamples category (ls ++ later) = Walk.behindExamples category ls ++ later := by
  have stop : later.dropWhile (isExample category) = later := by
    cases later with
    | nil => rfl
    | cons next rest =>
        obtain ⟨opened, opens⟩ := header next rfl
        rw [List.dropWhile_cons, isExample_of_sectionOpened opens]
        rfl
  have examples (ms : List Text) : (ms ++ later).dropWhile (isExample category) =
      ms.dropWhile (isExample category) ++ later := by
    rw [List.dropWhile_append]
    split
    · rename_i none_
      rw [stop, List.isEmpty_iff.1 none_, List.nil_append]
    · rfl
  rw [Walk.behindExamples, (takeWhile_append_of_shows shows_).2, examples, dropGap_append header,
    Walk.behindExamples]

/-- An example sets no scalar. -/
theorem silent_of_isExample {line : Text} (example_ : isExample category line = true)
    (scalar : Scalar) : Line.starts scalar.opening line = false := by
  obtain ⟨rest, rfl⟩ := exists_of_isExample example_
  exact Line.silent_comment scalar rest

theorem settingsOn_dropGap (scalar : Scalar) (ls : List Text) :
    settingsOn scalar (dropGap category ls) = settingsOn scalar ls := by
  rcases ls with _ | ⟨gap, _ | ⟨rule, ls⟩⟩
  · rfl
  · rfl
  · rw [dropGap]
    split
    · rename_i dropped
      have none_ : settingsOn scalar [gap] = [] :=
        settingsOn_eq_nil.2 (by simpa using Line.silent_of_isBlank dropped.2.1 scalar)
      rw [settingsOn_cons gap, none_, List.nil_append]
    · rfl

/-- Neither the examples nor the gap behind them set a scalar. -/
theorem settingsOn_behindExamples (scalar : Scalar) (ls : List Text) :
    settingsOn scalar (Walk.behindExamples category ls) =
      settingsOn scalar (ls.dropWhile fun l => !isExample category l) := by
  have examples : settingsOn scalar
      ((ls.dropWhile fun l => !isExample category l).takeWhile (isExample category)) = [] := by
    rw [settingsOn_eq_nil]
    intro l member
    exact silent_of_isExample (List.all_eq_true.1 List.all_takeWhile l member) scalar
  have parts := List.takeWhile_append_dropWhile (p := isExample category)
    (l := ls.dropWhile fun l => !isExample category l)
  have split := congrArg (settingsOn scalar) parts
  rw [settingsOn_append, examples, List.nil_append] at split
  rw [Walk.behindExamples, settingsOn_dropGap, split]

end

end Layout

/-! ## Outlines -/

/-- The parts of a template: what stands in front of the guard of the aliases, the guard, and
what stands behind it; and for each category a header, and the lines behind the header. -/
structure Outline where
  preamble : List Text
  guard : Text
  shortcuts : List Text
  header : Category → Text
  body : Category → List Text

namespace Outline

open Layout

variable (outline : Outline)

/-- Some sections, one after the other. -/
def sections (categories : List Category) : List Text :=
  categories.flatMap fun category => outline.header category :: outline.body category

theorem sections_cons (category : Category) (categories : List Category) :
    outline.sections (category :: categories) =
      (outline.header category :: outline.body category) ++ outline.sections categories :=
  List.flatMap_cons

def lines : List Text :=
  outline.preamble ++ outline.guard :: (outline.shortcuts ++ outline.sections Category.all)

theorem body_subset_lines (category : Category) : outline.body category ⊆ outline.lines := by
  intro l member
  have inSection : l ∈ outline.sections Category.all :=
    List.mem_flatMap.2 ⟨category, Category.mem_all category, List.mem_cons_of_mem _ member⟩
  exact List.mem_append_right _ (List.mem_cons_of_mem _ (List.mem_append_right _ inSection))

/-- The lines behind the guard that are dropped with the aliases of the template. -/
def dropped : List Text := outline.shortcuts.takeWhile fun l => !Line.isDelimiter l

/-- The lines behind the guard from the first delimiter on. -/
def beneath : List Text := outline.shortcuts.dropWhile fun l => !Line.isDelimiter l

/-- The lines of a section in front of its first example, or all of them. -/
def introduction (category : Category) : List Text :=
  (outline.body category).takeWhile fun l => !isExample category l

/-- The lines of a section that are left behind its examples. -/
def remainder (category : Category) : List Text :=
  Walk.behindExamples category (outline.body category)

/-- The section shows an example. -/
def Shows (category : Category) : Prop := ∃ l ∈ outline.body category, isExample category l = true

/-- The template is well laid out, and these are its parts: the guard and each header stand in
it once and in this order, with a rule between any two of them and one behind the last section. -/
structure Fits (template : Text) : Prop where
  lines : template.lines = outline.lines
  /-- The guard is there, and the line sets no scalar. -/
  guards : Line.guardsAliases outline.guard = true
  silent : ∀ scalar : Scalar, Line.starts scalar.opening outline.guard = false
  /-- The headers are there. -/
  opens : ∀ category, Line.sectionOpened (outline.header category) = some category
  unguarded : ∀ category, Line.guardsAliases (outline.header category) = false
  /-- No other line is a guard or a header. -/
  plain : ∀ l ∈ outline.preamble ++ outline.shortcuts, Plain l
  plainBody : ∀ category, ∀ l ∈ outline.body category, Plain l
  /-- There are rules around each section. -/
  rule : ∃ l ∈ outline.shortcuts, Line.isRule l = true
  rules : ∀ category, ∃ l ∈ outline.body category, Line.isRule l = true

/-! ## What the walk writes -/

variable (values : Values)

/-- A section filled with entries. -/
def filledSection (category : Category) : List Text :=
  outline.header category :: (outline.introduction category ++
    entryBlock category (values.entries category) ++
      (outline.remainder category).map (substitute values.settings))

/-- The lines that are written up to the first section. -/
def filledFront : List Text :=
  outline.preamble.map (substitute values.settings) ++ outline.guard ::
    (aliasBlock values.aliases ++ outline.beneath.map (substitute values.settings))

/-- The lines of the template filled with values, where each section shows an example. -/
def filled : List Text := outline.filledFront values ++ Category.all.flatMap (outline.filledSection values)

theorem aliasBlock_infix_filled : aliasBlock values.aliases <:+: outline.filled values :=
  ⟨outline.preamble.map (substitute values.settings) ++ [outline.guard],
    outline.beneath.map (substitute values.settings) ++
      Category.all.flatMap (outline.filledSection values), by simp [filled, filledFront]⟩

theorem filledSection_infix_filled (category : Category) :
    outline.filledSection values category <:+: outline.filled values := by
  obtain ⟨before, after, parts⟩ := List.append_of_mem (Category.mem_all category)
  refine ⟨outline.filledFront values ++ before.flatMap (outline.filledSection values),
    after.flatMap (outline.filledSection values), ?_⟩
  rw [filled, parts]
  simp

theorem entryBlock_infix_filled (category : Category) :
    entryBlock category (values.entries category) <:+: outline.filled values := by
  refine List.IsInfix.trans ?_ (filledSection_infix_filled outline values category)
  exact ⟨outline.header category :: outline.introduction category,
    (outline.remainder category).map (substitute values.settings), by simp [filledSection]⟩

variable {outline values} {template : Text} (fits : outline.Fits template)
  (unguarded : Unguarded values.settings)

include fits

theorem Fits.substitute_guard : substitute values.settings outline.guard = outline.guard :=
  substitute_of_silent _ fits.silent

theorem Fits.substitute_header (category : Category) :
    substitute values.settings (outline.header category) = outline.header category :=
  substitute_of_silent _ (Line.silent_of_sectionOpened (fits.opens category))

/-- A delimiter ends the aliases of the template before the first section. -/
theorem Fits.dropWhile_shortcuts (rest : List Text) :
    (outline.shortcuts ++ rest).dropWhile (fun l => !Line.isDelimiter l) =
      outline.beneath ++ rest := by
  obtain ⟨rule, member, rules⟩ := fits.rule
  have delimits : Line.isDelimiter rule = true :=
    Line.isDelimiter_of_isBanner (Line.isBanner_of_isRule rules)
  have some_ : (outline.shortcuts.dropWhile fun l => !Line.isDelimiter l) ≠ [] := by
    intro none_
    rw [List.dropWhile_eq_nil_iff] at none_
    simpa [delimits] using none_ rule member
  rw [List.dropWhile_append, if_neg (by simpa [List.isEmpty_iff] using some_), beneath]

/-- Behind a header the walk looks for an example. -/
theorem run_header {category : Category} {rest : List Text} (some_ : rest ≠ []) :
    (Walk.mk .copying (outline.header category :: rest)).run values =
      outline.header category :: ((rest.takeWhile fun l => !isExample category l) ++
        entryBlock category (values.entries category) ++
          (Walk.mk .copying (Walk.behindExamples category rest)).run values) := by
  have same : substitute values.settings (outline.header category) = outline.header category :=
    fits.substitute_header category
  have unguarded := fits.unguarded category
  have opens := fits.opens category
  rw [← same] at unguarded opens
  rw [Walk.run_header values unguarded opens some_, same]

theorem Fits.startSection (categories : List Category) :
    StartSection (outline.sections categories) := by
  intro l first
  cases categories with
  | nil => cases first
  | cons category categories =>
      obtain rfl := Option.some.inj first
      exact ⟨category, fits.opens category⟩

include unguarded

/-- Lines that are neither guard nor header are neither once settings are filled in. -/
theorem Fits.plain_remainder (category : Category) :
    ∀ l ∈ outline.remainder category, Plain (substitute values.settings l) := by
  intro l member
  exact plain_substitute unguarded
    (fits.plainBody category l ((Walk.behindExamples_suffix category _).subset member))

theorem Fits.plain_front {ls : List Text} (part : ls ⊆ outline.preamble ++ outline.shortcuts) :
    ∀ l ∈ ls, Plain (substitute values.settings l) :=
  fun l member => plain_substitute unguarded (fits.plain l (part member))

/-- **Up to the sections** the walk fills in the settings and the aliases. -/
theorem run_lines :
    (Walk.mk .copying outline.lines).run values =
      outline.filledFront values ++
        (Walk.mk .copying (outline.sections Category.all)).run values := by
  have preamble := fits.plain_front unguarded (List.subset_append_left outline.preamble _)
  have beneath : ∀ l ∈ outline.beneath, Plain (substitute values.settings l) :=
    fits.plain_front unguarded
      (List.Subset.trans (List.dropWhile_sublist _).subset (List.subset_append_right _ _))
  have guards : Line.guardsAliases (substitute values.settings outline.guard) = true := by
    rw [fits.substitute_guard]
    exact fits.guards
  rw [lines, Walk.run_copying_append values preamble, Walk.run_guard values guards,
    fits.dropWhile_shortcuts, Walk.run_copying_append values beneath, fits.substitute_guard,
    filledFront]
  simp

/-- **A section that shows an example** is filled in, and the walk goes on at the next header. -/
theorem run_section_append {category : Category} (shows_ : outline.Shows category)
    {later : List Text} (header : StartSection later) :
    (Walk.mk .copying (outline.header category :: (outline.body category ++ later))).run values =
      outline.filledSection values category ++ (Walk.mk .copying later).run values := by
  have some_ : outline.body category ++ later ≠ [] := by
    obtain ⟨l, member, -⟩ := shows_
    exact List.append_ne_nil_of_left_ne_nil (List.ne_nil_of_mem member) later
  have remainder := fits.plain_remainder unguarded category
  rw [run_header fits some_, (takeWhile_append_of_shows shows_).1,
    behindExamples_append shows_ header]
  show _ :: (_ ++ (Walk.mk .copying (outline.remainder category ++ later)).run values) = _
  rw [Walk.run_copying_append values remainder, filledSection, introduction]
  simp

/-- The last section is filled in, whether it shows an example or not. -/
theorem run_section_last (category : Category) :
    (Walk.mk .copying (outline.header category :: outline.body category)).run values =
      outline.filledSection values category := by
  have some_ : outline.body category ≠ [] := by
    obtain ⟨l, member, -⟩ := fits.rules category
    exact List.ne_nil_of_mem member
  have remainder := fits.plain_remainder unguarded category
  have whole := Walk.run_copying_append values remainder []
  rw [List.append_nil, Walk.run_nil, List.append_nil] at whole
  rw [run_header fits some_, filledSection, introduction, ← whole]
  rfl

/-- Sections are filled in if each but the last shows an example. -/
theorem run_sections (categories : List Category)
    (shows_ : ∀ category ∈ categories.dropLast, outline.Shows category) :
    (Walk.mk .copying (outline.sections categories)).run values =
      categories.flatMap (outline.filledSection values) := by
  induction categories with
  | nil => exact Walk.run_nil values .copying
  | cons category categories ih =>
      cases categories with
      | nil => simpa [sections] using run_section_last fits unguarded category
      | cons next categories =>
          obtain ⟨here, later⟩ := List.forall_mem_cons.1 shows_
          have header := fits.startSection (next :: categories)
          have laid : outline.sections (category :: next :: categories) =
              outline.header category ::
                (outline.body category ++ outline.sections (next :: categories)) := rfl
          rw [laid, run_section_append fits unguarded here header, ih later]
          rfl

/-- **The filled template**, if every section but the last shows an example. -/
theorem run_eq_filled (shows_ : ∀ category ∈ Category.all.dropLast, outline.Shows category) :
    (Walk.mk .copying outline.lines).run values = outline.filled values := by
  rw [run_lines fits unguarded, run_sections fits unguarded Category.all shows_, filled]

omit unguarded

/-! ## What sets a scalar -/

variable (scalar : Scalar)

theorem Fits.settingsOn_header (category : Category) :
    settingsOn scalar [outline.header category] = [] :=
  settingsOn_eq_nil.2
    (by simpa using Line.silent_of_sectionOpened (fits.opens category) scalar)

theorem Fits.settingsOn_guard : settingsOn scalar [outline.guard] = [] :=
  settingsOn_eq_nil.2 (by simpa using fits.silent scalar)

/-- What a section sets, in front of its examples and behind them. -/
theorem settingsOn_section (category : Category) :
    settingsOn scalar (outline.header category :: outline.body category) =
      settingsOn scalar (outline.introduction category) ++
        settingsOn scalar (outline.remainder category) := by
  have parts : outline.body category = outline.introduction category ++
      (outline.body category).dropWhile fun l => !isExample category l :=
    List.takeWhile_append_dropWhile.symm
  rw [settingsOn_cons, fits.settingsOn_header, List.nil_append, remainder,
    settingsOn_behindExamples, ← settingsOn_append, ← parts]

/-- In a filled section the document's values stand behind the examples. -/
theorem settingsOn_filledSection (category : Category) :
    settingsOn scalar (outline.filledSection values category) =
      settingsOn scalar (outline.introduction category) ++
        (settingsOn scalar (outline.remainder category)).map fun own =>
          (Setting.valueIn? values.settings scalar).getD own := by
  rw [filledSection, settingsOn_cons, fits.settingsOn_header, List.nil_append, settingsOn_append,
    settingsOn_append, settingsOn_entryBlock, List.append_nil, settingsOn_substitute]

/-- What a template sets, part by part. -/
theorem settingsOn_lines :
    settingsOn scalar outline.lines =
      settingsOn scalar outline.preamble ++ (settingsOn scalar outline.dropped ++
        settingsOn scalar outline.beneath) ++
          Category.all.flatMap fun category =>
            settingsOn scalar (outline.introduction category) ++
              settingsOn scalar (outline.remainder category) := by
  have shortcuts : settingsOn scalar outline.shortcuts =
      settingsOn scalar outline.dropped ++ settingsOn scalar outline.beneath := by
    rw [← settingsOn_append, dropped, beneath, List.takeWhile_append_dropWhile]
  have sections (categories : List Category) : settingsOn scalar (outline.sections categories) =
      categories.flatMap fun category =>
        settingsOn scalar (outline.introduction category) ++
          settingsOn scalar (outline.remainder category) := by
    induction categories with
    | nil => rfl
    | cons category categories ih =>
        rw [sections_cons, settingsOn_append, settingsOn_section fits, ih, List.flatMap_cons]
  rw [lines, settingsOn_append, settingsOn_cons, fits.settingsOn_guard, settingsOn_append,
    sections, shortcuts, List.nil_append, ← List.append_assoc]

/-- What the filled template sets, part by part: the document's values, but in front of the
examples the template's own. -/
theorem settingsOn_filled :
    let given := fun own => (Setting.valueIn? values.settings scalar).getD own
    settingsOn scalar (outline.filled values) =
      (settingsOn scalar outline.preamble).map given ++
        (settingsOn scalar outline.beneath).map given ++
          Category.all.flatMap fun category =>
            settingsOn scalar (outline.introduction category) ++
              (settingsOn scalar (outline.remainder category)).map given := by
  intro given
  have sections (categories : List Category) :
      settingsOn scalar (categories.flatMap (outline.filledSection values)) =
        categories.flatMap fun category =>
          settingsOn scalar (outline.introduction category) ++
            (settingsOn scalar (outline.remainder category)).map given := by
    induction categories with
    | nil => rfl
    | cons category categories ih =>
        rw [List.flatMap_cons, settingsOn_append, settingsOn_filledSection fits, ih,
          List.flatMap_cons]
  rw [filled, settingsOn_append, sections, filledFront, settingsOn_append, settingsOn_cons,
    fits.settingsOn_guard, settingsOn_append, settingsOn_aliasBlock, settingsOn_substitute,
    settingsOn_substitute, List.nil_append, List.nil_append]

end Outline

end ConfigUpkeep
