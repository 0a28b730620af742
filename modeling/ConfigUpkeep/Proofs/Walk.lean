/-
# ConfigUpkeep.Proofs.Walk -- what the walk over a template writes

The laws by which a walk is computed, for every template and every values.

*Substitution.*  A line that sets a scalar is replaced by the document's own setting
if there is one, and every other line stays (`substitute_assignment`,
`substitute_of_silent`).  So a list of lines after substitution gives a scalar the
document's value, or the value it gave before (`findSome?_substitute`).

*Walking.*  A line is *plain* if it neither guards the aliases nor opens a section.
Plain lines are copied one by one (`run_copying_append`); behind the guard stand the
aliases, and the walk goes on at the next delimiter (`run_guard`); behind a section
header the lines are copied up to the examples, and the walk goes on behind them
(`run_header`).  Settings whose values do not mention the guard leave plain lines plain
(`plain_substitute`), so the template alone decides which law applies.

*Sources.*  Whatever the template looks like, a line that is written is one of its lines, a
setting, an alias, or an entry of a section that the walk reaches (`source_of_mem_run`).
-/
import ConfigUpkeep.Document.Layout
import ConfigUpkeep.Proofs.Reading

namespace ConfigUpkeep

set_option autoImplicit false

/-! ## Settings -/

/-- The value that a list of settings gives a scalar. -/
def Setting.valueIn? (settings : List Setting) (scalar : Scalar) : Option Text :=
  (settings.find? fun setting => setting.scalar = scalar).map Setting.value

/-- A document makes a setting exactly if it gives the scalar that value. -/
theorem Values.mem_settingsOf {document : Text} {setting : Setting} :
    setting ∈ settingsOf document ↔ setting.scalar.value? document = some setting.value := by
  rw [settingsOf, List.mem_filterMap]
  constructor
  · rintro ⟨scalar, -, made⟩
    obtain ⟨value, given, rfl⟩ := Option.map_eq_some_iff.1 made
    exact given
  · intro given
    exact ⟨setting.scalar, Scalar.mem_all _, by rw [given]; rfl⟩

/-- The settings of a document give each scalar its value in the document. -/
theorem Values.valueIn?_settingsOf (document : Text) (scalar : Scalar) :
    Setting.valueIn? (settingsOf document) scalar = scalar.value? document := by
  rw [Setting.valueIn?]
  cases found : (settingsOf document).find? fun setting => decide (setting.scalar = scalar) with
  | none =>
      rw [List.find?_eq_none] at found
      cases given : scalar.value? document with
      | none => rfl
      | some value =>
          have missing := found ⟨scalar, value⟩ (mem_settingsOf.2 given)
          simp at missing
  | some setting =>
      have made := mem_settingsOf.1 (List.mem_of_find?_eq_some found)
      have same : setting.scalar = scalar := by simpa using List.find?_some found
      rw [← same, made]
      rfl

namespace Layout

/-- A line that sets no scalar stays as it is. -/
theorem substitute_of_silent (settings : List Setting) {line : Text}
    (silent : ∀ scalar : Scalar, Line.starts scalar.opening line = false) :
    substitute settings line = line := by
  have nothing : settings.find? (fun setting => Line.starts setting.scalar.opening line) = none := by
    simp [silent]
  rw [substitute, nothing]

/-- A line that sets a scalar sets it to the document's value, if it has one. -/
theorem substitute_assignment (settings : List Setting) (scalar : Scalar) (own : Text) :
    substitute settings (scalar.assignment own) =
      scalar.assignment ((Setting.valueIn? settings scalar).getD own) := by
  simp only [substitute, Setting.valueIn?, Scalar.starts_assignment]
  cases found : settings.find? fun setting => decide (setting.scalar = scalar) with
  | none => rfl
  | some setting =>
      have same : setting.scalar = scalar := by simpa using List.find?_some found
      simp [Setting.assignment, same]

/-- Every line sets a scalar or sets none. -/
theorem assignment_or_silent (line : Text) :
    (∃ (scalar : Scalar) (own : Text), line = scalar.assignment own) ∨
      ∀ scalar : Scalar, Line.starts scalar.opening line = false := by
  by_cases sets : ∃ scalar : Scalar, Line.starts scalar.opening line = true
  · obtain ⟨scalar, starts⟩ := sets
    obtain ⟨own, rfl⟩ := (Line.starts_iff _ _).1 starts
    exact Or.inl ⟨scalar, own, rfl⟩
  · exact Or.inr fun scalar => by simpa using fun starts => sets ⟨scalar, starts⟩

/-- After substitution a line gives a scalar the document's value where it gave one before. -/
theorem isPrefixOf?_substitute (settings : List Setting) (scalar : Scalar) (line : Text) :
    scalar.opening.isPrefixOf? (substitute settings line) =
      (scalar.opening.isPrefixOf? line).map fun own =>
        (Setting.valueIn? settings scalar).getD own := by
  rcases assignment_or_silent line with ⟨other, own, rfl⟩ | silent
  · rw [substitute_assignment, Scalar.isPrefixOf?_assignment, Scalar.isPrefixOf?_assignment]
    by_cases same : scalar = other <;> simp [same]
  · rw [substitute_of_silent settings silent, Scalar.isPrefixOf?_eq_none (silent scalar)]
    rfl

theorem findSome?_substitute (settings : List Setting) (scalar : Scalar) (ls : List Text) :
    ((ls.map (substitute settings)).findSome? fun l => scalar.opening.isPrefixOf? l) =
      (ls.findSome? fun l => scalar.opening.isPrefixOf? l).map fun own =>
        (Setting.valueIn? settings scalar).getD own := by
  rw [List.findSome?_map, List.map_findSome?]
  congr 1
  funext l
  exact isPrefixOf?_substitute settings scalar l

/-! ## Plain lines -/

/-- The line neither guards the aliases nor opens a section. -/
def Plain (line : Text) : Prop :=
  Line.guardsAliases line = false ∧ Line.sectionOpened line = none

instance (line : Text) : Decidable (Plain line) :=
  inferInstanceAs (Decidable (Line.guardsAliases line = false ∧ Line.sectionOpened line = none))

/-- No value among the settings mentions the guard of the aliases. -/
def Unguarded (settings : List Setting) : Prop :=
  ∀ setting ∈ settings, Line.guardsAliases setting.value = false

instance (settings : List Setting) : Decidable (Unguarded settings) :=
  inferInstanceAs (Decidable (∀ setting ∈ settings, Line.guardsAliases setting.value = false))

/-- A setting guards the aliases only through its value. -/
theorem guardsAliases_assignment (scalar : Scalar) (value : Text) :
    Line.guardsAliases (scalar.assignment value) = Line.guardsAliases value := by
  have free : '[' ∉ scalar.opening := by cases scalar <;> decide
  have marker : ∃ tail, Table.aliases.unsetTest = '[' :: tail := ⟨_, rfl⟩
  obtain ⟨tail, marker⟩ := marker
  rw [Bool.eq_iff_iff, Line.guardsAliases, Line.guardsAliases, Text.mentions_iff,
    Text.mentions_iff, marker, Scalar.assignment]
  exact List.cons_infix_append_iff free

/-- A setting opens no section. -/
theorem sectionOpened_assignment (scalar : Scalar) (value : Text) :
    Line.sectionOpened (scalar.assignment value) = none := by
  cases scalar <;> rfl

theorem plain_substitute {settings : List Setting} (unguarded : Unguarded settings) {line : Text}
    (plain : Plain line) : Plain (substitute settings line) := by
  rw [substitute]
  split
  · rename_i setting found
    refine ⟨?_, sectionOpened_assignment _ _⟩
    rw [Setting.assignment, guardsAliases_assignment]
    exact unguarded setting (List.mem_of_find?_eq_some found)
  · exact plain

/-- Behind the guard stand an empty line and aliases. -/
theorem mem_aliasBlock {aliases : List Alias} {l : Text} (member : l ∈ aliasBlock aliases) :
    l = [] ∨ ∃ a ∈ aliases, l = a.toEntry.assignment .aliases := by
  rw [aliasBlock] at member
  split at member
  · cases member
  · rcases List.mem_cons.1 member with rfl | listed
    · exact Or.inl rfl
    · obtain ⟨a, defined, rfl⟩ := List.mem_map.1 listed
      exact Or.inr ⟨a, defined, rfl⟩

/-- In place of the examples stand empty lines and entries. -/
theorem mem_entryBlock {category : Category} {entries : List Entry} {l : Text}
    (member : l ∈ entryBlock category entries) :
    l = [] ∨ ∃ entry ∈ entries, l = entry.assignment (.keyed category) := by
  rw [entryBlock] at member
  split at member
  · cases member
  · simp only [List.cons_append, List.mem_cons, List.mem_append, List.mem_map, List.not_mem_nil,
      or_false] at member
    rcases member with rfl | ⟨entry, listed, rfl⟩ | rfl
    · exact Or.inl rfl
    · exact Or.inr ⟨entry, listed, rfl⟩
    · exact Or.inl rfl

theorem dropGap_suffix (category : Category) (ls : List Text) : dropGap category ls <:+ ls := by
  rcases ls with _ | ⟨gap, _ | ⟨rule, ls⟩⟩
  · exact List.suffix_refl _
  · exact List.suffix_refl _
  · rw [dropGap]
    split
    · exact List.suffix_cons _ _
    · exact List.suffix_refl _

/-! ## The walk -/

namespace Walk

variable (values : Values)

theorem run_nil (mode : Mode) : run values ⟨mode, []⟩ = [] := by
  rw [run]
  simp

/-- Before the end a walk takes a step and goes on. -/
theorem run_step {walk : Walk} (unfinished : walk.rest ≠ []) :
    run values walk = (walk.step values).1 ++ run values (walk.step values).2 := by
  rw [run]
  simp [unfinished]

/-- Plain lines are copied after substitution, and the walk goes on behind them. -/
theorem run_copying_append {ls : List Text}
    (plain : ∀ l ∈ ls, Plain (substitute values.settings l)) (rest : List Text) :
    run values ⟨.copying, ls ++ rest⟩ =
      ls.map (substitute values.settings) ++ run values ⟨.copying, rest⟩ := by
  induction ls with
  | nil => rfl
  | cons l ls ih =>
      obtain ⟨⟨unguarded, unopened⟩, later⟩ := List.forall_mem_cons.1 plain
      rw [List.cons_append, run_step values (by simp), List.map_cons, List.cons_append, ← ih later]
      simp [step, modeAfter, unguarded, unopened]

/-- Behind the guard stand the aliases, and the walk goes on at the next delimiter. -/
theorem run_guard {line : Text} (guards : Line.guardsAliases (substitute values.settings line) = true)
    (rest : List Text) :
    run values ⟨.copying, line :: rest⟩ =
      substitute values.settings line :: aliasBlock values.aliases ++
        run values ⟨.copying, rest.dropWhile fun l => !Line.isDelimiter l⟩ := by
  have skipped : run values ⟨.skippingAliases, rest⟩ =
      run values ⟨.copying, rest.dropWhile fun l => !Line.isDelimiter l⟩ := by
    cases rest with
    | nil => rw [run_nil, List.dropWhile_nil, run_nil]
    | cons l rest =>
        rw [run_step values (by simp)]
        rfl
  rw [run_step values (by simp)]
  simp [step, modeAfter, guards, skipped]

/-- What the walk leaves behind the examples of a section. -/
def behindExamples (category : Category) (rest : List Text) : List Text :=
  dropGap category
    ((rest.dropWhile fun l => !isExample category l).dropWhile (isExample category))

theorem behindExamples_suffix (category : Category) (rest : List Text) :
    behindExamples category rest <:+ rest :=
  (dropGap_suffix category _).trans ((List.dropWhile_suffix _).trans (List.dropWhile_suffix _))

/-- Behind a section header the lines up to the examples are copied, the entries stand in
place of the examples, and the walk goes on behind them. -/
theorem run_header {line : Text} {category : Category}
    (unguarded : Line.guardsAliases (substitute values.settings line) = false)
    (opens : Line.sectionOpened (substitute values.settings line) = some category)
    {rest : List Text} (some_ : rest ≠ []) :
    run values ⟨.copying, line :: rest⟩ =
      substitute values.settings line ::
        ((rest.takeWhile fun l => !isExample category l) ++
          entryBlock category (values.entries category) ++
            run values ⟨.copying, behindExamples category rest⟩) := by
  rw [run_step values (by simp)]
  simp only [step, modeAfter, unguarded, opens, Bool.false_eq_true, if_false]
  rw [run_step values some_]
  rfl

/-- Of a section the introduction is copied, and the walk goes on behind the examples. -/
theorem takeWhile_and_behindExamples {category : Category} {introduction examples rest : List Text}
    (prose : ∀ l ∈ introduction, isExample category l = false)
    (shown : ∀ l ∈ examples, isExample category l = true) (reached : examples = [] → rest = [])
    (stop : ∀ l ∈ rest.head?, isExample category l = false) :
    ((introduction ++ (examples ++ rest)).takeWhile fun l => !isExample category l) = introduction ∧
      behindExamples category (introduction ++ (examples ++ rest)) = dropGap category rest := by
  have prose_ : ∀ l ∈ introduction, (!isExample category l) = true := by simpa using prose
  have first : ∀ l ∈ (examples ++ rest).head?, (!isExample category l) = false := by
    cases examples with
    | nil => simp [reached rfl]
    | cons example_ others => simpa using shown example_ (List.mem_cons_self ..)
  refine ⟨List.takeWhile_append_of_head? prose_ first, ?_⟩
  rw [behindExamples, List.dropWhile_append_of_head? prose_ first,
    List.dropWhile_append_of_head? shown stop]

/-- A section: its header and introduction are copied, and the entries stand in place of its
examples. -/
theorem run_section {header : Text} {category : Category}
    (unguarded : Line.guardsAliases (substitute values.settings header) = false)
    (opens : Line.sectionOpened (substitute values.settings header) = some category)
    {introduction examples rest : List Text}
    (prose : ∀ l ∈ introduction, isExample category l = false)
    (shown : ∀ l ∈ examples, isExample category l = true) (some_ : examples ≠ [])
    (stop : ∀ l ∈ rest.head?, isExample category l = false) :
    run values ⟨.copying, header :: (introduction ++ (examples ++ rest))⟩ =
      substitute values.settings header :: (introduction ++
        entryBlock category (values.entries category) ++
          run values ⟨.copying, dropGap category rest⟩) := by
  obtain ⟨copied, left⟩ := takeWhile_and_behindExamples prose shown (absurd · some_) stop
  rw [run_header values unguarded opens (by simp [some_]), copied, left]

/-! ### Where a line comes from -/

variable {values : Values} {walk : Walk}

/-- The walk is in the section of the category, or has its header ahead of it. -/
def Reaches (values : Values) (walk : Walk) (category : Category) : Prop :=
  walk.mode = .inSection category ∨
    ∃ line ∈ walk.rest, Line.sectionOpened (substitute values.settings line) = some category

/-- Where a line that the walk writes comes from. -/
inductive Source (values : Values) (walk : Walk) : Text → Prop where
  | copied {line : Text} : line ∈ walk.rest → Source values walk line
  | setting {line : Text} : line ∈ walk.rest → Source values walk (substitute values.settings line)
  | aliases {line : Text} : line ∈ aliasBlock values.aliases → Source values walk line
  | entries {category : Category} {line : Text} : walk.Reaches values category →
      line ∈ entryBlock category (values.entries category) → Source values walk line

/-- A step leaves the last of the lines that were left before. -/
theorem rest_step_suffix : (walk.step values).2.rest <:+ walk.rest := by
  obtain ⟨mode, rest⟩ := walk
  cases mode with
  | copying =>
      cases rest with
      | nil => exact List.suffix_refl _
      | cons line rest => exact List.suffix_cons line rest
  | skippingAliases => exact List.dropWhile_suffix _
  | inSection category => exact behindExamples_suffix category rest

/-- A step reaches no section that was out of reach. -/
theorem reaches_of_step {category : Category} (reaches : (walk.step values).2.Reaches values category) :
    walk.Reaches values category := by
  rcases reaches with inside | ⟨line, member, opens⟩
  · obtain ⟨mode, rest⟩ := walk
    cases mode with
    | copying =>
        cases rest with
        | nil => exact Or.inl inside
        | cons line rest =>
            refine Or.inr ⟨line, List.mem_cons_self .., ?_⟩
            simp only [step, modeAfter] at inside
            split at inside
            · cases inside
            · split at inside
              · cases inside
                assumption
              · cases inside
    | skippingAliases => cases inside
    | inSection other => cases inside
  · exact Or.inr ⟨line, rest_step_suffix.subset member, opens⟩

theorem source_of_step {l : Text} (member : l ∈ (walk.step values).1) : Source values walk l := by
  obtain ⟨mode, rest⟩ := walk
  cases mode with
  | copying =>
      cases rest with
      | nil => cases member
      | cons line rest =>
          rcases List.mem_cons.1 member with rfl | behind
          · exact .setting (List.mem_cons_self ..)
          · split at behind
            · exact .aliases behind
            · cases behind
  | skippingAliases => cases member
  | inSection category =>
      rcases List.mem_append.1 member with shown | entry
      · exact .copied ((List.takeWhile_sublist _).subset shown)
      · exact .entries (Or.inl rfl) entry

/-- **Every line that a walk writes has a source**: a line of the template, a setting, an alias,
or an entry of a section that the walk reaches. -/
theorem source_of_mem_run {l : Text} (member : l ∈ run values walk) : Source values walk l := by
  fun_induction run values walk with
  | case1 => cases member
  | case2 walk unfinished shorter ih =>
      rcases List.mem_append.1 member with now | later
      · exact source_of_step now
      · cases ih later with
        | copied left => exact .copied (rest_step_suffix.subset left)
        | setting left => exact .setting (rest_step_suffix.subset left)
        | aliases listed => exact .aliases listed
        | entries reaches listed => exact .entries (reaches_of_step reaches) listed

end Walk

end Layout

end ConfigUpkeep
