/-
# ConfigUpkeep.Proofs.Room -- which templates have room for every document

Any text can be the template.  One that is well laid out (`Outline.Fits`) keeps what a
document says (`Layout.Keeps`) if it has room for it (`Outline.HasRoom`):

* every section but the last shows an example, since a section without one takes the next
  header for its own text, and the entries of the next section are not written;
* no scalar is set where the walk does not look: among the template's own aliases, and in a
  section in front of the examples.

`Outline.keeps_iff` says that nothing less will do.  For each condition that fails there is a
document of one line that loses something (`Outline.examples_of_keeps`,
`Outline.introductions_of_keeps`, `Outline.dropped_of_keeps`): an entry, or a value, that is
longer than the template and so cannot stand there already.

`Outline.not_kept` is a well laid out template that loses an entry.
-/
import ConfigUpkeep.Proofs.Outline

namespace ConfigUpkeep

set_option autoImplicit false

namespace Layout

/-! ## What is to be kept -/

/-- The document can be filled into a template: no alias and no entry holds a line end, and no
setting mentions the guard of the aliases. -/
structure Portable (document : Text) : Prop where
  aliases : ∀ a ∈ Alias.ofDocument document, a.toEntry.Flat
  entries : ∀ category, ∀ entry ∈ Values.entriesOf document category, entry.Flat
  unguarded : Unguarded (Values.settingsOf document)

/-- The normalized document has all that the document says: a line for each alias, a line for
each entry, and the document's value wherever the template sets a scalar. -/
structure Keeps (document template : Text) : Prop where
  aliases : (Alias.ofDocument document).map (fun a => a.toEntry.assignment .aliases) <:+:
    (normalize document template).lines
  entries : ∀ category, (Values.entriesOf document category).map
    (Entry.assignment (.keyed category)) <:+: (normalize document template).lines
  settings : ∀ (scalar : Scalar) (value : Text), scalar.value? document = some value →
    settingsOn scalar (normalize document template).lines =
      (settingsOn scalar template.lines).map fun _ => value

theorem Portable.legible {document : Text} (portable : Portable document) :
    (Values.ofDocument document).Legible :=
  Values.legible_ofDocument portable.aliases portable.entries portable.unguarded

theorem aliases_infix_aliasBlock (aliases : List Alias) :
    aliases.map (fun a => a.toEntry.assignment .aliases) <:+: aliasBlock aliases := by
  rw [aliasBlock]
  split
  · rename_i none_
    rw [List.isEmpty_iff.1 none_]
    exact List.infix_rfl
  · exact (List.suffix_cons _ _).isInfix

theorem entries_infix_entryBlock (category : Category) (entries : List Entry) :
    entries.map (Entry.assignment (.keyed category)) <:+: entryBlock category entries := by
  rw [entryBlock]
  split
  · rename_i none_
    rw [List.isEmpty_iff.1 none_]
    exact List.infix_rfl
  · exact ⟨[[]], [[]], rfl⟩

/-! ## The lines of a filled template -/

theorem not_mem_substitute {settings : List Setting} (flat : ∀ setting ∈ settings, setting.value.Flat)
    {line : Text} (free : '\n' ∉ line) : '\n' ∉ substitute settings line := by
  rw [substitute]
  split
  · rename_i setting found
    exact Text.not_mem_of_flat
      ((Scalar.flat_assignment _).2 (flat setting (List.mem_of_find?_eq_some found)))
  · exact free

/-- No line that is written holds a line feed. -/
theorem not_mem_run {values : Values} (legible : values.Legible) (template : Text) :
    ∀ l ∈ (Walk.start template).run values, '\n' ∉ l := by
  have free : ∀ l ∈ template.lines, '\n' ∉ l := fun l member => (List.of_mem_splitOn member).1
  have written (table : Table) (entry : Entry) (listed : entry ∈ values.entriesIn table) :
      '\n' ∉ entry.assignment table :=
    Text.not_mem_of_flat ((Entry.flat_assignment table).2 (legible.entries table entry listed).flat)
  intro l member
  cases Walk.source_of_mem_run member with
  | copied left => exact free l left
  | setting left => exact not_mem_substitute legible.settings (free _ left)
  | aliases listed =>
      rcases mem_aliasBlock listed with rfl | ⟨a, defined, rfl⟩
      · exact List.not_mem_nil
      · exact written .aliases _ (List.mem_map_of_mem defined)
  | @entries category _ _ listed =>
      rcases mem_entryBlock listed with rfl | ⟨entry, given, rfl⟩
      · exact List.not_mem_nil
      · exact written (.keyed category) entry given

/-- The lines of a filled template are those that the walk writes. -/
theorem lines_fill {values : Values} (legible : values.Legible) (template : Text) :
    (fill values template).lines = (Walk.start template).run values := by
  refine Text.lines_unlines (not_mem_run legible template) ?_
  obtain ⟨line, rest, cut⟩ := List.exists_cons_of_ne_nil (Text.lines_ne_nil template)
  rw [Walk.start, cut, Walk.run_step values (List.cons_ne_nil line rest)]
  exact List.append_ne_nil_of_left_ne_nil (List.cons_ne_nil _ _) _

end Layout

namespace Outline

open Layout

/-- The template has room for whatever a document says. -/
structure HasRoom (outline : Outline) : Prop where
  /-- Every section but the last shows an example. -/
  examples : ∀ category ∈ Category.all.dropLast, outline.Shows category
  /-- No scalar is set among the template's own aliases. -/
  shortcuts : ∀ scalar, settingsOn scalar outline.dropped = []
  /-- No scalar is set in a section in front of its examples. -/
  introductions : ∀ category scalar, settingsOn scalar (outline.introduction category) = []

/-! ## Room is enough -/

section

variable {outline : Outline} {template document : Text} (fits : outline.Fits template)

include fits

theorem Fits.lines_normalize (portable : Portable document) :
    (Layout.normalize document template).lines =
      (Walk.mk .copying outline.lines).run (Values.ofDocument document) := by
  rw [Layout.normalize, lines_fill portable.legible, Walk.start, fits.lines]

theorem Fits.lines_normalize_filled (portable : Portable document)
    (shows_ : ∀ category ∈ Category.all.dropLast, outline.Shows category) :
    (Layout.normalize document template).lines = outline.filled (Values.ofDocument document) := by
  rw [fits.lines_normalize portable, run_eq_filled fits portable.unguarded shows_]

/-- The filled template sets the document's value wherever the template sets a scalar. -/
theorem settingsOn_filled_of_room (room : outline.HasRoom) {scalar : Scalar} {value : Text}
    (given : scalar.value? document = some value) :
    settingsOn scalar (outline.filled (Values.ofDocument document)) =
      (settingsOn scalar template.lines).map fun _ => value := by
  have own : Setting.valueIn? (Values.ofDocument document).settings scalar = some value :=
    (Values.valueIn?_settingsOf document scalar).trans given
  rw [fits.lines, settingsOn_filled fits, settingsOn_lines fits, own]
  simp only [room.shortcuts, room.introductions, List.nil_append, List.map_append,
    List.map_flatMap, Option.getD_some]

/-- **A template with room keeps what every document says.** -/
theorem keeps_of_room (room : outline.HasRoom) (portable : Portable document) :
    Keeps document template := by
  have lines := fits.lines_normalize_filled portable room.examples
  constructor
  case aliases =>
    rw [lines]
    exact (aliases_infix_aliasBlock _).trans (aliasBlock_infix_filled outline
      (Values.ofDocument document))
  case entries =>
    intro category
    rw [lines]
    exact (entries_infix_entryBlock category _).trans (entryBlock_infix_filled outline
      (Values.ofDocument document) category)
  case settings =>
    intro scalar value given
    rw [lines]
    exact settingsOn_filled_of_room fits room given

end

/-! ## Documents of one line -/

/-- A document that says one entry of the category and nothing else. -/
structure Probe (document : Text) (category : Category) (entry : Entry) : Prop where
  settings : Values.settingsOf document = []
  aliases : Alias.ofDocument document = []
  entries : ∀ other, Values.entriesOf document other = if other = category then [entry] else []

/-- An entry alone on a line is all that the line says. -/
theorem probe_assignment {entry : Entry} (inline : entry.Inline) (category : Category) :
    Probe (entry.assignment (.keyed category)) category entry := by
  have flat := (Entry.flat_assignment (.keyed category)).2 inline.flat
  have whole := Entry.whole_of_writable inline.writable (.keyed category)
  have own := Entry.onLine?_assignment (.keyed category) inline.writable []
  have other (table : Table) := Entry.isAssignment_line table (.keyed category) entry
  have silent (scalar : Scalar) := Entry.silent_assignment entry (.keyed category) scalar []
  rw [List.append_nil] at own
  simp only [List.append_nil] at silent
  have tables (table : Table) : table.entries (entry.assignment (.keyed category)) =
      if table = .keyed category then [entry] else [] := by
    rw [table.entries_line flat whole]
    by_cases same : table = .keyed category
    · rw [if_pos same, same, own]
      rfl
    · rw [if_neg same, Entry.onLine?_eq_none ((other table).trans (decide_eq_false same))]
      rfl
  have aliases : Alias.ofDocument (entry.assignment (.keyed category)) = [] := by
    rw [Alias.ofDocument, tables]
    simp
  refine ⟨?_, aliases, fun other => ?_⟩
  · rw [Values.settingsOf, List.filterMap_eq_nil_iff]
    intro scalar _
    rw [scalar.value?_line flat, Scalar.isPrefixOf?_eq_none (silent scalar)]
    rfl
  · rw [Values.entriesOf, tables, aliases]
    by_cases same : other = category <;>
      simp [same, Alias.resolveEntry, Alias.resolveKey, Alias.shorthandOf?]

namespace Probe

variable {document : Text} {category : Category} {entry : Entry}
  (probe : Probe document category entry)

include probe

theorem portable (flat : entry.Flat) : Portable document where
  aliases := by simp [probe.aliases]
  entries other listed member := by
    rw [probe.entries] at member
    split at member
    · rw [List.mem_singleton.1 member]
      exact flat
    · cases member
  unguarded := by simp [Unguarded, probe.settings]

theorem substitute (line : Text) :
    Layout.substitute (Values.ofDocument document).settings line = line := by
  show Layout.substitute (Values.settingsOf document) line = line
  rw [probe.settings]
  rfl

theorem unguarded : Unguarded (Values.ofDocument document).settings := by
  show Unguarded (Values.settingsOf document)
  simp [Unguarded, probe.settings]

theorem entryBlock_of_ne {other : Category} (apart : other ≠ category) :
    entryBlock other ((Values.ofDocument document).entries other) = [] := by
  show entryBlock other (Values.entriesOf document other) = []
  rw [probe.entries, if_neg apart]
  rfl

/-- A line that is not in the template is written only where the section of its entry is
reached. -/
theorem not_mem_run {walk : Walk} {line : Text} (some_ : line ≠ []) (fresh : line ∉ walk.rest)
    (inside : walk.mode = .copying)
    (unopened : ∀ l ∈ walk.rest, Line.sectionOpened l ≠ some category) :
    line ∉ walk.run (Values.ofDocument document) := by
  intro member
  cases Walk.source_of_mem_run member with
  | copied left => exact fresh left
  | setting left =>
      rw [probe.substitute] at fresh
      exact fresh left
  | aliases listed =>
      rcases mem_aliasBlock listed with same | ⟨a, defined, -⟩
      · exact some_ same
      · have none_ : (Values.ofDocument document).aliases = [] := probe.aliases
        rw [none_] at defined
        cases defined
  | @entries other _ reaches listed =>
      by_cases same : other = category
      · subst same
        rcases reaches with here | ⟨l, left, opens⟩
        · rw [inside] at here
          cases here
        · rw [probe.substitute] at opens
          exact unopened l left opens
      · rw [probe.entryBlock_of_ne same] at listed
        cases listed

/-- In front of the sections no entry is written. -/
theorem not_mem_filledFront {outline : Outline} {line : Text} (fresh : line ∉ outline.lines) :
    line ∉ outline.filledFront (Values.ofDocument document) := by
  have same : Layout.substitute (Values.ofDocument document).settings = id := by
    funext line
    exact probe.substitute line
  have aliases : aliasBlock (Values.ofDocument document).aliases = [] := by
    show aliasBlock (Alias.ofDocument document) = []
    rw [probe.aliases]
    rfl
  intro member
  rw [filledFront, same, aliases, List.map_id, List.map_id, List.nil_append] at member
  refine fresh ?_
  rcases List.mem_append.1 member with before | behind
  · exact List.mem_append_left _ before
  · refine List.mem_append_right _ ?_
    rcases List.mem_cons.1 behind with guard | beneath
    · exact guard ▸ List.mem_cons_self ..
    · exact List.mem_cons_of_mem _
        (List.mem_append_left _ ((List.dropWhile_sublist _).subset beneath))

end Probe

/-! ## Room is needed -/

section

variable {outline : Outline} {template : Text} (fits : outline.Fits template)

include fits

theorem Fits.mem_sections {categories : List Category} {l : Text}
    (member : l ∈ outline.sections categories) :
    (∃ category ∈ categories, l = outline.header category) ∨ Plain l := by
  obtain ⟨category, listed, inside⟩ := List.mem_flatMap.1 member
  rcases List.mem_cons.1 inside with rfl | inBody
  · exact Or.inl ⟨category, listed, rfl⟩
  · exact Or.inr (fits.plainBody category l inBody)

/-- Sections of other categories hold no header of the category. -/
theorem Fits.sectionOpened_ne {categories : List Category} {category : Category}
    (absent : category ∉ categories) :
    ∀ l ∈ outline.sections categories, Line.sectionOpened l ≠ some category := by
  intro l member opens
  rcases fits.mem_sections member with ⟨other, listed, rfl⟩ | plain
  · rw [fits.opens other] at opens
    obtain rfl := Option.some.inj opens
    exact absent listed
  · rw [plain.2] at opens
    cases opens

variable {document : Text} {category next : Category} {entry : Entry} {later : List Category}

/-- Behind the examples of a section without examples the next header has gone by. -/
theorem Fits.behindExamples_subset (hidden : ¬ outline.Shows category) (rest : List Text) :
    Walk.behindExamples category (outline.body category ++ outline.header next :: rest) ⊆ rest := by
  have none_ : ∀ l ∈ outline.body category, (!isExample category l) = true := by
    intro l member
    simpa using fun example_ => hidden ⟨l, member, example_⟩
  have past : (outline.body category ++ outline.header next :: rest).dropWhile
      (fun l => !isExample category l) = rest.dropWhile fun l => !isExample category l := by
    rw [List.dropWhile_append_of_pos none_, List.dropWhile_cons,
      isExample_of_sectionOpened (fits.opens next)]
    rfl
  rw [Walk.behindExamples, past]
  exact (Walk.behindExamples_suffix category rest).subset

/-- **A section without an example takes the next header**: an entry of the next section is not
written. -/
theorem not_mem_run_of_not_shows (probe : Probe document next entry) {line : Text}
    (some_ : line ≠ []) (fresh : line ∉ outline.sections (category :: next :: later))
    (hidden : ¬ outline.Shows category) (apart : category ≠ next) (absent : next ∉ later) :
    line ∉ (Walk.mk .copying (outline.sections (category :: next :: later))).run
      (Values.ofDocument document) := by
  have laid : outline.sections (category :: next :: later) =
      outline.header category ::
        (outline.body category ++ outline.header next ::
          (outline.body next ++ outline.sections later)) := by
    simp [sections_cons]
  rw [laid] at fresh ⊢
  have unwritten : line ∉ outline.body category ++ outline.header next ::
      (outline.body next ++ outline.sections later) :=
    fun member => fresh (List.mem_cons_of_mem _ member)
  rw [run_header fits (by simp), probe.entryBlock_of_ne apart, List.append_nil]
  intro member
  rcases List.mem_cons.1 member with here | inside
  · exact fresh (here ▸ List.mem_cons_self ..)
  · rcases List.mem_append.1 inside with copied | behind
    · exact unwritten ((List.takeWhile_sublist _).subset copied)
    · refine probe.not_mem_run some_ ?_ rfl ?_ behind
      · exact fun left => unwritten ((Walk.behindExamples_suffix category _).subset left)
      · intro l left
        rcases List.mem_append.1 (fits.behindExamples_subset hidden _ left) with inBody | inLater
        · simp [(fits.plainBody next l inBody).2]
        · exact fits.sectionOpened_ne absent l inLater

/-- A section that shows an example holds no entry of another section. -/
theorem mem_run_of_shows (probe : Probe document next entry) {categories : List Category}
    {line : Text} (fresh : line ∉ outline.sections (category :: categories))
    (shows_ : outline.Shows category) (apart : category ≠ next)
    (written : line ∈ (Walk.mk .copying (outline.sections (category :: categories))).run
      (Values.ofDocument document)) :
    line ∈ (Walk.mk .copying (outline.sections categories)).run (Values.ofDocument document) := by
  have unwritten : line ∉ outline.header category :: outline.body category :=
    fun member => fresh (List.mem_append_left _ member)
  rw [sections_cons, List.cons_append,
    run_section_append fits probe.unguarded shows_ (fits.startSection categories)] at written
  rcases List.mem_append.1 written with inside | behind
  · exfalso
    rw [filledSection, probe.entryBlock_of_ne apart, List.append_nil] at inside
    rcases List.mem_cons.1 inside with here | inside
    · exact unwritten (here ▸ List.mem_cons_self ..)
    · refine unwritten (List.mem_cons_of_mem _ ?_)
      rcases List.mem_append.1 inside with copied | shown
      · exact (List.takeWhile_sublist _).subset copied
      · obtain ⟨l, left, same⟩ := List.mem_map.1 shown
        rw [probe.substitute] at same
        exact same ▸ (Walk.behindExamples_suffix category _).subset left
  · exact behind

/-- **If no section loses an entry, each but the last shows an example.** -/
theorem shows_of_kept (entry : Entry) (categories : List Category) (once : categories.Nodup)
    (probe : ∀ category, Probe (entry.assignment (.keyed category)) category entry)
    (fresh : ∀ category, entry.assignment (.keyed category) ∉ outline.sections categories)
    (kept : ∀ category ∈ categories, entry.assignment (.keyed category) ∈
      (Walk.mk .copying (outline.sections categories)).run
        (Values.ofDocument (entry.assignment (.keyed category)))) :
    ∀ category ∈ categories.dropLast, outline.Shows category := by
  induction categories with
  | nil => simp
  | cons category categories ih =>
      obtain ⟨absent, onceLater⟩ := List.nodup_cons.1 once
      cases categories with
      | nil => simp
      | cons next later =>
          have apart : category ≠ next := fun same => absent (same ▸ List.mem_cons_self ..)
          have some_ : entry.assignment (.keyed next) ≠ [] := by
            simp [Entry.assignment, Table.assignment]
          have here : outline.Shows category := by
            by_contra hidden
            exact not_mem_run_of_not_shows fits (probe next) some_ (fresh next) hidden apart
              (List.nodup_cons.1 onceLater).1 (kept next (by simp))
          rw [List.dropLast_cons_cons, List.forall_mem_cons]
          refine ⟨here, ih onceLater ?_ ?_⟩
          · intro other member
            exact fresh other (List.mem_append_right _ member)
          · intro other member
            have apart : category ≠ other := fun same => absent (same ▸ member)
            exact mem_run_of_shows fits (probe other) (fresh other) here apart
              (kept other (List.mem_cons_of_mem _ member))

/-! ### Longer than the template -/

/-- A word that is longer than any line of the template. -/
def word (template : Text) : Text := List.replicate (template.length + 1) 'x'

omit fits

theorem mem_word {c : Char} (inside : c ∈ word template) : c = 'x' := List.eq_of_mem_replicate inside

theorem flat_word : (word template).Flat := by
  intro c inside
  rw [mem_word inside]
  decide

/-- A line that holds the word is not in the template. -/
theorem not_mem_of_word {line : Text} (inside : word template <:+: line) : line ∉ template.lines := by
  intro member
  have long := inside.length_le
  have short := Text.length_le_of_mem_lines member
  rw [word, List.length_replicate] at long
  omega

theorem guardsAliases_word : Line.guardsAliases (word template) = false := by
  rw [Bool.eq_false_iff]
  intro guards
  have marker : Table.aliases.unsetTest <:+: word template := (Text.mentions_iff _ _).1 guards
  have bracket : '[' ∈ word template := marker.subset (List.mem_cons_self ..)
  exact absurd (mem_word bracket) (by decide)

/-- An entry whose key is the word. -/
def wordy (template : Text) : Entry := ⟨word template, []⟩

theorem inline_wordy (template : Text) : (wordy template).Inline where
  writable := by
    refine ⟨by simp [wordy, word], fun inside => ?_, List.not_mem_nil⟩
    exact absurd (mem_word inside) (by decide)
  flat := ⟨flat_word, Text.flat_nil⟩

include fits

/-- If no document loses an entry, each section but the last shows an example. -/
theorem examples_of_keeps (keeps : ∀ document, Portable document → Keeps document template) :
    ∀ category ∈ Category.all.dropLast, outline.Shows category := by
  have probe (category : Category) := probe_assignment (inline_wordy template) category
  have fresh (category : Category) :
      (wordy template).assignment (.keyed category) ∉ outline.lines := by
    rw [← fits.lines]
    refine not_mem_of_word ⟨(Table.keyed category).opening, "]=\"\"", ?_⟩
    simp [wordy, Entry.assignment, Table.assignment]
  refine shows_of_kept fits (wordy template) Category.all (by decide) probe ?_ ?_
  · intro category member
    exact fresh category (List.mem_append_right _ (List.mem_cons_of_mem _
      (List.mem_append_right _ member)))
  · intro category _
    have portable := (probe category).portable (inline_wordy template).flat
    have written := (keeps _ portable).entries category
    rw [(probe category).entries, if_pos rfl, fits.lines_normalize portable,
      run_lines fits (probe category).unguarded] at written
    rcases List.mem_append.1 (written.subset (List.mem_cons_self ..)) with front | inSection
    · exact absurd front ((probe category).not_mem_filledFront (fresh category))
    · exact inSection

omit fits

/-- A setting alone on a line is all that the line says. -/
theorem portable_setting (scalar : Scalar) (template : Text) :
    Portable (scalar.assignment (word template)) ∧
      scalar.value? (scalar.assignment (word template)) = some (word template) := by
  have flat : (scalar.assignment (word template)).Flat := scalar.flat_assignment.2 flat_word
  have tables (table : Table) : table.entries (scalar.assignment (word template)) = [] := by
    rw [table.entries_line flat (scalar.whole_assignment _),
      Entry.onLine?_eq_none (scalar.unassigned_assignment _ table)]
    rfl
  have values (other : Scalar) : other.value? (scalar.assignment (word template)) =
      if other = scalar then some (word template) else none := by
    rw [other.value?_line flat, Scalar.isPrefixOf?_assignment]
  refine ⟨⟨?_, ?_, ?_⟩, ?_⟩
  · simp [Alias.ofDocument, tables]
  · simp [Values.entriesOf, tables]
  · intro setting made
    have own := Values.mem_settingsOf.1 made
    rw [values] at own
    split at own
    · rw [← Option.some.inj own]
      exact guardsAliases_word
    · cases own
  · rw [values, if_pos rfl]

include fits

variable (shows_ : ∀ category ∈ Category.all.dropLast, outline.Shows category)
  (keeps : ∀ document, Portable document → Keeps document template)

include shows_ keeps

/-- The word stands wherever the template sets the scalar. -/
theorem settingsOn_filled_word (scalar : Scalar) :
    settingsOn scalar (outline.filled (Values.ofDocument (scalar.assignment (word template)))) =
      (settingsOn scalar template.lines).map fun _ => word template := by
  obtain ⟨portable, given⟩ := portable_setting scalar template
  rw [← fits.lines_normalize_filled portable shows_]
  exact (keeps _ portable).settings scalar (word template) given

/-- If no document loses a setting, no scalar is set in front of the examples of a section. -/
theorem introductions_of_keeps (category : Category) (scalar : Scalar) :
    settingsOn scalar (outline.introduction category) = [] := by
  rw [List.eq_nil_iff_forall_not_mem]
  intro own set
  have line := mem_settingsOn.1 set
  have inSection : scalar.assignment own ∈
      outline.filledSection (Values.ofDocument (scalar.assignment (word template))) category := by
    rw [filledSection]
    exact List.mem_cons_of_mem _ (List.mem_append_left _ (List.mem_append_left _ line))
  have written := mem_settingsOn.2
    ((filledSection_infix_filled outline _ category).subset inSection)
  rw [settingsOn_filled_word fits shows_ keeps scalar] at written
  obtain ⟨-, -, rfl⟩ := List.mem_map.1 written
  -- The line would be one of the template's own.
  refine not_mem_of_word (List.suffix_append scalar.opening (word template)).isInfix ?_
  rw [fits.lines]
  exact outline.body_subset_lines category ((List.takeWhile_sublist _).subset line)

/-- If no document loses a setting, no scalar is set among the template's own aliases. -/
theorem dropped_of_keeps (scalar : Scalar) : settingsOn scalar outline.dropped = [] := by
  obtain ⟨-, given⟩ := portable_setting scalar template
  have own : Setting.valueIn? (Values.ofDocument (scalar.assignment (word template))).settings
      scalar = some (word template) := (Values.valueIn?_settingsOf _ scalar).trans given
  have lengths := congrArg List.length (settingsOn_filled_word fits shows_ keeps scalar)
  rw [settingsOn_filled fits, fits.lines, settingsOn_lines fits, own] at lengths
  simp only [introductions_of_keeps fits shows_ keeps, List.nil_append, Option.getD_some,
    List.map_append, List.map_flatMap, List.length_append, List.length_map] at lengths
  exact List.length_eq_zero_iff.1 (by omega)

end

/-! ## Room is what it takes -/

/-- **A well laid out template keeps what every document says if and only if it has room.** -/
theorem keeps_iff {outline : Outline} {template : Text} (fits : outline.Fits template) :
    (∀ document, Portable document → Keeps document template) ↔ outline.HasRoom := by
  constructor
  · intro keeps
    have shows_ := examples_of_keeps fits keeps
    exact ⟨shows_, dropped_of_keeps fits shows_ keeps, introductions_of_keeps fits shows_ keeps⟩
  · intro room document portable
    exact keeps_of_room fits room portable

/-! ## A small template, with room and without -/

/-- A template whose first section shows an example, or does not. -/
def small (shown : Bool) : Outline where
  preamble := ["CONFIG_VERSION=1"]
  guard := Table.aliases.guardedDeclaration
  shortcuts := ["# REPO_MAPPINGS[x]=\"example\"", "# ==="]
  header := Line.sectionHeader
  body
    | .ide => if shown then ["# REPO_IDE_CONFIGS[x]=\"code\"", "# ==="] else ["# ==="]
    | .ci => ["# Web example:", "# REPO_CONFIGS[x]=\"build\"", "", "# ==="]
    | .modules => ["# ==="]

def smallText (shown : Bool) : Text := Text.unlines (small shown).lines

/-- It is well laid out in both cases. -/
theorem fits_small (shown : Bool) : (small shown).Fits (smallText shown) where
  lines := by
    refine Text.lines_unlines ?_ (by simp [Outline.lines])
    cases shown <;> decide +kernel
  guards := rfl
  silent scalar := by cases scalar <;> rfl
  opens category := by cases category <;> rfl
  unguarded category := by cases category <;> rfl
  plain := by cases shown <;> decide +kernel
  plainBody category := by cases shown <;> cases category <;> decide +kernel
  rule := ⟨"# ===", by cases shown <;> decide +kernel, rfl⟩
  rules category := ⟨"# ===", by cases shown <;> cases category <;> decide +kernel, rfl⟩

/-- A document with an entry of the second section and an older version. -/
def smallDocument : Text := "REPO_CONFIGS[app]=\"make\"\nCONFIG_VERSION=7"

theorem portable_smallDocument : Portable smallDocument where
  aliases := by decide +kernel
  entries category := by cases category <;> decide +kernel
  unguarded := by decide +kernel

/-- With an example in its first section the template keeps what the document says. -/
theorem keeps_iff_small : Keeps smallDocument (smallText true) := by
  have room : (small true).HasRoom :=
    { examples := by
        intro category member
        cases category with
        | ide => exact ⟨"# REPO_IDE_CONFIGS[x]=\"code\"", by decide +kernel, rfl⟩
        | ci => exact ⟨"# Web example:", by decide +kernel, rfl⟩
        | modules => exact absurd member (by decide)
      shortcuts := fun scalar => by cases scalar <;> decide +kernel
      introductions := fun category scalar => by
        cases category <;> cases scalar <;> decide +kernel }
  exact (keeps_iff (fits_small true)).2 room smallDocument portable_smallDocument

/-- **A well laid out template need not keep an entry**: if its first section shows no example,
the entries of the second one are not written. -/
theorem not_kept :
    ¬ ∀ (outline : Outline) (template document : Text), outline.Fits template →
      Portable document → ∀ category, ∀ entry ∈ Values.entriesOf document category,
        entry.assignment (.keyed category) ∈ (Layout.normalize document template).lines := by
  intro kept
  have given : (⟨"app", "make"⟩ : Entry) ∈ Values.entriesOf smallDocument .ci := by
    decide +kernel
  have written := kept (small false) (smallText false) smallDocument (fits_small false)
    portable_smallDocument .ci _ given
  exact absurd written (by decide +kernel)

end Outline

end ConfigUpkeep
