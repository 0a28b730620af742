/-
# ConfigUpkeep.Proofs.Normalization -- a normalized document says what the document said

What is read off the filled bundled template is what was filled in.  This needs that
every entry fits on a line (`Entry.Inline`), that every setting does, and that no
setting mentions the guard of the aliases (`Values.Legible`); an entry that reached
over two lines would be cut apart, and a second guard would bring the aliases twice.

Every line of the filled template is then of one of three kinds: it is mute, or it
sets one scalar, or it is one written entry.  So the text is line-structured
(`lineStructured_fill`), its tables hold the entries of the values and nothing else
(`entries_fill`), and its scalars have the document's values or the template's own
(`value?_fill`).

Everything read off a document can be written again; only that it fits on one line has
to be asked for.  `Layout.normalize_faithful` puts the parts together.
-/
import ConfigUpkeep.Proofs.BundledTemplate

namespace ConfigUpkeep

set_option autoImplicit false

/-! ## Entries on one line -/

namespace Entry

/-- Neither the key nor the value holds a line end. -/
def Flat (entry : Entry) : Prop := entry.key.Flat ∧ entry.value.Flat

instance (entry : Entry) : Decidable entry.Flat :=
  inferInstanceAs (Decidable (entry.key.Flat ∧ entry.value.Flat))

/-- An entry that can be written on one line. -/
structure Inline (entry : Entry) : Prop where
  writable : entry.Writable
  flat : entry.Flat

theorem flat_assignment {entry : Entry} (table : Table) :
    (entry.assignment table).Flat ↔ entry.Flat := by
  have bracket : Text.Flat "]=\"".toList := by decide
  have quote : Text.Flat "\"".toList := by decide
  simp only [assignment, Table.assignment, Text.flat_append]
  constructor
  · rintro ⟨⟨⟨⟨-, key⟩, -⟩, value⟩, -⟩
    exact ⟨key, value⟩
  · rintro ⟨key, value⟩
    exact ⟨⟨⟨⟨table.flat_opening, key⟩, bracket⟩, value⟩, quote⟩

/-- A written entry sets no scalar. -/
theorem silent_assignment (entry : Entry) (table : Table) (scalar : Scalar) (rest : Text) :
    Line.starts scalar.opening (entry.assignment table ++ rest) = false := by
  obtain ⟨c, first, opening, begins⟩ := scalar.opening_eq_cons
  obtain ⟨name, named⟩ := table.opening_eq_cons
  have apart : c ≠ 'R' := by
    rintro rfl
    revert first
    decide
  rw [begins, assignment, Table.assignment, named]
  exact Line.starts_eq_false apart opening _

end Entry

namespace Scalar

/-- A setting assigns to no table. -/
theorem unassigned_assignment (scalar : Scalar) (value : Text) (table : Table) :
    Line.isAssignment table (scalar.assignment value) = false := by
  obtain ⟨c, first, opening, begins⟩ := scalar.opening_eq_cons
  obtain ⟨name, named⟩ := table.opening_eq_cons
  have apart : 'R' ≠ c := by
    rintro rfl
    revert first
    decide
  rw [Line.isAssignment, named, assignment, begins]
  exact Line.starts_eq_false apart name _

theorem flat_assignment (scalar : Scalar) {value : Text} :
    (scalar.assignment value).Flat ↔ value.Flat := by
  rw [assignment, Text.flat_append]
  exact ⟨fun both => both.2, fun flat => ⟨scalar.flat_opening, flat⟩⟩

theorem whole_assignment (scalar : Scalar) (value : Text) :
    Line.Whole (scalar.assignment value) := by
  intro table assigns
  rw [unassigned_assignment] at assigns
  cases assigns

end Scalar

/-! ## Values that can be filled in -/

namespace Values

/-- The entries that the values give a table. -/
def entriesIn (values : Values) : Table → List Entry
  | .aliases => values.aliases.map Alias.toEntry
  | .keyed category => values.entries category

/-- Values that can be read back once they are filled in: entries and settings fit on a
line, and no setting mentions the guard of the aliases. -/
structure Legible (values : Values) : Prop where
  entries : ∀ table, ∀ entry ∈ values.entriesIn table, entry.Inline
  settings : ∀ setting ∈ values.settings, setting.value.Flat
  unguarded : Layout.Unguarded values.settings

/-- A document's settings fit on a line. -/
theorem flat_settingsOf {document : Text} :
    ∀ setting ∈ settingsOf document, setting.value.Flat := by
  intro setting made
  obtain ⟨segment, cut, found⟩ := List.exists_of_findSome?_eq_some (mem_settingsOf.1 made)
  rw [Text.isPrefixOf?_eq_some] at found
  obtain ⟨free, -⟩ := List.of_mem_splitOnP cut
  intro c inside
  exact free c (found ▸ List.mem_append_right _ inside)

/-- The aliases that a document defines are the entries of its alias table. -/
theorem entriesIn_aliases (document : Text) :
    (ofDocument document).entriesIn .aliases = Table.aliases.entries document := by
  simp [entriesIn, ofDocument, Alias.ofDocument, Function.comp_def]

end Values

namespace Alias

/-- A resolved key is the key itself or a shorthand. -/
theorem resolveKey_eq_or (aliases : List Alias) (key : Text) :
    resolveKey aliases key = key ∨ ∃ a ∈ aliases, resolveKey aliases key = a.shorthand := by
  cases found : shorthandOf? aliases key with
  | none => exact Or.inl (resolveKey_of_none found)
  | some shorthand =>
      obtain ⟨a, listed, -, rfl⟩ := exists_of_shorthandOf? found
      exact Or.inr ⟨a, listed, resolveKey_of_some found⟩

theorem writable_of_mem_ofDocument {document : Text} {a : Alias} (member : a ∈ ofDocument document) :
    a.toEntry.Writable := by
  obtain ⟨entry, found, rfl⟩ := List.mem_map.1 member
  exact Entry.writable_of_mem_scan found

/-- An entry stays writable when its key is resolved by a document's aliases. -/
theorem writable_resolveEntry (document : Text) {entry : Entry} (writable : entry.Writable) :
    (resolveEntry (ofDocument document) entry).Writable := by
  rcases resolveKey_eq_or (ofDocument document) entry.key with same | ⟨a, member, short⟩
  · rwa [resolveEntry, same]
  · obtain ⟨nonempty, noBracket, -⟩ := writable_of_mem_ofDocument member
    rw [resolveEntry, short]
    exact ⟨nonempty, noBracket, writable.2.2⟩

end Alias

/-- What a document says can be filled in if each entry is flat and no setting mentions the
guard of the aliases. -/
theorem Values.legible_ofDocument {document : Text}
    (aliases : ∀ a ∈ Alias.ofDocument document, a.toEntry.Flat)
    (entries : ∀ category, ∀ entry ∈ Values.entriesOf document category, entry.Flat)
    (unguarded : Layout.Unguarded (Values.settingsOf document)) :
    (Values.ofDocument document).Legible where
  entries := by
    rintro (_ | category) entry member
    · obtain ⟨a, defined, rfl⟩ := List.mem_map.1 member
      exact ⟨Alias.writable_of_mem_ofDocument defined, aliases a defined⟩
    · obtain ⟨raw, found, rfl⟩ := List.mem_map.1 member
      exact ⟨Alias.writable_resolveEntry document (Entry.writable_of_mem_scan found),
        entries category _ member⟩
  settings := Values.flat_settingsOf
  unguarded := unguarded

/-! ## The lines of the filled template -/

namespace Template

open Line

variable {values : Values}

/-- The kinds of lines in a template filled with values. -/
inductive Written (values : Values) : Text → Prop where
  | mute {line : Text} : Mute line → Written values line
  | setting (scalar : Scalar) {value : Text} : value.Flat → Written values (scalar.assignment value)
  | entry (table : Table) {entry : Entry} :
      entry ∈ values.entriesIn table → Written values (entry.assignment table)

theorem Written.flat (legible : values.Legible) {line : Text} (written : Written values line) :
    line.Flat := by
  cases written with
  | mute mute => exact mute.flat
  | setting scalar flat => exact scalar.flat_assignment.2 flat
  | entry table member => exact (Entry.flat_assignment table).2 (legible.entries table _ member).flat

theorem Written.whole (legible : values.Legible) {line : Text} (written : Written values line) :
    Whole line := by
  cases written with
  | mute mute => exact mute.whole
  | setting scalar flat => exact scalar.whole_assignment _
  | entry table member => exact Entry.whole_of_writable (legible.entries table _ member).writable table

/-- Before the guard stand mute lines and settings, the document's own if it makes them. -/
theorem mute_or_setting (settings : List Setting) :
    ∀ l ∈ beforeGuard.map (Layout.substitute settings), Mute l ∨
      ∃ scalar : Scalar,
        l = scalar.assignment ((Setting.valueIn? settings scalar).getD (preset scalar)) := by
  intro l member
  obtain ⟨line, listed, rfl⟩ := List.mem_map.1 member
  rcases isRemark_or_preset line listed with remark | ⟨scalar, rfl⟩
  · have mute := mute_of_isRemark remark
    rw [substitute_of_mute settings mute]
    exact Or.inl mute
  · exact Or.inr ⟨scalar, Layout.substitute_assignment settings scalar _⟩

theorem mute_of_mem_sectionWith {category : Category} {entries : List Entry} {l : Text}
    (member : l ∈ sectionWith category entries) :
    Mute l ∨ ∃ entry ∈ entries, l = entry.assignment (.keyed category) := by
  simp only [sectionWith, List.cons_append, List.mem_cons, List.mem_append] at member
  rcases member with rfl | rfl | (inside | inside) | inside
  · exact Or.inl (mute_of_isRemark isRemark_rule)
  · exact Or.inl (mute_header category)
  · exact Or.inl (mute_of_isRemark (isRemark_of_isProse (isProse_introduction category l inside)))
  · rcases Layout.mem_entryBlock inside with rfl | written
    · exact Or.inl mute_nil
    · exact Or.inr written
  · exact Or.inl (mute_of_isRemark (isRemark_remainder category l inside))

/-- Every line of the filled template is of one of the kinds. -/
theorem written_of_mem_filled (legible : values.Legible) :
    ∀ l ∈ filled values, Written values l := by
  have sections {l : Text} (category : Category)
      (inside : l ∈ sectionWith category (values.entries category)) : Written values l := by
    rcases mute_of_mem_sectionWith inside with mute | ⟨entry, listed, rfl⟩
    · exact .mute mute
    · exact .entry (.keyed category) listed
  intro l member
  simp only [filled, List.cons_append, List.mem_cons, List.mem_append] at member
  rcases member with inside | rfl | inside | inside | inside | inside | inside
  · rcases mute_or_setting values.settings l inside with mute | ⟨scalar, rfl⟩
    · exact .mute mute
    · refine .setting scalar ?_
      cases given : Setting.valueIn? values.settings scalar with
      | none => exact flat_preset scalar
      | some value =>
          obtain ⟨setting, first, rfl⟩ := Option.map_eq_some_iff.1 given
          exact legible.settings setting (List.mem_of_find?_eq_some first)
  · exact .mute (mute_guardedDeclaration .aliases)
  · rcases Layout.mem_aliasBlock inside with rfl | ⟨a, defined, rfl⟩
    · exact .mute mute_nil
    · exact .entry .aliases (List.mem_map.2 ⟨a, defined, rfl⟩)
  · exact sections .ide inside
  · exact sections .ci inside
  · exact sections .modules inside
  · exact .mute (mute_computed l inside)

/-! ### Its entries -/

/-- No entry stands before the guard. -/
theorem filterMap_beforeGuard (settings : List Setting) (table : Table) :
    (beforeGuard.map (Layout.substitute settings)).filterMap (Entry.onLine? table) = [] := by
  rw [List.filterMap_eq_nil_iff]
  intro l member
  rcases mute_or_setting settings l member with mute | ⟨scalar, rfl⟩
  · exact mute.onLine? table
  · exact Entry.onLine?_eq_none (scalar.unassigned_assignment _ table)

theorem filterMap_aliasBlock {aliases : List Alias}
    (writable : ∀ a ∈ aliases, a.toEntry.Writable) (table : Table) :
    (Layout.aliasBlock aliases).filterMap (Entry.onLine? table) =
      if table = .aliases then aliases.map Alias.toEntry else [] := by
  have listed : ∀ entry ∈ aliases.map Alias.toEntry, entry.Writable := by simpa using writable
  have found := Entry.filterMap_assignment table .aliases listed
  rw [List.map_map] at found
  rw [Layout.aliasBlock]
  split
  · rename_i none_
    rw [List.isEmpty_iff.1 none_]
    simp
  · rw [List.filterMap_cons_none (mute_nil.onLine? table)]
    exact found

theorem filterMap_entryBlock {entries : List Entry} (writable : ∀ entry ∈ entries, entry.Writable)
    (category : Category) (table : Table) :
    (Layout.entryBlock category entries).filterMap (Entry.onLine? table) =
      if table = .keyed category then entries else [] := by
  have gap : [[]].filterMap (Entry.onLine? table) = [] :=
    Entry.filterMap_mute table (by simpa using mute_nil)
  rw [Layout.entryBlock]
  split
  · rename_i none_
    rw [List.isEmpty_iff.1 none_]
    simp
  · rw [List.cons_append, List.filterMap_cons_none (mute_nil.onLine? table), List.filterMap_append,
      Entry.filterMap_assignment table (.keyed category) writable, gap, List.append_nil]

/-- In a section stand the entries of its category, and no others. -/
theorem filterMap_sectionWith {entries : List Entry} (writable : ∀ entry ∈ entries, entry.Writable)
    (category : Category) (table : Table) :
    (sectionWith category entries).filterMap (Entry.onLine? table) =
      if table = .keyed category then entries else [] := by
  have title := (mute_of_isRemark isRemark_rule).onLine? table
  have header := (mute_header category).onLine? table
  have introduction := Entry.filterMap_mute table fun l member =>
    mute_of_isRemark (isRemark_of_isProse (isProse_introduction category l member))
  have remainder := Entry.filterMap_mute table fun l member =>
    mute_of_isRemark (isRemark_remainder category l member)
  rw [sectionWith, List.filterMap_append, remainder, List.append_nil, List.filterMap_cons_none title,
    List.filterMap_cons_none header, List.filterMap_append, introduction, List.nil_append,
    filterMap_entryBlock writable]

/-- **The entries on the lines of the filled template** are those filled in. -/
theorem filterMap_filled (legible : values.Legible) (table : Table) :
    (filled values).filterMap (Entry.onLine? table) = values.entriesIn table := by
  have guard := (mute_guardedDeclaration .aliases).onLine? table
  have bottom := Entry.filterMap_mute table mute_computed
  have writable (category : Category) : ∀ entry ∈ values.entries category, entry.Writable :=
    fun entry member => (legible.entries (.keyed category) entry member).writable
  have aliases : ∀ a ∈ values.aliases, a.toEntry.Writable :=
    fun a member => (legible.entries .aliases _ (List.mem_map_of_mem member)).writable
  simp only [filled, List.filterMap_append, filterMap_beforeGuard, List.cons_append,
    List.filterMap_cons_none guard, filterMap_aliasBlock aliases, filterMap_sectionWith (writable _),
    bottom]
  rcases table with _ | _ | _ | _ <;> simp [Values.entriesIn]

/-! ### Its settings -/

/-- Before the guard the template makes each setting. -/
theorem mem_beforeGuard (scalar : Scalar) : scalar.assignment (preset scalar) ∈ beforeGuard := by
  have at_ : ∃ n : Nat, beforeGuard[n]? = some (scalar.assignment (preset scalar)) := by
    cases scalar with
    | configVersion => exact ⟨5, congrArg some (by decide)⟩
    | gitUsername => exact ⟨11, congrArg some (by decide)⟩
    | branchPrefix => exact ⟨16, congrArg some (by decide)⟩
    | baseDevPath => exact ⟨20, congrArg some (by decide)⟩
  obtain ⟨n, found⟩ := at_
  exact List.mem_of_getElem? found

/-- Before the guard the template makes each setting once at most. -/
theorem findSome?_beforeGuard (scalar : Scalar) :
    (beforeGuard.findSome? fun l => scalar.opening.isPrefixOf? l) = some (preset scalar) := by
  have only : ∀ l ∈ beforeGuard, ∀ value, scalar.opening.isPrefixOf? l = some value →
      value = preset scalar := by
    intro l member value found
    rcases isRemark_or_preset l member with remark | ⟨other, rfl⟩
    · rw [(mute_of_isRemark remark).isPrefixOf? scalar] at found
      cases found
    · rw [Scalar.isPrefixOf?_assignment] at found
      split at found
      · rename_i same
        cases found
        rw [same]
      · cases found
  rcases Scalar.findSome?_of_forall only with none_ | one
  · have missing := List.findSome?_eq_none_iff.1 none_ _ (mem_beforeGuard scalar)
    rw [Scalar.isPrefixOf?_assignment, if_pos rfl] at missing
    cases missing
  · exact one

/-- **The settings on the lines of the filled template** are the document's, or the template's
own. -/
theorem findSome?_filled (values : Values) (scalar : Scalar) :
    ((filled values).findSome? fun l => scalar.opening.isPrefixOf? l) =
      some ((Setting.valueIn? values.settings scalar).getD (preset scalar)) := by
  rw [filled, List.findSome?_append, Layout.findSome?_substitute, findSome?_beforeGuard]
  rfl

/-- The template's own setting of a scalar. -/
theorem value?_text (scalar : Scalar) : scalar.value? text = some (preset scalar) := by
  rw [text, scalar.value?_unlines flat_lines (by simp [lines_eq]), lines_eq, List.findSome?_append,
    findSome?_beforeGuard]
  rfl

end Template

/-! ## Reading the filled template -/

namespace Layout

variable {values : Values}

theorem fill_text (unguarded : Unguarded values.settings) :
    fill values Template.text = Text.unlines (Template.filled values) := by
  rw [fill, Template.run_template values unguarded]

theorem filled_ne_nil (values : Values) : Template.filled values ≠ [] := by
  simp [Template.filled]

/-- The filled template can be read line by line. -/
theorem lineStructured_fill (legible : values.Legible) :
    LineStructured (fill values Template.text) := by
  have written := Template.written_of_mem_filled legible
  rw [fill_text legible.unguarded]
  exact LineStructured.unlines (fun l member => (written l member).flat legible)
    (fun l member => (written l member).whole legible) (filled_ne_nil values)

/-- The tables of the filled template hold the entries filled in. -/
theorem entries_fill (legible : values.Legible) (table : Table) :
    table.entries (fill values Template.text) = values.entriesIn table := by
  have written := Template.written_of_mem_filled legible
  rw [fill_text legible.unguarded,
    table.entries_unlines (fun l member => (written l member).flat legible)
      (fun l member => (written l member).whole legible),
    Template.filterMap_filled legible]

/-- The scalars of the filled template have the values filled in, or the template's own. -/
theorem value?_fill (legible : values.Legible) (scalar : Scalar) :
    scalar.value? (fill values Template.text) =
      some ((Setting.valueIn? values.settings scalar).getD (Template.preset scalar)) := by
  have written := Template.written_of_mem_filled legible
  rw [fill_text legible.unguarded,
    scalar.value?_unlines (fun l member => (written l member).flat legible) (filled_ne_nil values),
    Template.findSome?_filled]

/-! ## Normalizing -/

variable {document : Text}

/-- Normalizing keeps the aliases. -/
theorem aliases_normalize (legible : (Values.ofDocument document).Legible) :
    Alias.ofDocument (normalize document Template.text) = Alias.ofDocument document := by
  rw [Alias.ofDocument, normalize, entries_fill legible, Values.entriesIn_aliases]
  rfl

/-- Normalizing keeps the settings that the document makes, and makes those of the template
that it does not make. -/
theorem value?_normalize (legible : (Values.ofDocument document).Legible) (scalar : Scalar) :
    scalar.value? (normalize document Template.text) =
      some ((scalar.value? document).getD (Template.preset scalar)) := by
  have given : Setting.valueIn? (Values.ofDocument document).settings scalar =
      scalar.value? document := Values.valueIn?_settingsOf document scalar
  rw [normalize, value?_fill legible, given]

/-- **Normalizing is faithful**: no alias, no entry and no setting is lost, doubled, moved or
made up.  The normalized document defines the aliases of the document, its keyed tables hold
the document's entries with their keys resolved, and its scalars have the document's values,
or the template's own where the document has none. -/
theorem normalize_faithful (document : Text)
    (aliases : ∀ a ∈ Alias.ofDocument document, a.toEntry.Flat)
    (entries : ∀ category, ∀ entry ∈ Values.entriesOf document category, entry.Flat)
    (unguarded : Unguarded (Values.settingsOf document)) :
    Alias.ofDocument (normalize document Template.text) = Alias.ofDocument document ∧
      (∀ category, (Table.keyed category).entries (normalize document Template.text) =
        Values.entriesOf document category) ∧
      ∀ scalar : Scalar, ∃ own, scalar.value? Template.text = some own ∧
        scalar.value? (normalize document Template.text) =
          some ((scalar.value? document).getD own) := by
  have legible := Values.legible_ofDocument aliases entries unguarded
  refine ⟨aliases_normalize legible, fun category => ?_, fun scalar => ?_⟩
  · exact entries_fill legible (.keyed category)
  · exact ⟨Template.preset scalar, Template.value?_text scalar, value?_normalize legible scalar⟩

/-- A document that keys a table by a canonical name: its prefix and its alias are kept, and
the key is resolved. -/
theorem normalize_faithful_canonical :
    let document : Text :=
      "BRANCH_PREFIX=\"me\"\nREPO_MAPPINGS[a]=\"App\"\nREPO_CONFIGS[App]=\"make||\""
    Alias.ofDocument (normalize document Template.text) = [⟨"a", "App"⟩] ∧
      (Table.keyed .ci).entries (normalize document Template.text) = [⟨"a", "make||"⟩] ∧
      Scalar.branchPrefix.value? (normalize document Template.text) = some "\"me\"" := by
  intro document
  have entries : ∀ category, ∀ entry ∈ Values.entriesOf document category, entry.Flat := by
    intro category
    cases category <;> decide +kernel
  obtain ⟨aliases, keyed, scalars⟩ :=
    normalize_faithful document (by decide +kernel) entries (by decide +kernel)
  obtain ⟨own, -, kept⟩ := scalars .branchPrefix
  refine ⟨aliases.trans ?_, (keyed .ci).trans ?_, kept.trans ?_⟩
  · decide +kernel
  · decide +kernel
  · have given : Scalar.branchPrefix.value? document = some "\"me\"" := by decide +kernel
    rw [given]
    rfl

end Layout

end ConfigUpkeep
