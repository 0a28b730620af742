/-
# ConfigUpkeep.Proofs.Agreement -- changes that leave alone what a document says

Two documents agree if they define the same aliases, hold the same entries once keys are
resolved, and make the same settings up to those of the bundled template (`Agrees`).
Mending a document and migrating it keep this, for a document that is read line by line:

* mending only adds mute lines (`Padded`), and so does the declaration of tables
  in a migration;
* renaming a key in the first column resolves it, and a key that is resolved already
  stays as it is; renaming a key behind an indent happens where no reader looks
  (`resolved_renameLine`);
* the version is stamped on a document that sets none, and the version is the template's.

A shorthand may be some alias's canonical name.  Resolving such a key twice could give a
third one, so renaming needs that shorthands are resolved already (`Alias.Settled`).
-/
import Mathlib.Data.List.Basic
import ConfigUpkeep.Document.Revision
import ConfigUpkeep.Proofs.Chains
import ConfigUpkeep.Proofs.Normalization
import ConfigUpkeep.Proofs.Padding

namespace ConfigUpkeep

set_option autoImplicit false

/-! ## Agreement -/

/-- The second document can be read line by line and says what the first one says, up to
the settings of the bundled template. -/
structure Agrees (first second : Text) : Prop where
  structured : LineStructured second
  aliases : Alias.ofDocument second = Alias.ofDocument first
  entries : ∀ category, Values.entriesOf second category = Values.entriesOf first category
  scalars : ∀ scalar : Scalar, (scalar.value? second).getD (Template.preset scalar) =
    (scalar.value? first).getD (Template.preset scalar)

namespace Agrees

theorem refl {document : Text} (structured : LineStructured document) :
    Agrees document document :=
  ⟨structured, rfl, fun _ => rfl, fun _ => rfl⟩

theorem trans {first second third : Text} (left : Agrees first second)
    (right : Agrees second third) : Agrees first third where
  structured := right.structured
  aliases := right.aliases.trans left.aliases
  entries category := (right.entries category).trans (left.entries category)
  scalars scalar := (right.scalars scalar).trans (left.scalars scalar)

/-- Documents with the same entries in every table agree if their settings do. -/
theorem of_entries {first second : Text} (structured : LineStructured second)
    (tables : ∀ table : Table, table.entries second = table.entries first)
    (scalars : ∀ scalar : Scalar, (scalar.value? second).getD (Template.preset scalar) =
      (scalar.value? first).getD (Template.preset scalar)) : Agrees first second := by
  have aliases : Alias.ofDocument second = Alias.ofDocument first := by
    rw [Alias.ofDocument, tables, Alias.ofDocument]
  refine ⟨structured, aliases, fun category => ?_, scalars⟩
  rw [Values.entriesOf, tables, aliases, Values.entriesOf]

end Agrees

/-! ## Adding mute lines -/

namespace Padded

variable {document : Text} {ms : List Text} (structured : LineStructured document)
  (padded : Padded document.lines ms)

include structured padded

theorem flat : ∀ l ∈ ms, l.Flat := by
  intro l member
  rcases padded.mem_or_mute member with old | mute
  · exact structured.flat l old
  · exact mute.flat

theorem whole : ∀ l ∈ ms, Line.Whole l := by
  intro l member
  rcases padded.mem_or_mute member with old | mute
  · exact structured.whole l old
  · exact mute.whole

theorem lineStructured : LineStructured (Text.unlines ms) :=
  .unlines (padded.flat structured) (padded.whole structured)
    (padded.ne_nil (Text.lines_ne_nil document))

/-- Mute lines hold no entry. -/
theorem entries (table : Table) : table.entries (Text.unlines ms) = table.entries document := by
  rw [table.entries_unlines (padded.flat structured) (padded.whole structured), structured.entries,
    padded.filterMap_eq fun l mute => mute.onLine? table]

/-- Mute lines set no scalar. -/
theorem value? (scalar : Scalar) : scalar.value? (Text.unlines ms) = scalar.value? document := by
  rw [scalar.value?_unlines (padded.flat structured) (padded.ne_nil (Text.lines_ne_nil document)),
    structured.value?, padded.findSome?_eq fun l mute => mute.isPrefixOf? scalar]

/-- A document with mute lines added agrees with the document. -/
theorem agrees : Agrees document (Text.unlines ms) :=
  .of_entries (padded.lineStructured structured) (padded.entries structured) fun scalar => by
    rw [padded.value? structured scalar]

end Padded

namespace Repair

theorem agrees_declarations (uses : Uses) {document : Text} (structured : LineStructured document) :
    Agrees document (declarations uses document).document :=
  Padded.agrees structured (padded_declaredLines uses _ _)

/-- **Mending keeps what a document says.** -/
theorem agrees_check {document : Text} (structured : LineStructured document) :
    Agrees document (check document).document := by
  have declared := agrees_declarations
    (fun category => Line.isAssignment (.keyed category)) structured
  exact declared.trans (Padded.agrees declared.structured (padded_spacedLines _))

end Repair

/-! ## Renaming keys -/

namespace Alias

/-- Shorthands are resolved already: one that is a canonical name too resolves to itself. -/
def Settled (aliases : List Alias) : Prop :=
  ∀ a ∈ aliases, (∃ b ∈ aliases, b.canonical = a.shorthand) →
    resolveKey aliases a.shorthand = a.shorthand

instance (aliases : List Alias) : Decidable (Settled aliases) :=
  inferInstanceAs (Decidable (∀ a ∈ aliases, _ → _))

/-- Where shorthands are resolved, no key is chained. -/
theorem Settled.not_chained {aliases : List Alias} (settled : Settled aliases) (key : Text) :
    ¬ Chained aliases key := by
  rintro ⟨middle, last, short, next, differ⟩
  obtain ⟨a, listed, -, rfl⟩ := exists_of_shorthandOf? short
  obtain ⟨b, there, named, -⟩ := exists_of_shorthandOf? next
  have same := settled a listed ⟨b, there, named⟩
  rw [resolveKey_of_some next] at same
  exact differ same

theorem map_resolveEntry {aliases : List Alias} (settled : Settled aliases) (entries : List Entry) :
    (entries.map (resolveEntry aliases)).map (resolveEntry aliases) =
      entries.map (resolveEntry aliases) :=
  (map_resolveEntry_iff entries).2 fun entry _ => settled.not_chained entry.key

end Alias

theorem Entry.flat_of_mem {document : Text} (structured : LineStructured document) {table : Table}
    {entry : Entry} (member : entry ∈ table.entries document) : entry.Flat := by
  rw [structured.entries] at member
  obtain ⟨line, listed, found⟩ := List.mem_filterMap.1 member
  obtain ⟨⟨read, after⟩, here, rfl⟩ := Option.map_eq_some_iff.1 found
  obtain ⟨rfl, -⟩ := Entry.eq_of_read? here
  have flat := structured.flat _ listed
  exact (Entry.flat_assignment table).1 (Text.flat_append.1 flat).1

theorem Alias.flat_of_mem {document : Text} (structured : LineStructured document) :
    ∀ a ∈ ofDocument document, a.toEntry.Flat := by
  intro a defined
  obtain ⟨entry, found, rfl⟩ := List.mem_map.1 defined
  exact Entry.flat_of_mem structured found

/-- An assignment in the first column has no indent. -/
theorem Line.indent_of_isAssignment {table : Table} {line : Text}
    (assigns : isAssignment table line = true) : line.indent = [] := by
  have joined := Text.indent_append_dropIndent line
  rw [dropIndent_of_isAssignment assigns] at joined
  exact List.append_left_eq_self.1 joined

namespace Migration

/-- A key behind the opening of its table is found, with the rest of the line behind it. -/
theorem keyIn?_opening_append (table : Table) {key : Text} (some_ : key ≠ []) (free : ']' ∉ key)
    (rest : Text) : keyIn? table (table.opening ++ (key ++ ']' :: rest)) = some (key, rest) := by
  have opened : table.opening.isPrefixOf? (table.opening ++ (key ++ ']' :: rest)) =
      some (key ++ ']' :: rest) := Text.isPrefixOf?_eq_some.2 rfl
  have closed : ("]" : Text).isPrefixOf? (']' :: rest) = some rest :=
    Text.isPrefixOf?_eq_some.2 rfl
  obtain ⟨keyRead, behindKey⟩ := Entry.before_append free rest
  rw [keyIn?, opened, Option.bind_some, keyRead, behindKey, if_neg some_, closed]
  rfl

/-- A key is found only behind the opening of its table. -/
theorem eq_of_keyIn? {table : Table} {line key rest : Text}
    (found : keyIn? table line = some (key, rest)) : line = table.opening ++ (key ++ ']' :: rest) := by
  simp only [keyIn?, Option.bind_eq_some_iff] at found
  obtain ⟨inner, opened, found⟩ := found
  split at found
  · cases found
  · simp only [Option.map_eq_some_iff, Prod.mk.injEq] at found
    obtain ⟨after, closed, rfl, rfl⟩ := found
    rw [Text.isPrefixOf?_eq_some] at opened closed
    calc line = table.opening ++ (Entry.before ']' inner ++ Entry.onward ']' inner) := by
          rw [Entry.before_append_onward, opened]
      _ = _ := by
          rw [closed]
          rfl

theorem keyIn?_eq_none {table : Table} {line : Text}
    (other : Line.isAssignment table line = false) : keyIn? table line = none := by
  rw [Option.eq_none_iff_forall_ne_some]
  rintro ⟨key, rest⟩ found
  have starts : Line.isAssignment table line = true := by
    rw [Line.isAssignment, Line.starts_iff, eq_of_keyIn? found]
    exact List.prefix_append _ _
  rw [other] at starts
  cases starts

/-- Where a line is renamed, a key behind its indent has a shorthand. -/
theorem exists_of_renameIn? {aliases : List Alias} {line rest : Text} {rename : Rename}
    (found : renameIn? aliases line = some (rename, rest)) :
    line.dropIndent =
        (Table.keyed rename.category).opening ++ (rename.canonical ++ ']' :: rest) ∧
      Alias.shorthandOf? aliases rename.canonical = some rename.shorthand := by
  obtain ⟨category, -, here⟩ := List.exists_of_findSome?_eq_some found
  obtain ⟨⟨key, after⟩, keyed, here⟩ := Option.bind_eq_some_iff.1 here
  obtain ⟨shorthand, short, same⟩ := Option.map_eq_some_iff.1 here
  cases same
  exact ⟨eq_of_keyIn? keyed, short⟩

/-- A line with a key behind its indent is renamed if the key has a shorthand. -/
theorem renameIn?_of_dropIndent (aliases : List Alias) (category : Category) {key rest line : Text}
    (some_ : key ≠ []) (free : ']' ∉ key)
    (behind : line.dropIndent = (Table.keyed category).opening ++ (key ++ ']' :: rest)) :
    renameIn? aliases line = (Alias.shorthandOf? aliases key).map fun shorthand =>
      (⟨category, key, shorthand⟩, rest) := by
  have here := keyIn?_opening_append (.keyed category) some_ free rest
  have elsewhere (other : Category) (apart : other ≠ category) :
      keyIn? (.keyed other) ((Table.keyed category).opening ++ (key ++ ']' :: rest)) = none := by
    refine keyIn?_eq_none ((Line.isAssignment_opening_append _ _ _).trans ?_)
    exact decide_eq_false fun same => apart (Table.keyed.inj same)
  rw [renameIn?, behind]
  cases short : Alias.shorthandOf? aliases key <;> cases category <;>
    simp [Category.all, here, elsewhere, short]

/-- A line that starts with a written entry is renamed by resolving the entry. -/
theorem renameLine_assignment (aliases : List Alias) (category : Category) {entry : Entry}
    (writable : entry.Writable) (rest : Text) :
    renameLine aliases (entry.assignment (.keyed category) ++ rest) =
      (Alias.resolveEntry aliases entry).assignment (.keyed category) ++ rest := by
  have starts : Line.isAssignment (.keyed category)
      (entry.assignment (.keyed category) ++ rest) = true :=
    (Entry.isAssignment_assignment _ _ entry rest).trans (decide_eq_true rfl)
  have written : entry.assignment (.keyed category) ++ rest = (Table.keyed category).opening ++
      (entry.key ++ ']' :: '=' :: '"' :: (entry.value ++ '"' :: rest)) := by
    simp [Entry.assignment, Table.assignment]
  have called := renameIn?_of_dropIndent aliases category writable.1 writable.2.1
    ((Line.dropIndent_of_isAssignment starts).trans written)
  rw [renameLine, called, Line.indent_of_isAssignment starts]
  cases short : Alias.shorthandOf? aliases entry.key with
  | none => simp [Alias.resolveEntry, Alias.resolveKey, short]
  | some shorthand =>
      simp [Alias.resolveEntry, Alias.resolveKey, short, Entry.assignment, Table.assignment]

/-- Any other line is renamed, if at all, behind an indent. -/
theorem renameLine_of_unkeyed (aliases : List Alias) {line : Text}
    (unkeyed : ∀ category, Line.isAssignment (.keyed category) line = false) :
    renameLine aliases line = line ∨
      ∃ c rest renamed, Text.isSpace c = true ∧ line = c :: rest ∧
        renameLine aliases line = c :: renamed := by
  rw [renameLine]
  cases called : renameIn? aliases line with
  | none => exact Or.inl rfl
  | some found =>
      obtain ⟨rename, rest⟩ := found
      obtain ⟨behind, -⟩ := exists_of_renameIn? called
      have joined := Text.indent_append_dropIndent line
      right
      cases blank : line.indent with
      | nil =>
          rw [blank, List.nil_append] at joined
          have starts : Line.isAssignment (.keyed rename.category) line = true := by
            rw [Line.isAssignment, Line.starts_iff, ← joined, behind]
            exact List.prefix_append _ _
          rw [unkeyed] at starts
          cases starts
      | cons c indent =>
          rw [blank, List.cons_append] at joined
          have space : Text.isSpace c = true := by
            have all : line.indent.all Text.isSpace = true := List.all_takeWhile
            rw [blank, List.all_cons, Bool.and_eq_true] at all
            exact all.1
          exact ⟨c, _, _, space, joined.symm, rfl⟩

theorem flat_renameLine {aliases : List Alias} (short : ∀ a ∈ aliases, a.toEntry.Flat)
    {line : Text} (flat : line.Flat) : (renameLine aliases line).Flat := by
  rw [renameLine]
  split
  · rename_i rename rest called
    obtain ⟨behind, resolved⟩ := exists_of_renameIn? called
    obtain ⟨a, listed, -, same⟩ := Alias.exists_of_shorthandOf? resolved
    have shorthand : rename.shorthand.Flat := same ▸ (short a listed).1
    rw [← Text.indent_append_dropIndent line, behind] at flat
    simp only [Text.flat_append, Text.flat_cons] at flat
    obtain ⟨indent, opening, -, -, after⟩ := flat
    have bracket : Text.Flat "]".toList := by decide
    simp only [Text.flat_append]
    exact ⟨⟨⟨⟨indent, opening⟩, shorthand⟩, bracket⟩, after⟩
  · exact flat

/-- To a reader the second line is the first one with the entry on it resolved, if an entry of a
keyed table stands there. -/
structure Resolved (aliases : List Alias) (line renamed : Text) : Prop where
  whole : Line.Whole renamed
  definitions : Entry.onLine? .aliases renamed = Entry.onLine? .aliases line
  entries : ∀ category, Entry.onLine? (.keyed category) renamed =
    (Entry.onLine? (.keyed category) line).map (Alias.resolveEntry aliases)
  scalars : ∀ scalar : Scalar, scalar.opening.isPrefixOf? renamed = scalar.opening.isPrefixOf? line

namespace Resolved

variable {aliases : List Alias}

theorem of_same {line : Text} (whole : Line.Whole line)
    (unkeyed : ∀ category, Line.isAssignment (.keyed category) line = false) :
    Resolved aliases line line where
  whole := whole
  definitions := rfl
  entries category := by
    rw [Entry.onLine?_eq_none (unkeyed category)]
    rfl
  scalars _ := rfl

theorem of_mute {line renamed : Text} (before : Line.Mute line) (after : Line.Mute renamed) :
    Resolved aliases line renamed where
  whole := after.whole
  definitions := by rw [after.onLine?, before.onLine?]
  entries category := by
    rw [after.onLine?, before.onLine?]
    rfl
  scalars scalar := by rw [after.isPrefixOf?, before.isPrefixOf?]

theorem of_assignment {entry : Entry} (writable : entry.Writable)
    (resolved : (Alias.resolveEntry aliases entry).Writable) (category : Category) (rest : Text) :
    Resolved aliases (entry.assignment (.keyed category) ++ rest)
      ((Alias.resolveEntry aliases entry).assignment (.keyed category) ++ rest) where
  whole := Entry.whole_assignment resolved _ rest
  definitions := by
    rw [Entry.onLine?_eq_none, Entry.onLine?_eq_none]
    · exact Entry.isAssignment_assignment _ _ _ _
    · exact Entry.isAssignment_assignment _ _ _ _
  entries other := by
    by_cases same : other = category
    · subst same
      rw [Entry.onLine?_assignment _ resolved, Entry.onLine?_assignment _ writable]
      rfl
    · have apart : Table.keyed other ≠ .keyed category := fun e => same (Table.keyed.inj e)
      rw [Entry.onLine?_eq_none, Entry.onLine?_eq_none]
      · rfl
      · exact (Entry.isAssignment_assignment _ _ _ _).trans (decide_eq_false apart)
      · exact (Entry.isAssignment_assignment _ _ _ _).trans (decide_eq_false apart)
  scalars scalar := by
    rw [Scalar.isPrefixOf?_eq_none (Entry.silent_assignment _ _ scalar rest),
      Scalar.isPrefixOf?_eq_none (Entry.silent_assignment _ _ scalar rest)]

end Resolved

/-- The lines of a document with its keys replaced by shorthands. -/
def renamedLines (document : Text) : List Text :=
  document.lines.map (renameLine (Alias.ofDocument document))

section

variable {document : Text} (structured : LineStructured document)

include structured

/-- Renaming resolves the entry on a line and changes nothing else that a reader finds. -/
theorem resolved_renameLine {line : Text} (listed : line ∈ document.lines) :
    Resolved (Alias.ofDocument document) line (renameLine (Alias.ofDocument document) line) := by
  have flat := structured.flat line listed
  have whole := structured.whole line listed
  by_cases keyed : ∃ category, Line.isAssignment (.keyed category) line = true
  · obtain ⟨category, starts⟩ := keyed
    obtain ⟨entry, rest, writable, rfl⟩ := whole _ starts
    rw [renameLine_assignment _ _ writable]
    exact .of_assignment writable (Alias.writable_resolveEntry document writable) category rest
  · have unkeyed : ∀ category, Line.isAssignment (.keyed category) line = false := by
      intro category
      cases starts : Line.isAssignment (.keyed category) line with
      | false => rfl
      | true => exact absurd ⟨category, starts⟩ keyed
    rcases renameLine_of_unkeyed (Alias.ofDocument document) unkeyed with
      same | ⟨c, rest, renamed, space, rfl, changed⟩
    · rw [same]
      exact .of_same whole unkeyed
    · -- The line is indented, and no reader looks behind an indent.
      have other : c ∉ ['R', 'G', 'B', 'C'] := by
        intro first
        simp only [List.mem_cons, List.not_mem_nil, or_false] at first
        rcases first with rfl | rfl | rfl | rfl <;> revert space <;> decide
      have kept := flat_renameLine (Alias.flat_of_mem structured) flat
      rw [changed] at kept ⊢
      exact .of_mute (Line.mute_of_first flat other) (Line.mute_of_first kept other)

theorem flat_renamedLines : ∀ l ∈ renamedLines document, l.Flat := by
  intro l member
  obtain ⟨line, listed, rfl⟩ := List.mem_map.1 member
  exact flat_renameLine (Alias.flat_of_mem structured) (structured.flat line listed)

theorem whole_renamedLines : ∀ l ∈ renamedLines document, Line.Whole l := by
  intro l member
  obtain ⟨line, listed, rfl⟩ := List.mem_map.1 member
  exact (resolved_renameLine structured listed).whole

theorem aliases_renamed :
    Alias.ofDocument (Text.unlines (renamedLines document)) = Alias.ofDocument document := by
  have same : Table.aliases.entries (Text.unlines (renamedLines document)) =
      Table.aliases.entries document := by
    rw [Table.entries_unlines _ (flat_renamedLines structured) (whole_renamedLines structured),
      renamedLines, List.filterMap_map, structured.entries]
    refine List.filterMap_congr fun line listed => ?_
    exact (resolved_renameLine structured listed).definitions
  rw [Alias.ofDocument, same, Alias.ofDocument]

/-- The entries of a renamed document are the document's own, resolved. -/
theorem entries_renamed (category : Category) :
    (Table.keyed category).entries (Text.unlines (renamedLines document)) =
      Values.entriesOf document category := by
  rw [Table.entries_unlines _ (flat_renamedLines structured) (whole_renamedLines structured),
    renamedLines, List.filterMap_map, Values.entriesOf, structured.entries, List.map_filterMap]
  refine List.filterMap_congr fun line listed => ?_
  exact (resolved_renameLine structured listed).entries category

theorem value?_renamed (scalar : Scalar) :
    scalar.value? (Text.unlines (renamedLines document)) = scalar.value? document := by
  have some_ : renamedLines document ≠ [] := by simp [renamedLines, Text.lines_ne_nil]
  rw [scalar.value?_unlines (flat_renamedLines structured) some_, structured.value?,
    ← List.head?_filterMap, ← List.head?_filterMap, renamedLines, List.filterMap_map]
  refine congrArg List.head? (List.filterMap_congr fun line listed => ?_)
  exact (resolved_renameLine structured listed).scalars scalar

/-- A document with its keys replaced by shorthands agrees with the document. -/
theorem agrees_renamed (settled : Alias.Settled (Alias.ofDocument document)) :
    Agrees document (Text.unlines (renamedLines document)) where
  structured := .unlines (flat_renamedLines structured) (whole_renamedLines structured)
    (by simp [renamedLines, Text.lines_ne_nil])
  aliases := aliases_renamed structured
  entries category := by
    rw [Values.entriesOf, entries_renamed structured, aliases_renamed structured, Values.entriesOf,
      Alias.map_resolveEntry settled]
  scalars scalar := by rw [value?_renamed structured]

end

/-! ## Stamping the version -/

/-- A document that sets no version gives it no value. -/
theorem value?_of_hasVersion {document : Text} (unversioned : hasVersion document = false) :
    Scalar.configVersion.value? document = none := by
  rw [Scalar.value?, List.findSome?_eq_none_iff]
  intro segment cut
  rw [hasVersion, List.any_eq_false] at unversioned
  exact Scalar.isPrefixOf?_eq_none (by simpa using unversioned segment cut)

theorem mem_stamp {ls : List Text} {l : Text} :
    l ∈ stamp ls ↔ l ∈ versionBlock ∨ l ∈ ls := by
  have parts : l ∈ ls ↔ l ∈ ls.takeWhile isPreamble ∨ l ∈ ls.dropWhile isPreamble := by
    rw [← List.mem_append, List.takeWhile_append_dropWhile]
  rw [stamp, List.mem_append, List.mem_append, parts, or_assoc, or_left_comm]

/-- The stamp is a comment, the version, and an empty line. -/
theorem mute_or_version : ∀ l ∈ versionBlock,
    Line.Mute l ∨ l = Scalar.configVersion.assignment (Template.preset .configVersion) := by
  intro l member
  simp only [versionBlock, List.mem_cons, List.not_mem_nil, or_false] at member
  rcases member with rfl | rfl | rfl
  · left
    exact (Line.spelled Line.Mute _).mpr (Line.mute_of_first (by decide) (by decide))
  · exact Or.inr rfl
  · exact Or.inl Line.mute_nil

theorem filterMap_stamp (table : Table) (ls : List Text) :
    (stamp ls).filterMap (Entry.onLine? table) = ls.filterMap (Entry.onLine? table) := by
  have nothing : versionBlock.filterMap (Entry.onLine? table) = [] := by
    rw [List.filterMap_eq_nil_iff]
    intro l member
    rcases mute_or_version l member with mute | rfl
    · exact mute.onLine? table
    · exact Entry.onLine?_eq_none (Scalar.unassigned_assignment _ _ table)
  rw [stamp, List.filterMap_append, List.filterMap_append, nothing, List.append_nil,
    ← List.filterMap_append, List.takeWhile_append_dropWhile]

theorem stamp_ne_nil (ls : List Text) : stamp ls ≠ [] := by
  simp [stamp, versionBlock]

/-- A scalar that is not the version is set as before. -/
theorem findSome?_stamp {scalar : Scalar} (other : scalar ≠ .configVersion) (ls : List Text) :
    ((stamp ls).findSome? fun l => scalar.opening.isPrefixOf? l) =
      ls.findSome? fun l => scalar.opening.isPrefixOf? l := by
  have nothing : (versionBlock.findSome? fun l => scalar.opening.isPrefixOf? l) = none := by
    rw [List.findSome?_eq_none_iff]
    intro l member
    rcases mute_or_version l member with mute | rfl
    · exact mute.isPrefixOf? scalar
    · rw [Scalar.isPrefixOf?_assignment, if_neg other]
  rw [stamp, List.findSome?_append, List.findSome?_append, nothing, Option.or_none,
    ← List.findSome?_append, List.takeWhile_append_dropWhile]

/-- Lines that set no version are stamped with the template's. -/
theorem getD_findSome?_stamp (scalar : Scalar) {ls : List Text}
    (unversioned : (ls.findSome? fun l => Scalar.configVersion.opening.isPrefixOf? l) = none) :
    ((stamp ls).findSome? fun l => scalar.opening.isPrefixOf? l).getD (Template.preset scalar) =
      (ls.findSome? fun l => scalar.opening.isPrefixOf? l).getD (Template.preset scalar) := by
  by_cases version : scalar = .configVersion
  · subst version
    have only : ∀ l ∈ stamp ls, ∀ value, Scalar.configVersion.opening.isPrefixOf? l = some value →
        value = Template.preset .configVersion := by
      intro l member value found
      rcases mem_stamp.1 member with stamped | old
      · rcases mute_or_version l stamped with mute | rfl
        · rw [mute.isPrefixOf?] at found
          cases found
        · rw [Scalar.isPrefixOf?_assignment] at found
          exact (Option.some.inj found).symm
      · rw [List.findSome?_eq_none_iff.1 unversioned l old] at found
        cases found
    rw [unversioned]
    rcases Scalar.findSome?_of_forall only with none_ | one
    · rw [none_]
    · rw [one]
      rfl
  · rw [findSome?_stamp version]

section

variable {document : Text} (structured : LineStructured document)

include structured

theorem flat_stamp : ∀ l ∈ stamp document.lines, l.Flat := by
  intro l member
  rcases mem_stamp.1 member with stamped | old
  · rcases mute_or_version l stamped with mute | rfl
    · exact mute.flat
    · exact (Scalar.flat_assignment _).2 (Template.flat_preset _)
  · exact structured.flat l old

theorem whole_stamp : ∀ l ∈ stamp document.lines, Line.Whole l := by
  intro l member
  rcases mem_stamp.1 member with stamped | old
  · rcases mute_or_version l stamped with mute | rfl
    · exact mute.whole
    · exact Scalar.whole_assignment _ _
  · exact structured.whole l old

theorem lineStructured_stamped : LineStructured (Text.unlines (stamp document.lines)) :=
  .unlines (flat_stamp structured) (whole_stamp structured) (stamp_ne_nil _)

/-- The stamp holds no entry. -/
theorem entries_stamped (table : Table) :
    table.entries (Text.unlines (stamp document.lines)) = table.entries document := by
  rw [table.entries_unlines (flat_stamp structured) (whole_stamp structured), structured.entries,
    filterMap_stamp]

/-- The stamp sets the version alone. -/
theorem value?_stamped {scalar : Scalar} (other : scalar ≠ .configVersion) :
    scalar.value? (Text.unlines (stamp document.lines)) = scalar.value? document := by
  rw [scalar.value?_unlines (flat_stamp structured) (stamp_ne_nil _), structured.value?,
    findSome?_stamp other]

/-- A document that sets no version agrees with the document stamped. -/
theorem agrees_stamped (unversioned : hasVersion document = false) :
    Agrees document (Text.unlines (stamp document.lines)) := by
  have none_ := value?_of_hasVersion unversioned
  rw [structured.value?] at none_
  refine Agrees.of_entries (lineStructured_stamped structured) (entries_stamped structured)
    fun scalar => ?_
  rw [scalar.value?_unlines (flat_stamp structured) (stamp_ne_nil _), structured.value?,
    getD_findSome?_stamp scalar none_]

end

/-- **Migrating keeps what a document says**, where shorthands are resolved already. -/
theorem agrees_apply {document : Text} (structured : LineStructured document)
    (settled : Alias.Settled (Alias.ofDocument document)) :
    Agrees document (apply document).document := by
  have renamed : Agrees document
      (Text.unlines (document.lines.map (renameLine (Alias.ofDocument document)))) :=
    agrees_renamed structured settled
  have declared := renamed.trans (Repair.agrees_declarations
    (fun category => Line.isIndentedAssignment (.keyed category)) renamed.structured)
  simp only [apply]
  split
  · rename_i added
    exact declared.trans (agrees_stamped declared.structured (by simpa using added))
  · exact declared

end Migration

end ConfigUpkeep
