/-
# ConfigUpkeep.Proofs.Resolution -- migrating resolves keys as reading does

Keys are resolved in two places.  Reading a document resolves the key of every entry that
it finds in the whole text; migrating it replaces keys line by line, and then adds lines.
On a document that is read line by line the two come to the same: the migrated document
holds, as written, the entries that reading the old one gives (`Migration.reads_resolved`).

Renaming does all of it, and `Proofs.Agreement` says what it does to each reader.  What
comes behind it, declarations and the version, is carried by one relation, `Restates`:
nothing but the version is said anew.

A key is resolved once, here as there.  So nothing is asked of the aliases: a shorthand may
be some alias's canonical name, and a canonical name may have several shorthands.
-/
import ConfigUpkeep.Proofs.Agreement

namespace ConfigUpkeep

set_option autoImplicit false

/-- The second document can be read line by line, holds the entries of the first one as they
are written there, and makes its settings, up to the version. -/
structure Restates (first second : Text) : Prop where
  structured : LineStructured second
  entries : ∀ table : Table, table.entries second = table.entries first
  scalars : ∀ scalar : Scalar, scalar ≠ .configVersion →
    scalar.value? second = scalar.value? first

namespace Restates

theorem trans {first second third : Text} (left : Restates first second)
    (right : Restates second third) : Restates first third where
  structured := right.structured
  entries table := (right.entries table).trans (left.entries table)
  scalars scalar other := (right.scalars scalar other).trans (left.scalars scalar other)

theorem aliases {first second : Text} (restates : Restates first second) :
    Alias.ofDocument second = Alias.ofDocument first := by
  rw [Alias.ofDocument, restates.entries, Alias.ofDocument]

/-- Declaring tables says nothing anew, since it only adds mute lines. -/
theorem of_declarations (uses : Repair.Uses) {document : Text}
    (structured : LineStructured document) :
    Restates document (Repair.declarations uses document).document :=
  have padded := Repair.padded_declaredLines uses _ document.lines
  { structured := padded.lineStructured structured
    entries := padded.entries structured
    scalars := fun scalar _ => padded.value? structured scalar }

/-- Neither does stamping the version, apart from the version. -/
theorem of_stamp {document : Text} (structured : LineStructured document) :
    Restates document (Text.unlines (Migration.stamp document.lines)) where
  structured := Migration.lineStructured_stamped structured
  entries := Migration.entries_stamped structured
  scalars _ other := Migration.value?_stamped structured other

end Restates

namespace Migration

variable {document : Text} (structured : LineStructured document)

include structured

theorem lineStructured_renamed : LineStructured (Text.unlines (renamedLines document)) :=
  .unlines (flat_renamedLines structured) (whole_renamedLines structured)
    (by simp [renamedLines, Text.lines_ne_nil])

/-- Once its keys are renamed, migrating a document says nothing anew. -/
theorem restates_apply :
    Restates (Text.unlines (renamedLines document)) (apply document).document := by
  have renamed := lineStructured_renamed structured
  have declared := Restates.of_declarations
    (fun category => Line.isIndentedAssignment (.keyed category)) renamed
  simp only [apply]
  split
  · exact declared.trans (Restates.of_stamp declared.structured)
  · exact declared

/-- **Migrating resolves keys as reading does**: a migrated document defines the aliases of the
old one, holds its entries with every key resolved, and makes its settings, up to the version.
It can be read line by line again. -/
theorem reads_resolved {migration : Migration} (called : ofDocument? document = some migration) :
    LineStructured migration.document ∧
      Alias.ofDocument migration.document = Alias.ofDocument document ∧
      (∀ category, (Table.keyed category).entries migration.document =
        Values.entriesOf document category) ∧
      ∀ scalar : Scalar, scalar ≠ .configVersion →
        scalar.value? migration.document = scalar.value? document := by
  obtain rfl : apply document = migration := by
    unfold ofDocument? at called
    split at called
    · cases called
    · exact Option.some.inj called
  have restates := restates_apply structured
  refine ⟨restates.structured, ?_, fun category => ?_, fun scalar other => ?_⟩
  · rw [restates.aliases, aliases_renamed structured]
  · rw [restates.entries, entries_renamed structured]
  · rw [restates.scalars scalar other, value?_renamed structured]

end Migration

namespace Resolution

/-- Aliases that contradict each other: `App` has two shorthands, and the second one is a
canonical name of its own. -/
def tangled : Text := Text.unlines
  [Entry.assignment .aliases ⟨"a", "App"⟩, Entry.assignment .aliases ⟨"b", "App"⟩,
    Entry.assignment .aliases ⟨"c", "b"⟩, Entry.assignment (.keyed .ci) ⟨"App", "make||"⟩,
    Entry.assignment (.keyed .ci) ⟨"b", "ninja||"⟩, Scalar.branchPrefix.assignment "me"]

/-- Each key is resolved once, by the alias that counts for it. -/
theorem reads_resolved_tangled :
    let migrated := (Migration.apply tangled).document
    (Table.keyed .ci).entries migrated = [⟨"b", "make||"⟩, ⟨"c", "ninja||"⟩] ∧
      Scalar.branchPrefix.value? migrated = some "me" := by
  intro migrated
  have structured : LineStructured tangled := by
    refine .unlines (by decide) ?_ (by simp)
    intro line member
    simp only [List.mem_cons, List.not_mem_nil, or_false] at member
    rcases member with rfl | rfl | rfl | rfl | rfl | rfl
    · exact Entry.whole_of_writable (by decide) .aliases
    · exact Entry.whole_of_writable (by decide) .aliases
    · exact Entry.whole_of_writable (by decide) .aliases
    · exact Entry.whole_of_writable (by decide) (.keyed .ci)
    · exact Entry.whole_of_writable (by decide) (.keyed .ci)
    · exact Scalar.whole_assignment _ _
  have called : Migration.ofDocument? tangled = some (Migration.apply tangled) := by
    decide +kernel
  obtain ⟨-, -, entries, scalars⟩ := Migration.reads_resolved structured called
  refine ⟨?_, ?_⟩
  · rw [entries .ci]
    decide +kernel
  · rw [scalars .branchPrefix (by decide)]
    decide +kernel

end Resolution

end ConfigUpkeep
