/-
# ConfigUpkeep.Proofs.Rearrangement -- only lines of one kind have an order

On a document that is read line by line (`LineStructured`) a table has one entry for each
line that assigns to it, in line order (`Line.forall₂_holds`), and a scalar has the value on
the first line that sets it (`Line.map_assignment_findSome?`).

So what a document says depends on its lines kind by kind: on the lines that assign to each
table, and on the first line that sets each scalar.  Lines that agree in this are `Alike`.
They stay so when a line of no kind is put in or taken out (`Line.Alike.insert`), and when two
lines of different kinds change places (`Line.Alike.swap`), such as an alias and an entry
whose key it resolves.
-/
import Mathlib.Data.List.Forall2
import ConfigUpkeep.Proofs.Reading

namespace ConfigUpkeep

set_option autoImplicit false

/-! ## One line at a time -/

namespace Line

/-- The line starts with the entry of the table, written in full. -/
def Holds (table : Table) (line : Text) (entry : Entry) : Prop :=
  entry.Writable ∧ ∃ rest, line = entry.assignment table ++ rest

variable {table : Table} {line : Text}

theorem onLine?_eq_some_iff {entry : Entry} :
    Entry.onLine? table line = some entry ↔ Holds table line entry := by
  constructor
  · intro found
    obtain ⟨⟨read, rest⟩, here, rfl⟩ := Option.map_eq_some_iff.1 found
    obtain ⟨written, writable⟩ := Entry.eq_of_read? here
    exact ⟨writable, rest, written⟩
  · rintro ⟨writable, rest, rfl⟩
    exact Entry.onLine?_assignment table writable rest

/-- A line starts with one entry of a table at most. -/
theorem rightUnique_holds (table : Table) : Relator.RightUnique (Holds table) := by
  intro line first second left right
  rw [← onLine?_eq_some_iff] at left right
  exact Option.some.inj (left.symm.trans right)

/-- Lines that hold their entries in full have one entry for each assignment to the table. -/
theorem forall₂_holds (table : Table) {ls : List Text} (whole : ∀ l ∈ ls, Whole l) :
    List.Forall₂ (Holds table) (ls.filter (isAssignment table))
      (ls.filterMap (Entry.onLine? table)) := by
  induction ls with
  | nil => exact .nil
  | cons l rest ih =>
      obtain ⟨here, later⟩ := List.forall_mem_cons.1 whole
      cases assigns : isAssignment table l with
      | true =>
          obtain ⟨entry, behind, writable, written⟩ := here table assigns
          have holds : Holds table l entry := ⟨writable, behind, written⟩
          rw [List.filter_cons_of_pos assigns,
            List.filterMap_cons_some (onLine?_eq_some_iff.2 holds)]
          exact .cons holds (ih later)
      | false =>
          rw [List.filter_cons_of_neg (by simpa using assigns),
            List.filterMap_cons_none (Entry.onLine?_eq_none assigns)]
          exact ih later

/-- The first value that lines give a scalar is on the first line that sets it. -/
theorem map_assignment_findSome? (scalar : Scalar) (ls : List Text) :
    (ls.findSome? fun l => scalar.opening.isPrefixOf? l).map scalar.assignment =
      ls.find? (starts scalar.opening) := by
  induction ls with
  | nil => rfl
  | cons l rest ih =>
      cases sets : starts scalar.opening l with
      | true =>
          obtain ⟨value, rfl⟩ := (starts_iff _ _).1 sets
          have read : scalar.opening.isPrefixOf? (scalar.opening ++ value) = some value :=
            Text.isPrefixOf?_eq_some.2 rfl
          rw [List.findSome?_cons_of_isSome (by rw [read]; rfl), List.find?_cons_of_pos sets, read]
          rfl
      | false =>
          have nothing := Scalar.isPrefixOf?_eq_none sets
          rw [List.find?_cons_of_neg (by simpa using sets), ← ih]
          simp [nothing]

/-! ## Lines that agree kind by kind -/

/-- The same lines assign to each table, in the same order, and the same line is the first to
set each scalar. -/
structure Alike (ls ms : List Text) : Prop where
  tables : ∀ table, ls.filter (isAssignment table) = ms.filter (isAssignment table)
  scalars : ∀ scalar : Scalar, ls.find? (starts scalar.opening) = ms.find? (starts scalar.opening)

/-- No reader looks for both lines. -/
structure Apart (first second : Text) : Prop where
  tables : ∀ table, isAssignment table first = false ∨ isAssignment table second = false
  scalars : ∀ scalar : Scalar,
    starts scalar.opening first = false ∨ starts scalar.opening second = false

namespace Alike

variable {ls ms ns : List Text}

theorem symm (alike : Alike ls ms) : Alike ms ls :=
  ⟨fun table => (alike.tables table).symm, fun scalar => (alike.scalars scalar).symm⟩

theorem trans (left : Alike ls ms) (right : Alike ms ns) : Alike ls ns :=
  ⟨fun table => (left.tables table).trans (right.tables table),
    fun scalar => (left.scalars scalar).trans (right.scalars scalar)⟩

/-- A line of no kind can be put in and taken out anywhere. -/
theorem insert {l : Text} (mute : Mute l) (front back : List Text) :
    Alike (front ++ l :: back) (front ++ back) where
  tables table := by simp [mute.unassigned table]
  scalars scalar := by simp [List.find?_append, mute.silent scalar]

/-- Neighbours of different kinds can change places. -/
theorem swap {l m : Text} (apart : Apart l m) (front back : List Text) :
    Alike (front ++ l :: m :: back) (front ++ m :: l :: back) where
  tables table := by
    rcases apart.tables table with none_ | none_ <;>
      simp [List.filter_append, List.filter_cons, none_]
  scalars scalar := by
    rcases apart.scalars scalar with none_ | none_ <;>
      simp [List.find?_append, List.find?_cons, none_]

end Alike

end Line

/-! ## Documents -/

namespace LineStructured

variable {document : Text} (structured : LineStructured document)

include structured

theorem forall₂_entries (table : Table) :
    List.Forall₂ (Line.Holds table) (document.lines.filter (Line.isAssignment table))
      (table.entries document) := by
  rw [structured.entries]
  exact Line.forall₂_holds table structured.whole

theorem map_assignment_value? (scalar : Scalar) :
    (scalar.value? document).map scalar.assignment =
      document.lines.find? (Line.starts scalar.opening) := by
  rw [structured.value?]
  exact Line.map_assignment_findSome? scalar _

variable {other : Text}

/-- A document whose lines are alike can be read line by line too. -/
theorem of_alike (feeds : ∀ c ∈ other, Text.endsLine c = true → c = '\n')
    (alike : Line.Alike other.lines document.lines) : LineStructured other where
  lineFeeds := feeds
  whole line member table assigns := by
    have listed : line ∈ document.lines.filter (Line.isAssignment table) := by
      rw [← alike.tables table]
      exact List.mem_filter.2 ⟨member, assigns⟩
    exact structured.whole line (List.mem_filter.1 listed).1 table assigns

/-- Documents whose lines are alike say the same. -/
theorem ofDocument_eq_of_alike (feeds : ∀ c ∈ other, Text.endsLine c = true → c = '\n')
    (alike : Line.Alike other.lines document.lines) :
    Values.ofDocument other = Values.ofDocument document := by
  have second := structured.of_alike feeds alike
  have entries (table : Table) : table.entries other = table.entries document := by
    have read := second.forall₂_entries table
    rw [alike.tables table] at read
    exact List.right_unique_forall₂' (Line.rightUnique_holds table) read
      (structured.forall₂_entries table)
  have scalars (scalar : Scalar) : scalar.value? other = scalar.value? document := by
    refine Option.map_injective (f := scalar.assignment) (fun _ _ => List.append_cancel_left) ?_
    rw [second.map_assignment_value?, structured.map_assignment_value?, alike.scalars]
  have aliases : Alias.ofDocument other = Alias.ofDocument document := by
    rw [Alias.ofDocument, entries, Alias.ofDocument]
  have keyed : Values.entriesOf other = Values.entriesOf document := by
    funext category
    rw [Values.entriesOf, entries, aliases, Values.entriesOf]
  have settings : Values.settingsOf other = Values.settingsOf document := by
    rw [Values.settingsOf, Values.settingsOf]
    simp only [scalars]
  rw [Values.ofDocument, Values.ofDocument, settings, aliases, keyed]

/-- The entries of a keyed table have their keys resolved by all aliases of the document. -/
theorem forall₂_entriesOf (category : Category) :
    List.Forall₂
      (fun line resolved => ∃ entry, Line.Holds (.keyed category) line entry ∧
        resolved = Alias.resolveEntry (Alias.ofDocument document) entry)
      (document.lines.filter (Line.isAssignment (.keyed category)))
      (Values.entriesOf document category) := by
  rw [Values.entriesOf, List.forall₂_map_right_iff]
  exact (structured.forall₂_entries (.keyed category)).imp fun _ entry holds => ⟨entry, holds, rfl⟩

/-- **Reading a document is reading its lines.**  A table has the entry on each line that assigns
to it, in line order, and keys are resolved by all aliases of the document.  A scalar has the
value on the first line that sets it, and none if no line does.  Any other document whose lines
are alike says the same: lines of no kind may be put in, taken out or moved, and aliases may stand
before the keys that they resolve or behind them. -/
theorem reads_lines :
    (∀ table : Table, List.Forall₂ (Line.Holds table)
        (document.lines.filter (Line.isAssignment table)) (table.entries document)) ∧
      (∀ category, List.Forall₂
        (fun line resolved => ∃ entry, Line.Holds (.keyed category) line entry ∧
          resolved = Alias.resolveEntry (Alias.ofDocument document) entry)
        (document.lines.filter (Line.isAssignment (.keyed category)))
        (Values.entriesOf document category)) ∧
      (∀ scalar : Scalar, (scalar.value? document).map scalar.assignment =
        document.lines.find? (Line.starts scalar.opening)) ∧
      ∀ other : Text, (∀ c ∈ other, Text.endsLine c = true → c = '\n') →
        Line.Alike other.lines document.lines →
          Values.ofDocument other = Values.ofDocument document :=
  ⟨structured.forall₂_entries, structured.forall₂_entriesOf, structured.map_assignment_value?,
    fun _ => structured.ofDocument_eq_of_alike⟩

end LineStructured

namespace Rearrangement

/-! ## An alias behind the key that it resolves, and in front of it -/

def entry : Entry := ⟨"App", "make"⟩

def shortcut : Entry := ⟨"a", "App"⟩

def keyFirst : List Text := [entry.assignment (.keyed .ci), shortcut.assignment .aliases]

def remark : Text := "# shorthands"

def aliasFirst : List Text :=
  [remark, shortcut.assignment .aliases, entry.assignment (.keyed .ci)]

theorem alike_aliasFirst : Line.Alike aliasFirst keyFirst := by
  have mute : Line.Mute remark := Line.mute_of_first (by decide) (by decide)
  have apart : Line.Apart (shortcut.assignment .aliases) (entry.assignment (.keyed .ci)) := by
    refine ⟨fun table => ?_, fun scalar => ?_⟩
    · rcases table with _ | _ | _ | _ <;> decide
    · cases scalar <;> decide
  exact (Line.Alike.insert mute [] _).trans (Line.Alike.swap apart [] [])

/-- The alias resolves the key from both places. -/
theorem reads_lines_aliasFirst :
    List.Forall₂ (Line.Holds (.keyed .ci)) [entry.assignment (.keyed .ci)]
        ((Table.keyed .ci).entries (Text.unlines keyFirst)) ∧
      Values.ofDocument (Text.unlines aliasFirst) = Values.ofDocument (Text.unlines keyFirst) ∧
      Values.entriesOf (Text.unlines aliasFirst) .ci = [⟨"a", "make"⟩] := by
  have structured : LineStructured (Text.unlines keyFirst) := by
    refine .unlines (by decide) ?_ (by simp [keyFirst])
    intro line member
    simp only [keyFirst, List.mem_cons, List.not_mem_nil, or_false] at member
    rcases member with rfl | rfl
    · exact Entry.whole_of_writable (by decide) _
    · exact Entry.whole_of_writable (by decide) _
  have cut : (Text.unlines keyFirst).lines = keyFirst :=
    Text.lines_unlines (by decide) (by simp [keyFirst])
  have cutOther : (Text.unlines aliasFirst).lines = aliasFirst :=
    Text.lines_unlines (by decide) (by simp [aliasFirst])
  obtain ⟨entries, -, -, same⟩ := structured.reads_lines
  have alike : Line.Alike (Text.unlines aliasFirst).lines (Text.unlines keyFirst).lines := by
    rw [cut, cutOther]
    exact alike_aliasFirst
  have flat : ∀ l ∈ aliasFirst, l.Flat := by decide
  refine ⟨?_, same _ (Text.eq_newline_of_mem_unlines flat) alike, by decide +kernel⟩
  have read := entries (.keyed .ci)
  rwa [cut] at read

end Rearrangement

end ConfigUpkeep
