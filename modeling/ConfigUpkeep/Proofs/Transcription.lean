/-
# ConfigUpkeep.Proofs.Transcription -- entries written down and read again

Entries written one to a line are read back as they are (`Table.entries_transcript`), and
only what can be written is ever read (`Table.transcription`).  Nothing is asked of the line
ends in them: a key or a value may reach over several lines, and a line of it may look like
an assignment.  What is found starts at the front of a line, the whole entry is consumed
with its closing quotation mark, and the search goes on in the middle of that line; so it
comes to the next written entry and to nothing before it.

The other way round, what is read off a document stands in it as it is written: the written
entries are parts of the document, one behind another and none over another
(`Entry.Placed`).
-/
import ConfigUpkeep.Proofs.Reading

namespace ConfigUpkeep

set_option autoImplicit false

/-- Entries of the table, written one to a line. -/
def Table.transcript (table : Table) (entries : List Entry) : Text :=
  Text.unlines (entries.map (Entry.assignment table))

namespace Entry

/-! ## Reading what is written -/

/-- A written entry is found, and the search goes on at the start of the next line. -/
theorem scan_assignment_newline (table : Table) {entry : Entry} (writable : entry.Writable)
    (rest : Text) :
    scan table true (entry.assignment table ++ '\n' :: rest) = entry :: scan table true rest := by
  rw [scan_of_read? (read?_assignment table writable _), scan_cons rfl]
  rfl

theorem scan_assignment (table : Table) {entry : Entry} (writable : entry.Writable) :
    scan table true (entry.assignment table) = [entry] := by
  have found := read?_assignment table writable []
  rw [List.append_nil] at found
  rw [scan_of_read? found, scan_nil]

/-! ## What is read stands in the text -/

/-- The written entries stand in the text, one behind another. -/
inductive Placed (table : Table) : List Entry → Text → Prop where
  | none (t : Text) : Placed table [] t
  | next (gap : Text) {entry : Entry} {entries : List Entry} {after : Text} :
      Placed table entries after →
        Placed table (entry :: entries) (gap ++ (entry.assignment table ++ after))

theorem Placed.cons {table : Table} {entries : List Entry} {t : Text} (c : Char)
    (placed : Placed table entries t) : Placed table entries (c :: t) := by
  cases placed with
  | none => exact .none _
  | next gap later => exact .next (c :: gap) later

/-- A search finds only what stands in the text, and finds it in order. -/
theorem placed_scan (table : Table) (atStart : Bool) (t : Text) :
    Placed table (scan table atStart t) t := by
  fun_induction scan table atStart t with
  | case1 => exact .none []
  | case2 atStart c rest entry after read shorter ih =>
      rw [(eq_of_readAt? read).2.1]
      exact .next [] ih
  | case3 atStart c rest read ih => exact ih.cons c

end Entry

namespace Table

/-- What is written one to a line is read back. -/
theorem entries_transcript (table : Table) {entries : List Entry}
    (writable : ∀ entry ∈ entries, entry.Writable) :
    table.entries (table.transcript entries) = entries := by
  rw [Table.entries, transcript]
  induction entries with
  | nil => exact Entry.scan_nil table true
  | cons entry rest ih =>
      obtain ⟨here, later⟩ := List.forall_mem_cons.1 writable
      cases rest with
      | nil =>
          rw [List.map_singleton, Text.unlines_singleton]
          exact Entry.scan_assignment table here
      | cons next rest =>
          rw [List.map_cons, List.map_cons, Text.unlines_cons_cons, ← List.map_cons,
            Entry.scan_assignment_newline table here, ih later]

theorem writable_of_mem_entries {table : Table} {document : Text} {entry : Entry}
    (member : entry ∈ table.entries document) : entry.Writable :=
  Entry.writable_of_mem_scan member

/-- **Writing and reading undo each other.**  Entries written one to a line are read back exactly
if they can be written: the keys are not empty and hold no closing bracket, and the values hold
no quotation mark.  The entries of any document can be written; as they are written they stand
in the document, one behind another; and written one to a line they are read back. -/
theorem transcription (table : Table) :
    (∀ entries : List Entry, table.entries (table.transcript entries) = entries ↔
        ∀ entry ∈ entries, entry.Writable) ∧
      ∀ document : Text, (∀ entry ∈ table.entries document, entry.Writable) ∧
        Entry.Placed table (table.entries document) document ∧
        table.entries (table.transcript (table.entries document)) = table.entries document := by
  have writable (document : Text) : ∀ entry ∈ table.entries document, entry.Writable :=
    fun _ => writable_of_mem_entries
  refine ⟨fun entries => ⟨fun same => ?_, table.entries_transcript⟩, fun document => ?_⟩
  · rw [← same]
    exact writable _
  · exact ⟨writable document, Entry.placed_scan table true document,
      table.entries_transcript (writable document)⟩

/-- A key and a value over two lines, the second of which looks like an assignment. -/
example :
    let entries : List Entry :=
      [⟨"k\nREPO_CONFIGS[x", "a\nREPO_CONFIGS[b]="⟩, ⟨"p", "\r"⟩, ⟨"p", ""⟩]
    (Table.keyed .ci).entries ((Table.keyed .ci).transcript entries) = entries := by
  decide +kernel

end Table

end ConfigUpkeep
