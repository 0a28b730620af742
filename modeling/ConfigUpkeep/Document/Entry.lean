/-
# ConfigUpkeep.Document.Entry -- reading table entries and settings off a document

An entry of a table is written `TABLE[key]="value"`, from the first column of a
segment on.  The key is not empty and holds no closing bracket, the value holds no
quotation mark; both may hold line ends, so an entry can reach over several lines,
and what it covers is not searched again.  `Entry.read?` reads one entry off the
front of a text and `Entry.scan` finds all of them in order.

A setting is the text after `NAME=` in the first segment that starts so.

Main laws: `Entry.read?_assignment` (what is written is read back, and nothing more
is taken), and `Entry.eq_of_read?` (only written entries are read).
-/
import ConfigUpkeep.Document.Table

namespace ConfigUpkeep

set_option autoImplicit false

/-- A key and the value a table gives it. -/
structure Entry where
  key : Text
  value : Text
  deriving DecidableEq, Repr

namespace Entry

/-- An entry that a table can hold: the key is not empty and holds no closing
bracket, the value holds no quotation mark. -/
def Writable (entry : Entry) : Prop :=
  entry.key ≠ [] ∧ ']' ∉ entry.key ∧ '"' ∉ entry.value

instance (entry : Entry) : Decidable entry.Writable := by
  unfold Writable; infer_instance

def assignment (table : Table) (entry : Entry) : Text := table.assignment entry.key entry.value

/-- The part of a text before the first occurrence of a character. -/
def before (stop : Char) (t : Text) : Text := t.takeWhile (· != stop)

/-- The part of a text from the first occurrence of a character on. -/
def onward (stop : Char) (t : Text) : Text := t.dropWhile (· != stop)

/-- Read an entry of the table off the front of a text; the second component is what
follows the closing quotation mark. -/
def read? (table : Table) (t : Text) : Option (Entry × Text) :=
  (table.opening.isPrefixOf? t).bind fun inner =>
    if before ']' inner = [] then none
    else
      (("]=\"" : Text).isPrefixOf? (onward ']' inner)).bind fun quoted =>
        (("\"" : Text).isPrefixOf? (onward '"' quoted)).map fun rest =>
          (⟨before ']' inner, before '"' quoted⟩, rest)

/-! ## The laws of reading one entry -/

theorem before_append_onward (stop : Char) (t : Text) : before stop t ++ onward stop t = t :=
  List.takeWhile_append_dropWhile

theorem not_mem_before (stop : Char) (t : Text) : stop ∉ before stop t := by
  intro member
  have all : (before stop t).all (· != stop) = true := List.all_takeWhile
  simpa using List.all_eq_true.1 all stop member

theorem before_append {stop : Char} {front : Text} (free : stop ∉ front) (rest : Text) :
    before stop (front ++ stop :: rest) = front ∧
      onward stop (front ++ stop :: rest) = stop :: rest := by
  have kept : ∀ c ∈ front, (c != stop) = true := by
    intro c member
    simpa using fun e : c = stop => free (e ▸ member)
  constructor
  · rw [before, List.takeWhile_append_of_pos kept]; simp
  · rw [onward, List.dropWhile_append_of_pos kept]; simp

/-- What is written is read back, and nothing that follows is taken. -/
theorem read?_assignment (table : Table) {entry : Entry} (writable : entry.Writable)
    (rest : Text) : read? table (entry.assignment table ++ rest) = some (entry, rest) := by
  obtain ⟨key, value⟩ := entry
  obtain ⟨nonempty, noBracket, noQuote⟩ := writable
  have opened : table.opening.isPrefixOf? (assignment table ⟨key, value⟩ ++ rest) =
      some (key ++ ']' :: '=' :: '"' :: (value ++ '"' :: rest)) := by
    rw [Text.isPrefixOf?_eq_some]
    simp [assignment, Table.assignment]
  have quoted : ("]=\"" : Text).isPrefixOf? (']' :: '=' :: '"' :: (value ++ '"' :: rest)) =
      some (value ++ '"' :: rest) := Text.isPrefixOf?_eq_some.2 rfl
  have closed : ("\"" : Text).isPrefixOf? ('"' :: rest) = some rest := Text.isPrefixOf?_eq_some.2 rfl
  obtain ⟨keyRead, behindKey⟩ := before_append noBracket ('=' :: '"' :: (value ++ '"' :: rest))
  obtain ⟨valueRead, behindValue⟩ := before_append noQuote rest
  rw [read?, opened, Option.bind_some, keyRead, behindKey, if_neg nonempty, quoted,
    Option.bind_some, valueRead, behindValue, closed]
  rfl

theorem eq_of_read? {table : Table} {t rest : Text} {entry : Entry}
    (found : read? table t = some (entry, rest)) :
    t = entry.assignment table ++ rest ∧ entry.Writable := by
  simp only [read?, Option.bind_eq_some_iff] at found
  obtain ⟨inner, opened, found⟩ := found
  split at found
  · simp at found
  · rename_i nonempty
    simp only [Option.bind_eq_some_iff, Option.map_eq_some_iff, Prod.mk.injEq] at found
    obtain ⟨quoted, keyed, after, closed, rfl, rfl⟩ := found
    rw [Text.isPrefixOf?_eq_some] at opened keyed closed
    refine ⟨?_, nonempty, not_mem_before _ _, not_mem_before _ _⟩
    calc t = table.opening ++ (before ']' inner ++ onward ']' inner) := by
          rw [before_append_onward, opened]
      _ = table.opening ++ (before ']' inner ++ ("]=\"".toList ++
            (before '"' quoted ++ onward '"' quoted))) := by
          rw [before_append_onward '"', keyed]
      _ = _ := by
          rw [closed]
          simp [assignment, Table.assignment]

/-- Reading an entry takes something off the text. -/
theorem length_lt_of_read? {table : Table} {t rest : Text} {entry : Entry}
    (found : read? table t = some (entry, rest)) : rest.length < t.length := by
  obtain ⟨rfl, -⟩ := eq_of_read? found
  simp [assignment, Table.assignment]
  omega

/-! ## All entries of a table -/

/-- The entry at the front of a text, if the text stands at the start of a segment. -/
def readAt? (table : Table) (atStart : Bool) (t : Text) : Option (Entry × Text) :=
  if atStart then read? table t else none

theorem length_lt_of_readAt? {table : Table} {atStart : Bool} {t rest : Text} {entry : Entry}
    (found : readAt? table atStart t = some (entry, rest)) : rest.length < t.length := by
  unfold readAt? at found
  split at found
  · exact length_lt_of_read? found
  · simp at found

/-- The entries of the table in a text.  `atStart` says whether the text stands at the
start of a segment.  After an entry the search goes on behind its closing quotation
mark; elsewhere it goes on one character further. -/
def scan (table : Table) (atStart : Bool) (t : Text) : List Entry :=
  match t with
  | [] => []
  | c :: rest =>
    match found : readAt? table atStart (c :: rest) with
    | some (entry, after) =>
      have : after.length < rest.length + 1 := length_lt_of_readAt? found
      entry :: scan table false after
    | none => scan table (Text.endsLine c) rest
termination_by t.length

end Entry

/-- The entries that a document gives a table, in document order. -/
def Table.entries (table : Table) (document : Text) : List Entry :=
  Entry.scan table true document

/-- The value that the first segment setting the scalar gives it. -/
def Scalar.value? (scalar : Scalar) (document : Text) : Option Text :=
  document.segments.findSome? fun segment => scalar.opening.isPrefixOf? segment

end ConfigUpkeep
