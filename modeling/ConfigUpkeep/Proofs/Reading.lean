/-
# ConfigUpkeep.Proofs.Reading -- documents that are read line by line

`Entry.scan` searches a whole text, and an entry may reach over several lines.  On a
document that is *line-structured* nothing of the kind happens: its only line ends are
line feeds, and a line that starts like an entry of a table holds that entry in full
(`LineStructured`).  There the two readers work line by line, whatever the lines
between say:

* `entries_unlines`: the entries of a table are those of its lines (`Entry.onLine?`),
  in line order;
* `value?_unlines`: a scalar has the value of the first line that sets it.

Both are stated for the text of a list of lines, so that they apply to a document that
was put together from lines as well as to one that was cut (`LineStructured.lines`).
-/
import ConfigUpkeep.Document.Line
import ConfigUpkeep.Document.Values
import ConfigUpkeep.Proofs.Segments

namespace ConfigUpkeep

set_option autoImplicit false

/-! ## What lines start with -/

theorem Table.flat_opening (table : Table) : table.opening.Flat := by
  rcases table with _ | _ | _ | _ <;> decide

/-- What a line that assigns to a table starts with, by its first character. -/
theorem Table.opening_eq_cons (table : Table) : ∃ rest, table.opening = 'R' :: rest := by
  rcases table with _ | _ | _ | _ <;> exact ⟨_, rfl⟩

/-- What a line that sets a scalar starts with, by its first character. -/
theorem Scalar.opening_eq_cons (scalar : Scalar) :
    ∃ c ∈ ['G', 'B', 'C'], ∃ rest, scalar.opening = c :: rest := by
  cases scalar with
  | gitUsername => exact ⟨'G', by simp, _, rfl⟩
  | branchPrefix => exact ⟨'B', by simp, _, rfl⟩
  | baseDevPath => exact ⟨'B', by simp, _, rfl⟩
  | configVersion => exact ⟨'C', by simp, _, rfl⟩

theorem Scalar.flat_opening (scalar : Scalar) : scalar.opening.Flat := by
  cases scalar <;> decide

/-- What starts like an assignment to a table assigns to it and to no other. -/
theorem Line.isAssignment_opening_append (a b : Table) (rest : Text) :
    isAssignment a (b.opening ++ rest) = decide (a = b) := by
  have begins : b.opening <+: b.opening ++ rest := List.prefix_append _ _
  rw [Bool.eq_iff_iff, isAssignment, starts_iff, decide_eq_true_iff]
  constructor
  · intro starts
    rcases List.prefix_or_prefix_of_prefix starts begins with inside | inside
    · exact Table.eq_of_opening_isPrefixOf (List.isPrefixOf_iff_prefix.2 inside)
    · exact (Table.eq_of_opening_isPrefixOf (List.isPrefixOf_iff_prefix.2 inside)).symm
  · rintro rfl
    exact begins

/-! ## Searching line by line -/

namespace Entry

theorem scan_nil (table : Table) (atStart : Bool) : scan table atStart [] = [] := by
  rw [scan]

/-- An entry at the start of a segment is found, and the search goes on behind it. -/
theorem scan_of_read? {table : Table} {t after : Text} {entry : Entry}
    (found : read? table t = some (entry, after)) :
    scan table true t = entry :: scan table false after := by
  cases t with
  | nil => exact absurd (length_lt_of_read? found) (by simp)
  | cons c rest =>
      have atFront : readAt? table true (c :: rest) = some (entry, after) := found
      rw [scan]
      split
      · rename_i here
        rw [atFront] at here
        cases here
        rfl
      · rename_i here
        rw [atFront] at here
        cases here

/-- Where no entry starts the search goes one character further. -/
theorem scan_cons {table : Table} {atStart : Bool} {c : Char} {rest : Text}
    (none_ : readAt? table atStart (c :: rest) = none) :
    scan table atStart (c :: rest) = scan table (Text.endsLine c) rest := by
  rw [scan]
  split
  · rename_i here
    rw [none_] at here
    cases here
  · rfl

/-- Within a segment nothing is found up to its end. -/
theorem scan_flat {table : Table} {t : Text} (flat : t.Flat) (rest : Text) :
    scan table false (t ++ '\n' :: rest) = scan table true rest := by
  induction t with
  | nil => exact scan_cons rfl
  | cons c t ih =>
      obtain ⟨here, later⟩ := Text.flat_cons.1 flat
      rw [List.cons_append, scan_cons rfl, here, ih later]

theorem scan_flat_end {table : Table} {t : Text} (flat : t.Flat) : scan table false t = [] := by
  induction t with
  | nil => exact scan_nil table false
  | cons c t ih =>
      obtain ⟨here, later⟩ := Text.flat_cons.1 flat
      rw [scan_cons rfl, here, ih later]

/-- The entry that a line assigns to the table, if it assigns one. -/
def onLine? (table : Table) (line : Text) : Option Entry := (read? table line).map Prod.fst

theorem onLine?_assignment (table : Table) {entry : Entry} (writable : entry.Writable)
    (rest : Text) : onLine? table (entry.assignment table ++ rest) = some entry := by
  rw [onLine?, read?_assignment table writable rest]
  rfl

/-- A written entry starts like an entry of its table and of no other. -/
theorem isAssignment_assignment (a b : Table) (entry : Entry) (rest : Text) :
    Line.isAssignment a (entry.assignment b ++ rest) = decide (a = b) := by
  simp only [assignment, Table.assignment, List.append_assoc]
  exact Line.isAssignment_opening_append a b _

theorem isAssignment_line (a b : Table) (entry : Entry) :
    Line.isAssignment a (entry.assignment b) = decide (a = b) := by
  have whole := isAssignment_assignment a b entry []
  rwa [List.append_nil] at whole

/-- An entry is read only from a text that starts like one. -/
theorem read?_eq_none {table : Table} {t : Text} (other : Line.isAssignment table t = false) :
    read? table t = none := by
  rw [Option.eq_none_iff_forall_ne_some]
  intro found same
  obtain ⟨rfl, -⟩ := eq_of_read? same
  rw [isAssignment_assignment] at other
  simp at other

theorem onLine?_eq_none {table : Table} {line : Text}
    (other : Line.isAssignment table line = false) : onLine? table line = none := by
  rw [onLine?, read?_eq_none other]
  rfl

end Entry

namespace Line

/-- What starts like an entry on the line is one, in full. -/
def Whole (line : Text) : Prop :=
  ∀ table, isAssignment table line = true →
    ∃ (entry : Entry) (rest : Text), entry.Writable ∧ line = entry.assignment table ++ rest

/-- A line on which no reader finds anything: it is flat, sets no scalar, and assigns to no
table. -/
structure Mute (line : Text) : Prop where
  flat : line.Flat
  silent : ∀ scalar : Scalar, starts scalar.opening line = false
  unassigned : ∀ table, isAssignment table line = false

/-- A text that is flat starts a line if it starts the line and what follows. -/
theorem starts_append_newline {opening : Text} (flat : opening.Flat) (line rest : Text) :
    starts opening (line ++ '\n' :: rest) = starts opening line := by
  rw [Bool.eq_iff_iff, starts_iff, starts_iff,
    List.prefix_append_cons_iff (Text.not_mem_of_flat flat)]

end Line

namespace Entry

/-- A line that starts with a written entry holds what starts on it. -/
theorem whole_assignment {entry : Entry} (writable : entry.Writable) (table : Table)
    (rest : Text) : Line.Whole (entry.assignment table ++ rest) := by
  intro other assigns
  rw [isAssignment_assignment] at assigns
  obtain rfl := of_decide_eq_true assigns
  exact ⟨entry, rest, writable, rfl⟩

theorem whole_of_writable {entry : Entry} (writable : entry.Writable) (table : Table) :
    Line.Whole (entry.assignment table) := by
  have held := whole_assignment writable table []
  rwa [List.append_nil] at held

end Entry

/-! ## Lines that set a scalar -/

namespace Scalar

/-- A line that sets one scalar does not start like a line that sets another. -/
theorem starts_assignment (a b : Scalar) (value : Text) :
    Line.starts a.opening (b.assignment value) = decide (a = b) := by
  rw [Bool.eq_iff_iff, Line.starts_iff, decide_eq_true_iff]
  constructor
  · intro starts
    have either := List.prefix_or_prefix_of_prefix starts (List.prefix_append b.opening value)
    rcases either with inside | inside
    · exact eq_of_opening_isPrefixOf (List.isPrefixOf_iff_prefix.2 inside)
    · exact (eq_of_opening_isPrefixOf (List.isPrefixOf_iff_prefix.2 inside)).symm
  · rintro rfl
    exact List.prefix_append _ _

/-- Nothing is read off a line that does not set the scalar. -/
theorem isPrefixOf?_eq_none {scalar : Scalar} {line : Text}
    (other : Line.starts scalar.opening line = false) : scalar.opening.isPrefixOf? line = none := by
  rw [Option.eq_none_iff_forall_ne_some]
  intro rest found
  have starts : Line.starts scalar.opening line = true := by
    rw [Line.starts_iff, Text.isPrefixOf?_eq_some.1 found]
    exact List.prefix_append _ _
  rw [other] at starts
  cases starts

/-- The value is read back off the line that sets it, and nothing is read for another scalar. -/
theorem isPrefixOf?_assignment (a b : Scalar) (value : Text) :
    a.opening.isPrefixOf? (b.assignment value) = if a = b then some value else none := by
  by_cases same : a = b
  · subst same
    rw [if_pos rfl]
    exact Text.isPrefixOf?_eq_some.2 rfl
  · rw [if_neg same]
    exact isPrefixOf?_eq_none ((starts_assignment a b value).trans (decide_eq_false same))

/-- If every line that sets the scalar sets it to one value, the lines give it that value or
none. -/
theorem findSome?_of_forall {scalar : Scalar} {ls : List Text} {value : Text}
    (only : ∀ l ∈ ls, ∀ found, scalar.opening.isPrefixOf? l = some found → found = value) :
    (ls.findSome? fun l => scalar.opening.isPrefixOf? l) = none ∨
      (ls.findSome? fun l => scalar.opening.isPrefixOf? l) = some value := by
  cases found : ls.findSome? fun l => scalar.opening.isPrefixOf? l with
  | none => exact Or.inl rfl
  | some first =>
      obtain ⟨l, member, here⟩ := List.exists_of_findSome?_eq_some found
      exact Or.inr (congrArg some (only l member first here))

end Scalar

namespace Line

/-- A line does not start with a text that has another first character. -/
theorem starts_eq_false {c d : Char} (apart : c ≠ d) (opening line : Text) :
    starts (c :: opening) (d :: line) = false := by
  simp [starts, List.isPrefixOf, apart]

/-- No reader finds anything on a line whose first character starts no scalar and no table. -/
theorem mute_of_first {c : Char} {rest : Text} (flat : Text.Flat (c :: rest))
    (other : c ∉ ['R', 'G', 'B', 'C']) : Mute (c :: rest) := by
  refine ⟨flat, fun scalar => ?_, fun table => ?_⟩
  · obtain ⟨d, first, opening, begins⟩ := scalar.opening_eq_cons
    have apart : d ≠ c := by
      rintro rfl
      exact other (List.mem_cons_of_mem _ first)
    rw [begins]
    exact starts_eq_false apart opening rest
  · obtain ⟨opening, begins⟩ := table.opening_eq_cons
    have apart : 'R' ≠ c := by
      rintro rfl
      exact other (by simp)
    rw [isAssignment, begins]
    exact starts_eq_false apart opening rest

theorem mute_nil : Mute [] := by
  refine ⟨Text.flat_nil, fun scalar => ?_, fun table => ?_⟩
  · cases scalar <;> rfl
  · rcases table with _ | _ | _ | _ <;> rfl

theorem mute_guardedDeclaration (table : Table) : Mute table.guardedDeclaration := by
  have first : ∃ rest, table.guardedDeclaration = '[' :: rest := ⟨_, rfl⟩
  have flat : table.guardedDeclaration.Flat := by
    rcases table with _ | _ | _ | _ <;> decide
  obtain ⟨rest, begins⟩ := first
  rw [begins] at flat ⊢
  exact mute_of_first flat (by decide)

end Line

namespace Line.Mute

variable {line : Text} (mute : Line.Mute line)

include mute

theorem whole : Line.Whole line := by
  intro table assigns
  rw [mute.unassigned table] at assigns
  cases assigns

theorem onLine? (table : Table) : Entry.onLine? table line = none :=
  Entry.onLine?_eq_none (mute.unassigned table)

theorem isPrefixOf? (scalar : Scalar) : scalar.opening.isPrefixOf? line = none :=
  scalar.isPrefixOf?_eq_none (mute.silent scalar)

end Line.Mute

namespace Entry

/-- The entries of a table that stand on written entries: all of them if it is their table,
none otherwise. -/
theorem filterMap_assignment (a b : Table) {entries : List Entry}
    (writable : ∀ entry ∈ entries, entry.Writable) :
    (entries.map (assignment b)).filterMap (onLine? a) = if a = b then entries else [] := by
  induction entries with
  | nil => simp
  | cons entry rest ih =>
      obtain ⟨here, later⟩ := List.forall_mem_cons.1 writable
      rw [List.map_cons, List.filterMap_cons, ih later]
      by_cases same : a = b
      · subst same
        have found := onLine?_assignment a here []
        rw [List.append_nil] at found
        simp [found]
      · have missing : onLine? a (entry.assignment b) = none :=
          onLine?_eq_none ((isAssignment_line a b entry).trans (decide_eq_false same))
        simp [missing, same]

/-- No entry stands on mute lines. -/
theorem filterMap_mute (table : Table) {ls : List Text} (mute : ∀ l ∈ ls, Line.Mute l) :
    ls.filterMap (onLine? table) = [] := by
  rw [List.filterMap_eq_nil_iff]
  exact fun l member => (mute l member).onLine? table

/-- An entry is read at the start of a segment only, as it is written. -/
theorem eq_of_readAt? {table : Table} {atStart : Bool} {t after : Text} {entry : Entry}
    (found : readAt? table atStart t = some (entry, after)) :
    atStart = true ∧ t = entry.assignment table ++ after ∧ entry.Writable := by
  unfold readAt? at found
  split at found
  · rename_i start
    exact ⟨start, eq_of_read? found⟩
  · cases found

/-- Only writable entries are found. -/
theorem writable_of_mem_scan {table : Table} {atStart : Bool} {t : Text} {entry : Entry}
    (member : entry ∈ scan table atStart t) : entry.Writable := by
  fun_induction scan table atStart t with
  | case1 => cases member
  | case2 atStart c rest found after read shorter ih =>
      rcases List.mem_cons.1 member with rfl | later
      · exact (eq_of_readAt? read).2.2
      · exact ih later
  | case3 atStart c rest read ih => exact ih member

/-- What is found stands in the text as it is written. -/
theorem infix_of_mem_scan {table : Table} {atStart : Bool} {t : Text} {entry : Entry}
    (member : entry ∈ scan table atStart t) : entry.assignment table <:+: t := by
  fun_induction scan table atStart t with
  | case1 => cases member
  | case2 atStart c rest found after read shorter ih =>
      rw [(eq_of_readAt? read).2.1]
      rcases List.mem_cons.1 member with rfl | later
      · exact (List.prefix_append _ after).isInfix
      · exact (ih later).trans (List.suffix_append _ after).isInfix
  | case3 atStart c rest read ih => exact (ih member).trans (List.suffix_cons c rest).isInfix

end Entry

/-- A document that mentions no assignment to the table gives it no entry. -/
theorem Table.entries_eq_nil {table : Table} {document : Text}
    (absent : document.mentions table.opening = false) : table.entries document = [] := by
  rw [List.eq_nil_iff_forall_not_mem]
  intro entry member
  have opening : table.opening <:+: document := by
    refine List.IsInfix.trans ?_ (Entry.infix_of_mem_scan member)
    simp only [Entry.assignment, Table.assignment, List.append_assoc]
    exact (List.prefix_append _ _).isInfix
  rw [(Text.mentions_iff _ _).2 opening] at absent
  cases absent

/-! ## Documents read line by line -/

namespace Entry

/-- Searching goes on behind the end of a line, after the entry on it if there is one. -/
theorem scan_line {table : Table} {line : Text} (flat : line.Flat) (whole : Line.Whole line)
    (rest : Text) :
    scan table true (line ++ '\n' :: rest) =
      (onLine? table line).toList ++ scan table true rest := by
  cases assigns : Line.isAssignment table line with
  | true =>
      obtain ⟨entry, tail, writable, rfl⟩ := whole table assigns
      rw [onLine?_assignment table writable, List.append_assoc,
        scan_of_read? (read?_assignment table writable _), scan_flat (Text.flat_append.1 flat).2]
      rfl
  | false =>
      have other : Line.isAssignment table (line ++ '\n' :: rest) = false :=
        (Line.starts_append_newline table.flat_opening line rest).trans assigns
      have nothing : readAt? table true (line ++ '\n' :: rest) = none := read?_eq_none other
      rw [onLine?_eq_none assigns]
      cases line with
      | nil => exact scan_cons nothing
      | cons c line =>
          obtain ⟨here, later⟩ := Text.flat_cons.1 flat
          rw [List.cons_append] at nothing ⊢
          rw [scan_cons nothing, here, scan_flat later]
          rfl

theorem scan_line_end {table : Table} {line : Text} (flat : line.Flat) (whole : Line.Whole line) :
    scan table true line = (onLine? table line).toList := by
  cases assigns : Line.isAssignment table line with
  | true =>
      obtain ⟨entry, tail, writable, rfl⟩ := whole table assigns
      rw [onLine?_assignment table writable,
        scan_of_read? (read?_assignment table writable _),
        scan_flat_end (Text.flat_append.1 flat).2]
      rfl
  | false =>
      have nothing : readAt? table true line = none := read?_eq_none assigns
      rw [onLine?_eq_none assigns]
      cases line with
      | nil => exact scan_nil table true
      | cons c line =>
          obtain ⟨here, later⟩ := Text.flat_cons.1 flat
          rw [scan_cons nothing, here, scan_flat_end later]
          rfl

end Entry

/-- The entries of a text of lines are those on its lines, in line order. -/
theorem Table.entries_unlines (table : Table) {ls : List Text} (flat : ∀ l ∈ ls, l.Flat)
    (whole : ∀ l ∈ ls, Line.Whole l) :
    table.entries (Text.unlines ls) = ls.filterMap (Entry.onLine? table) := by
  rw [Table.entries]
  induction ls with
  | nil => exact Entry.scan_nil table true
  | cons l rest ih =>
      obtain ⟨flatHere, flatLater⟩ := List.forall_mem_cons.1 flat
      obtain ⟨wholeHere, wholeLater⟩ := List.forall_mem_cons.1 whole
      have back := ih flatLater wholeLater
      rw [← List.singleton_append, List.filterMap_append, ← back]
      have here : [l].filterMap (Entry.onLine? table) = (Entry.onLine? table l).toList := by
        cases found : Entry.onLine? table l <;> simp [found]
      rw [here]
      cases rest with
      | nil =>
          rw [List.singleton_append, Text.unlines_singleton, Entry.scan_line_end flatHere wholeHere]
          have done : Entry.scan table true (Text.unlines []) = [] := Entry.scan_nil table true
          rw [done, List.append_nil]
      | cons m rest =>
          rw [List.singleton_append, Text.unlines_cons_cons, Entry.scan_line flatHere wholeHere]

/-- A text of lines gives a scalar what its first line that sets the scalar gives it. -/
theorem Scalar.value?_unlines (scalar : Scalar) {ls : List Text} (flat : ∀ l ∈ ls, l.Flat)
    (some_ : ls ≠ []) :
    scalar.value? (Text.unlines ls) = ls.findSome? fun l => scalar.opening.isPrefixOf? l := by
  rw [Scalar.value?, Text.segments_unlines flat some_]

/-- A document of one line has the entry on the line. -/
theorem Table.entries_line (table : Table) {l : Text} (flat : l.Flat) (whole : Line.Whole l) :
    table.entries l = (Entry.onLine? table l).toList := by
  have read := table.entries_unlines (List.forall_mem_singleton.2 flat)
    (List.forall_mem_singleton.2 whole)
  rw [Text.unlines_singleton] at read
  rw [read]
  cases found : Entry.onLine? table l <;> simp [found]

/-- A document of one line sets what the line sets. -/
theorem Scalar.value?_line (scalar : Scalar) {l : Text} (flat : l.Flat) :
    scalar.value? l = scalar.opening.isPrefixOf? l := by
  rw [Scalar.value?, Text.segments_of_flat flat]
  cases found : scalar.opening.isPrefixOf? l <;> simp [found]

/-- A document whose only line ends are line feeds and on whose lines every entry that
starts is held in full. -/
structure LineStructured (document : Text) : Prop where
  /-- Only line feeds end a segment. -/
  lineFeeds : ∀ c ∈ document, Text.endsLine c = true → c = '\n'
  /-- A line that starts like an entry holds it. -/
  whole : ∀ line ∈ document.lines, Line.Whole line

namespace LineStructured

theorem flat {document : Text} (structured : LineStructured document) :
    ∀ l ∈ document.lines, l.Flat :=
  fun _ member => Text.flat_of_mem_lines structured.lineFeeds member

theorem entries {document : Text} (structured : LineStructured document) (table : Table) :
    table.entries document = document.lines.filterMap (Entry.onLine? table) := by
  have cut := table.entries_unlines structured.flat structured.whole
  rwa [Text.unlines_lines] at cut

theorem value? {document : Text} (structured : LineStructured document) (scalar : Scalar) :
    scalar.value? document =
      document.lines.findSome? fun l => scalar.opening.isPrefixOf? l := by
  have cut := scalar.value?_unlines structured.flat (Text.lines_ne_nil document)
  rwa [Text.unlines_lines] at cut

/-- A text put together from flat lines is line-structured if its lines hold their entries. -/
theorem unlines {ls : List Text} (flat : ∀ l ∈ ls, l.Flat) (whole : ∀ l ∈ ls, Line.Whole l)
    (some_ : ls ≠ []) : LineStructured (Text.unlines ls) where
  lineFeeds := Text.eq_newline_of_mem_unlines flat
  whole := by
    rwa [Text.lines_unlines (fun l member => Text.not_mem_of_flat (flat l member)) some_]

end LineStructured

end ConfigUpkeep
