/-
# ConfigUpkeep.Proofs.Recognition -- two readers of one table

A keyed table is read in two ways.  Entries are searched in the whole text, from the start
of a segment on, and may reach over several lines.  A check and a migration go line by
line, and look at what a line starts with.  This module says when one of them sees what
the other finds.

* A check leaves a table declared exactly if the document declares it or a *line* assigns
  to it (`Repair.mentions_check`).
* A migration reports a key exactly if a *line* assigns to the key behind its indent
  (`Migration.reports_iff`).
* Where only line feeds end a segment, an entry starts a line, and the line has the whole
  key unless the key holds a line feed itself (`Entry.exists_line`).

So the two readers agree on the tables of a document without stray line ends, and on those
of its keys that stand on one line (`recognition`).  Behind a lone carriage return, or
around a key over several lines, they do not (`Recognition.not_recognised`).
-/
import ConfigUpkeep.Proofs.Mending
import ConfigUpkeep.Proofs.Version

namespace ConfigUpkeep

set_option autoImplicit false

/-! ## What a check declares -/

namespace Line

/-- A guarded declaration declares its own table only. -/
theorem declares_guardedDeclaration_iff (a b : Category) :
    declares (.keyed a) (Table.keyed b).guardedDeclaration = true ↔ a = b := by
  cases a <;> cases b <;> decide

end Line

namespace Repair

variable {uses : Uses} {ls : List Text} {l : Text}

/-- What stands between the lines of a document after its tables are declared is empty, or
declares an awaited table. -/
theorem mem_declaredLines {awaited : List Category} (member : l ∈ declaredLines uses awaited ls) :
    l ∈ ls ∨ l = [] ∨ ∃ category ∈ awaited, l = (Table.keyed category).guardedDeclaration := by
  induction ls generalizing awaited with
  | nil => cases member
  | cons line rest ih =>
      rw [declaredLines, List.mem_append, List.mem_cons] at member
      rcases member with added | rfl | later
      · obtain ⟨category, here, declared⟩ := List.mem_flatMap.1 added
        simp only [declarationLines, List.mem_cons, List.not_mem_nil, or_false] at declared
        rcases declared with rfl | rfl
        · exact Or.inr (Or.inr ⟨category, (List.mem_filter.1 here).1, rfl⟩)
        · exact Or.inr (Or.inl rfl)
      · exact Or.inl (List.mem_cons_self ..)
      · rcases ih later with old | rfl | ⟨category, here, rfl⟩
        · exact Or.inl (List.mem_cons_of_mem _ old)
        · exact Or.inr (Or.inl rfl)
        · exact Or.inr (Or.inr ⟨category, (List.mem_filter.1 here).1, rfl⟩)

theorem mem_spacedLines (member : l ∈ spacedLines ls) : l ∈ ls ∨ l = [] := by
  fun_induction spacedLines ls with
  | case1 => cases member
  | case2 line => exact Or.inl member
  | case3 line next rest crowded ih =>
      rcases List.mem_cons.1 member with rfl | member
      · exact Or.inl (List.mem_cons_self ..)
      · rcases List.mem_cons.1 member with rfl | later
        · exact Or.inr rfl
        · exact (ih later).imp_left (List.mem_cons_of_mem _)
  | case4 line next rest free ih =>
      rcases List.mem_cons.1 member with rfl | later
      · exact Or.inl (List.mem_cons_self ..)
      · exact (ih later).imp_left (List.mem_cons_of_mem _)

/-- A check keeps every line. -/
theorem subset_lines_check (document : Text) : document.lines ⊆ (check document).document.lines := by
  rw [lines_check]
  exact ((padded_declaredLines _ _ _).sublist.trans (padded_spacedLines _).sublist).subset

/-- The lines that a check adds are empty, or declare a table that a line assigns to. -/
theorem mem_lines_check {document : Text} (member : l ∈ (check document).document.lines) :
    l ∈ document.lines ∨ l = [] ∨ ∃ category, l = (Table.keyed category).guardedDeclaration ∧
      ∃ used ∈ document.lines, Line.isAssignment (.keyed category) used = true := by
  rw [lines_check] at member
  rcases mem_spacedLines member with declared | rfl
  · rcases mem_declaredLines declared with old | rfl | ⟨category, awaited, rfl⟩
    · exact Or.inl old
    · exact Or.inr (Or.inl rfl)
    · have undeclared := (List.mem_filter.1 awaited).2
      rw [isUndeclared, Bool.and_eq_true, List.any_eq_true] at undeclared
      exact Or.inr (Or.inr ⟨category, rfl, undeclared.1⟩)
  · exact Or.inr (Or.inl rfl)

/-- A document mentions a declaration exactly if one of its lines declares the table. -/
theorem mentions_declaration (document : Text) (category : Category) :
    document.mentions (Table.keyed category).declaration = true ↔
      ∃ l ∈ document.lines, Line.declares (.keyed category) l = true := by
  rw [Text.mentions_iff]
  constructor
  · intro inside
    have apart : '\n' ∉ (Table.keyed category).declaration := by cases category <;> decide
    obtain ⟨l, member, here⟩ := Text.exists_line_of_infix apart inside
    exact ⟨l, member, (Text.mentions_iff _ _).2 here⟩
  · rintro ⟨l, member, declares⟩
    have whole := Text.infix_unlines member
    rw [Text.unlines_lines] at whole
    exact ((Text.mentions_iff _ _).1 declares).trans whole

/-- **What a check declares**: the table is declared afterwards exactly if the document declares
it, or one of its lines assigns to it. -/
theorem mentions_check (document : Text) (category : Category) :
    (check document).document.mentions (Table.keyed category).declaration = true ↔
      document.mentions (Table.keyed category).declaration = true ∨
        ∃ l ∈ document.lines, Line.isAssignment (.keyed category) l = true := by
  rw [mentions_declaration, mentions_declaration]
  constructor
  · rintro ⟨l, member, declares⟩
    rcases mem_lines_check member with old | rfl | ⟨other, rfl, used⟩
    · exact Or.inl ⟨l, old, declares⟩
    · cases category <;> cases declares
    · obtain rfl := (Line.declares_guardedDeclaration_iff _ _).1 declares
      exact Or.inr used
  · rintro (⟨l, old, declares⟩ | ⟨l, old, used⟩)
    · exact ⟨l, subset_lines_check document old, declares⟩
    · exact (clean_check document).declared category ⟨l, subset_lines_check document old, used⟩

end Repair

/-! ## What a migration reports -/

namespace Line

/-- The line assigns to the key of the table, at any indent. -/
def Keys (table : Table) (key line : Text) : Prop :=
  table.opening ++ (key ++ [']']) <+: line.dropIndent

instance (table : Table) (key line : Text) : Decidable (Keys table key line) :=
  inferInstanceAs (Decidable (_ <+: _))

end Line

namespace Migration

/-- The renamings in a list of lines: one for each key with a shorthand that a line assigns to. -/
theorem mem_renamesIn_iff {aliases : List Alias} {ls : List Text} {rename : Rename}
    (some_ : rename.canonical ≠ []) (free : ']' ∉ rename.canonical)
    (short : Alias.shorthandOf? aliases rename.canonical = some rename.shorthand) :
    rename ∈ renamesIn aliases ls ↔
      ∃ l ∈ ls, Line.Keys (.keyed rename.category) rename.canonical l := by
  rw [renamesIn, List.mem_eraseDups, List.mem_filterMap]
  constructor
  · rintro ⟨l, member, called⟩
    obtain ⟨⟨found, rest⟩, here, rfl⟩ := Option.map_eq_some_iff.1 called
    refine ⟨l, member, rest, ?_⟩
    rw [(exists_of_renameIn? here).1]
    simp
  · rintro ⟨l, member, rest, behind⟩
    refine ⟨l, member, ?_⟩
    have keyed : l.dropIndent = (Table.keyed rename.category).opening ++
        (rename.canonical ++ ']' :: rest) := by
      rw [← behind]
      simp
    rw [renameIn?_of_dropIndent aliases rename.category some_ free keyed, short]
    rfl

theorem not_mem_of_mem_renamesIn {aliases : List Alias} {ls : List Text} {rename : Rename}
    (member : rename ∈ renamesIn aliases ls) : ']' ∉ rename.canonical := by
  rw [renamesIn, List.mem_eraseDups, List.mem_filterMap] at member
  obtain ⟨l, -, called⟩ := member
  obtain ⟨⟨other, rest⟩, here, rfl⟩ := Option.map_eq_some_iff.1 called
  exact (named_of_renameIn? here).2

/-- A report names the table, the key and its shorthand, so it tells apart any two renamings of
keys that can be written. -/
theorem describe_inj {first second : Rename} (free : ']' ∉ first.canonical)
    (free_ : ']' ∉ second.canonical) (same : first.describe = second.describe) :
    first = second := by
  obtain ⟨category, canonical, shorthand⟩ := first
  obtain ⟨other, key, value⟩ := second
  have written : ∀ rename : Rename, rename.describe = (Table.keyed rename.category).opening ++
      (rename.canonical ++ ']' :: (" -> ".toList ++ ((Table.keyed rename.category).opening ++
        (rename.shorthand ++ [']'])))) := by
    intro rename
    simp [Rename.describe, Table.opening]
  rw [written, written] at same
  obtain rfl : category = other := by
    have starts := congrArg (Line.isAssignment (.keyed category)) same
    rw [Line.isAssignment_opening_append, Line.isAssignment_opening_append] at starts
    simpa using starts
  have cut := List.append_cancel_left same
  obtain ⟨keyRead, behindKey⟩ := Entry.before_append free
    (" -> ".toList ++ ((Table.keyed category).opening ++ (shorthand ++ [']'])))
  obtain ⟨otherRead, behindOther⟩ := Entry.before_append free_
    (" -> ".toList ++ ((Table.keyed category).opening ++ (value ++ [']'])))
  rw [cut, otherRead] at keyRead
  rw [cut, behindOther] at behindKey
  have shorthands : value = shorthand := by
    simpa using behindKey
  rw [shorthands]
  simpa using keyRead.symm

/-- The migration tells the user that the shorthand stands in place of the key. -/
def Reports (migration : Migration) (category : Category) (key shorthand : Text) : Prop :=
  Rename.describe ⟨category, key, shorthand⟩ ∈ migration.renames.map Rename.describe

/-- **What a migration reports**: the renaming of a key that has a shorthand is reported exactly
if a line assigns to the key, at any indent. -/
theorem reports_iff {document key shorthand : Text} {migration : Migration}
    (migrated : ofDocument? document = some migration) {category : Category}
    (some_ : key ≠ []) (free : ']' ∉ key)
    (short : Alias.shorthandOf? (Alias.ofDocument document) key = some shorthand) :
    migration.Reports category key shorthand ↔
      ∃ l ∈ document.lines, Line.Keys (.keyed category) key l := by
  have renames : migration.renames = renamesIn (Alias.ofDocument document) document.lines := by
    rw [ofDocument?] at migrated
    split at migrated
    · cases migrated
    · cases migrated
      rfl
  have found : ⟨category, key, shorthand⟩ ∈ renamesIn (Alias.ofDocument document) document.lines ↔
      ∃ l ∈ document.lines, Line.Keys (.keyed category) key l :=
    mem_renamesIn_iff some_ free short
  rw [Reports, renames, ← found]
  constructor
  · intro reported
    obtain ⟨rename, member, same⟩ := List.mem_map.1 reported
    rwa [describe_inj (not_mem_of_mem_renamesIn member) free same] at member
  · exact List.mem_map_of_mem

end Migration

/-! ## Where an entry stands -/

namespace Text

variable {o p t : Text}

theorem Within.of_prefix (within : Within p t) (front : o <+: p) : Within o t := by
  obtain ⟨c, ends, here⟩ := within
  exact ⟨c, ends, (List.cons_prefix_cons.2 ⟨rfl, front⟩).isInfix.trans here⟩

/-- Where only line feeds end a segment, a segment is a line. -/
theorem exists_line_of_opens (feeds : ∀ c ∈ t, endsLine c = true → c = '\n') (opens : Opens o t) :
    ∃ l ∈ t.lines, o <+: l := by
  obtain ⟨l, member, here⟩ := opens_iff_lines.1 opens
  exact ⟨l, member, (opens_of_flat (flat_of_mem_lines feeds member)).1 here⟩

end Text

namespace Entry

/-- An entry is found at the front of a text or behind the end of a segment. -/
theorem front_or_within_of_mem_scan {table : Table} {atStart : Bool} {t : Text} {entry : Entry}
    (member : entry ∈ scan table atStart t) :
    (atStart = true ∧ entry.assignment table <+: t) ∨ Text.Within (entry.assignment table) t := by
  fun_induction scan table atStart t with
  | case1 => cases member
  | case2 atStart c rest found after read shorter ih =>
      obtain ⟨start, written, -⟩ := eq_of_readAt? read
      rw [written]
      rcases List.mem_cons.1 member with rfl | later
      · exact Or.inl ⟨start, List.prefix_append _ after⟩
      · rcases ih later with ⟨impossible, -⟩ | within
        · cases impossible
        · exact Or.inr (within.mono (List.suffix_append _ after).isInfix)
  | case3 atStart c rest read ih =>
      right
      rcases ih member with ⟨ends, front⟩ | within
      · exact ⟨c, ends, (List.cons_prefix_cons.2 ⟨rfl, front⟩).isInfix⟩
      · exact within.mono (List.suffix_cons c rest).isInfix

/-- What an entry starts with opens a segment of the document. -/
theorem opens_of_mem_entries {table : Table} {document o : Text} {entry : Entry}
    (member : entry ∈ table.entries document) (flat : o.Flat)
    (front : o <+: entry.assignment table) : Text.Opens o document := by
  rw [Text.opens_iff flat]
  rcases front_or_within_of_mem_scan member with ⟨-, here⟩ | within
  · exact Or.inl (front.trans here)
  · exact Or.inr (within.of_prefix front)

/-- **Where only line feeds end a segment, an entry starts a line**, and the line has the whole
key unless the key goes over several lines. -/
theorem exists_line {table : Table} {document : Text} {entry : Entry}
    (feeds : ∀ c ∈ document, Text.endsLine c = true → c = '\n')
    (member : entry ∈ table.entries document) :
    (∃ l ∈ document.lines, Line.isAssignment table l = true) ∧
      ('\n' ∉ entry.key → ∃ l ∈ document.lines, Line.Keys table entry.key l) := by
  have written : entry.assignment table =
      table.opening ++ (entry.key ++ [']']) ++ ('=' :: '"' :: (entry.value ++ ['"'])) := by
    simp [assignment, Table.assignment]
  constructor
  · have front : table.opening <+: entry.assignment table := by
      rw [written, List.append_assoc]
      exact List.prefix_append _ _
    obtain ⟨l, listed, here⟩ := Text.exists_line_of_opens feeds
      (opens_of_mem_entries member table.flat_opening front)
    exact ⟨l, listed, (Line.starts_iff _ _).2 here⟩
  · intro onLine
    have key : entry.key.Flat := by
      refine Text.flat_of_not_mem feeds (fun c inside => (infix_of_mem_scan member).subset ?_) onLine
      rw [written]
      simp [inside]
    have flat : (table.opening ++ (entry.key ++ [']'])).Flat := by
      rw [Text.flat_append, Text.flat_append]
      exact ⟨table.flat_opening, key, by decide⟩
    have front : table.opening ++ (entry.key ++ [']']) <+: entry.assignment table := by
      rw [written]
      exact List.prefix_append _ _
    obtain ⟨l, listed, here⟩ := Text.exists_line_of_opens feeds
      (opens_of_mem_entries member flat front)
    have assigns : Line.isAssignment table l = true := by
      rw [Line.isAssignment, Line.starts_iff]
      exact (List.prefix_append _ _).trans here
    refine ⟨l, listed, ?_⟩
    rwa [Line.Keys, Line.dropIndent_of_isAssignment assigns]

end Entry

/-- **How far the readers of a keyed table agree.**  A check leaves the table declared exactly if
the document declares it or a line assigns to it; of the keys that are found and have a
shorthand, a migration reports exactly those that a line assigns to; and where only line feeds
end a segment, a table with entries is left declared, and every key on one line is reported. -/
theorem recognition (document : Text) (category : Category) :
    let table := Table.keyed category
    ((Repair.check document).document.mentions table.declaration = true ↔
      document.mentions table.declaration = true ∨
        ∃ l ∈ document.lines, Line.isAssignment table l = true) ∧
    (∀ migration, Migration.ofDocument? document = some migration →
      ∀ entry ∈ table.entries document, ∀ shorthand,
        Alias.shorthandOf? (Alias.ofDocument document) entry.key = some shorthand →
          (migration.Reports category entry.key shorthand ↔
            ∃ l ∈ document.lines, Line.Keys table entry.key l)) ∧
    ((∀ c ∈ document, Text.endsLine c = true → c = '\n') →
      ∀ entry ∈ table.entries document,
        (Repair.check document).document.mentions table.declaration = true ∧
        ('\n' ∉ entry.key → ∀ migration, Migration.ofDocument? document = some migration →
          ∀ shorthand, Alias.shorthandOf? (Alias.ofDocument document) entry.key = some shorthand →
            migration.Reports category entry.key shorthand)) := by
  intro table
  have declared := Repair.mentions_check document category
  have reported : ∀ migration, Migration.ofDocument? document = some migration →
      ∀ entry ∈ table.entries document, ∀ shorthand,
        Alias.shorthandOf? (Alias.ofDocument document) entry.key = some shorthand →
          (migration.Reports category entry.key shorthand ↔
            ∃ l ∈ document.lines, Line.Keys table entry.key l) := by
    intro migration migrated entry member shorthand short
    obtain ⟨some_, free, -⟩ := Entry.writable_of_mem_scan member
    exact Migration.reports_iff migrated some_ free short
  refine ⟨declared, reported, fun feeds entry member => ?_⟩
  obtain ⟨assigned, keyed⟩ := Entry.exists_line feeds member
  refine ⟨declared.2 (Or.inr assigned), fun onLine migration migrated shorthand short => ?_⟩
  exact (reported migration migrated entry member shorthand short).2 (keyed onLine)

namespace Recognition

/-! ## A carriage return between the readers -/

def entry : Entry := ⟨"app", "make"⟩

def shortcut : Entry := ⟨"a", "app"⟩

/-- An assignment, and an alias for its key. -/
def assigned : List Text := [entry.assignment (.keyed .ci), shortcut.assignment .aliases]

/-- The two lines behind a lone carriage return. -/
def document : Text := 'x' :: '\r' :: Text.unlines assigned

/-- A search goes on behind the carriage return, since it ends a segment. -/
theorem entries_document (table : Table) :
    table.entries document = assigned.filterMap (Entry.onLine? table) := by
  have flat : ∀ l ∈ assigned, l.Flat := by decide
  have whole : ∀ l ∈ assigned, Line.Whole l := by
    intro l member
    simp only [assigned, List.mem_cons, List.not_mem_nil, or_false] at member
    rcases member with rfl | rfl
    · exact Entry.whole_of_writable (by decide) _
    · exact Entry.whole_of_writable (by decide) _
  have front : Entry.readAt? table true document = none := by
    rcases table with _ | _ | _ | _ <;> rfl
  rw [← table.entries_unlines flat whole, Table.entries, document, Entry.scan_cons front,
    Entry.scan_cons rfl]
  rfl

theorem mem_entries : entry ∈ (Table.keyed .ci).entries document := by
  rw [entries_document]
  decide

theorem aliases_document : Alias.ofDocument document = [Alias.ofEntry shortcut] := by
  rw [Alias.ofDocument, entries_document]
  decide

/-- A check passes the table although nothing declares it, and a migration overlooks its key
although it has a shorthand. -/
theorem not_recognised :
    entry ∈ (Table.keyed .ci).entries document ∧
      (Repair.check document).document.mentions (Table.keyed .ci).declaration = false ∧
      ∃ migration, Migration.ofDocument? document = some migration ∧
        Alias.shorthandOf? (Alias.ofDocument document) entry.key = some shortcut.key ∧
        ¬ migration.Reports .ci entry.key shortcut.key := by
  have short : Alias.shorthandOf? (Alias.ofDocument document) entry.key = some shortcut.key := by
    rw [aliases_document]
    decide
  refine ⟨mem_entries, ?_, ?_⟩
  · rw [← Bool.not_eq_true, Repair.mentions_check]
    decide
  · have migrated : Migration.ofDocument? document = some (Migration.apply document) :=
      if_neg (by decide)
    refine ⟨Migration.apply document, migrated, short, ?_⟩
    rw [Migration.reports_iff migrated (by decide) (by decide) short]
    decide

end Recognition

end ConfigUpkeep
