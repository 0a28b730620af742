/-
# ConfigUpkeep.Proofs.Conversion -- what a migration does to the lines of a document

A migration works in three steps, each on the lines that the step before it left:

* a line with a key that has a shorthand gets the shorthand between its brackets, and any
  other line is kept (`Migration.Renames`);
* in front of the first line that uses a table which is declared nowhere, at any indent,
  stand the declaration of the table and an empty line, as in a check;
* where no segment sets a version, the stamp (`Migration.versionBlock_eq`) stands in front of
  the first line that is neither blank nor a comment (`Migration.isPreamble_iff`), or at the end.

The steps go by different notions of a line: keys and declarations by the lines between
line feeds, the version by segments.  They fit together because shorthands without a line
feed leave every line a line (`Migration.lines_renamed`).  So no line is lost, and none
changes its place.  `Migration.converts` is all of it, with what the user is told.
-/
import ConfigUpkeep.Proofs.Insertion
import ConfigUpkeep.Proofs.Recognition

namespace ConfigUpkeep

set_option autoImplicit false

/-! ## Renamed lines -/

namespace Text

variable {blank t : Text} (all : blank.isBlank = true)

include all

theorem indent_append : (blank ++ t).indent = blank ++ t.indent :=
  List.takeWhile_append_of_pos (List.all_eq_true.1 all)

theorem dropIndent_append : (blank ++ t).dropIndent = t.dropIndent :=
  List.dropWhile_append_of_pos (List.all_eq_true.1 all)

end Text

namespace Migration

/-- What becomes of a line, and what is reported about it.  Either its key has a shorthand,
which stands in place of the key, between the same indent, table and rest; or no key on it
has one, and it is kept. -/
inductive Renames (aliases : List Alias) : Text → Text → Option Rename → Prop where
  | renamed (category : Category) {indent key shorthand : Text} (rest : Text)
      (blank : indent.isBlank = true) (some_ : key ≠ []) (free : ']' ∉ key)
      (short : Alias.shorthandOf? aliases key = some shorthand) :
      Renames aliases
        (indent ++ ((Table.keyed category).opening ++ (key ++ ']' :: rest)))
        (indent ++ ((Table.keyed category).opening ++ (shorthand ++ ']' :: rest)))
        (some ⟨category, key, shorthand⟩)
  | kept {line : Text}
      (unnamed : ∀ category key, key ≠ [] → ']' ∉ key → Line.Keys (.keyed category) key line →
        Alias.shorthandOf? aliases key = none) :
      Renames aliases line line none

/-- **Renaming changes the key and nothing else of a line.** -/
theorem renames_renameLine (aliases : List Alias) (line : Text) :
    Renames aliases line (renameLine aliases line) ((renameIn? aliases line).map Prod.fst) := by
  cases called : renameIn? aliases line with
  | none =>
      have same : renameLine aliases line = line := by rw [renameLine, called]
      rw [same]
      refine .kept fun category key some_ free keys => ?_
      obtain ⟨rest, behind⟩ := keys
      have keyed : line.dropIndent = (Table.keyed category).opening ++ (key ++ ']' :: rest) := by
        rw [← behind]
        simp
      rw [renameIn?_of_dropIndent aliases category some_ free keyed] at called
      simpa using called
  | some found =>
      obtain ⟨rename, rest⟩ := found
      obtain ⟨behind, short⟩ := exists_of_renameIn? called
      obtain ⟨some_, free⟩ := named_of_renameIn? called
      have written : line.indent ++ ((Table.keyed rename.category).opening ++
          (rename.canonical ++ ']' :: rest)) = line := by
        rw [← behind]
        exact Text.indent_append_dropIndent line
      have result : renameLine aliases line = line.indent ++
          ((Table.keyed rename.category).opening ++ (rename.shorthand ++ ']' :: rest)) := by
        rw [renameLine, called]
        simp
      have blank : line.indent.isBlank = true := List.all_takeWhile
      have step := Renames.renamed rename.category rest blank some_ free short
      rwa [written, ← result] at step

/-- What becomes of a line is determined by the line and the aliases. -/
theorem renames_iff {aliases : List Alias} {line outcome : Text} {report : Option Rename} :
    Renames aliases line outcome report ↔
      outcome = renameLine aliases line ∧ report = (renameIn? aliases line).map Prod.fst := by
  constructor
  · intro renames
    cases renames with
    | @renamed category indent key shorthand rest blank some_ free short =>
        have assigns : Line.isAssignment (.keyed category)
            ((Table.keyed category).opening ++ (key ++ ']' :: rest)) = true :=
          (Line.isAssignment_opening_append _ _ _).trans (decide_eq_true rfl)
        have called := renameIn?_of_dropIndent aliases category some_ free
          ((Text.dropIndent_append blank).trans (Line.dropIndent_of_isAssignment assigns))
        rw [short] at called
        rw [renameLine, called, Text.indent_append blank, Line.indent_of_isAssignment assigns]
        simp
    | kept unnamed =>
        have nothing : renameIn? aliases line = none := by
          rw [Option.eq_none_iff_forall_ne_some]
          rintro ⟨rename, rest⟩ called
          obtain ⟨behind, short⟩ := exists_of_renameIn? called
          obtain ⟨some_, free⟩ := named_of_renameIn? called
          have keyed : Line.Keys (.keyed rename.category) rename.canonical line := by
            rw [Line.Keys, behind]
            exact ⟨rest, by simp⟩
          rw [unnamed _ _ some_ free keyed] at short
          cases short
        rw [renameLine, nothing]
        exact ⟨rfl, rfl⟩
  · rintro ⟨rfl, rfl⟩
    exact renames_renameLine aliases line

/-- A shorthand without a line feed leaves a line a line. -/
theorem Renames.not_mem {aliases : List Alias} {line outcome : Text} {report : Option Rename}
    (renames : Renames aliases line outcome report) (onLine : ∀ a ∈ aliases, '\n' ∉ a.shorthand)
    (apart : '\n' ∉ line) : '\n' ∉ outcome := by
  cases renames with
  | renamed category rest blank some_ free short =>
      obtain ⟨a, listed, -, same⟩ := Alias.exists_of_shorthandOf? short
      have brought := onLine a listed
      rw [same] at brought
      simp only [List.mem_append, List.mem_cons, not_or] at apart ⊢
      exact ⟨apart.1, apart.2.1, brought, apart.2.2.2⟩
  | kept unnamed => exact apart

/-- The lines of the renamed document are the lines of the document, renamed. -/
theorem lines_renamed {document : Text}
    (onLine : ∀ a ∈ Alias.ofDocument document, '\n' ∉ a.shorthand) :
    (Text.unlines (renamedLines document)).lines = renamedLines document := by
  refine Text.lines_unlines (fun l member => ?_) (by simp [renamedLines, Text.lines_ne_nil])
  obtain ⟨line, listed, rfl⟩ := List.mem_map.1 member
  exact (renames_renameLine _ line).not_mem onLine (List.of_mem_splitOn listed).1

/-! ## Reports -/

/-- A report is made once for each renaming that can be told from the ones before it. -/
theorem describe_renamesIn (aliases : List Alias) (ls : List Text) :
    (renamesIn aliases ls).map Rename.describe =
      ((ls.filterMap fun line => (renameIn? aliases line).map Prod.fst).map
        Rename.describe).eraseDups := by
  refine List.map_eraseDups fun first member second there => ?_
  have listed := List.mem_eraseDups.2 member
  have listed_ := List.mem_eraseDups.2 there
  exact describe_inj (not_mem_of_mem_renamesIn listed) (not_mem_of_mem_renamesIn listed_)

/-! ## The stamp -/

/-- The stamp, by its characters: a comment, the version, and an empty line. -/
theorem versionBlock_eq :
    versionBlock = ["# Config version (for migrations)", "CONFIG_VERSION=1", ""] := by
  decide +kernel

/-- The stamp stands behind lines that are blank or hold a number sign behind their indent. -/
theorem isPreamble_iff {line : Text} : isPreamble line = true ↔
    line.isBlank = true ∨
      ∃ indent rest : Text, indent.isBlank = true ∧ line = indent ++ '#' :: rest := by
  have solid : Text.isSpace '#' = false := by decide
  rw [isPreamble, Bool.or_eq_true, or_comm, Line.starts_iff]
  refine or_congr_right ⟨?_, ?_⟩
  · rintro ⟨rest, written⟩
    refine ⟨line.indent, rest, List.all_takeWhile, ?_⟩
    have behind : line.dropIndent = '#' :: rest := written.symm
    rw [← behind, Text.indent_append_dropIndent]
  · rintro ⟨indent, rest, blank, rfl⟩
    rw [Text.dropIndent_append blank, Text.dropIndent, List.dropWhile_cons_of_neg (by simp [solid])]
    exact List.prefix_append "#".toList rest

/-- The stamp is inserted in front of the first line that is neither blank nor a comment, or at
the end. -/
theorem stamp_eq_insert (ls : List Text) : stamp ls =
    ls.take (ls.findIdx fun line => !isPreamble line) ++ versionBlock ++
      ls.drop (ls.findIdx fun line => !isPreamble line) := by
  rw [stamp, List.takeWhile_eq_take_findIdx_not, List.dropWhile_eq_drop_findIdx_not]

theorem sublist_stamp (ls : List Text) : ls.Sublist (stamp ls) := by
  have behind : (ls.dropWhile isPreamble).Sublist (versionBlock ++ ls.dropWhile isPreamble) :=
    List.sublist_append_right _ _
  have whole := behind.append_left (ls.takeWhile isPreamble)
  rwa [List.takeWhile_append_dropWhile, ← List.append_assoc] at whole

/-- The lines of a stamped document are the lines that were stamped. -/
theorem lines_stamped (document : Text) :
    (Text.unlines (stamp document.lines)).lines = stamp document.lines := by
  have block : ∀ l ∈ versionBlock, '\n' ∉ l := by decide
  refine Text.lines_unlines (fun l member => ?_) (stamp_ne_nil _)
  rcases mem_stamp.1 member with stamped | old
  · exact block l stamped
  · exact (List.of_mem_splitOn old).1

/-- The version is stamped unless the declared text sets it at its start or behind the end of a
segment. -/
theorem versionAdded_apply_iff (document : Text) : (apply document).versionAdded = true ↔
    ¬ (Scalar.configVersion.opening <+: declared document ∨
      Text.Within Scalar.configVersion.opening (declared document)) := by
  rw [← Text.opens_iff recogniser_opening.flat, ← hasVersion_iff, hasVersion_declared,
    versionAdded_apply, Bool.not_eq_true', Bool.not_eq_true]

/-- The lines of a migrated document: those of the declared text, stamped if it sets no version. -/
theorem lines_apply (document : Text) : (apply document).document.lines =
    if (apply document).versionAdded then stamp (declared document).lines
    else (declared document).lines := by
  have parts : (apply document).document = if (apply document).versionAdded then
      Text.unlines (stamp (declared document).lines) else declared document := rfl
  rw [parts]
  split
  · exact lines_stamped _
  · rfl

/-! ## Migrated documents -/

/-- A migration converts a document: `outcomes` become of its lines, `tables` lack a declaration
then, and `guarded` are the lines with these tables declared. -/
structure Converts (document : Text) (outcomes : List (Text × Option Rename))
    (tables : List Category) (guarded : List Text) (migration : Migration) : Prop where
  renames : List.Forall₂
    (fun line outcome => Renames (Alias.ofDocument document) line outcome.1 outcome.2)
    document.lines outcomes
  lacks : Repair.Lacks (fun category => Line.isIndentedAssignment (.keyed category))
    (outcomes.map Prod.fst) tables
  declares : guarded =
    (Insertion.guards (fun category => Line.isIndentedAssignment (.keyed category)) tables).into []
      (outcomes.map Prod.fst)
  stamps : migration.versionAdded = true ↔
    ¬ (Scalar.configVersion.opening <+: Text.unlines guarded ∨
      Text.Within Scalar.configVersion.opening (Text.unlines guarded))
  lines : migration.document.lines = if migration.versionAdded then
      guarded.take (guarded.findIdx fun line => !isPreamble line) ++ versionBlock ++
        guarded.drop (guarded.findIdx fun line => !isPreamble line)
    else guarded
  keeps : (outcomes.map Prod.fst).Sublist migration.document.lines
  reports : migration.renames.map Rename.describe =
    ((outcomes.filterMap Prod.snd).map Rename.describe).eraseDups
  issues : migration.issues = tables.map .undeclared

/-- **A migration changes keys, and adds only lines of its own.** -/
theorem converts (document : Text) (outdated : isCurrent document = false)
    (onLine : ∀ a ∈ Alias.ofDocument document, '\n' ∉ a.shorthand) :
    ∃ migration, ofDocument? document = some migration ∧
      ∃ outcomes tables guarded, Converts document outcomes tables guarded migration := by
  let aliases := Alias.ofDocument document
  let outcome := fun line : Text => (renameLine aliases line, (renameIn? aliases line).map Prod.fst)
  -- The second step cuts the renamed text into lines again, and finds the renamed lines.
  have renamed : (document.lines.map outcome).map Prod.fst =
      (Text.unlines (renamedLines document)).lines := by
    rw [lines_renamed onLine, List.map_map]
    rfl
  have orderly := Repair.orderly_isIndentedAssignment
  have lacks := Repair.lacks_usedFirst orderly (Text.unlines (renamedLines document)).lines
  have declares := Repair.lines_declarations_eq_into orderly lacks
  have lines := lines_apply document
  refine ⟨apply document, if_neg (by simp [outdated]), document.lines.map outcome, _,
    (declared document).lines,
    { renames := ?_
      lacks := renamed ▸ lacks
      declares := renamed ▸ declares
      stamps := by rw [Text.unlines_lines, versionAdded_apply_iff]
      lines := by rw [lines, stamp_eq_insert]
      keeps := ?_
      reports := ?_
      issues := Repair.issues_declarations_eq orderly lacks }⟩
  · rw [List.forall₂_map_right_iff, List.forall₂_same]
    exact fun line _ => renames_renameLine aliases line
  · have first : ((document.lines.map outcome).map Prod.fst).Sublist (declared document).lines := by
      rw [renamed, declared, declares]
      exact Insertion.sublist_into _ _ _
    rw [lines]
    split
    · exact first.trans (sublist_stamp _)
    · exact first
  · rw [List.filterMap_map]
    exact describe_renamesIn aliases document.lines

/-- A document with an alias behind which a table is keyed by the canonical name, at an indent. -/
theorem converts_legacy : ∃ migration, ofDocument? legacy = some migration ∧
    ∃ outcomes tables guarded, Converts legacy outcomes tables guarded migration :=
  converts legacy (by decide +kernel) (by decide +kernel)

/-- The stamp, the alias, the declaration, and the line with its key replaced. -/
example : (apply legacy).document.lines =
    (["# Config version (for migrations)", "CONFIG_VERSION=1", "",
      "REPO_MAPPINGS[app]=\"mobile-app\"", (Table.keyed .ci).guardedDeclaration, "",
      "  REPO_CONFIGS[app]=\"make\""] : List Text) := by
  decide +kernel

end Migration

end ConfigUpkeep
