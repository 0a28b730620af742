/-
# ConfigUpkeep.Document.Migration -- from canonical names to shorthands

A document of the first layout keys its tables by canonical repository names and
carries no version.  Migrating it

1. replaces every key that has a shorthand, in assignments of any indent, and keeps
   the rest of the line (`renameLine`);
2. declares the tables that are used and declared nowhere (`Repair.declarations`);
3. stamps the version before the first line that is neither blank nor a comment, or
   at the end if there is none -- unless some segment sets a version already.

A document with a segment that starts `CONFIG_VERSION=1` is migrated, and is left
alone.  The test looks at the start of the value only.
-/
import ConfigUpkeep.Document.Alias
import ConfigUpkeep.Document.Repair

namespace ConfigUpkeep

set_option autoImplicit false

namespace Migration

/-- The version that a migrated document carries. -/
def currentVersion : Nat := 1

/-- The line that stamps the current version. -/
def versionLine : Text := Scalar.configVersion.assignment "1"

/-- The document carries the current version. -/
def isCurrent (document : Text) : Bool := document.segments.any (Line.starts versionLine)

def hasVersion (document : Text) : Bool :=
  document.segments.any (Line.starts Scalar.configVersion.opening)

/-! ## Keys -/

/-- The key that a line assigns to in a table: what stands between the brackets, with
the text behind it.  An empty key or one without a closing bracket is none. -/
def keyIn? (table : Table) (line : Text) : Option (Text × Text) :=
  (table.opening.isPrefixOf? line).bind fun inner =>
    if Entry.before ']' inner = [] then none
    else
      (("]" : Text).isPrefixOf? (Entry.onward ']' inner)).map fun rest =>
        (Entry.before ']' inner, rest)

/-- A key that was replaced by its shorthand. -/
structure Rename where
  category : Category
  canonical : Text
  shorthand : Text
  deriving DecidableEq, Repr

def Rename.describe (rename : Rename) : Text :=
  let table := (Table.keyed rename.category).name
  table ++ "[" ++ rename.canonical ++ "] -> " ++ table ++ "[" ++ rename.shorthand ++ "]"

/-- The replacement that a line calls for, with the text behind the key: the line
assigns, at any indent, to a key that has a shorthand. -/
def renameIn? (aliases : List Alias) (line : Text) : Option (Rename × Text) :=
  Category.all.findSome? fun category =>
    (keyIn? (.keyed category) line.dropIndent).bind fun found =>
      (Alias.shorthandOf? aliases found.1).map fun shorthand =>
        (⟨category, found.1, shorthand⟩, found.2)

/-- The line with its key replaced by its shorthand, if it has one. -/
def renameLine (aliases : List Alias) (line : Text) : Text :=
  match renameIn? aliases line with
  | some (rename, rest) =>
      line.indent ++ (Table.keyed rename.category).opening ++ rename.shorthand ++ "]" ++ rest
  | none => line

/-- The replacements in a list of lines, each once, in line order. -/
def renamesIn (aliases : List Alias) (ls : List Text) : List Rename :=
  (ls.filterMap fun line => (renameIn? aliases line).map Prod.fst).eraseDups

/-! ## The version -/

/-- The line is blank or a comment. -/
def isPreamble (line : Text) : Bool := Line.starts "#" line.dropIndent || line.isBlank

/-- The lines that stamp the version. -/
def versionBlock : List Text := ["# Config version (for migrations)", versionLine, []]

/-- The lines with the version before the first one that is neither blank nor a
comment, or at the end. -/
def stamp (ls : List Text) : List Text :=
  ls.takeWhile isPreamble ++ versionBlock ++ ls.dropWhile isPreamble

end Migration

/-- What a migration did. -/
structure Migration where
  document : Text
  renames : List Migration.Rename
  issues : List Issue
  versionAdded : Bool
  deriving DecidableEq, Repr

namespace Migration

def remedies (migration : Migration) : List Text := migration.issues.map Issue.remedy

/-- Migrate a document, whether or not it is current. -/
def apply (document : Text) : Migration :=
  let aliases := Alias.ofDocument document
  let declared := Repair.declarations (fun category => Line.isIndentedAssignment (.keyed category))
    (Text.unlines (document.lines.map (renameLine aliases)))
  let versionAdded := !hasVersion declared.document
  { document :=
      if versionAdded then Text.unlines (stamp declared.document.lines) else declared.document
    renames := renamesIn aliases document.lines
    issues := declared.issues
    versionAdded := versionAdded }

/-- The migration a document needs: none if it is current. -/
def ofDocument? (document : Text) : Option Migration :=
  if isCurrent document then none else some (apply document)

end Migration

end ConfigUpkeep
