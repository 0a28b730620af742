/-
# ConfigUpkeep.Document.Line -- what a single line of a document is

The tool has no parser for the shell language.  It recognises lines by how they
start, or by a text they mention, and everything else is kept as it stands:

* an *assignment* starts with a table's name and an opening bracket, an *indented*
  one does so after its indent, and an *example* does so behind a comment sign;
* a *delimiter* line mentions `===`; a *rule* starts with `# ===`, and a *banner* is
  any comment that mentions the delimiter;
* a *section header* is the comment that opens the optional section of a category,
  and an *example label* is a comment that introduces an example in it.

A rule is a banner (`isBanner_of_isRule`) and a banner is a delimiter line
(`isDelimiter_of_isBanner`); an assignment is an indented one
(`isIndentedAssignment_of_isAssignment`).
-/
import ConfigUpkeep.Document.Table

namespace ConfigUpkeep.Line

set_option autoImplicit false

/-- `starts opening line`: the line starts with the given text. -/
def starts (opening line : Text) : Bool := opening.isPrefixOf line

theorem starts_iff (opening line : Text) : starts opening line = true ↔ opening <+: line :=
  List.isPrefixOf_iff_prefix

/-! ## Section furniture -/

/-- The text that delimits sections. -/
def delimiter : Text := "==="

/-- The line carries the delimiter. -/
def isDelimiter (line : Text) : Bool := line.mentions delimiter

/-- The line is a rule across the page: a comment that starts with the delimiter. -/
def isRule (line : Text) : Bool := starts ("# " ++ delimiter) line

/-- The line is a comment that carries the delimiter, such as a rule or a titled banner. -/
def isBanner (line : Text) : Bool := starts "#" line && isDelimiter line

theorem isDelimiter_of_isBanner {line : Text} (banner : isBanner line = true) :
    isDelimiter line = true := by
  simp only [isBanner, Bool.and_eq_true] at banner
  exact banner.2

theorem isBanner_of_isRule {line : Text} (rule : isRule line = true) : isBanner line = true := by
  rw [isRule, starts_iff] at rule
  obtain ⟨rest, rfl⟩ := rule
  rw [isBanner, Bool.and_eq_true, isDelimiter, Text.mentions_iff]
  exact ⟨by simp [starts], ⟨"# ", rest, rfl⟩⟩

/-- The comment that opens the optional section of a category. -/
def sectionHeader : Category → Text
  | .ide => "# Optional: IDE configuration"
  | .ci => "# Optional: CI commands"
  | .modules => "# Optional: Modular builds"

/-- The category whose section the line opens, if it opens one. -/
def sectionOpened (line : Text) : Option Category :=
  Category.all.find? fun category => starts (sectionHeader category) line

/-- The comments that introduce an example in the section of a category. -/
def exampleLabels : Category → List Text
  | .ide => []
  | .ci => ["# Android example:", "# iOS example:", "# Web example:"]
  | .modules => ["# Android modules:", "# iOS modules:", "# Web packages:"]

/-- The line introduces an example in the section of the category. -/
def isExampleLabel (category : Category) (line : Text) : Bool :=
  (exampleLabels category).any fun label => starts label line

/-! ## Assignments and declarations -/

/-- The line assigns to the table, from its first column on. -/
def isAssignment (table : Table) (line : Text) : Bool := starts table.opening line

/-- The line assigns to the table, at any indent. -/
def isIndentedAssignment (table : Table) (line : Text) : Bool :=
  isAssignment table line.dropIndent

/-- The line is a commented-out assignment to the table. -/
def isExampleAssignment (table : Table) (line : Text) : Bool :=
  starts ("# " ++ table.opening) line

/-- The line declares the table, guarded or not. -/
def declares (table : Table) (line : Text) : Bool := line.mentions table.declaration

/-- The line holds the guard of the alias table, after which the aliases stand. -/
def guardsAliases (line : Text) : Bool := line.mentions Table.aliases.unsetTest

/-- An assignment starts with a letter, so dropping the indent keeps it. -/
theorem dropIndent_of_isAssignment {table : Table} {line : Text}
    (assigns : isAssignment table line = true) : line.dropIndent = line := by
  rw [isAssignment, starts_iff] at assigns
  obtain ⟨rest, rfl⟩ := assigns
  rcases table with _ | _ | _ | _ <;> rfl

theorem isIndentedAssignment_of_isAssignment {table : Table} {line : Text}
    (assigns : isAssignment table line = true) : isIndentedAssignment table line = true := by
  rw [isIndentedAssignment, dropIndent_of_isAssignment assigns]
  exact assigns

/-- A table's guarded declaration declares it. -/
theorem declares_guardedDeclaration (table : Table) :
    declares table table.guardedDeclaration = true := by
  rw [declares, Text.mentions_iff]
  exact ⟨table.unsetTest ++ " ]] && ", [], by simp [Table.guardedDeclaration]⟩

end ConfigUpkeep.Line
