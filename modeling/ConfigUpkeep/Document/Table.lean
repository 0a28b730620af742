/-
# ConfigUpkeep.Document.Table -- the names a configuration document knows

A document sets four scalars and fills four associative tables.  One table, the
alias table, gives repositories their shorthands; the other three are keyed by
repository, one per `Category`.  Only these names are recognised: the rest of the
document is text to be kept.

The order of `Scalar.all` is the order in which a template line is tried against
the settings, and the order of `Category.all` is the order in which the keyed
tables are visited.
-/
import ConfigUpkeep.Text

namespace ConfigUpkeep

set_option autoImplicit false

/-- The scalars a document can set. -/
inductive Scalar where
  | gitUsername
  | branchPrefix
  | baseDevPath
  | configVersion
  deriving DecidableEq, Repr

namespace Scalar

def all : List Scalar := [.gitUsername, .branchPrefix, .baseDevPath, .configVersion]

theorem mem_all (scalar : Scalar) : scalar ∈ all := by cases scalar <;> decide

def name : Scalar → Text
  | .gitUsername => "GIT_USERNAME"
  | .branchPrefix => "BRANCH_PREFIX"
  | .baseDevPath => "BASE_DEV_PATH"
  | .configVersion => "CONFIG_VERSION"

/-- What a line that sets the scalar starts with. -/
def opening (scalar : Scalar) : Text := scalar.name ++ "="

/-- The line that sets the scalar to a value. -/
def assignment (scalar : Scalar) (value : Text) : Text := scalar.opening ++ value

/-- No line sets two scalars: one opening starts another only if they are equal. -/
theorem eq_of_opening_isPrefixOf {a b : Scalar} (starts : a.opening.isPrefixOf b.opening = true) :
    a = b := by
  cases a <;> cases b <;> first | rfl | exact absurd starts (by decide)

end Scalar

/-- What a keyed table is about: the editor of a repository, its build commands, or
its modules. -/
inductive Category where
  | ide
  | ci
  | modules
  deriving DecidableEq, Repr

def Category.all : List Category := [.ide, .ci, .modules]

theorem Category.mem_all (category : Category) : category ∈ Category.all := by
  cases category <;> decide

/-- The tables of a document: the alias table and one keyed table per category. -/
inductive Table where
  | aliases
  | keyed (category : Category)
  deriving DecidableEq, Repr

namespace Table

def all : List Table := .aliases :: Category.all.map .keyed

def name : Table → Text
  | .aliases => "REPO_MAPPINGS"
  | .keyed .ide => "REPO_IDE_CONFIGS"
  | .keyed .ci => "REPO_CONFIGS"
  | .keyed .modules => "REPO_MODULES"

/-- What a line that assigns to the table starts with. -/
def opening (table : Table) : Text := table.name ++ "["

/-- The line that gives the table's key a value. -/
def assignment (table : Table) (key value : Text) : Text :=
  table.opening ++ key ++ "]=\"" ++ value ++ "\""

/-- No line assigns to two tables: one opening starts another only if they are equal. -/
theorem eq_of_opening_isPrefixOf {a b : Table} (starts : a.opening.isPrefixOf b.opening = true) :
    a = b := by
  rcases a with _ | _ | _ | _ <;> rcases b with _ | _ | _ | _ <;>
    first | rfl | exact absurd starts (by decide)

/-- The part of a declaration that marks the table as declared, guarded or not. -/
def declaration (table : Table) : Text := "declare -gA " ++ table.name

/-- The test that the table is unset, up to the end of the parameter expansion. -/
def unsetTest (table : Table) : Text := "[[ -z $\x7b(t)" ++ table.name ++ "\x7d"

/-- The line that declares the table unless something declared it before. -/
def guardedDeclaration (table : Table) : Text :=
  table.unsetTest ++ " ]] && " ++ table.declaration

end Table

end ConfigUpkeep
