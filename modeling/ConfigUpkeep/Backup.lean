/-
# ConfigUpkeep.Backup -- where the old text of a document is kept

Before a document is replaced its text is written beside it, under a name made of the
document's own name, what was done to it, and the second in which it was done:
`config.zsh.migrated.backup.20260105_070809`.
-/
import ConfigUpkeep.Calendar
import ConfigUpkeep.Path

namespace ConfigUpkeep.Backup

set_option autoImplicit false

/-- What was done to a document that has a backup. -/
inductive Kind where
  | normalized
  | validated
  | migrated
  deriving DecidableEq, Repr

namespace Kind

def all : List Kind := [.normalized, .validated, .migrated]

def name : Kind → Text
  | .normalized => "normalized"
  | .validated => "validated"
  | .migrated => "migrated"

def ofName? (word : Text) : Option Kind := all.find? fun kind => kind.name = word

theorem ofName?_name (kind : Kind) : ofName? kind.name = some kind := by
  cases kind <;> decide

end Kind

def fileName (name : Text) (kind : Kind) (now : Instant) : Text :=
  name ++ "." ++ kind.name ++ ".backup." ++ now.stamp

/-- The path of a backup: beside the document. -/
def path (directory target : Path) (kind : Kind) (now : Instant) : Path :=
  Path.sibling directory target (fileName target.fileName kind now)

end ConfigUpkeep.Backup
