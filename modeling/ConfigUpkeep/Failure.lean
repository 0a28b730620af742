/-
# ConfigUpkeep.Failure -- why a run fails

A failure is its cause.  From the cause follow its family, its code, the message the
user reads, and the path it names, if it names one.

Codes are grouped by family in steps of ten, and have names for programs that read the
output.  A fault of the platform has no words of its own and is shown as any object is.
-/
import ConfigUpkeep.Path
import ConfigUpkeep.Settings.Environment

namespace ConfigUpkeep

set_option autoImplicit false

inductive Family where
  | general
  | config
  | system
  | backup
  deriving DecidableEq, Repr

namespace Family

def all : List Family := [.general, .config, .system, .backup]

def tag : Family → Text
  | .general => "GeneralError"
  | .config => "ConfigError"
  | .system => "SystemError"
  | .backup => "BackupError"

end Family

inductive Code where
  | general
  | configNotFound
  | templateNotFound
  | validationFailed
  | readFailed
  | writeFailed
  | backupFailed
  deriving DecidableEq, Repr

namespace Code

def all : List Code :=
  [.general, .configNotFound, .templateNotFound, .validationFailed, .readFailed, .writeFailed,
    .backupFailed]

def number : Code → Nat
  | .general => 1
  | .configNotFound => 10
  | .templateNotFound => 11
  | .validationFailed => 12
  | .readFailed => 20
  | .writeFailed => 21
  | .backupFailed => 30

def name : Code → Text
  | .general => "GENERAL_ERROR"
  | .configNotFound => "CONFIG_NOT_FOUND"
  | .templateNotFound => "TEMPLATE_NOT_FOUND"
  | .validationFailed => "CONFIG_VALIDATION_FAILED"
  | .readFailed => "FILE_READ_FAILED"
  | .writeFailed => "FILE_WRITE_FAILED"
  | .backupFailed => "BACKUP_FAILED"

def json (code : Code) : Json := .number (.finite (Decimal.ofNat code.number))

/-- The code that a JSON value is the number of. -/
def ofJson? (value : Json) : Option Code :=
  match value with
  | .number (.finite n) => all.find? fun code => n.text = Decimal.digits code.number
  | _ => none

/-- The name of the code that a JSON value is the number of. -/
def nameOf (value : Json) : Text := ((ofJson? value).map name).getD "UNKNOWN"

theorem number_inj {a b : Code} (same : a.number = b.number) : a = b := by
  cases a <;> cases b <;> first | rfl | exact absurd same (by decide)

end Code

/-- What a run loads: the user's document, or a template. -/
inductive Source where
  | config
  | template
  deriving DecidableEq, Repr

/-- Why a run fails. -/
inductive Failure where
  /-- Variables of the environment have values they cannot have. -/
  | invalidEnvironment (problems : List Environment.Problem)
  | nulInPath (given : Text)
  | notFound (source : Source) (path : Path)
  /-- A document has issues that nobody asked to mend. -/
  | issuesFound (count : Nat) (path : Path)
  /-- The platform does not tell whether a file exists. -/
  | checkFailed (path : Path)
  | readFailed (path : Path)
  | writeFailed (path : Path)
  | backupFailed (path : Path)
  deriving DecidableEq, Repr

namespace Failure

/-- What a fault of the platform says about itself. -/
def platformFault : Text := Json.plain (.object [])

def code : Failure → Code
  | .invalidEnvironment _ => .general
  | .nulInPath _ => .validationFailed
  | .notFound .config _ => .configNotFound
  | .notFound .template _ => .templateNotFound
  | .issuesFound _ _ => .validationFailed
  | .checkFailed _ => .readFailed
  | .readFailed _ => .readFailed
  | .writeFailed _ => .writeFailed
  | .backupFailed _ => .backupFailed

def family (failure : Failure) : Family :=
  match failure.code with
  | .general => .general
  | .configNotFound | .templateNotFound | .validationFailed => .config
  | .readFailed | .writeFailed => .system
  | .backupFailed => .backup

/-- The path that the failure names for programs. -/
def path? : Failure → Option Path
  | .notFound _ path => some path
  | .issuesFound _ path => some path
  | .backupFailed path => some path
  | _ => none

/-- What the user is told about a file that the platform does not write. -/
def writeMessage (path : Path) : Text :=
  "Failed to write file: " ++ path.spelling ++ ": " ++ platformFault

def message : Failure → Text
  | .invalidEnvironment problems =>
      "Invalid environment: " ++ Environment.Problem.messages problems
  | .nulInPath given => "Invalid path contains null byte: " ++ given
  | .notFound .config path => "Config not found: " ++ path.spelling
  | .notFound .template path => "Template not found: " ++ path.spelling
  | .issuesFound count path =>
      Decimal.digits count ++ " issue(s) found in " ++ path.spelling
  | .checkFailed path => "Failed to check " ++ path.spelling ++ ": " ++ platformFault
  | .readFailed path => "Failed to read file: " ++ path.spelling ++ ": " ++ platformFault
  | .writeFailed path => writeMessage path
  | .backupFailed path => "Failed to create backup: " ++ writeMessage path

def payload (failure : Failure) : Json :=
  .object [("error", .string failure.message), ("code", failure.code.json),
    ("name", .string failure.code.name)]

end Failure

/-- The rooted path that a user means, or why there is none. -/
def Path.ofUser (directory : Path) (given : Text) : Except Failure Path :=
  match Path.ofUser? directory given with
  | some path => .ok path
  | none => .error (.nulInPath given)

/-! ## Values of unknown kind -/

/-- Something that was raised: an error with a message, or any other value. -/
inductive Raised where
  | error (message : Text)
  | value (json : Json)
  deriving Repr

namespace Raised

def message : Raised → Text
  | .error message => message
  | .value json => json.plain

/-- It can be kept as the cause of a failure: only errors are. -/
def isCause : Raised → Bool
  | .error _ => true
  | .value _ => false

/-- It carries the tag of a failure. -/
def isFailure : Raised → Bool
  | .error _ => false
  | .value json =>
      match (json.get? "_tag").bind Json.string? with
      | some tag => Family.all.any fun family => family.tag = tag
      | none => false

end Raised

end ConfigUpkeep
