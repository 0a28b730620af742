/-
# ConfigUpkeep.Settings -- how much is shown, and in which form

A run is told how much to report (`Verbosity`) and in which form (`Format`) by options
on its command line and by variables of its environment.  Of several sources the
command line counts first, then the environment, then the default (`preferred`).
-/
import ConfigUpkeep.Text

namespace ConfigUpkeep

set_option autoImplicit false

/-- The value that counts: the command line's, else the environment's, else the default. -/
def preferred {α : Type} (given fromEnvironment : Option α) (fallback : α) : α :=
  (given.or fromEnvironment).getD fallback

/-- The least serious records that a run shows. -/
inductive Verbosity where
  | debug
  | info
  | warn
  | error
  deriving DecidableEq, Repr

namespace Verbosity

def all : List Verbosity := [.debug, .info, .warn, .error]

def name : Verbosity → Text
  | .debug => "debug"
  | .info => "info"
  | .warn => "warn"
  | .error => "error"

def ofName? (word : Text) : Option Verbosity := all.find? fun verbosity => verbosity.name = word

def standard : Verbosity := .info

theorem ofName?_name (verbosity : Verbosity) : ofName? verbosity.name = some verbosity := by
  cases verbosity <;> decide

end Verbosity

/-- The form of what a run shows: lines for people, or one JSON object a line. -/
inductive Format where
  | pretty
  | json
  deriving DecidableEq, Repr

namespace Format

def all : List Format := [.pretty, .json]

def name : Format → Text
  | .pretty => "pretty"
  | .json => "json"

def ofName? (word : Text) : Option Format := all.find? fun format => format.name = word

def standard : Format := .pretty

theorem ofName?_name (format : Format) : ofName? format.name = some format := by
  cases format <;> decide

end Format

/-- The options that every command takes. -/
structure Flags where
  verbose : Bool := false
  dryRun : Bool := false
  json : Bool := false
  verbosity : Option Verbosity := none
  format : Option Format := none
  deriving DecidableEq, Repr

/-- The format asked for: the flag for JSON counts before the option for a format. -/
def Flags.chosenFormat (flags : Flags) : Option Format :=
  if flags.json then some .json else flags.format

end ConfigUpkeep
