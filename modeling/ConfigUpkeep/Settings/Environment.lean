/-
# ConfigUpkeep.Settings.Environment -- the variables a run listens to

Four variables are read, all under one namespace: a verbosity, a format, the path of a
template, and a debugging switch.  Values are taken as they are, without trimming, and
have to be one of the words that are listed; an empty template path counts as unset.

Every variable with a bad value is a `Problem` of its own.  All of them are reported,
in a fixed order, and then nothing of the environment is used (`Environment.read`).
-/
import ConfigUpkeep.Settings
import ConfigUpkeep.Json

namespace ConfigUpkeep

set_option autoImplicit false

/-- What the environment says. -/
structure Environment where
  verbosity : Option Verbosity := none
  format : Option Format := none
  template : Option Text := none
  debug : Bool := false
  deriving DecidableEq, Repr

namespace Environment

/-- The namespace of the variables. -/
def space : Text := "WTCONFIG"

inductive Variable where
  | verbosity
  | format
  | template
  | debug
  deriving DecidableEq, Repr

namespace Variable

/-- The name of the variable within the namespace. -/
def shortName : Variable → Text
  | .verbosity => "LOG_LEVEL"
  | .format => "LOG_FORMAT"
  | .template => "TEMPLATE"
  | .debug => "DEBUG"

def name (v : Variable) : Text := space ++ "_" ++ v.shortName

end Variable

/-- A variable with a value that it cannot have, and that value. -/
inductive Problem where
  | verbosity (received : Text)
  | format (received : Text)
  | debug (received : Text)
  deriving DecidableEq, Repr

namespace Problem

/-- What is said about a variable that could have been `expected` and was `received`. -/
def report (v : Variable) (expected received : Text) : Text :=
  "(Invalid data at " ++ space ++ "." ++ v.shortName ++ ": \"Expected " ++ expected ++
    " but received " ++ Json.quote received ++ "\")"

/-- The words of a list, as they are offered to the user. -/
def choice (words : List Text) : Text := "one of (" ++ Text.joined ", " words ++ ")"

/-- What the user is told about the problem. -/
def message : Problem → Text
  | .verbosity received => report .verbosity (choice (Verbosity.all.map Verbosity.name)) received
  | .format received => report .format (choice (Format.all.map Format.name)) received
  | .debug received => report .debug "a boolean value" received

def messages (problems : List Problem) : Text :=
  Text.joined " and " (problems.map message)

end Problem

/-- The words for on and off. -/
def switch? (word : Text) : Option Bool :=
  let on : List Text := ["true", "yes", "on", "1"]
  let off : List Text := ["false", "no", "off", "0"]
  if word ∈ on then some true
  else if word ∈ off then some false
  else none

/-- The problem of a variable with a value that its reader refuses. -/
def problem? {α : Type} (problem : Text → Problem) (reader : Text → Option α)
    (value : Option Text) : Option Problem :=
  value.bind fun received => if (reader received).isSome then none else some (problem received)

/-- The problems of an environment, in the order of the variables. -/
def problems (valueOf : Text → Option Text) : List Problem :=
  [problem? .verbosity Verbosity.ofName? (valueOf Variable.verbosity.name),
    problem? .format Format.ofName? (valueOf Variable.format.name),
    problem? .debug switch? (valueOf Variable.debug.name)].filterMap id

/-- What the variables say, or what is wrong with them. -/
def read (valueOf : Text → Option Text) : Except (List Problem) Environment :=
  if (problems valueOf).isEmpty then
    .ok
      { verbosity := (valueOf Variable.verbosity.name).bind Verbosity.ofName?
        format := (valueOf Variable.format.name).bind Format.ofName?
        template := (valueOf Variable.template.name).filter fun path => !path.isEmpty
        debug := ((valueOf Variable.debug.name).bind switch?).getD false }
  else .error (problems valueOf)

end Environment

/-- The verbosity of a run.  Asking for a verbose run or for debugging counts before
everything else. -/
def Flags.chosenVerbosity (flags : Flags) (environment : Environment) : Verbosity :=
  if flags.verbose || environment.debug then .debug
  else preferred flags.verbosity environment.verbosity .standard

/-- The format of a run. -/
def Flags.formatOfRun (flags : Flags) (environment : Environment) : Format :=
  preferred flags.chosenFormat environment.format .standard

end ConfigUpkeep
