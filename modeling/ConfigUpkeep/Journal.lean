/-
# ConfigUpkeep.Journal -- what a run says while it works

Everything a run says is a `Record`: a level, a message, and notes.  Notes are named
JSON values.  Some of them say how the record is to be shown (its *style*): a numbered
step, a success, a failure, a list with a heading, or a whole document.

A note given by whoever writes a record counts before the notes given around it
(`Record.within`).  The name of the running command is such a surrounding note.

Lists and documents are the output of a command; everything else is reporting, and is
dropped below the run's threshold (`Record.isShown`).
-/
import ConfigUpkeep.Json
import ConfigUpkeep.Settings

namespace ConfigUpkeep

set_option autoImplicit false

/-- How serious a record is. -/
inductive Level where
  | trace
  | debug
  | info
  | warn
  | error
  | fatal
  deriving DecidableEq, Repr

namespace Level

/-- The place of the level in the order of seriousness. -/
def rank : Level → Nat
  | .trace => 0
  | .debug => 1
  | .info => 2
  | .warn => 3
  | .error => 4
  | .fatal => 5

def label : Level → Text
  | .trace => "TRACE"
  | .debug => "DEBUG"
  | .info => "INFO"
  | .warn => "WARN"
  | .error => "ERROR"
  | .fatal => "FATAL"

def word (level : Level) : Text := level.label.map Char.toLower

end Level

/-- The level from which on a verbosity shows records. -/
def Verbosity.threshold : Verbosity → Level
  | .debug => .debug
  | .info => .info
  | .warn => .warn
  | .error => .error

/-- How a record is shown. -/
inductive Style where
  | step
  | success
  | fail
  | list
  | document
  deriving DecidableEq, Repr

namespace Style

def all : List Style := [.step, .success, .fail, .list, .document]

def name : Style → Text
  | .step => "step"
  | .success => "success"
  | .fail => "fail"
  | .list => "list"
  | .document => "document"

def ofName? (word : Text) : Option Style := all.find? fun style => style.name = word

/-- The style belongs to the output of a command, not to its reporting. -/
def isOutput : Style → Bool
  | .list | .document => true
  | .step | .success | .fail => false

theorem ofName?_name (style : Style) : ofName? style.name = some style := by
  cases style <;> decide

end Style

/-- Named values beside a message. -/
abbrev Notes := OrderedMap Text Json

namespace Notes

def style : Text := "logStyle"

def stepNumber : Text := "stepNumber"

def stepTotal : Text := "stepTotal"

def command : Text := "command"

def items : Text := "items"

def document : Text := "document"

/-- The notes that say how a record is shown and are not shown themselves. -/
def reserved : List Text := [style, stepNumber, stepTotal, command]

def string? (notes : Notes) (name : Text) : Option Text := (notes.get? name).bind Json.string?

def strings? (notes : Notes) (name : Text) : Option (List Text) :=
  (notes.get? name).bind Json.strings?

end Notes

/-- Something that a run says. -/
structure Record where
  level : Level
  message : Text
  notes : Notes := .empty
  deriving Repr

namespace Record

def plain (level : Level) (message : Text) : Record := ⟨level, message, .empty⟩

/-- A record of a style, with further notes. -/
def styled (style : Style) (level : Level) (message : Text) (more : List (Text × Json)) : Record :=
  ⟨level, message, .ofList ((Notes.style, .string style.name) :: more)⟩

/-- A step of several, numbered by words of their own. -/
def step (number total message : Text) : Record :=
  styled .step .info message [(Notes.stepNumber, .string number), (Notes.stepTotal, .string total)]

/-- The steps of a counter that starts afresh: numbered from one, each out of the total. -/
def steps (total : Text) (messages : List Text) : List Record :=
  messages.zipIdx.map fun (message, before) => step (Decimal.digits (before + 1)) total message

def success (message : Text) : Record := styled .success .info message []

def fail (message : Text) : Record := styled .fail .error message []

/-- A heading with items; nothing at all without items. -/
def list (heading : Text) (items : List Text) : List Record :=
  if items.isEmpty then []
  else [styled .list .info heading [(Notes.items, .array (items.map .string))]]

def document (message text : Text) : Record :=
  styled .document .info message [(Notes.document, .string text)]

/-- The record inside surrounding notes: its own notes count before them. -/
def within (outer : List (Text × Json)) (record : Record) : Record :=
  { record with notes := (OrderedMap.ofList outer).insertAll record.notes.toList }

/-- The record of a running command. -/
def under (command : Text) (record : Record) : Record :=
  record.within [(Notes.command, .string command)]

/-- The style that the notes ask for. -/
def style? (record : Record) : Option Style :=
  (record.notes.string? Notes.style).bind Style.ofName?

/-- The record belongs to the output of a command. -/
def isOutput (record : Record) : Bool := record.style?.any Style.isOutput

/-- The record is shown from a threshold on. -/
def isShown (threshold : Level) (record : Record) : Bool :=
  record.isOutput || decide (threshold.rank ≤ record.level.rank)

/-- The record goes to the stream for errors: it has the style of a failure, or no style
and at least the level of an error. -/
def isAlarm (record : Record) : Bool :=
  match record.style? with
  | some style => style = .fail
  | none => decide (Level.error.rank ≤ record.level.rank)

end Record

end ConfigUpkeep
