/-
# ConfigUpkeep.Journal.Display -- how records reach the terminal

A record that is shown is one chunk of text on one of two streams.  In the format for
people its style decides how it looks; a plain record is a line with its level, the
running command in brackets, and the message.  In the JSON format every record is one
object on a line of its own: the instant, the level, the command, the message, and
every note that is not about the looks.  Members written later replace earlier ones
where they stand.

Colour never changes what is shown, only how: paint is an escape sequence in front of
a text and one behind it.
-/
import ConfigUpkeep.Calendar
import ConfigUpkeep.Failure
import ConfigUpkeep.Journal

namespace ConfigUpkeep

set_option autoImplicit false

inductive Stream where
  | output
  | alarm
  deriving DecidableEq, Repr

/-- A piece of output. -/
structure Chunk where
  stream : Stream
  text : Text
  deriving DecidableEq, Repr

namespace Chunk

/-- The texts of the chunks that go to a stream. -/
def on (stream : Stream) (chunks : List Chunk) : List Text :=
  (chunks.filter fun chunk => chunk.stream = stream).map Chunk.text

end Chunk

/-! ## Colour -/

/-- The ways a text is painted. -/
inductive Paint where
  | bold
  | red
  | green
  | yellow
  | blue
  | cyan
  | gray
  deriving DecidableEq, Repr

namespace Paint

def number : Paint → Nat
  | .bold => 1
  | .red => 31
  | .green => 32
  | .yellow => 33
  | .blue => 34
  | .cyan => 36
  | .gray => 90

/-- The text between the escape sequences that switch the paint on and off. -/
def apply (paint : Paint) (t : Text) : Text :=
  "\x1b[" ++ Decimal.digits paint.number ++ "m" ++ t ++ "\x1b[0m"

end Paint

/-- Colour is used on a terminal, unless a variable against it is set to something; a
variable for it makes colour used anywhere, unless it is zero. -/
def usesColor (against inFavour : Option Text) (terminal : Bool) : Bool :=
  if against.any fun value => !value.isEmpty then false
  else if inFavour.any fun value => value != ("0" : Text) then true
  else terminal

/-- The variable against colour. -/
def againstColor : Text := "NO_COLOR"

/-- The variable for colour. -/
def inFavourOfColor : Text := "FORCE_COLOR"

/-! ## Records -/

/-- How a run shows its records. -/
structure Display where
  format : Format
  threshold : Level
  color : Bool
  now : Instant
  deriving DecidableEq, Repr

namespace Display

/-- The text, painted if colour is used. -/
def painted (display : Display) (paint : Paint) (t : Text) : Text :=
  if display.color then paint.apply t else t

/-- The paint of a level. -/
def levelPaint? : Level → Option Paint
  | .trace => none
  | .debug => some .gray
  | .info => some .blue
  | .warn => some .yellow
  | .error => some .red
  | .fatal => some .red

/-- The word for a level, filled up to five characters and painted. -/
def levelMark (display : Display) (level : Level) : Text :=
  let mark := level.label ++ List.replicate (5 - level.label.length) ' '
  match levelPaint? level with
  | some paint => display.painted paint mark
  | none => mark

/-- The running command, if there is one, in brackets. -/
def commandMark (display : Display) (notes : Notes) : Text :=
  match notes.string? Notes.command with
  | some command => display.painted .cyan ("[" ++ command ++ "]") ++ " "
  | none => []

/-- What stands for a missing number of a step. -/
def unnumbered : Text := "?"

/-- An item of a list on a line of its own. -/
def bullet (item : Text) : Text := "  • " ++ item ++ "\n"

/-- A record for people. -/
def pretty (display : Display) (record : Record) : Text :=
  match record.style? with
  | none =>
      display.levelMark record.level ++ " " ++ display.commandMark record.notes ++
        record.message ++ "\n"
  | some .step =>
      let number := (record.notes.string? Notes.stepNumber).getD unnumbered
      let total := (record.notes.string? Notes.stepTotal).getD unnumbered
      display.painted .bold ("[" ++ number ++ "/" ++ total ++ "]") ++ " " ++
        display.painted .cyan "→" ++ " " ++ record.message ++ "\n"
  | some .success => display.painted .green "✓" ++ " " ++ record.message ++ "\n"
  | some .fail => display.painted .red "✗" ++ " " ++ record.message ++ "\n"
  | some .list =>
      record.message ++ "\n" ++ ((record.notes.strings? Notes.items).getD []).flatMap bullet
  | some .document => (record.notes.string? Notes.document).getD []

def timestamp : Text := "timestamp"

def level : Text := "level"

def message : Text := "message"

/-- The members of a record as a JSON object. -/
def members (display : Display) (record : Record) : List (Text × Json) :=
  let command : List (Text × Json) :=
    match record.notes.string? Notes.command with
    | some name => [(Notes.command, .string name)]
    | none => []
  (timestamp, .string display.now.iso) :: (level, .string record.level.word) :: command ++
    (message, .string record.message) ::
      record.notes.toList.filter fun note => note.1 ∉ Notes.reserved

/-- A record as one JSON object on a line. -/
def json (display : Display) (record : Record) : Text :=
  (Json.object (display.members record)).render ++ "\n"

/-- The chunk that shows a record, if it is shown. -/
def chunk? (display : Display) (record : Record) : Option Chunk :=
  if record.isShown display.threshold then
    some
      { stream := if record.isAlarm then .alarm else .output
        text :=
          match display.format with
          | .pretty => display.pretty record
          | .json => display.json record }
  else none

def chunks (display : Display) (records : List Record) : List Chunk :=
  records.filterMap display.chunk?

/-- The chunks that show why a run failed: for people a failure on the stream for
errors, for programs the failure's payload on the stream for output. -/
def failure (display : Display) (failure : Failure) : List Chunk :=
  match display.format with
  | .pretty => display.chunks [Record.fail failure.message]
  | .json => [⟨.output, failure.payload.render ++ "\n"⟩]

end Display

end ConfigUpkeep
