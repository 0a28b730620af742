/-
# ConfigUpkeep.Json -- structured values and their one-line text

A JSON value is kept the way it is shown: numbers as the shortest decimal of their
nearest double, objects as members in order.  `Json.object` puts members into order:
a name written again replaces the value where it stands, and names that are array
indices come first, ascending.

`Json.render` writes a value on one line without spaces.  A string is written as it
is, except for quotation marks, backslashes and the control characters below the
space, which are escaped (`Json.escape`).  Main law: `not_mem_quote`, a written string
holds no line feed, whatever it spells.
-/
import ConfigUpkeep.OrderedMap
import ConfigUpkeep.Decimal.Shortest

namespace ConfigUpkeep

set_option autoImplicit false

/-- A number: the shortest decimal of a double, or what is too large for one. -/
inductive Number where
  | finite (value : Decimal)
  | infinite (negative : Bool)
  deriving DecidableEq, Repr

namespace Number

def ofDecimal (d : Decimal) : Number :=
  match d.rounded with
  | some value => .finite value
  | none => .infinite d.negative

def ofNat (n : Nat) : Number := ofDecimal (Decimal.ofNat n)

def text : Number → Text
  | .finite value => value.text
  | .infinite true => "-Infinity"
  | .infinite false => "Infinity"

/-- The integer part of a finite number. -/
def truncate? : Number → Option Int
  | .finite value => some value.truncate
  | .infinite _ => none

end Number

/-- A JSON value. -/
inductive Json where
  | null
  | bool (value : Bool)
  | number (value : Number)
  | string (value : Text)
  | array (items : List Json)
  | members (fields : List (Text × Json))
  deriving Repr

namespace Json

/-! ## Objects -/

/-- The greatest array index. -/
def lastIndex : Nat := 4294967294

/-- The array index that a name spells, if it spells one. -/
def index? (name : Text) : Option Nat :=
  if name.all Char.isDigit && !name.isEmpty then
    let n := Decimal.ofDigits name
    if n ≤ lastIndex ∧ Decimal.digits n = name then some n else none
  else none

/-- The members whose name is an array index, in ascending order, before the others. -/
def indexed (fields : List (Text × Json)) : List (Text × Json) :=
  let numbered := fields.filterMap fun field => (index? field.1).map fun n => (n, field)
  (numbered.mergeSort fun a b => a.1 ≤ b.1).map Prod.snd ++
    fields.filter fun field => (index? field.1).isNone

/-- The object that a list of members writes. -/
def object (fields : List (Text × Json)) : Json :=
  .members (indexed (OrderedMap.ofList fields).toList)

def get? (name : Text) : Json → Option Json
  | .members fields => (OrderedMap.mk fields).get? name
  | _ => none

def string? : Json → Option Text
  | .string value => some value
  | _ => none

def array? : Json → Option (List Json)
  | .array items => some items
  | _ => none

/-- The texts of an array that holds nothing but strings. -/
def strings? (json : Json) : Option (List Text) := json.array?.bind fun items => items.mapM string?

/-! ## Strings -/

/-- A hexadecimal digit below sixteen, in lower case. -/
def hexDigit (n : Nat) : Char := if n < 10 then Char.ofNat (48 + n) else Char.ofNat (87 + n)

/-- How a character is written inside a string. -/
def escape (c : Char) : Text :=
  if c = '"' then "\\\""
  else if c = '\\' then "\\\\"
  else if c = '\x08' then "\\b"
  else if c = '\t' then "\\t"
  else if c = '\n' then "\\n"
  else if c = '\x0c' then "\\f"
  else if c = '\r' then "\\r"
  else if c.toNat < 0x20 then "\\u00" ++ [hexDigit (c.toNat / 16), hexDigit (c.toNat % 16)]
  else [c]

/-- A text as a string: between quotation marks, every character escaped as needed. -/
def quote (t : Text) : Text := '"' :: t.flatMap escape ++ ['"']

theorem hexDigit_ne_newline (n : Nat) (small : n < 16) : hexDigit n ≠ '\n' := by
  have cases : n = 0 ∨ n = 1 ∨ n = 2 ∨ n = 3 ∨ n = 4 ∨ n = 5 ∨ n = 6 ∨ n = 7 ∨ n = 8 ∨ n = 9 ∨
      n = 10 ∨ n = 11 ∨ n = 12 ∨ n = 13 ∨ n = 14 ∨ n = 15 := by omega
  rcases cases with rfl | rfl | rfl | rfl | rfl | rfl | rfl | rfl | rfl | rfl | rfl | rfl | rfl |
    rfl | rfl | rfl <;> decide

theorem not_mem_escape (c : Char) : '\n' ∉ escape c := by
  unfold escape
  split; · decide
  split; · decide
  split; · decide
  split; · decide
  split; · decide
  split; · decide
  split; · decide
  split
  · rename_i control
    have high := hexDigit_ne_newline (c.toNat / 16) (by omega)
    have low := hexDigit_ne_newline (c.toNat % 16) (by omega)
    simp [high.symm, low.symm]
  · rename_i kept _ _ _
    simpa using fun e => kept e.symm

/-- A written string stays on one line. -/
theorem not_mem_quote (t : Text) : '\n' ∉ quote t := by
  simp only [quote, List.mem_append, List.mem_cons, List.mem_flatMap, not_or, not_exists, not_and]
  exact ⟨⟨by decide, fun c _ => not_mem_escape c⟩, by decide, by simp⟩

/-! ## Values -/

mutual

/-- A value on one line, without spaces.  A number too large for a double is null. -/
def render : Json → Text
  | .null => "null"
  | .bool true => "true"
  | .bool false => "false"
  | .number (.finite value) => value.text
  | .number (.infinite _) => "null"
  | .string value => quote value
  | .array items => '[' :: renderItems items
  | .members fields => '\x7b' :: renderMembers fields

/-- The items of an array, and its closing bracket. -/
def renderItems : List Json → Text
  | [] => "]"
  | [item] => render item ++ "]"
  | item :: rest => render item ++ ',' :: renderItems rest

/-- The members of an object, and its closing brace. -/
def renderMembers : List (Text × Json) → Text
  | [] => "\x7d"
  | [(name, value)] => quote name ++ ':' :: render value ++ "\x7d"
  | (name, value) :: rest => quote name ++ ':' :: render value ++ ',' :: renderMembers rest

end

mutual

/-- A value in words of its own: strings bare, the items of an array separated by
commas, and nothing for the null items among them. -/
def plain : Json → Text
  | .null => "null"
  | .bool true => "true"
  | .bool false => "false"
  | .number value => value.text
  | .string value => value
  | .array items => plainItems items
  | .members _ => "[object Object]"

/-- The items of an array in words of their own. -/
def plainItems : List Json → Text
  | [] => []
  | [item] => plainItem item
  | item :: rest => plainItem item ++ ',' :: plainItems rest

/-- An item of an array in words of its own: nothing for null. -/
def plainItem : Json → Text
  | .null => []
  | item => plain item

end

end Json

end ConfigUpkeep
