/-
# ConfigUpkeep.Json.Reader -- reading a JSON value off a text

`Json.read?` reads one value that fills the whole text, with blanks around its parts
as the grammar allows.  Everything outside the grammar is refused.

A string may spell a character by its code in two escaped halves; the halves are put
together (`joinHalves`), and a half without its partner reads as the replacement
character.  Numbers are rounded to double precision (`Number.ofDecimal`).

The readers of nested values take a depth bound.  The length of the text bounds the
depth of the values in it, so the bound is never met.
-/
import ConfigUpkeep.Json

namespace ConfigUpkeep.Json

set_option autoImplicit false

/-- A reader takes a value off the front of a text and leaves the rest. -/
abbrev Reader (α : Type) := Text → Option (α × Text)

/-- The blanks that may stand around the parts of a value. -/
def isGap (c : Char) : Bool := c = ' ' || c = '\t' || c = '\n' || c = '\r'

/-- The text behind the blanks at its front. -/
def skipGap (t : Text) : Text := t.dropWhile isGap

/-! ## Strings -/

def hexValue? (c : Char) : Option Nat :=
  if '0' ≤ c ∧ c ≤ '9' then some (c.toNat - 48)
  else if 'a' ≤ c ∧ c ≤ 'f' then some (c.toNat - 87)
  else if 'A' ≤ c ∧ c ≤ 'F' then some (c.toNat - 55)
  else none

def hexCode? (a b c d : Char) : Option Nat := do
  let a ← hexValue? a
  let b ← hexValue? b
  let c ← hexValue? c
  let d ← hexValue? d
  pure (((a * 16 + b) * 16 + c) * 16 + d)

/-- The code of the character that a one-letter escape stands for. -/
def escaped? (c : Char) : Option Nat :=
  match c with
  | '"' => some 0x22
  | '\\' => some 0x5C
  | '/' => some 0x2F
  | 'b' => some 0x08
  | 'f' => some 0x0C
  | 'n' => some 0x0A
  | 'r' => some 0x0D
  | 't' => some 0x09
  | _ => none

/-- The codes of a string up to its closing quotation mark.  Codes from 0xD800 to
0xDFFF are halves of a character. -/
def codes : Reader (List Nat)
  | [] => none
  | '"' :: rest => some ([], rest)
  | '\\' :: 'u' :: a :: b :: c :: d :: rest =>
      (hexCode? a b c d).bind fun code =>
        (codes rest).map fun found => (code :: found.1, found.2)
  | '\\' :: c :: rest =>
      (escaped? c).bind fun code => (codes rest).map fun found => (code :: found.1, found.2)
  | c :: rest =>
      if c.toNat < 0x20 ∨ c = '\\' then none
      else (codes rest).map fun found => (c.toNat :: found.1, found.2)

/-- The character with a code, where the code is no half of one. -/
def ofCode (code : Nat) : Char := if code.isValidChar then Char.ofNat code else '\uFFFD'

/-- The characters that codes spell, halves put together. -/
def joinHalves : List Nat → Text
  | high :: low :: rest =>
      if 0xD800 ≤ high ∧ high < 0xDC00 ∧ 0xDC00 ≤ low ∧ low < 0xE000 then
        ofCode (0x10000 + (high - 0xD800) * 0x400 + (low - 0xDC00)) :: joinHalves rest
      else ofCode high :: joinHalves (low :: rest)
  | [code] => [ofCode code]
  | [] => []

/-- A string behind its opening quotation mark. -/
def stringBody : Reader Text := fun t => (codes t).map fun found => (joinHalves found.1, found.2)

/-! ## Numbers -/

/-- The digits at the front of a text; at least one. -/
def digitRun : Reader Text := fun t =>
  let ds := t.takeWhile Char.isDigit
  if ds.isEmpty then none else some (ds, t.dropWhile Char.isDigit)

/-- The digits of an integer part: a lone zero, or digits that start with none. -/
def wholePart : Reader Text
  | '0' :: rest => some (['0'], rest)
  | t => digitRun t

/-- The digits behind the point, if there is a point. -/
def fraction : Reader Text
  | '.' :: rest => digitRun rest
  | t => some ([], t)

/-- The power of ten behind the exponent mark, if there is one. -/
def exponent : Reader Int := fun t =>
  match t with
  | mark :: rest =>
      if mark = 'e' ∨ mark = 'E' then
        match rest with
        | '-' :: rest => (digitRun rest).map fun found => (-(Decimal.ofDigits found.1 : Int), found.2)
        | '+' :: rest => (digitRun rest).map fun found => ((Decimal.ofDigits found.1 : Int), found.2)
        | rest => (digitRun rest).map fun found => ((Decimal.ofDigits found.1 : Int), found.2)
      else some (0, t)
  | [] => some (0, t)

/-- A number without its sign. -/
def unsigned (negative : Bool) : Reader Decimal := fun t =>
  (wholePart t).bind fun whole =>
    (fraction whole.2).bind fun part =>
      (exponent part.2).map fun power =>
        (⟨negative, Decimal.ofDigits (whole.1 ++ part.1), power.1 - part.1.length⟩, power.2)

def decimal : Reader Decimal
  | '-' :: rest => unsigned true rest
  | t => unsigned false t

/-! ## Values -/

/-- A fixed word in place of a value. -/
def word (spelling : Text) (json : Json) : Reader Json := fun t =>
  (spelling.isPrefixOf? t).map fun rest => (json, rest)

mutual

/-- A value, nested less deep than the bound. -/
def value : Nat → Reader Json
  | 0, _ => none
  | depth + 1, t =>
      match skipGap t with
      | '"' :: rest => (stringBody rest).map fun found => (.string found.1, found.2)
      | '[' :: rest =>
          match skipGap rest with
          | ']' :: rest => some (.array [], rest)
          | rest => (items depth rest).map fun found => (.array found.1, found.2)
      | '\x7b' :: rest =>
          match skipGap rest with
          | '\x7d' :: rest => some (object [], rest)
          | rest => (fields depth rest).map fun found => (object found.1, found.2)
      | 't' :: rest => word "rue" (.bool true) rest
      | 'f' :: rest => word "alse" (.bool false) rest
      | 'n' :: rest => word "ull" .null rest
      | rest => (decimal rest).map fun found => (.number (Number.ofDecimal found.1), found.2)

/-- The items of an array up to its closing bracket; at least one. -/
def items : Nat → Reader (List Json)
  | 0, _ => none
  | depth + 1, t =>
      (value depth t).bind fun item =>
        match skipGap item.2 with
        | ',' :: rest => (items depth rest).map fun found => (item.1 :: found.1, found.2)
        | ']' :: rest => some ([item.1], rest)
        | _ => none

/-- The members of an object up to its closing brace; at least one. -/
def fields : Nat → Reader (List (Text × Json))
  | 0, _ => none
  | depth + 1, t =>
      match skipGap t with
      | '"' :: rest =>
          (stringBody rest).bind fun name =>
            match skipGap name.2 with
            | ':' :: rest =>
                (value depth rest).bind fun found =>
                  match skipGap found.2 with
                  | ',' :: rest =>
                      (fields depth rest).map fun others =>
                        ((name.1, found.1) :: others.1, others.2)
                  | '\x7d' :: rest => some ([(name.1, found.1)], rest)
                  | _ => none
            | _ => none
      | _ => none

end

/-- The value that fills the text. -/
def read? (t : Text) : Option Json :=
  (value (t.length + 1) t).bind fun found =>
    if (skipGap found.2).isEmpty then some found.1 else none

end ConfigUpkeep.Json
