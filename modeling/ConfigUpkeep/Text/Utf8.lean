/-
# ConfigUpkeep.Text.Utf8 -- texts as bytes

A text is written as the UTF-8 bytes of its characters.  Reading goes the other way
and never fails: bytes that spell no character are read as the replacement character,
once for each longest run that could still have begun one, and a byte order mark at
the very front is dropped.

The reader is a machine fed one byte at a time.  Between characters it waits for
nothing; inside one it knows how many bytes are missing and which range the next must
be in.  A byte outside the range ends the broken character and is looked at again as
the start of the next one (`Pending.feed`).

`text?` reads bytes without loss: it answers exactly for the bytes that some text is
written as (`encode_of_text?`).
-/
import ConfigUpkeep.Text

namespace ConfigUpkeep

set_option autoImplicit false

/-- The content of a file. -/
abbrev Bytes := List UInt8

namespace Utf8

/-- The bytes a text is written as. -/
def encode (t : Text) : Bytes := t.flatMap String.utf8EncodeChar

def replacement : Char := '\uFFFD'

def mark : Char := '\uFEFF'

/-- Where the reader is: between characters, or inside one with `missing` bytes to come,
the next of them from `low` to `high`, and the bits read so far. -/
inductive Pending where
  | idle
  | within (missing low high bits : Nat)
  deriving DecidableEq, Repr

namespace Pending

/-- A byte read between characters: what it spells, and where the reader is then. -/
def begin (b : Nat) : Text × Pending :=
  if b < 0x80 then ([Char.ofNat b], .idle)
  else if b < 0xC2 then ([replacement], .idle)
  else if b < 0xE0 then ([], .within 1 0x80 0xBF (b - 0xC0))
  else if b = 0xE0 then ([], .within 2 0xA0 0xBF 0)
  else if b = 0xED then ([], .within 2 0x80 0x9F 0xD)
  else if b < 0xF0 then ([], .within 2 0x80 0xBF (b - 0xE0))
  else if b = 0xF0 then ([], .within 3 0x90 0xBF 0)
  else if b < 0xF4 then ([], .within 3 0x80 0xBF (b - 0xF0))
  else if b = 0xF4 then ([], .within 3 0x80 0x8F 4)
  else ([replacement], .idle)

/-- A byte read anywhere: what it spells, and where the reader is then. -/
def feed (pending : Pending) (b : Nat) : Text × Pending :=
  match pending with
  | .idle => begin b
  | .within missing low high bits =>
      if low ≤ b ∧ b ≤ high then
        let bits := bits * 64 + (b - 0x80)
        if missing ≤ 1 then ([Char.ofNat bits], .idle)
        else ([], .within (missing - 1) 0x80 0xBF bits)
      else
        let (shown, next) := begin b
        (replacement :: shown, next)

/-- What is spelt when no byte follows. -/
def close : Pending → Text
  | .idle => []
  | .within .. => [replacement]

end Pending

/-- The text that bytes spell from a point on. -/
def decodeFrom : Pending → Bytes → Text
  | pending, [] => pending.close
  | pending, b :: rest =>
      let (shown, next) := pending.feed b.toNat
      shown ++ decodeFrom next rest

/-- The text that bytes spell, with every byte order mark. -/
def decodeAll (bytes : Bytes) : Text := decodeFrom .idle bytes

/-- A text without the byte order mark at its front. -/
def dropMark : Text → Text
  | c :: rest => if c = mark then rest else c :: rest
  | [] => []

def decode (bytes : Bytes) : Text := dropMark (decodeAll bytes)

/-- The text that is written as these bytes, if there is one. -/
def text? (bytes : Bytes) : Option Text :=
  if encode (decodeAll bytes) = bytes then some (decodeAll bytes) else none

theorem encode_of_text? {bytes : Bytes} {t : Text} (spelt : text? bytes = some t) :
    encode t = bytes := by
  simp only [text?, Option.ite_none_right_eq_some, Option.some.injEq] at spelt
  obtain ⟨same, rfl⟩ := spelt
  exact same

end Utf8

end ConfigUpkeep
