/-
# ConfigUpkeep.Decimal -- decimal numbers and how they are written

A `Decimal` is a sign, a coefficient and a power of ten.  Its text is positional
while the point falls near the digits, and has an exponent otherwise:

* up to twenty-one digits before the point the number is written out, padded with
  zeros where the digits end before the point (`100000000000000000000`);
* up to six zeros between the point and the digits are written out (`0.000001`);
* everything else has one digit before the point and a signed exponent without
  padding (`1e+21`, `1.5e-7`).

Zero is written without a sign.  `ofDigits_digits` says that the digits of a natural
number are read back, so different numbers have different digits (`digits_inj`).
-/
import ConfigUpkeep.Text

namespace ConfigUpkeep

set_option autoImplicit false

namespace Decimal

/-! ## Natural numbers -/

/-- The character of a digit below ten. -/
def digit (n : Nat) : Char := Char.ofNat (48 + n)

/-- The digits of a natural number, without leading zeros; zero is one digit. -/
def digits (n : Nat) : Text :=
  if n < 10 then [digit n] else digits (n / 10) ++ [digit (n % 10)]

/-- The value of a text read as digits. -/
def ofDigits (t : Text) : Nat := t.foldl (fun value c => 10 * value + (c.toNat - 48)) 0

theorem toNat_digit {n : Nat} (small : n < 10) : (digit n).toNat = 48 + n := by
  have cases : n = 0 ∨ n = 1 ∨ n = 2 ∨ n = 3 ∨ n = 4 ∨ n = 5 ∨ n = 6 ∨ n = 7 ∨ n = 8 ∨ n = 9 := by
    omega
  rcases cases with rfl | rfl | rfl | rfl | rfl | rfl | rfl | rfl | rfl | rfl <;> rfl

/-- The digits of a number are read back. -/
theorem ofDigits_digits (n : Nat) : ofDigits (digits n) = n := by
  induction n using Nat.strongRecOn with
  | ind n ih =>
      rw [digits]
      split
      · rename_i small
        simp [ofDigits, toNat_digit small]
      · rename_i large
        have smaller : n / 10 < n := by omega
        have back := ih (n / 10) smaller
        simp only [ofDigits] at back
        simp only [ofDigits, List.foldl_append, back, List.foldl_cons, List.foldl_nil,
          toNat_digit (Nat.mod_lt n (by omega : 10 > 0))]
        omega

/-- Different numbers have different digits. -/
theorem digits_inj {m n : Nat} (same : digits m = digits n) : m = n := by
  rw [← ofDigits_digits m, same, ofDigits_digits]

/-- The digits, with zeros in front up to the given width. -/
def padded (width n : Nat) : Text :=
  List.replicate (width - (digits n).length) '0' ++ digits n

/-- The digits of an integer, with a minus sign if it is negative. -/
def signed (n : Int) : Text :=
  if n < 0 then '-' :: digits n.natAbs else digits n.natAbs

end Decimal

/-- A decimal number: `coefficient` times ten to the `exponent`, negated if `negative`. -/
structure Decimal where
  negative : Bool
  coefficient : Nat
  exponent : Int
  deriving DecidableEq, Repr

namespace Decimal

def ofNat (n : Nat) : Decimal := ⟨false, n, 0⟩

/-- The integer part: what follows the point is dropped. -/
def truncate (d : Decimal) : Int :=
  let size : Nat :=
    if d.exponent < 0 then d.coefficient / Nat.pow 10 d.exponent.natAbs
    else d.coefficient * Nat.pow 10 d.exponent.natAbs
  if d.negative then -(size : Int) else size

/-! ## Notation -/

/-- The most digits before the point that are written out. -/
def widest : Int := 21

/-- The most zeros between the point and the digits that are written out, plus one. -/
def deepest : Int := 6

/-- Digits with the point after the first of them. -/
def pointed : Text → Text
  | [] => []
  | [d] => [d]
  | d :: rest => d :: '.' :: rest

/-- The exponent mark: the letter, the sign, and the exponent. -/
def exponentMark (e : Int) : Text :=
  'e' :: (if e < 0 then '-' else '+') :: digits e.natAbs

/-- Digits laid out so that the point stands `point` places behind their start. -/
def layout (ds : Text) (point : Int) : Text :=
  if ds.length ≤ point ∧ point ≤ widest then ds ++ List.replicate (point.toNat - ds.length) '0'
  else if 0 < point ∧ point ≤ widest then ds.take point.toNat ++ '.' :: ds.drop point.toNat
  else if -deepest < point ∧ point ≤ 0 then
    '0' :: '.' :: List.replicate point.natAbs '0' ++ ds
  else pointed ds ++ exponentMark (point - 1)

def text (d : Decimal) : Text :=
  if d.coefficient = 0 then ['0']
  else
    let ds := digits d.coefficient
    let shown := layout ds (d.exponent + ds.length)
    if d.negative then '-' :: shown else shown

end Decimal

end ConfigUpkeep
