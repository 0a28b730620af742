/-
# ConfigUpkeep.Decimal.Shortest -- the shortest decimal with a given nearest double

Numbers are kept to double precision: a significand below 2^53 times a power of two
not below 2^-1074.  `Binary.nearest` finds the double nearest to a fraction, a tie
going to the even significand.  `Binary.shortest` finds the decimal that stands for a
double: of the decimals whose nearest double it is, those with the fewest digits, and
of these the nearest.

All arithmetic is exact.  The reals that round to a double form an interval whose ends
belong to it exactly if the significand is even.  If a grid of powers of ten has a
point in the interval, one of the double's two neighbours on that grid is in it, so it
is enough to try those, from the coarsest grid on.
-/
import ConfigUpkeep.Decimal

namespace ConfigUpkeep

set_option autoImplicit false

/-- A positive double: `significand` times two to the `exponent`. -/
structure Binary where
  significand : Nat
  exponent : Int
  deriving DecidableEq, Repr

namespace Binary

/-- The least exponent of a double. -/
def leastExponent : Int := -1074

/-- The greatest exponent of a double. -/
def greatestExponent : Int := 971

/-- The least significand of a double above the least exponent. -/
def leastNormal : Nat := Nat.pow 2 52

/-- The quotient rounded to the nearest natural number, a tie going to the even one. -/
def roundedQuotient (num den : Nat) : Nat :=
  let quotient := num / den
  let twice := 2 * (num % den)
  if twice < den ∨ (twice = den ∧ quotient % 2 = 0) then quotient else quotient + 1

/-- Twice a rounded quotient's distance from the quotient is one divisor at most. -/
theorem roundedQuotient_near (num : Nat) {den : Nat} (positive : 0 < den) :
    2 * num ≤ 2 * (roundedQuotient num den * den) + den ∧
      2 * (roundedQuotient num den * den) ≤ 2 * num + den := by
  have whole := Nat.div_add_mod num den
  have part := Nat.mod_lt num positive
  have commuted : den * (num / den) = num / den * den := Nat.mul_comm _ _
  simp only [roundedQuotient]
  split
  · constructor <;> omega
  · have : (num / den + 1) * den = num / den * den + den := by
      rw [Nat.add_mul, Nat.one_mul]
    constructor <;> omega

/-- A number times a power of two, as a fraction with the other factor below. -/
def shifted (num den : Nat) (shift : Int) : Nat × Nat :=
  if shift < 0 then (num * Nat.pow 2 shift.natAbs, den) else (num, den * Nat.pow 2 shift.natAbs)

/-- The exponent at which the fraction has a 53-bit significand, if doubles go down far
enough. -/
def exponentOf (num den : Nat) : Int :=
  let low : Int := (Nat.log2 num : Int) - Nat.log2 den - 53
  let scaled := shifted num den low
  max leastExponent (if Nat.pow 2 53 * scaled.2 ≤ scaled.1 then low + 1 else low)

/-- The double nearest to a positive fraction; none if the fraction is too large. -/
def nearest (num den : Nat) : Option Binary :=
  let exponent := exponentOf num den
  let scaled := shifted num den exponent
  let significand := roundedQuotient scaled.1 scaled.2
  let found : Binary :=
    if significand = Nat.pow 2 53 then ⟨leastNormal, exponent + 1⟩ else ⟨significand, exponent⟩
  if greatestExponent < found.exponent then none else some found

/-! ## The shortest decimal -/

/-- The ends, in quarters of the last place, of the interval of reals that round to
the double.  Below a power of two the gap is half as wide. -/
def ends (b : Binary) : Nat × Nat :=
  let center := 4 * b.significand
  let narrow := b.significand = leastNormal ∧ leastExponent < b.exponent
  (if narrow then center - 1 else center - 2, center + 2)

/-- The point nearest to the double on the grid of multiples of ten to the `place`, of
those that round to it. -/
def onGrid (b : Binary) (place : Int) : Option Nat :=
  let quarter := b.exponent - 2
  let unit := Nat.pow 2 (-quarter).toNat * Nat.pow 10 place.toNat
  let scale := Nat.pow 2 quarter.toNat * Nat.pow 10 (-place).toNat
  let value := 4 * b.significand * scale
  let (low, high) := b.ends
  let roundsBack (candidate : Nat) : Bool :=
    if b.significand % 2 = 0 then
      low * scale ≤ candidate * unit && candidate * unit ≤ high * scale
    else low * scale < candidate * unit && candidate * unit < high * scale
  let below := value / unit
  let above := below + 1
  match roundsBack below, roundsBack above with
  | true, true =>
      let shortfall := value - below * unit
      let excess := above * unit - value
      if shortfall < excess ∨ (shortfall = excess ∧ below % 2 = 0) then some below else some above
  | true, false => some below
  | false, true => some above
  | false, false => none

/-- A place of ten above the leading digit of the double. -/
def topPlace (b : Binary) : Int :=
  ((Nat.log2 b.significand : Int) + b.exponent + 1) * 30103 / 100000 + 2

/-- How many places below the top a double can need. -/
def places : Nat := 24

/-- The coefficient and the place of the shortest decimal that stands for the double. -/
def shortest (b : Binary) : Option (Nat × Int) :=
  (List.range places).findSome? fun (depth : Nat) =>
    let place := b.topPlace - depth
    (b.onGrid place).map fun coefficient => (coefficient, place)

end Binary

namespace Decimal

/-- The decimal point after which a coefficient's first digit stands. -/
def magnitude (d : Decimal) : Int := d.exponent + (digits d.coefficient).length

/-- The decimal that stands for the nearest double: zero if that is zero, none if the
number is too large for a double. -/
def rounded (d : Decimal) : Option Decimal :=
  if d.coefficient = 0 ∨ d.magnitude < -330 then some (ofNat 0)
  else if 330 < d.magnitude then none
  else
    let num := d.coefficient * Nat.pow 10 d.exponent.toNat
    let den := Nat.pow 10 (-d.exponent).toNat
    (Binary.nearest num den).bind fun b =>
      if b.significand = 0 then some (ofNat 0)
      else b.shortest.map fun found => ⟨d.negative, found.1, found.2⟩

end Decimal

end ConfigUpkeep
