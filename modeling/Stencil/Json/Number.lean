/-!
# Number — numbers as they are written

A whole number has neither fraction nor exponent; any other keeps its digits and the power of ten that they count.  A
number is taken only if it reads as a finite double, and it reads by scaling: the leading digits that fit a word become a
double, which is multiplied by the double of a power of ten.  The product is rounded once more, so that next to the
largest double two spellings of one value may part.
-/
namespace Stencil

/-- A number as it is written.  A whole number has neither fraction nor exponent and is not `-0`. -/
inductive Number
  | whole (value : Int)
  | decimal (negative : Bool) (digits : Nat) (exponent : Int)
deriving Repr, DecidableEq

namespace Number

/-- The multiple of a unit next to a number; halfway between two it is the even one. -/
def roundTo (unit n : Nat) : Nat :=
  let quotient := n / unit
  let twice := 2 * (n % unit)
  if unit < twice || (twice == unit && quotient % 2 == 1) then (quotient + 1) * unit else quotient * unit

/-- The double next to a natural number.  It has 53 binary digits. -/
def toDouble (n : Nat) : Nat := roundTo (Nat.pow 2 (n.log2 - 52)) n

/-- The least magnitude that rounds to no finite double. -/
def overflow : Nat := Nat.pow 2 1024 - Nat.pow 2 970

/-- The leading digits that fit a word of 64 bits, and the count of the digits after them. -/
def leading (n : Nat) : Nat × Nat :=
  if h : n < UInt64.size then (n, 0)
  else
    have : n / 10 < n := Nat.div_lt_self (Nat.lt_of_lt_of_le (by decide) (Nat.le_of_not_lt h)) (by decide)
    match leading (n / 10) with
    | (digits, dropped) => (digits, dropped + 1)
termination_by n

/-- Whether digits that count a power of ten read as a finite double.  The powers above `1e308` are no doubles. -/
def isFiniteAt (digits : Nat) (exponent : Int) : Bool :=
  let (significand, dropped) := leading digits
  significand == 0 ||
    match exponent + dropped with
    | .negSucc _ => true
    | .ofNat k => k ≤ 308 && toDouble significand * toDouble (Nat.pow 10 k) < overflow

/-- Whether the number reads as a finite double. -/
def isFinite : Number → Bool
  | .whole value => isFiniteAt value.natAbs 0
  | .decimal _ digits exponent => isFiniteAt digits exponent

end Number
end Stencil
