/-
# Binary floating point by its bits

A pattern of 64 bits in the binary64 format stands for a sign and a magnitude; a finite
magnitude is a significand times a power of two.  `nearest` gives the pattern of the
magnitude that lies nearest to a fraction, the even one of two that lie equally near.
Everything is done in exact integer arithmetic on patterns without their sign bit.
-/

namespace Teletype

namespace Binary

/-- What a pattern of 64 bits stands for. -/
inductive Meaning
  /-- Not a number. -/
  | nan
  /-- An infinity. -/
  | infinite (negative : Bool)
  /-- The significand times the power of two. -/
  | finite (negative : Bool) (significand : Nat) (exponent : Int)
  deriving DecidableEq, Repr

namespace Meaning

/-- It is above zero. -/
def isPositive : Meaning → Bool
  | nan => false
  | infinite negative => !negative
  | finite negative significand _ => !negative && significand != 0

/-- It is zero, of either sign. -/
def isZero : Meaning → Bool
  | finite _ significand _ => significand = 0
  | _ => false

end Meaning

/-- Number of patterns with the same sign and exponent: two to the number of bits of the
fraction. -/
def fractions : Nat := Nat.pow 2 52

/-- The exponent of the smallest magnitudes. -/
def leastExponent : Int := -1074

/-- The pattern of the infinite magnitude. -/
def infinityBits : Nat := 2047 * fractions

/-- The pattern of the sign. -/
def signBit : Nat := Nat.pow 2 63

/-- The magnitude of a pattern below that of infinity, as a significand and an exponent
of two. -/
def magnitude (bits : Nat) : Nat × Int :=
  let raised := bits / fractions
  let fraction := bits % fractions
  if raised = 0 then (fraction, leastExponent)
  else (fractions + fraction, (raised : Int) - 1 + leastExponent)

/-- What a pattern stands for. -/
def meaning (bits : UInt64) : Meaning :=
  let n := bits.toNat
  let negative : Bool := signBit ≤ n
  let rest := n % signBit
  if rest < infinityBits then
    let (significand, exponent) := magnitude rest
    .finite negative significand exponent
  else if rest = infinityBits then .infinite negative
  else .nan

/-- The pattern with a sign. -/
def withSign (negative : Bool) (bits : Nat) : UInt64 :=
  UInt64.ofNat (if negative then signBit + bits else bits)

/-- The quotient rounded to the nearest integer, a half to the even neighbour. -/
def roundDiv (num den : Nat) : Nat :=
  let q := num / den
  let r := num % den
  if 2 * r < den then q
  else if den < 2 * r then q + 1
  else if q % 2 = 0 then q else q + 1

/-- A fraction times a power of a base, as a fraction. -/
def scale (base : Nat) (exponent : Int) (num den : Nat) : Nat × Nat :=
  match exponent with
  | .ofNat e => (num * Nat.pow base e, den)
  | .negSucc e => (num, den * Nat.pow base (e + 1))

/-- The largest power of two that is not above a positive fraction. -/
def floorLog2 (num den : Nat) : Int :=
  let estimate : Int := (num.log2 : Int) - den.log2
  let (n, d) := scale 2 (-estimate) num den
  if d ≤ n then estimate else estimate - 1

/-- The pattern of the magnitude nearest to a positive fraction. -/
def nearest (num den : Nat) : Nat :=
  let exponent := max (floorLog2 num den - 52) leastExponent
  let (n, d) := scale 2 (-exponent) num den
  min infinityBits ((exponent - leastExponent).toNat * fractions + roundDiv n d)

/-- A rounded quotient lies within one of the exact one. -/
theorem roundDiv_bounds (num den : Nat) :
    num / den ≤ roundDiv num den ∧ roundDiv num den ≤ num / den + 1 := by
  simp only [roundDiv]
  split
  · omega
  · split
    · omega
    · split <;> omega

/-- An exact quotient is not changed by rounding. -/
theorem roundDiv_mul (q den : Nat) (h : 0 < den) : roundDiv (q * den) den = q := by
  simp [roundDiv, Nat.mul_div_cancel q h, h]

/-- No magnitude lies above the infinite one. -/
theorem nearest_le (num den : Nat) : nearest num den ≤ infinityBits := by
  simp only [nearest]
  exact Nat.min_le_left _ _

end Binary

end Teletype
