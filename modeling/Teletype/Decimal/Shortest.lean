/-
# Shortest decimals

The decimal with the fewest digits that lies so near to a binary floating-point magnitude
that reading it gives the magnitude back.  Grids of one, two, … seventeen digits are tried
in turn; on each, only the two neighbours of the magnitude can be near enough.  Of two
that are, the nearer is taken, and the upper one if they are equally near.
-/
import Teletype.Binary
import Teletype.Decimal.Natural

namespace Teletype

namespace Decimal

/-- A whole number times a power of ten. -/
structure Scaled where
  /-- The whole number. -/
  digits : Nat
  /-- The power of ten. -/
  exponent : Int
  deriving DecidableEq, Repr

/-- The largest power of ten that is not above a positive fraction. -/
def floorLog10 (num den : Nat) : Int :=
  let estimate : Int := ((ofNat num).length : Int) - (ofNat den).length
  let (n, d) := Binary.scale 10 (-estimate) num den
  if d ≤ n then estimate else estimate - 1

/-- Distance down to the end of the interval that rounds to a significand, in quarters of
its last place: the neighbour below the smallest significand is only half as far away. -/
def reachDown (significand : Nat) : Nat := if significand = Binary.fractions then 1 else 2

/-- The neighbour of a magnitude on the grid whose step is a given power of ten that rounds
to the magnitude, counted in steps. -/
def onGrid? (significand : Nat) (exponent step : Int) : Option Nat :=
  let (p, q) := Binary.scale 2 (exponent - 2) 1 1
  let (quarter, unit) := Binary.scale 10 (-step) p q
  let exact := 4 * significand * quarter
  let low := (4 * significand - reachDown significand) * quarter
  let high := (4 * significand + 2) * quarter
  let below := exact / unit
  let closed := significand % 2 = 0
  let lowFits := low < below * unit ∨ closed ∧ low = below * unit
  let highFits := (below + 1) * unit < high ∨ closed ∧ (below + 1) * unit = high
  if lowFits ∧ (¬ highFits ∨ 2 * (exact % unit) < unit) then some below
  else if highFits then some (below + 1)
  else none

/-- The most digits that are ever needed. -/
def mostDigits : Nat := 17

/-- The shortest decimal that rounds to a positive magnitude. -/
def shortest (significand : Nat) (exponent : Int) : Scaled :=
  let (p, q) := Binary.scale 2 exponent significand 1
  let lead := floorLog10 p q
  let found := (List.range mostDigits).findSome? fun (n : Nat) =>
    (onGrid? significand exponent (lead - n)).map fun digits =>
      if digits = Nat.pow 10 (n + 1) then (⟨1, lead + 1⟩ : Scaled) else ⟨digits, lead - n⟩
  found.getD ⟨significand, exponent⟩

/-- The text of a scaled number without an exponent: zeros take the place of the power of
ten on either side of the point. -/
def Scaled.text (s : Scaled) : Text :=
  let ds := ofNat s.digits
  match s.exponent with
  | .ofNat e => ds ++ List.replicate e '0'
  | .negSucc e =>
    let places := e + 1
    if places < ds.length then
      ds.take (ds.length - places) ++ '.' :: ds.drop (ds.length - places)
    else '0' :: '.' :: List.replicate (places - ds.length) '0' ++ ds

end Decimal

end Teletype
