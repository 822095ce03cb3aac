/-
# Numerals

The written forms of a number: an optional sign, then a word for infinity, or digits with
at most one point among, before or behind them and an optional power of ten.  A numeral
has a nearest binary floating-point pattern.
-/
import Teletype.Decimal.Shortest

namespace Teletype

namespace Decimal

/-- What a numeral denotes. -/
inductive Numeral
  /-- An infinity. -/
  | infinite (negative : Bool)
  /-- A scaled number with a sign. -/
  | finite (negative : Bool) (size : Scaled)
  deriving DecidableEq, Repr

/-- The sign in front of a numeral, and the rest of it. -/
def splitSign : Text → Bool × Text
  | '-' :: rest => (true, rest)
  | '+' :: rest => (false, rest)
  | rest => (false, rest)

/-- The power of ten behind the digits; none is the zeroth. -/
def readPower? : Text → Option Int
  | [] => some 0
  | c :: rest =>
    if c = 'e' ∨ c = 'E' then
      let (negative, digits) := splitSign rest
      (toNat? digits).map fun n => if negative then -(n : Int) else n
    else none

/-- The digits behind the point, if there is one, and the rest. -/
def splitFraction : Text → Text × Text
  | '.' :: rest => (rest.takeWhile isDigit, rest.dropWhile isDigit)
  | rest => ([], rest)

/-- Digits, a point, digits, and a power of ten; one of the two rows of digits may be
empty. -/
def readScaled? (t : Text) : Option Scaled :=
  let whole := t.takeWhile isDigit
  let (fraction, rest) := splitFraction (t.dropWhile isDigit)
  if whole ++ fraction = [] then none
  else (readPower? rest).map fun power =>
    ⟨value (whole ++ fraction), power - fraction.length⟩

/-- The words for infinity, in small letters. -/
def infinityWords : List Text := ["inf".toList, "infinity".toList]

/-- Read a numeral. -/
def Numeral.read? (t : Text) : Option Numeral :=
  let (negative, size) := splitSign t
  if Text.lowerAscii size ∈ infinityWords then some (.infinite negative)
  else (readScaled? size).map (.finite negative)

/-- The pattern of the magnitude nearest to a scaled number.  The two bounds are on the
place of its first digit: past them only infinity and zero are near. -/
def Scaled.nearestBits (s : Scaled) : Nat :=
  let first := ((ofNat s.digits).length : Int) + s.exponent
  if s.digits = 0 then 0
  else if 310 < first then Binary.infinityBits
  else if first < -330 then 0
  else
    let (num, den) := Binary.scale 10 s.exponent s.digits 1
    Binary.nearest num den

/-- The pattern nearest to a numeral. -/
def Numeral.nearestBits : Numeral → UInt64
  | .infinite negative => Binary.withSign negative Binary.infinityBits
  | .finite negative size => Binary.withSign negative size.nearestBits

/-- A row of digits is a numeral. -/
theorem readScaled?_digits {t : Text} (hd : t.all isDigit = true) (hn : t ≠ []) :
    readScaled? t = some ⟨value t, 0⟩ := by
  have hall : ∀ c ∈ t, isDigit c = true := by simpa using hd
  have htake : (t ++ []).takeWhile isDigit = t ++ [].takeWhile isDigit :=
    List.takeWhile_append_of_pos hall
  have hdrop : (t ++ []).dropWhile isDigit = [].dropWhile isDigit :=
    List.dropWhile_append_of_pos hall
  simp only [List.append_nil, List.takeWhile_nil, List.dropWhile_nil] at htake hdrop
  simp [readScaled?, htake, hdrop, splitFraction, readPower?, hn]

/-- A whole number is a numeral. -/
theorem readScaled?_ofNat (n : Nat) : readScaled? (ofNat n) = some ⟨n, 0⟩ := by
  obtain ⟨hv, hd, hn⟩ := value_ofNat n
  rw [readScaled?_digits hd hn, hv]

end Decimal

end Teletype
