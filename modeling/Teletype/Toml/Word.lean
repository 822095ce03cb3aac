/-
# Words of settings documents

The values that are written without quotes: truth values, whole numbers in four bases,
numbers with a fraction or an exponent, and moments, which are days, times of day, or
both.  A number that has no place among 64 bits is refused.
-/
import Teletype.Decimal.Numeral
import Teletype.Toml.Quoted

namespace Teletype

namespace Toml

/-! ## Numbers -/

/-- The digits of a number without the underscores between them. -/
def plainDigits? (isDigit : Char → Bool) (t : Text) : Option Text :=
  let groups := Text.cut '_' t
  if groups.all fun g => g ≠ [] && g.all isDigit then some groups.flatten else none

/-- The digits of a number in decimal, without underscores and without leading zeros. -/
def decimalDigits? (t : Text) : Option Text :=
  (plainDigits? Decimal.isDigit t).filter fun ds => ds.length = 1 || ds.head? ≠ some '0'

/-- The number that digits in a base stand for. -/
def based? (base : Nat) (t : Text) : Option Int := do
  let digits ← plainDigits? (fun c => (hexValue? c).any (· < base)) t
  let values ← digits.mapM hexValue?
  pure (values.foldl (fun n v => n * base + v) 0 : Nat)

/-- The whole number that a word is, if it fits into 64 bits with its sign. -/
def integer? (t : Text) : Option Int :=
  let number := match t with
    | '0' :: 'x' :: rest => based? 16 rest
    | '0' :: 'o' :: rest => based? 8 rest
    | '0' :: 'b' :: rest => based? 2 rest
    | _ =>
      let (negative, rest) := Decimal.splitSign t
      (decimalDigits? rest).map fun ds =>
        if negative then -(Decimal.value ds : Int) else Decimal.value ds
  number.filter fun i => -Int.pow 2 63 ≤ i && i < Int.pow 2 63

/-- The exponent of a number is well formed. -/
def isExponent (t : Text) : Bool :=
  (plainDigits? Decimal.isDigit (Decimal.splitSign t).2).isSome

/-- The part of a number in front of its exponent is well formed. -/
def isMantissa (t : Text) : Bool :=
  match Text.cut '.' t with
  | [whole] => (decimalDigits? whole).isSome
  | [whole, fraction] =>
    (decimalDigits? whole).isSome && (plainDigits? Decimal.isDigit fraction).isSome
  | _ => false

/-- A word without a sign is written like a number with a fraction or an exponent. -/
def isFractionForm (t : Text) : Bool :=
  match Text.cut 'e' (Text.lowerAscii t) with
  | [mantissa] => mantissa.contains '.' && isMantissa mantissa
  | [mantissa, exponent] => isMantissa mantissa && isExponent exponent
  | _ => false

/-- A number is so large that infinity is the number of 64 bits nearest to it. -/
def overflows : Decimal.Numeral → Bool
  | .finite false size => size.nearestBits = Binary.infinityBits
  | _ => false

/-- The word is a number with a fraction or an exponent, or one of the words for what is
not a number. -/
def isFraction (t : Text) : Bool :=
  let size := (Decimal.splitSign t).2
  if size = "inf".toList ∨ size = "nan".toList then true
  else isFractionForm size &&
    (Decimal.Numeral.read? (t.filter (· ≠ '_'))).any fun n => !overflows n

/-! ## Moments -/

/-- The number that exactly as many digits write. -/
def digits? (width : Nat) (t : Text) : Option Nat :=
  if t.length = width then Decimal.toNat? t else none

/-- The numbers of two digits each that a text writes with a mark between them. -/
def pairs? (mark : Char) (t : Text) : Option (List Nat) := (Text.cut mark t).mapM (digits? 2)

/-- The number of days of a month, counted from one. -/
def daysOf (year month : Nat) : Nat :=
  if month = 2 then
    if year % 4 = 0 ∧ (year % 100 ≠ 0 ∨ year % 400 = 0) then 29 else 28
  else if month ∈ [4, 6, 9, 11] then 30
  else 31

/-- The word is a day: a year of four digits, a month and a day of the month. -/
def isDate (t : Text) : Bool :=
  match digits? 4 (t.take 4), t.drop 4 with
  | some year, '-' :: rest =>
    match pairs? '-' rest with
    | some [month, day] => 1 ≤ month && month ≤ 12 && 1 ≤ day && day ≤ daysOf year month
    | _ => false
  | _, _ => false

/-- The word is a time of day to the second, which may be a leap second, or to a part of
it. -/
def isTime (t : Text) : Bool :=
  let isWhole := match pairs? ':' (t.take 8) with
    | some [hour, minute, second] => hour ≤ 23 && minute ≤ 59 && second ≤ 60
    | _ => false
  let isPart := match t.drop 8 with
    | [] => true
    | c :: digits => c = '.' && (Decimal.toNat? digits).isSome
  isWhole && isPart

/-- The word tells how far a place is ahead of the first meridian, or is the letter for
not at all. -/
def isOffset (t : Text) : Bool :=
  match t with
  | [] => false
  | c :: rest =>
    if c = 'Z' ∨ c = 'z' then rest = []
    else if c = '+' ∨ c = '-' then
      match pairs? ':' rest with
      | some [hour, minute] => hour ≤ 23 && minute ≤ 59
      | _ => false
    else false

/-- The word is a time of day, perhaps with the offset of a place behind it. -/
def isClock (t : Text) : Bool :=
  let isMark := fun c => c ∈ ['Z', 'z', '+', '-']
  let offset := t.dropWhile (!isMark ·)
  isTime (t.takeWhile (!isMark ·)) && (offset = [] || isOffset offset)

/-- The word is a day, a time of day, or a day and a clock with a letter between them. -/
def isMoment (t : Text) : Bool :=
  isDate t || isTime t ||
    match t.drop 10 with
    | [] => false
    | c :: clock => (c = 'T' || c = 't') && isDate (t.take 10) && isClock clock

end Toml

end Teletype
