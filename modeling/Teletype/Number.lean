/-
# Numbers as texts

Values are texts; a command that calculates reads its operands from texts and writes its
result as one.  A number is read from a numeral with blanks around it, and written with
the fewest digits that read back, without an exponent.  An index is a whole number that
fits into a word of 64 bits.
-/
import Teletype.Fault
import Teletype.Text.Blank
import Teletype.Decimal.Numeral

namespace Teletype

namespace Number

/-! ## Reading -/

/-- The pattern nearest to the numeral that a text holds. -/
def readBits? (t : Text) : Option UInt64 :=
  (Decimal.Numeral.read? (Text.strip t)).map Decimal.Numeral.nearestBits

/-- The number nearest to the numeral that a text holds. -/
def read? (t : Text) : Option Float := (readBits? t).map Float.ofBits

/-- The number that a command takes as an operand. -/
def operand (command t : Text) : Except Fault Float :=
  match read? t with
  | some x => .ok x
  | none => .error (.malformed (command ++ " requires numeric arguments.".toList))

/-- The two numbers that follow the word of a command. -/
def operands (command : Text) : List Text → Except Fault (Float × Float)
  | [_, a, b] => do
    let x ← operand command a
    let y ← operand command b
    pure (x, y)
  | _ => .error (.malformed (command ++ " requires two arguments.".toList))

/-! ## Writing -/

/-- The text of what a pattern stands for.  Zero has no sign. -/
def textOfMeaning : Binary.Meaning → Text
  | .nan => "NaN".toList
  | .infinite true => "-Infinity".toList
  | .infinite false => "Infinity".toList
  | .finite negative significand exponent =>
    if significand = 0 then ['0']
    else
      let size := (Decimal.shortest significand exponent).text
      if negative then '-' :: size else size

/-- The text of the number that a pattern stands for. -/
def textOfBits (bits : UInt64) : Text := textOfMeaning (Binary.meaning bits)

/-- The text of a number. -/
def text (x : Float) : Text := textOfBits x.toBits

/-! ## Conditions -/

/-- The number is above zero. -/
def isPositive (x : Float) : Bool := (Binary.meaning x.toBits).isPositive

/-- The number is zero, of either sign. -/
def isZero (x : Float) : Bool := (Binary.meaning x.toBits).isZero

/-- The whole part of a finite number that is not below zero. -/
def wholePart? (x : Float) : Option Nat :=
  match Binary.meaning x.toBits with
  | .finite false significand exponent =>
    match exponent with
    | .ofNat e => some (significand * Nat.pow 2 e)
    | .negSucc e => some (significand / Nat.pow 2 (e + 1))
  | _ => none

/-- The text counts as true: the word for it, or a number above zero. -/
def isTruthy (t : Text) : Bool :=
  t = "TRUE".toList || (readBits? t).any fun bits => (Binary.meaning bits).isPositive

/-! ## Indices -/

/-- A word of 64 bits that names a line of a program or a place on the screen. -/
abbrev Index := UInt64

/-- Why a text is not an index. -/
inductive NotIndex
  /-- It is a whole number below zero. -/
  | negative
  /-- It is not a whole number, or one past the last index. -/
  | other
  deriving DecidableEq, Repr

/-- The whole number that a significand and an exponent make up, if they do. -/
def whole? (significand : Nat) : Int → Option Nat
  | .ofNat e => some (significand * Nat.pow 2 e)
  | .negSucc e =>
    let unit := Nat.pow 2 (e + 1)
    if significand % unit = 0 then some (significand / unit) else none

/-- The index that a pattern stands for. -/
def indexOfMeaning : Binary.Meaning → Except NotIndex Index
  | .finite negative significand exponent =>
    match whole? significand exponent with
    | none => .error .other
    | some n =>
      if negative ∧ n ≠ 0 then .error .negative
      else if n < UInt64.size then .ok (UInt64.ofNat n)
      else .error .other
  | _ => .error .other

/-- Read an index.  The text goes through the nearest floating-point number, so an index
past two to the power of 53 is rounded to one that has such a number. -/
def readIndex (t : Text) : Except NotIndex Index :=
  match readBits? t with
  | some bits => indexOfMeaning (Binary.meaning bits)
  | none => .error .other

end Number

end Teletype
