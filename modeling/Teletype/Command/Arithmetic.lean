/-
# Commands for numbers

Arithmetic, roots and logarithms, random numbers, and comparisons.  Each command prints
its result and gives it back as a text.
-/
import Teletype.Command
import Teletype.Number

namespace Teletype

namespace Command

/-- Print a number and give it back. -/
def sayNumber (x : Float) : Act Output := say (Number.text x)

/-! ## Two operands -/

/-- An operation on two numbers. -/
inductive Operation
  | add | subtract | multiply | divide | power
  deriving DecidableEq, Repr

namespace Operation

/-- The word for the operation. -/
def name : Operation → Text
  | add => "ADD".toList
  | subtract => "SUBTRACT".toList
  | multiply => "MULTIPLY".toList
  | divide => "DIVIDE".toList
  | power => "EXP".toList

/-- What the manual says of the operation. -/
def help : Operation → Text
  | add => "Adds two numbers.".toList
  | subtract => "Subtracts the second number from the first.".toList
  | multiply => "Multiplies two numbers.".toList
  | divide => "Divides the first number by the second.".toList
  | power => "Raises the first number to the power of the second.".toList

/-- The result of the operation; only a division by zero has none. -/
def apply : Operation → Float → Float → Except Fault Float
  | add, a, b => .ok (a + b)
  | subtract, a, b => .ok (a - b)
  | multiply, a, b => .ok (a * b)
  | divide, a, b =>
    if Number.isZero b then .error (.malformed "cannot divide by zero.".toList) else .ok (a / b)
  | power, a, b => .ok (a.pow b)

end Operation

/-- Carry out an operation on two numbers. -/
def arithmetic (op : Operation) : Command where
  page := { name := op.name, hints := ["value1".toList, "value2".toList], help := op.help }
  perform host words := do
    let words ← host.expand words
    let (a, b) ← Act.ofExcept (Number.operands op.name words)
    let result ← Act.ofExcept (op.apply a b)
    sayNumber result

/-! ## Roots and logarithms -/

/-- The fault of a base or a root that is not above zero. -/
def badBase : Fault := .malformed "base cannot be less than zero.".toList

/-- A root of a number. -/
def sqrt : Command where
  page := { name := "SQRT".toList, hints := ["value".toList, "root".toList],
            help := ("Returns the root of a number; the square root unless another root is "
              ++ "given.").toList }
  perform host words := do
    let words ← host.expand words
    let words := if words.length = 2 then words ++ [['2']] else words
    let (value, root) ← Act.ofExcept (Number.operands "SQRT".toList words)
    if Number.isPositive root then sayNumber (value.pow (1 / root)) else throw badBase

/-- A logarithm of a number. -/
def logarithm : Command where
  page := { name := "LOGARITHM".toList, hints := ["value".toList, "base".toList],
            help := ("Returns the logarithm of a number; the natural logarithm unless a base "
              ++ "is given.").toList }
  perform host words := do
    let words ← host.expand words
    match words with
    | [_, value] =>
      let value ← Act.ofExcept (Number.operand "LOGARITHM".toList value)
      sayNumber value.log
    | _ =>
      let (value, base) ← Act.ofExcept (Number.operands "LOGARITHM".toList words)
      if Number.isPositive base then sayNumber (value.log / base.log) else throw badBase

/-! ## Random numbers -/

/-- The largest number that is drawn, if a text says so: the whole part of a number that
is one or more. -/
def drawBound? (word : Text) : Option Nat :=
  ((Number.read? word).bind Number.wholePart?).filter (1 ≤ ·)

/-- Draw a number. -/
def random : Command where
  page := { name := "RND".toList, hints := ["max".toList],
            help := ("Returns a random whole number from 0 up to and including max (default "
              ++ "10).").toList }
  perform host words := do
    let words ← host.expand words
    let bound? := match words[1]? with
      | none => some 10
      | some word => drawBound? word
    match bound? with
    | none =>
      throw (.refused "Invalid maximum; must be integer value greater than 1.".toList)
    | some bound =>
      let n ← Run.draw (min bound (UInt64.size - 1))
      say (Decimal.ofNat n)

/-! ## Comparisons -/

/-- Compare two texts: as numbers if both are numbers, and as texts otherwise. -/
def order (a b : Text) : Ordering :=
  match Number.read? a, Number.read? b with
  | some x, some y => if x < y then .lt else if y < x then .gt else .eq
  | _, _ => compare a b

/-- A question about two texts. -/
inductive Comparison
  | equal | greater | less
  deriving DecidableEq, Repr

namespace Comparison

/-- The word for the question. -/
def name : Comparison → Text
  | equal => "EQUALS".toList
  | greater => "GT".toList
  | less => "LT".toList

/-- What the manual says of the question. -/
def help : Comparison → Text
  | equal => "Returns TRUE when both values are identical, FALSE otherwise.".toList
  | greater => "Returns TRUE when the first value is greater than the second.".toList
  | less => "Returns TRUE when the first value is less than the second.".toList

/-- The answer to the question. -/
def holds : Comparison → Text → Text → Bool
  | equal, a, b => a = b
  | greater, a, b => order a b = .gt
  | less, a, b => order a b = .lt

end Comparison

/-- Answer a question about two texts. -/
def compareBy (c : Comparison) : Command where
  page := { name := c.name, hints := ["value1".toList, "value2".toList], help := c.help }
  perform host words := do
    match ← host.expand words with
    | [_, a, b] => say (if c.holds a b then "TRUE".toList else "FALSE".toList)
    | _ => throw (.malformed (c.name ++ " requires two arguments.".toList))

end Command

end Teletype
