/-
# Natural numbers in decimal

Decimal digits and the natural numbers that they denote.  A reader takes digits only and
at least one of them; the texts written here are read back as the numbers they came from.
-/
import Teletype.Text

namespace Teletype

namespace Decimal

/-- The character is one of the ten digits. -/
def isDigit (c : Char) : Bool := '0' ≤ c && c ≤ '9'

/-- The number that a digit stands for. -/
def digitValue (c : Char) : Nat := c.toNat - '0'.toNat

/-- The number that a row of digits stands for when it follows a number already read. -/
def valueFrom (n : Nat) (digits : Text) : Nat :=
  digits.foldl (fun acc c => acc * 10 + digitValue c) n

/-- The number that a row of digits stands for. -/
def value (digits : Text) : Nat := valueFrom 0 digits

/-- The decimal digits of a number, without leading zeros. -/
def ofNat (n : Nat) : Text := Nat.toDigits 10 n

/-- The decimal text of an integer: a minus sign in front of a negative one. -/
def ofInt : Int → Text
  | .ofNat n => ofNat n
  | .negSucc n => '-' :: ofNat (n + 1)

/-- The number written by a text that is all digits. -/
def toNat? (t : Text) : Option Nat :=
  if t ≠ [] ∧ t.all isDigit then some (value t) else none

/-- A word of 64 bits read from digits, with or without a plus sign in front. -/
def toWord? (t : Text) : Option UInt64 :=
  let digits := match t with
    | '+' :: rest => rest
    | _ => t
  match toNat? digits with
  | some n => if n < UInt64.size then some (UInt64.ofNat n) else none
  | none => none

/-- Nothing is read from the empty text. -/
@[simp] theorem toNat?_nil : toNat? [] = none := rfl

/-- A row of digits is read as one number after another. -/
theorem valueFrom_append (n : Nat) (a b : Text) :
    valueFrom n (a ++ b) = valueFrom (valueFrom n a) b :=
  List.foldl_append

/-- The digit of a number below ten stands for that number. -/
theorem digitValue_digitChar {n : Nat} (h : n < 10) : digitValue n.digitChar = n := by
  simp [digitValue, Nat.toNat_digitChar_of_lt_ten h]

/-- The digit of a number below ten is a digit. -/
theorem isDigit_digitChar {n : Nat} (h : n < 10) : isDigit n.digitChar = true := by
  have : ∀ m : Fin 10, isDigit m.val.digitChar = true := by decide
  exact this ⟨n, h⟩

/-- **The digits of a number stand for the number and are all digits.** -/
theorem value_ofNat (n : Nat) :
    value (ofNat n) = n ∧ (ofNat n).all isDigit = true ∧ ofNat n ≠ [] := by
  induction n using Nat.strongRecOn with
  | ind n ih =>
    by_cases h : n < 10
    · have : ofNat n = [n.digitChar] := Nat.toDigits_of_lt_base h
      simp [this, value, valueFrom, digitValue_digitChar h, isDigit_digitChar h]
    · obtain ⟨hv, hd, -⟩ := ih (n / 10) (by omega)
      have hmod : n % 10 < 10 := Nat.mod_lt _ (by omega)
      have : ofNat n = ofNat (n / 10) ++ [(n % 10).digitChar] := by
        have h := Nat.toDigits_append_toDigits (b := 10) (n := n / 10) (d := n % 10)
          (by omega) (by omega) hmod
        rw [Nat.toDigits_of_lt_base hmod] at h
        unfold ofNat
        rw [h, Nat.div_add_mod]
      rw [this]
      refine ⟨?_, ?_, by simp⟩
      · unfold value at hv ⊢
        rw [valueFrom_append, hv]
        simp only [valueFrom, List.foldl_cons, List.foldl_nil, digitValue_digitChar hmod]
        omega
      · simp [hd, isDigit_digitChar hmod]

/-- A number's text is read back as the number. -/
theorem toNat?_ofNat (n : Nat) : toNat? (ofNat n) = some n := by
  obtain ⟨hv, hd, hn⟩ := value_ofNat n
  simp [toNat?, hv, hd, hn]

end Decimal

end Teletype
