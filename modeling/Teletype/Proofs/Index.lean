/-
# Indices

An index is read through the nearest floating-point number.  Of the binary digits of a whole
number 53 fit into a significand; those in excess are rounded off.  The main statements are
that **a word of 64 bits in decimal is read as the whole number to which it is rounded, or
refused if this is too large** (`Number.readIndex_word`), and that **a number is rounded to
itself exactly if its digits in excess are zeros** (`Binary.rounded_eq_iff`).
-/
import Mathlib.Algebra.Group.Nat.Defs
import Teletype.Number

namespace Teletype

namespace Binary

/-! ## Rounding whole numbers -/

/-- How many binary digits a whole number has besides those that fit into a significand. -/
def excess (n : Nat) : Nat := n.log2 - 52

/-- The whole number to which a whole number is rounded. -/
def rounded (n : Nat) : Nat := roundDiv n (2 ^ excess n) * 2 ^ excess n

/-- A number is rounded to itself exactly if its digits in excess are zeros. -/
theorem rounded_eq_iff (n : Nat) : rounded n = n ↔ 2 ^ excess n ∣ n := by
  constructor
  · intro h
    exact ⟨_, (Nat.mul_comm _ _).trans h |>.symm⟩
  · intro h
    have exactly : roundDiv n (2 ^ excess n) = n / 2 ^ excess n := by
      have divided := roundDiv_mul (n / 2 ^ excess n) (2 ^ excess n) (Nat.two_pow_pos _)
      rwa [Nat.div_mul_cancel h] at divided
    rw [rounded, exactly, Nat.div_mul_cancel h]

/-- A number without digits in excess is rounded to itself. -/
theorem rounded_of_log2 {n : Nat} (h : n.log2 ≤ 52) : rounded n = n := by
  rw [rounded_eq_iff, excess, Nat.sub_eq_zero_of_le h]
  exact Nat.one_dvd n

/-! ## Patterns of whole numbers -/

/-- The power of two that is not above a whole number is that of its first binary digit. -/
theorem floorLog2_one {n : Nat} (h : n ≠ 0) : floorLog2 n 1 = n.log2 := by
  have estimate : ((n.log2 : Int) - (Nat.log2 1 : Nat)) = n.log2 := by
    have : Nat.log2 1 = 0 := by decide
    rw [this]
    exact Int.sub_zero _
  rw [floorLog2]
  simp only [estimate]
  rcases hl : n.log2 with _ | l
  · exact if_pos (Nat.one_le_iff_ne_zero.mpr (by simpa [scale] using h))
  · have below : 1 * 2 ^ (l + 1) ≤ n := by
      rw [Nat.one_mul, ← hl]
      exact Nat.log2_self_le h
    exact if_pos below

/-- A whole number as a fraction that lies between two neighbouring powers of two. -/
theorem scale_two (l n : Nat) :
    scale 2 (-((l : Int) - 52)) n 1 = (n * 2 ^ (52 - l), 2 ^ (l - 52)) := by
  rcases Nat.lt_or_ge 52 l with h | h
  · obtain ⟨k, rfl⟩ := Nat.exists_eq_add_of_lt h
    have power : (-(((52 + k + 1 : Nat) : Int) - 52)) = .negSucc k := by
      rw [Int.negSucc_eq]
      omega
    have less : 52 - (52 + k + 1) = 0 := by omega
    have more : 52 + k + 1 - 52 = k + 1 := by omega
    rw [power, less, more, scale, Nat.one_mul, Nat.pow_zero, Nat.mul_one]
    rfl
  · obtain ⟨k, hk⟩ := Nat.exists_eq_add_of_le h
    have power : (-((l : Int) - 52)) = .ofNat k := by
      rw [Int.ofNat_eq_natCast]
      omega
    have more : 52 - l = k := by omega
    rw [power, more, Nat.sub_eq_zero_of_le h]
    rfl

/-- The significand of a whole number: 53 binary digits, unless they are ones and rounded
up. -/
def significand (n : Nat) : Nat := roundDiv (n * 2 ^ (52 - n.log2)) (2 ^ excess n)

/-- The significand has 53 binary digits, or was rounded up to the next power of two. -/
theorem significand_bounds {n : Nat} (h : n ≠ 0) :
    fractions ≤ significand n ∧ significand n ≤ 2 * fractions := by
  have aligned : 2 ^ n.log2 * 2 ^ (52 - n.log2) = fractions * 2 ^ excess n := by
    show _ = 2 ^ 52 * _
    rw [← Nat.pow_add, ← Nat.pow_add, excess]
    congr 1
    omega
  have low : fractions * 2 ^ excess n ≤ n * 2 ^ (52 - n.log2) := by
    rw [← aligned]
    exact Nat.mul_le_mul_right _ (Nat.log2_self_le h)
  have high : n * 2 ^ (52 - n.log2) < 2 * fractions * 2 ^ excess n := by
    have next : n < 2 * 2 ^ n.log2 := by
      rw [Nat.mul_comm, ← Nat.pow_succ]
      exact Nat.lt_log2_self
    rw [Nat.mul_assoc, ← aligned, ← Nat.mul_assoc]
    exact Nat.mul_lt_mul_of_pos_right next (Nat.two_pow_pos _)
  obtain ⟨below, above⟩ := roundDiv_bounds (n * 2 ^ (52 - n.log2)) (2 ^ excess n)
  constructor
  · exact Nat.le_trans ((Nat.le_div_iff_mul_le (Nat.two_pow_pos _)).mpr low) below
  · exact Nat.le_trans above ((Nat.div_lt_iff_lt_mul (Nat.two_pow_pos _)).mpr high)

/-- The significand counts units of the whole number to which the number is rounded. -/
theorem significand_mul (n : Nat) :
    significand n * 2 ^ excess n = rounded n * 2 ^ (52 - n.log2) := by
  rcases Nat.lt_or_ge 52 n.log2 with h | h
  · rw [significand, rounded, Nat.sub_eq_zero_of_le (Nat.le_of_lt h), Nat.pow_zero, Nat.mul_one,
      Nat.mul_one]
  · have none : excess n = 0 := Nat.sub_eq_zero_of_le h
    have whole := roundDiv_mul (n * 2 ^ (52 - n.log2)) 1 Nat.one_pos
    rw [Nat.mul_one] at whole
    rw [significand, rounded_of_log2 h, none, Nat.pow_zero, Nat.mul_one, whole]

/-- The pattern of a whole number that is not too large lies below that of infinity. -/
theorem pattern_lt {n : Nat} (h : n ≠ 0) (small : n.log2 ≤ 1000) :
    (n.log2 + 1022) * fractions + significand n < infinityBits := by
  have room := (significand_bounds h).2
  calc (n.log2 + 1022) * fractions + significand n
      ≤ (n.log2 + 1022) * fractions + 2 * fractions := Nat.add_le_add_left room _
    _ = (n.log2 + 1024) * fractions := by rw [← Nat.add_mul]
    _ < 2047 * fractions := Nat.mul_lt_mul_of_pos_right (by omega) (by decide)

/-- The pattern nearest to a whole number holds its first binary digit and its significand. -/
theorem nearest_one {n : Nat} (h : n ≠ 0) (small : n.log2 ≤ 1000) :
    nearest n 1 = (n.log2 + 1022) * fractions + significand n := by
  have exponent : max ((n.log2 : Int) - 52) leastExponent = n.log2 - 52 := by
    rw [leastExponent]
    omega
  have raised : ((n.log2 : Int) - 52 - leastExponent).toNat = n.log2 + 1022 := by
    rw [leastExponent]
    omega
  rw [nearest, floorLog2_one h]
  simp only [exponent, raised, scale_two]
  exact Nat.min_eq_right (Nat.le_of_lt (pattern_lt h small))

/-- The magnitude of a pattern with a significand of 53 binary digits. -/
theorem magnitude_normal {e q : Nat} (low : fractions ≤ q) (high : q < 2 * fractions) :
    magnitude (e * fractions + q) = (q, (e : Int) + leastExponent) := by
  have positive : 0 < fractions := by decide
  obtain ⟨f, rfl⟩ := Nat.exists_eq_add_of_le low
  have fraction : f < fractions := by omega
  have parts : e * fractions + (fractions + f) = f + (e + 1) * fractions := by
    rw [Nat.succ_mul]
    omega
  have raised : (f + (e + 1) * fractions) / fractions = e + 1 := by
    rw [Nat.add_mul_div_right _ _ positive, Nat.div_eq_of_lt fraction, Nat.zero_add]
  have rest : (f + (e + 1) * fractions) % fractions = f := by
    rw [Nat.add_mul_mod_self_right, Nat.mod_eq_of_lt fraction]
  have exponent : ((e + 1 : Nat) : Int) - 1 = e := by omega
  rw [magnitude, parts]
  simp only [raised, rest, exponent]
  exact if_neg (Nat.succ_ne_zero e)

/-- A pattern below that of infinity stands for its magnitude with the sign that it is given. -/
theorem meaning_withSign {bits : Nat} (h : bits < infinityBits) (negative : Bool) :
    meaning (withSign negative bits) = .finite negative (magnitude bits).1 (magnitude bits).2 := by
  have low : bits < signBit := Nat.lt_of_lt_of_le h (by decide)
  have word : 2 * signBit ≤ UInt64.size := by decide
  have same : (withSign negative bits).toNat = if negative then signBit + bits else bits :=
    UInt64.toNat_ofNat_of_lt (by split <;> omega)
  have sign : decide (signBit ≤ (withSign negative bits).toNat) = negative := by
    rw [same]
    cases negative with
    | false => exact decide_eq_false (Nat.not_le.mpr low)
    | true => exact decide_eq_true (Nat.le_add_right _ _)
  have rest : (withSign negative bits).toNat % signBit = bits := by
    rw [same]
    cases negative with
    | false => exact Nat.mod_eq_of_lt low
    | true => exact (Nat.add_mod_left _ _).trans (Nat.mod_eq_of_lt low)
  rw [meaning]
  simp only [sign, rest, if_pos h]

/-- A pattern without a sign below that of infinity stands for its magnitude. -/
theorem meaning_of_lt {bits : Nat} (h : bits < infinityBits) :
    meaning (UInt64.ofNat bits) = .finite false (magnitude bits).1 (magnitude bits).2 :=
  meaning_withSign h false

end Binary

namespace Number

open Binary

/-! ## Whole magnitudes -/

/-- A significand makes up a whole number of which it counts units. -/
theorem whole?_of_mul {q m l : Nat} (h : q * 2 ^ (l - 52) = m * 2 ^ (52 - l)) :
    whole? q ((l : Int) - 52) = some m := by
  rcases Nat.lt_or_ge l 52 with hl | hl
  · obtain ⟨k, hk⟩ := Nat.exists_eq_add_of_lt hl
    have power : ((l : Int) - 52) = .negSucc k := by
      rw [Int.negSucc_eq]
      omega
    have more : 52 - l = k + 1 := by omega
    rw [Nat.sub_eq_zero_of_le (Nat.le_of_lt hl), Nat.pow_zero, Nat.mul_one, more] at h
    subst h
    rw [power, whole?]
    have whole : m * 2 ^ (k + 1) % 2 ^ (k + 1) = 0 := Nat.mul_mod_left _ _
    have count : m * 2 ^ (k + 1) / 2 ^ (k + 1) = m := Nat.mul_div_cancel _ (Nat.two_pow_pos _)
    simp only [Nat.pow_eq, whole, count]
    rfl
  · obtain ⟨k, rfl⟩ := Nat.exists_eq_add_of_le hl
    have power : (((52 + k : Nat) : Int) - 52) = .ofNat k := by
      rw [Int.ofNat_eq_natCast]
      omega
    rw [Nat.sub_eq_zero_of_le hl, Nat.pow_zero, Nat.mul_one, Nat.add_sub_cancel_left] at h
    rw [power, whole?, ← h]
    rfl

/-- The magnitude nearest to a whole number is the whole number to which it is rounded. -/
theorem whole?_nearest {n : Nat} (h : n ≠ 0) (small : n.log2 ≤ 1000) :
    whole? (magnitude (nearest n 1)).1 (magnitude (nearest n 1)).2 = some (rounded n) := by
  obtain ⟨low, high⟩ := significand_bounds h
  have units := significand_mul n
  rw [nearest_one h small]
  rcases Nat.lt_or_eq_of_le high with high | carried
  · have exponent : ((n.log2 + 1022 : Nat) : Int) + leastExponent = n.log2 - 52 := by
      rw [leastExponent]
      omega
    rw [magnitude_normal low high, exponent]
    exact whole?_of_mul units
  · -- all digits were ones and rounded up: the exponent is one larger
    have pattern : (n.log2 + 1022) * fractions + significand n
        = (n.log2 + 1023) * fractions + fractions := by
      rw [carried, Nat.two_mul, ← Nat.add_assoc, ← Nat.succ_mul]
    have exponent : ((n.log2 + 1023 : Nat) : Int) + leastExponent = (n.log2 + 1 : Nat) - 52 := by
      rw [leastExponent]
      omega
    have positive : 0 < fractions := by decide
    rw [pattern, magnitude_normal (Nat.le_refl _) (by omega), exponent]
    show whole? fractions _ = _
    apply whole?_of_mul
    rw [carried, excess] at units
    rcases Nat.lt_or_ge n.log2 52 with hl | hl
    · have less : 52 - n.log2 = 52 - (n.log2 + 1) + 1 := by omega
      rw [Nat.sub_eq_zero_of_le (Nat.le_of_lt hl), less, Nat.pow_succ, ← Nat.mul_assoc] at units
      rw [Nat.sub_eq_zero_of_le hl]
      omega
    · have more : n.log2 + 1 - 52 = n.log2 - 52 + 1 := by omega
      rw [Nat.sub_eq_zero_of_le hl, Nat.pow_zero, Nat.mul_one] at units
      rw [Nat.sub_eq_zero_of_le (Nat.le_succ_of_le hl), more, Nat.pow_succ, ← units, Nat.pow_zero,
        Nat.mul_one, Nat.mul_comm 2 fractions, Nat.mul_assoc, Nat.mul_comm 2]

/-! ## Reading whole numbers -/

/-- A whole number of 64 bits has its nearest pattern. -/
theorem nearestBits_whole {n : Nat} (h : n ≠ 0) (small : n < UInt64.size) :
    Decimal.Scaled.nearestBits ⟨n, 0⟩ = nearest n 1 := by
  have digits : (Decimal.ofNat n).length ≤ 20 :=
    (Nat.length_toDigits_le_iff (by decide) (by decide)).mpr (Nat.lt_of_lt_of_le small (by decide))
  have first : ¬ 310 < ((Decimal.ofNat n).length : Int) + 0 := by omega
  have last : ¬ ((Decimal.ofNat n).length : Int) + 0 < -330 := by omega
  have unscaled : scale 10 0 n 1 = (n, 1) := congrArg (·, 1) (Nat.mul_one n)
  rw [Decimal.Scaled.nearestBits]
  simp only [if_neg h, if_neg first, if_neg last, unscaled]

/-- A pattern that stands for a whole number stands for its index. -/
theorem indexOfMeaning_finite {m n : Nat} {e : Int} (h : whole? m e = some n) :
    indexOfMeaning (.finite false m e)
      = if n < UInt64.size then .ok (UInt64.ofNat n) else .error .other := by
  have sign : ¬ (false = true ∧ n ≠ 0) := fun both => Bool.false_ne_true both.1
  rw [indexOfMeaning]
  simp only [h, if_neg sign]

/-- The pattern of a whole number of 64 bits stands for the number to which it is rounded. -/
theorem indexOfMeaning_whole {n : Nat} (small : n < UInt64.size) :
    indexOfMeaning (meaning (Decimal.Numeral.nearestBits (.finite false ⟨n, 0⟩)))
      = if rounded n < UInt64.size then .ok (UInt64.ofNat (rounded n)) else .error .other := by
  by_cases h : n = 0
  · subst h
    have zero : meaning (Decimal.Numeral.nearestBits (.finite false ⟨0, 0⟩))
        = .finite false 0 leastExponent := by
      decide +kernel
    have whole : whole? 0 leastExponent = some (rounded 0) := by decide +kernel
    rw [zero, indexOfMeaning_finite whole]
  · have log : n.log2 < 64 := (Nat.log2_lt h).mpr small
    have finite : nearest n 1 < infinityBits := by
      rw [nearest_one h (by omega)]
      exact pattern_lt h (by omega)
    have pattern : Decimal.Numeral.nearestBits (.finite false ⟨n, 0⟩)
        = UInt64.ofNat (nearest n 1) := by
      rw [Decimal.Numeral.nearestBits, nearestBits_whole h small, withSign,
        if_neg Bool.false_ne_true]
    rw [pattern, meaning_of_lt finite, indexOfMeaning_finite (whole?_nearest h (by omega))]

end Number

/-! ## Words of 64 bits -/

namespace Decimal

/-- The codes of the digits. -/
theorem isDigit_iff (c : Char) : isDigit c = true ↔ 48 ≤ c.toNat ∧ c.toNat ≤ 57 := by
  rw [isDigit, Bool.and_eq_true, decide_eq_true_eq, decide_eq_true_eq]
  exact Iff.rfl

/-- A digit has no case. -/
theorem toLower_digit {c : Char} (h : isDigit c = true) : c.toLower = c := by
  have code := (isDigit_iff c).mp h
  have capital : ¬ (65 ≤ c.toNat ∧ c.toNat ≤ 90) := by omega
  exact dif_neg capital

/-- A text that begins with a digit has no sign. -/
theorem splitSign_digit {c : Char} (digit : isDigit c = true) (rest : Text) :
    splitSign (c :: rest) = (false, c :: rest) := by
  unfold splitSign
  split
  · next heq =>
    cases heq
    cases digit
  · next heq =>
    cases heq
    cases digit
  · rfl

/-- A text that goes on with a digit behind its sign is no word for infinity. -/
theorem Numeral.read?_of_splitSign {t rest : Text} {c : Char} {negative : Bool}
    (digit : isDigit c = true) (sign : splitSign t = (negative, c :: rest)) :
    Numeral.read? t = (readScaled? (c :: rest)).map (.finite negative) := by
  have word : Text.lowerAscii (c :: rest) ∉ infinityWords := by
    have first : Text.lowerAscii (c :: rest) = c :: Text.lowerAscii rest :=
      congrArg (· :: _) (toLower_digit digit)
    rw [first]
    intro mem
    have : c = 'i' := by
      simp only [infinityWords, List.mem_cons, List.not_mem_nil, or_false] at mem
      rcases mem with mem | mem <;> exact (List.cons.inj mem).1
    subst this
    cases digit
  rw [Numeral.read?]
  simp only [sign, if_neg word]

/-- A text writes a word of 64 bits: digits, perhaps behind a plus sign. -/
structure IsWord (w : Text) (n : UInt64) (digits : Text) : Prop where
  /-- There are digits only. -/
  row : digits.all isDigit = true
  /-- There is a digit. -/
  nonempty : digits ≠ []
  /-- They stand for the word. -/
  value : value digits = n.toNat
  /-- A plus sign may stand in front of them. -/
  sign : w = digits ∨ w = '+' :: digits

/-- What is read as a word of 64 bits writes it. -/
theorem exists_isWord {w : Text} {n : UInt64} (h : toWord? w = some n) : ∃ d, IsWord w n d := by
  have written : ∀ {d : Text} {m : Nat}, toNat? d = some m → m < UInt64.size →
      (w = d ∨ w = '+' :: d) → IsWord w (UInt64.ofNat m) d := by
    intro d m hm small sign
    unfold toNat? at hm
    split at hm
    · next both =>
      cases hm
      exact ⟨both.2, both.1, (UInt64.toNat_ofNat_of_lt small).symm, sign⟩
    · cases hm
  dsimp only [toWord?] at h
  split at h
  · next m hm =>
    split at h
    · next small =>
      cases h
      split at hm
      · next rest => exact ⟨rest, written hm small (.inr rfl)⟩
      · exact ⟨w, written hm small (.inl rfl)⟩
    · cases h
  · cases h

namespace IsWord

variable {w digits : Text} {n : UInt64}

/-- Every character of a word is a digit or a plus sign. -/
theorem mem (h : IsWord w n digits) {c : Char} (hc : c ∈ w) : isDigit c = true ∨ c = '+' := by
  have row := List.all_eq_true.mp h.row
  rcases h.sign with rfl | rfl
  · exact .inl (row c hc)
  · rcases List.mem_cons.mp hc with rfl | hc
    · exact .inr rfl
    · exact .inl (row c hc)

/-- No character of a word is blank. -/
theorem isBlank (h : IsWord w n digits) {c : Char} (hc : c ∈ w) : Text.isBlank c = false := by
  rcases h.mem hc with digit | rfl
  · have code := (isDigit_iff c).mp digit
    exact Text.isBlank_of_printable (by omega) (by omega)
  · rfl

/-- A word is a numeral. -/
theorem read? (h : IsWord w n digits) : Numeral.read? w = some (.finite false ⟨n.toNat, 0⟩) := by
  obtain ⟨d, rest, rfl⟩ := List.exists_cons_of_ne_nil h.nonempty
  have digit : isDigit d = true := List.all_eq_true.mp h.row d List.mem_cons_self
  have unsigned : splitSign w = (false, d :: rest) := by
    rcases h.sign with rfl | rfl
    · exact splitSign_digit digit rest
    · rfl
  have scaled := readScaled?_digits h.row h.nonempty
  rw [h.value] at scaled
  rw [Numeral.read?_of_splitSign digit unsigned, scaled]
  rfl

end IsWord

end Decimal

namespace Number

open Binary

/-- **A word of 64 bits is read as the index to which it is rounded, or refused if this is
too large.** -/
theorem readIndex_word {w : Text} {n : UInt64} (h : Decimal.toWord? w = some n) :
    readIndex w = if rounded n.toNat < UInt64.size then .ok (UInt64.ofNat (rounded n.toNat))
      else .error .other := by
  obtain ⟨d, word⟩ := Decimal.exists_isWord h
  have bits : readBits? w = some (Decimal.Numeral.nearestBits (.finite false ⟨n.toNat, 0⟩)) := by
    have stripped : Text.strip w = w :=
      Text.strip_eq_self (fun c hc => word.isBlank (List.mem_of_mem_head? hc))
        fun c hc => word.isBlank (List.mem_of_mem_getLast? hc)
    rw [readBits?, stripped, word.read?]
    rfl
  rw [readIndex, bits]
  exact indexOfMeaning_whole n.toNat_lt_size

-- The last word of 64 bits is rounded past the last index.
example : (readIndex "18446744073709551615".toList).toOption = none := by decide +kernel

/-- **A word of 64 bits is read as the index that it is exactly if its digits in excess are
zeros.** -/
theorem readIndex_eq_iff {w : Text} {n : UInt64} (h : Decimal.toWord? w = some n) :
    readIndex w = .ok n ↔ 2 ^ excess n.toNat ∣ n.toNat := by
  rw [readIndex_word h, ← rounded_eq_iff]
  constructor
  · intro read
    split at read
    · next small =>
      injection read with same
      exact (UInt64.toNat_ofNat_of_lt small).symm.trans (congrArg UInt64.toNat same)
    · cases read
  · intro same
    rw [same, if_pos n.toNat_lt_size, UInt64.ofNat_toNat]

-- The first word that is read as another index.
example : (readIndex "9007199254740993".toList).toOption = some 9007199254740992 := by
  decide +kernel

end Number

end Teletype
