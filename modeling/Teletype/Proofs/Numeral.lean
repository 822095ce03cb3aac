/-
# Numbers are read back

The text of a finite number is its shortest decimal, written out with digits and at most one
point.  It is read as the decimal that was written, which is near the magnitude, so that the
nearest pattern is the one that the text came from: **a pattern that is not that of NaN is read
back from its text, negative zero as zero** (`Number.readBits?_textOfBits`).  A whole number of
at most 53 binary digits has its digits for a text (`Number.textOfBits_whole`).
-/
import Mathlib.Data.Nat.Cast.Field
import Teletype.Proofs.Shortest

namespace Teletype

namespace Decimal

open Binary

variable {d n m : Nat} {e : Int} {s : Scaled} {t whole fraction : Text}

/-! ## Zeros -/

/-- A number times a power of ten has so many zeros behind its digits. -/
theorem ofNat_mul_pow (hd : 0 < d) (k : Nat) :
    ofNat (d * 10 ^ k) = ofNat d ++ List.replicate k '0' := by
  induction k with
  | zero => rw [Nat.pow_zero, Nat.mul_one, List.replicate_zero, List.append_nil]
  | succ k ih =>
    have positive : 0 < d * 10 ^ k := Nat.mul_pos hd (Nat.pow_pos (by decide))
    have digits : ofNat (d * 10 ^ k) ++ ['0'] = ofNat (10 * (d * 10 ^ k)) :=
      Nat.toDigits_append_toDigits (b := 10) (d := 0) (by decide) positive (by decide)
    rw [Nat.pow_succ, ← Nat.mul_assoc, Nat.mul_comm _ 10, ← digits, ih, List.replicate_succ',
      List.append_assoc]

/-- The text of an integer is that of its size behind its sign. -/
theorem ofInt_eq (z : Int) :
    ofInt z = if z < 0 then '-' :: ofNat z.natAbs else ofNat z.natAbs := by
  cases z with
  | ofNat n => exact (if_neg (Int.not_lt.mpr (Int.natCast_nonneg n))).symm
  | negSucc n => exact (if_pos (Int.negSucc_lt_zero n)).symm

/-- Zeros in front of a row of digits do not change its value. -/
theorem value_zeros (n : Nat) (t : Text) : value (List.replicate n '0' ++ t) = value t := by
  induction n with
  | zero => rfl
  | succ n ih => exact ih

/-! ## Plain texts -/

/-- A text is digits, or digits with a point between them. -/
structure IsPlain (t whole fraction : Text) : Prop where
  /-- There are digits only in front. -/
  row : whole.all isDigit = true
  /-- There is one. -/
  nonempty : whole ≠ []
  /-- There are digits only behind the point. -/
  places : fraction.all isDigit = true
  /-- The point stands between them; without places there may be none. -/
  text : t = whole ++ '.' :: fraction ∨ fraction = [] ∧ t = whole

namespace IsPlain

/-- A point may stand anywhere behind the first of some digits. -/
theorem point (digits : (whole ++ fraction).all isDigit = true) (nonempty : whole ≠ []) :
    IsPlain (whole ++ '.' :: fraction) whole fraction := by
  rw [List.all_append, Bool.and_eq_true] at digits
  exact ⟨digits.1, nonempty, digits.2, .inl rfl⟩

/-- Every character is a digit or the point. -/
theorem mem (h : IsPlain t whole fraction) {c : Char} (hc : c ∈ t) : isDigit c = true ∨ c = '.' := by
  have row := List.all_eq_true.mp h.row
  rcases h.text with rfl | ⟨-, rfl⟩
  · rcases List.mem_append.mp hc with hc | hc
    · exact .inl (row c hc)
    · rcases List.mem_cons.mp hc with rfl | hc
      · exact .inr rfl
      · exact .inl (List.all_eq_true.mp h.places c hc)
  · exact .inl (row c hc)

/-- The first character is a digit. -/
theorem exists_cons (h : IsPlain t whole fraction) : ∃ c rest, t = c :: rest ∧ isDigit c = true := by
  obtain ⟨c, rest, rfl⟩ := List.exists_cons_of_ne_nil h.nonempty
  have digit : isDigit c = true := List.all_eq_true.mp h.row c List.mem_cons_self
  rcases h.text with rfl | ⟨-, rfl⟩
  · exact ⟨c, rest ++ '.' :: fraction, rfl, digit⟩
  · exact ⟨c, rest, rfl, digit⟩

/-- The digits are read as one number, counted in units of the last place. -/
theorem readScaled? (h : IsPlain t whole fraction) :
    readScaled? t = some ⟨value (whole ++ fraction), -fraction.length⟩ := by
  rcases h.text with rfl | ⟨rfl, rfl⟩
  · have front : ∀ c ∈ whole, isDigit c = true := List.all_eq_true.mp h.row
    have behind : ∀ c ∈ fraction, isDigit c = true := List.all_eq_true.mp h.places
    have taken : (whole ++ '.' :: fraction).takeWhile isDigit = whole ++ [] :=
      List.takeWhile_append_of_pos front
    have dropped : (whole ++ '.' :: fraction).dropWhile isDigit = '.' :: fraction :=
      List.dropWhile_append_of_pos front
    have places : (fraction ++ []).takeWhile isDigit = fraction ++ [] :=
      List.takeWhile_append_of_pos behind
    have rest : (fraction ++ []).dropWhile isDigit = [] := List.dropWhile_append_of_pos behind
    rw [List.append_nil] at taken places rest
    simp [Decimal.readScaled?, taken, dropped, splitFraction, places, rest, h.nonempty, readPower?]
  · rw [List.append_nil, List.length_nil]
    exact readScaled?_digits h.row h.nonempty

end IsPlain

/-- **A scaled number is written as a plain text, which is read as a number of the same
value.** -/
theorem Scaled.isPlain_text (hd : 0 < s.digits) :
    ∃ whole fraction, IsPlain s.text whole fraction ∧
      (⟨Decimal.value (whole ++ fraction), -fraction.length⟩ : Scaled).value = s.value := by
  obtain ⟨d, exponent⟩ := s
  obtain ⟨value, digits, nonempty⟩ := value_ofNat d
  cases exponent with
  | ofNat k =>
    have text : Scaled.text ⟨d, .ofNat k⟩ = ofNat (d * 10 ^ k) := (ofNat_mul_pow hd k).symm
    obtain ⟨value, digits, nonempty⟩ := value_ofNat (d * 10 ^ k)
    refine ⟨_, [], ⟨digits, nonempty, rfl, .inr ⟨rfl, text⟩⟩, ?_⟩
    rw [List.append_nil, value]
    simp [Scaled.value]
  | negSucc k =>
    rw [Scaled.text]
    dsimp only
    split
    · next inside =>
      have parts := List.take_append_drop ((ofNat d).length - (k + 1)) (ofNat d)
      have places : ((ofNat d).drop ((ofNat d).length - (k + 1))).length = k + 1 := by
        rw [List.length_drop]
        omega
      refine ⟨_, _, .point (by rwa [parts]) ?_, ?_⟩
      · rw [← List.length_pos_iff, List.length_take]
        omega
      · rw [parts, places, value]
        rfl
    · next outside =>
      obtain ⟨zeros, hz⟩ := Nat.exists_eq_add_of_le (Nat.not_lt.mp outside)
      have places : (List.replicate zeros '0' ++ ofNat d).length = k + 1 := by
        rw [List.length_append, List.length_replicate]
        omega
      have filled : ['0'] ++ (List.replicate zeros '0' ++ ofNat d)
          = List.replicate (zeros + 1) '0' ++ ofNat d := rfl
      have row : (List.replicate (zeros + 1) '0' ++ ofNat d).all isDigit = true := by
        rw [List.all_append, List.all_replicate, digits]
        rfl
      have plain : IsPlain _ ['0'] (List.replicate zeros '0' ++ ofNat d) :=
        .point (by rwa [filled]) (List.cons_ne_nil _ _)
      rw [hz, Nat.add_sub_cancel_left]
      refine ⟨_, _, plain, ?_⟩
      rw [places, filled, value_zeros, value]
      rfl

/-! ## Nearest patterns of decimals -/

/-- The powers of ten around a scaled number, from the place of its first digit. -/
theorem Scaled.value_bounds (hd : 0 < s.digits) :
    (10 : ℚ) ^ (((ofNat s.digits).length : Int) + s.exponent - 1) ≤ s.value ∧
      s.value < (10 : ℚ) ^ (((ofNat s.digits).length : Int) + s.exponent) := by
  have scale : (0 : ℚ) < 10 ^ s.exponent := zpow_pos (by norm_num) _
  have power : ∀ i : Int, (10 : ℚ) ^ (i + s.exponent) = ((10 : Nat) : ℚ) ^ i * 10 ^ s.exponent := by
    intro i
    rw [Nat.cast_ofNat, zpow_add₀ (by norm_num)]
  obtain ⟨low, high⟩ := length_ofNat_bounds hd
  rw [Int.sub_add_cancel] at high
  rw [add_sub_right_comm, power, power, Scaled.value]
  exact ⟨mul_le_mul_of_nonneg_right low scale.le, mul_lt_mul_of_pos_right high scale⟩

/-- Powers that differ as whole numbers differ as rational ones, on either side of the point. -/
theorem power_lt {a b : Nat} (h : 2 ^ a < 10 ^ b) :
    (2 : ℚ) ^ (a : Int) < 10 ^ (b : Int) ∧ (10 : ℚ) ^ (-(b : Int)) < 2 ^ (-(a : Int)) := by
  have less : (2 : ℚ) ^ a < 10 ^ b := by exact_mod_cast h
  rw [zpow_neg, zpow_neg, zpow_natCast, zpow_natCast]
  exact ⟨less, (inv_lt_inv₀ (by positivity) (by positivity)).mpr less⟩

/-- What is near a magnitude lies within the bounds past which only infinity and zero are near. -/
theorem near_bounds {x : ℚ} (hm : 0 < m) (magnitude : IsMagnitude m e) (near : Near m e x) :
    (10 : ℚ) ^ (-(331 : Nat) : Int) < x ∧ x < (10 : ℚ) ^ ((310 : Nat) : Int) := by
  have unit : (0 : ℚ) < 2 ^ (e - 2) := zpow_pos two_pos _
  constructor
  · have least : (2 : ℚ) ^ (-(1076 : Nat) : Int) ≤ 2 ^ (e - 2) := by
      have := magnitude.least
      unfold leastExponent at this
      exact zpow_le_zpow_right₀ one_le_two (by omega)
    have one : (1 : ℚ) ≤ m := by exact_mod_cast hm
    have down := (reachDown_bounds m).2
    calc (10 : ℚ) ^ (-(331 : Nat) : Int) < 2 ^ (-(1076 : Nat) : Int) :=
          (power_lt (by decide +kernel)).2
      _ ≤ 2 ^ (e - 2) := least
      _ ≤ (4 * m - reachDown m) * 2 ^ (e - 2) := le_mul_of_one_le_left unit.le (by linarith)
      _ ≤ x := near.low
  · have most : e ≤ 971 := by
      rcases magnitude.full with rfl | full
      · decide
      · by_contra more
        have raised : 2046 * fractions ≤ (e - leastExponent).toNat * fractions :=
          Nat.mul_le_mul_right _ (by unfold leastExponent; omega)
        have finite := magnitude.finite
        rw [pattern, infinityBits] at finite
        omega
    have greatest : (2 : ℚ) ^ (e - 2) ≤ 2 ^ (969 : Int) :=
      zpow_le_zpow_right₀ one_le_two (by omega)
    have small : (m : ℚ) + 1 ≤ 2 ^ 53 := by exact_mod_cast magnitude.small
    calc x ≤ (4 * m + 2) * 2 ^ (e - 2) := near.high
      _ ≤ 2 ^ 55 * 2 ^ (969 : Int) := mul_le_mul (by linarith) greatest unit.le (by norm_num)
      _ = 2 ^ ((1024 : Nat) : Int) := by
        rw [← zpow_natCast, ← zpow_add₀ two_ne_zero]
        rfl
      _ < 10 ^ ((310 : Nat) : Int) := (power_lt (by decide +kernel)).1

/-- A scaled number near a magnitude has a digit other than zero. -/
theorem digits_pos (hm : 0 < m) (magnitude : IsMagnitude m e) (near : Near m e s.value) :
    0 < s.digits := by
  obtain ⟨above, -⟩ := near_bounds hm magnitude near
  rw [Nat.pos_iff_ne_zero]
  intro zero
  rw [Scaled.value, zero, Nat.cast_zero, zero_mul] at above
  exact absurd above (zpow_pos (by norm_num) _).le.not_gt

/-- **A scaled number near a magnitude has its pattern as the nearest one.** -/
theorem Scaled.nearestBits_eq (hm : 0 < m) (magnitude : IsMagnitude m e) (near : Near m e s.value) :
    s.nearestBits = pattern m e := by
  obtain ⟨above, below⟩ := near_bounds hm magnitude near
  have hd := digits_pos hm magnitude near
  obtain ⟨low, high⟩ := value_bounds hd
  have first : ¬ 310 < ((ofNat s.digits).length : Int) + s.exponent := by
    have := (zpow_lt_zpow_iff_right₀ (by norm_num)).mp (low.trans_lt below)
    omega
  have last : ¬ ((ofNat s.digits).length : Int) + s.exponent < -330 := by
    have := (zpow_lt_zpow_iff_right₀ (by norm_num)).mp (above.trans high)
    omega
  have ratio := scale_eq (show 0 < 10 by decide) s.exponent s.digits 1
  rw [Nat.cast_one, div_one, Nat.cast_ofNat] at ratio
  rw [Scaled.nearestBits]
  simp only [if_neg hd.ne', if_neg first, if_neg last]
  exact nearest_eq (scale_num_pos (by decide) hd _ _) (scale_pos (by decide) Nat.one_pos _ _)
    magnitude (ratio ▸ near)

end Decimal

/-! ## Signs -/

namespace Binary

variable {bits : UInt64} {negative : Bool} {m : Nat} {e : Int}

/-- The pattern of zero with a minus sign. -/
def negativeZero : UInt64 := withSign true 0

/-- A pattern is its sign and the rest of it. -/
theorem withSign_rest (bits : UInt64) :
    withSign (decide (signBit ≤ bits.toNat)) (bits.toNat % signBit) = bits := by
  have word : bits.toNat < 2 * signBit := bits.toNat_lt
  have whole : (if signBit ≤ bits.toNat then signBit + bits.toNat % signBit
      else bits.toNat % signBit) = bits.toNat := by
    split
    · next signed =>
      rw [Nat.mod_eq_sub_mod signed, Nat.mod_eq_of_lt (by omega)]
      omega
    · next unsigned => exact Nat.mod_eq_of_lt (by omega)
  simp only [withSign, decide_eq_true_eq, whole, UInt64.ofNat_toNat]

/-- A pattern that stands for a finite number is its sign and the pattern of its magnitude. -/
theorem of_meaning_finite (h : meaning bits = .finite negative m e) :
    IsMagnitude m e ∧ withSign negative (pattern m e) = bits := by
  have rest := withSign_rest bits
  rw [meaning] at h
  dsimp only at h
  split at h
  · next finite =>
    cases h
    rw [pattern_magnitude]
    exact ⟨isMagnitude_magnitude finite, rest⟩
  · split at h <;> cases h

/-- A pattern that stands for an infinity is its sign and the pattern of the infinite
magnitude. -/
theorem of_meaning_infinite (h : meaning bits = .infinite negative) :
    withSign negative infinityBits = bits := by
  have rest := withSign_rest bits
  rw [meaning] at h
  dsimp only at h
  split at h
  · cases h
  · split at h
    · next infinite =>
      cases h
      rwa [infinite] at rest
    · cases h

/-- The number that a finite pattern stands for. -/
def Meaning.value? : Meaning → Option ℚ
  | .finite negative significand exponent =>
    some ((if negative then -1 else 1) * (significand * 2 ^ exponent))
  | _ => none

/-- What makes up a whole number has its value. -/
theorem value_whole? {n : Nat} (h : Number.whole? m e = some n) : (m * 2 ^ e : ℚ) = n := by
  cases e with
  | ofNat k =>
    cases h
    rw [Int.ofNat_eq_natCast, zpow_natCast, Nat.pow_eq]
    push_cast
    rfl
  | negSucc k =>
    rw [Number.whole?] at h
    split at h
    · next divided =>
      cases h
      have unit : ((Nat.pow 2 (k + 1) : Nat) : ℚ) = 2 ^ (k + 1) := by
        rw [Nat.pow_eq, Nat.cast_pow, Nat.cast_ofNat]
      rw [Nat.cast_div (Nat.dvd_of_mod_eq_zero divided) (by rw [unit]; positivity), unit,
        zpow_negSucc, div_eq_mul_inv]
    · cases h

/-- Every whole number of at most 53 binary digits has a pattern. -/
theorem exists_value {z : Int} (small : z.natAbs < 2 * fractions) :
    ∃ bits, (meaning bits).value? = some (z : ℚ) := by
  have sign : (if decide (z < 0) then -1 else 1) * (z.natAbs : ℚ) = z := by
    cases z with
    | ofNat n => simp
    | negSucc n => simp
  by_cases zero : z.natAbs = 0
  · refine ⟨0, ?_⟩
    obtain rfl := Int.natAbs_eq_zero.mp zero
    have stands : meaning 0 = .finite false 0 leastExponent := by decide +kernel
    simp [stands, Meaning.value?]
  · have few : z.natAbs.log2 ≤ 52 := Nat.lt_succ_iff.mp ((Nat.log2_lt zero).mpr small)
    have finite : nearest z.natAbs 1 < infinityBits := by
      rw [nearest_one zero (by omega)]
      exact pattern_lt zero (by omega)
    have whole := value_whole? (Number.whole?_nearest zero (by omega))
    rw [rounded_of_log2 few] at whole
    refine ⟨withSign (decide (z < 0)) (nearest z.natAbs 1), ?_⟩
    rw [meaning_withSign finite, Meaning.value?, whole, sign]

/-- The pattern of the zeroth significand is that of zero. -/
theorem IsMagnitude.pattern_zero (h : IsMagnitude 0 e) : pattern 0 e = 0 := by
  rcases h.full with rfl | full
  · rfl
  · exact absurd full (by decide)

end Binary

/-! ## Numbers as texts -/

namespace Number

open Binary Decimal

variable {bits : UInt64} {m : Nat} {e : Int}

/-- Digits with a point among them, perhaps behind a minus sign, are read as a number with that
sign. -/
theorem readBits?_signed {t whole fraction : Text} (plain : IsPlain t whole fraction)
    (negative : Bool) : readBits? (if negative then '-' :: t else t)
      = some (withSign negative
          (Scaled.nearestBits ⟨value (whole ++ fraction), -fraction.length⟩)) := by
  obtain ⟨c, rest, rfl, digit⟩ := plain.exists_cons
  have sign : splitSign (if negative then '-' :: c :: rest else c :: rest)
      = (negative, c :: rest) := by
    cases negative with
    | false => exact splitSign_digit digit rest
    | true => rfl
  have solid : ∀ x ∈ (if negative then '-' :: c :: rest else c :: rest), Text.isBlank x = false := by
    intro x hx
    have character : x = '-' ∨ x ∈ c :: rest := by
      cases negative with
      | false => exact .inr hx
      | true => exact List.mem_cons.mp hx
    rcases character with rfl | hx
    · rfl
    · rcases plain.mem hx with digit | rfl
      · have code := (isDigit_iff x).mp digit
        exact Text.isBlank_of_printable (by omega) (by omega)
      · rfl
  rw [readBits?, Text.strip_eq_self (fun x hx => solid x (List.mem_of_mem_head? hx))
    fun x hx => solid x (List.mem_of_mem_getLast? hx), Numeral.read?_of_splitSign digit sign,
    plain.readScaled?]
  rfl

/-- The text of a finite number that is not zero is the shortest decimal behind its sign. -/
theorem textOfMeaning_finite (hm : 0 < m) (negative : Bool) : textOfMeaning (.finite negative m e)
    = if negative then '-' :: (shortest m e).text else (shortest m e).text :=
  if_neg hm.ne'

/-- The shortest decimal of a magnitude is written as a plain text, which is read as a number near
the magnitude. -/
theorem isPlain_shortest (hm : 0 < m) (magnitude : IsMagnitude m e) :
    ∃ whole fraction, IsPlain (shortest m e).text whole fraction ∧
      Near m e (⟨value (whole ++ fraction), -fraction.length⟩ : Scaled).value := by
  have near := near_shortest (e := e) hm magnitude.small
  obtain ⟨whole, fraction, plain, value⟩ := Scaled.isPlain_text (digits_pos hm magnitude near)
  exact ⟨whole, fraction, plain, value ▸ near⟩

/-- **A number that is written as a text is read back from it**, except that zero loses its
sign. -/
theorem readBits?_textOfBits (h : meaning bits ≠ .nan) :
    readBits? (textOfBits bits) = some (if bits = negativeZero then 0 else bits) := by
  rw [textOfBits]
  cases stands : meaning bits with
  | nan => exact absurd stands h
  | infinite negative =>
    have whole := of_meaning_infinite stands
    subst whole
    cases negative <;> decide +kernel
  | finite negative m e =>
    obtain ⟨magnitude, whole⟩ := of_meaning_finite stands
    rcases Nat.eq_zero_or_pos m with rfl | hm
    · have zero : readBits? ['0'] = some 0 := by decide +kernel
      rw [magnitude.pattern_zero] at whole
      subst whole
      refine zero.trans (congrArg some ?_)
      cases negative <;> rfl
    · obtain ⟨_, _, plain, near⟩ := isPlain_shortest hm magnitude
      have other : bits ≠ negativeZero := by
        rintro rfl
        have zero : meaning negativeZero = .finite true 0 leastExponent := by decide +kernel
        rw [zero] at stands
        cases stands
        exact absurd hm (Nat.lt_irrefl 0)
      rw [textOfMeaning_finite hm, readBits?_signed plain, Scaled.nearestBits_eq hm magnitude near,
        whole, if_neg other]

/-- **The text of a whole number of at most 53 binary digits is that of the integer.** -/
theorem textOfBits_whole {z : Int} (small : z.natAbs < 2 * fractions)
    (h : (meaning bits).value? = some (z : ℚ)) : textOfBits bits = ofInt z := by
  rw [textOfBits]
  cases stands : meaning bits with
  | nan =>
    rw [stands] at h
    cases h
  | infinite negative =>
    rw [stands] at h
    cases h
  | finite negative m e =>
    obtain ⟨magnitude, -⟩ := of_meaning_finite stands
    rw [stands] at h
    have value : (if negative then -1 else 1) * (m * 2 ^ e : ℚ) = z := Option.some.inj h
    rcases Nat.eq_zero_or_pos m with rfl | hm
    · have zero : z = 0 := by
        rw [Nat.cast_zero, zero_mul, mul_zero] at value
        exact_mod_cast value.symm
      rw [zero]
      rfl
    · have positive : (0 : ℚ) < m * 2 ^ e := mul_pos (by exact_mod_cast hm) (zpow_pos two_pos _)
      have whole : (m * 2 ^ e : ℚ) = z.natAbs := by
        rw [Nat.cast_natAbs, Int.cast_abs, ← value, abs_mul, abs_of_pos positive]
        cases negative <;> simp
      have some : 0 < z.natAbs := by
        rw [whole] at positive
        exact_mod_cast positive
      obtain ⟨d, k, short, digits⟩ := shortest_whole magnitude some small whole
      have size : (shortest m e).text = ofNat z.natAbs := by
        have hd : 0 < d := Nat.pos_of_mul_pos_right (digits ▸ some)
        rw [short, ← digits]
        exact (ofNat_mul_pow hd k).symm
      have sign : negative = decide (z < 0) := by
        cases negative with
        | false =>
          have : (0 : ℚ) < z := by rwa [← value, if_neg Bool.false_ne_true, one_mul]
          exact (decide_eq_false (not_lt.mpr (by exact_mod_cast this.le))).symm
        | true =>
          have : (z : ℚ) < 0 := by
            rw [← value, if_pos rfl]
            linarith
          exact (decide_eq_true (by exact_mod_cast this)).symm
      rw [textOfMeaning_finite hm, size, sign, ofInt_eq]
      simp only [decide_eq_true_eq]

end Number

end Teletype
