/-
# Rounding fractions to patterns

A fraction is read as a rational number.  Its powers of two and of ten are found by an estimate
from the lengths of its two parts, which is at most one too large (`Binary.floorLog2_eq`).
The main statement is that **a fraction near a magnitude has its pattern as the nearest one**
(`Binary.nearest_eq`): near means inside the interval half way to the two neighbours, the ends
included if the significand is even.
-/
import Mathlib.Data.Int.Log
import Mathlib.Data.Rat.Floor
import Mathlib.Tactic.FieldSimp
import Mathlib.Tactic.Linarith
import Teletype.Proofs.Index

namespace Teletype

namespace Binary

open Decimal (reachDown)

variable {base num den m : Nat} {e i j estimate : Int} {x : ℚ}

/-! ## Scaled fractions -/

/-- A scaled fraction has a denominator. -/
theorem scale_pos (hb : 0 < base) (hd : 0 < den) (e : Int) (num : Nat) :
    0 < (scale base e num den).2 := by
  cases e with
  | ofNat e => exact hd
  | negSucc e => exact Nat.mul_pos hd (Nat.pow_pos hb)

/-- A scaled positive fraction has a positive numerator. -/
theorem scale_num_pos (hb : 0 < base) (hn : 0 < num) (e : Int) (den : Nat) :
    0 < (scale base e num den).1 := by
  cases e with
  | ofNat e => exact Nat.mul_pos hn (Nat.pow_pos hb)
  | negSucc e => exact hn

/-- **Scaling multiplies a fraction by a power of the base.** -/
theorem scale_eq (hb : 0 < base) (e : Int) (num den : Nat) :
    ((scale base e num den).1 : ℚ) / (scale base e num den).2 = num / den * (base : ℚ) ^ e := by
  have hbase : (base : ℚ) ≠ 0 := Nat.cast_ne_zero.mpr hb.ne'
  cases e with
  | ofNat e =>
    simp only [scale, Nat.pow_eq, Int.ofNat_eq_natCast, zpow_natCast]
    push_cast
    ring
  | negSucc e =>
    simp only [scale, Nat.pow_eq, zpow_negSucc]
    push_cast
    field_simp

/-! ## Logarithms -/

/-- The powers of a base around a quotient, from those around its two parts. -/
theorem quotient_bounds (hb : 1 < base) {a b : ℚ} (hb0 : 0 < b)
    (alow : (base : ℚ) ^ i ≤ a) (ahigh : a < (base : ℚ) ^ (i + 1))
    (blow : (base : ℚ) ^ j ≤ b) (bhigh : b < (base : ℚ) ^ (j + 1)) :
    (base : ℚ) ^ (i - j - 1) ≤ a / b ∧ a / b < (base : ℚ) ^ (i - j + 1) := by
  have positive : (0 : ℚ) < base := by exact_mod_cast Nat.zero_lt_of_lt hb
  constructor
  · rw [le_div_iff₀ hb0]
    calc (base : ℚ) ^ (i - j - 1) * b
        ≤ (base : ℚ) ^ (i - j - 1) * (base : ℚ) ^ (j + 1) :=
          mul_le_mul_of_nonneg_left bhigh.le (zpow_pos positive _).le
      _ = (base : ℚ) ^ i := by rw [← zpow_add₀ positive.ne']; congr 1; omega
      _ ≤ a := alow
  · rw [div_lt_iff₀ hb0]
    calc a < (base : ℚ) ^ (i + 1) := ahigh
      _ = (base : ℚ) ^ (i - j + 1) * (base : ℚ) ^ j := by
        rw [← zpow_add₀ positive.ne']; congr 1; omega
      _ ≤ (base : ℚ) ^ (i - j + 1) * b :=
          mul_le_mul_of_nonneg_left blow (zpow_pos positive _).le

/-- **An estimate that is at most one too large, mended by one comparison, is the logarithm.** -/
theorem log_of_estimate (hb : 1 < base) (hn : 0 < num) (hd : 0 < den)
    (low : (base : ℚ) ^ (estimate - 1) ≤ num / den)
    (high : (num / den : ℚ) < (base : ℚ) ^ (estimate + 1)) :
    (if (scale base (-estimate) num den).2 ≤ (scale base (-estimate) num den).1 then estimate
      else estimate - 1) = Int.log base (num / den : ℚ) := by
  have positive : (0 : ℚ) < base := by exact_mod_cast Nat.zero_lt_of_lt hb
  have hx : (0 : ℚ) < num / den := by positivity
  have hden : (0 : ℚ) < (scale base (-estimate) num den).2 := by
    exact_mod_cast scale_pos (Nat.zero_lt_of_lt hb) hd (-estimate) num
  have compared : (scale base (-estimate) num den).2 ≤ (scale base (-estimate) num den).1 ↔
      (base : ℚ) ^ estimate ≤ num / den := by
    have scaled := scale_eq (Nat.zero_lt_of_lt hb) (-estimate) num den
    rw [zpow_neg, ← div_eq_mul_inv] at scaled
    rw [← Nat.cast_le (α := ℚ), ← one_le_div hden, scaled, one_le_div (zpow_pos positive _)]
  rw [Int.zpow_le_iff_le_log hb hx] at low
  rw [Int.lt_zpow_iff_log_lt hb hx] at high
  rw [Int.zpow_le_iff_le_log hb hx] at compared
  split
  · next h =>
    have := compared.mp h
    omega
  · next h =>
    have := mt compared.mpr h
    omega

/-- The power of two that is not above a fraction is its binary logarithm. -/
theorem floorLog2_eq (hn : 0 < num) (hd : 0 < den) :
    floorLog2 num den = Int.log 2 (num / den : ℚ) := by
  have bounds : ∀ k : Nat, 0 < k →
      ((2 : Nat) : ℚ) ^ (k.log2 : Int) ≤ k ∧ (k : ℚ) < ((2 : Nat) : ℚ) ^ ((k.log2 : Int) + 1) := by
    intro k hk
    constructor
    · exact_mod_cast Nat.log2_self_le hk.ne'
    · exact_mod_cast Nat.lt_log2_self
  obtain ⟨nlow, nhigh⟩ := bounds num hn
  obtain ⟨dlow, dhigh⟩ := bounds den hd
  obtain ⟨low, high⟩ :=
    quotient_bounds Nat.one_lt_two (by exact_mod_cast hd) nlow nhigh dlow dhigh
  exact log_of_estimate Nat.one_lt_two hn hd low high

/-! ## Rounded quotients -/

/-- **The rounded quotient is the whole number that lies no further than a half from it**, an
even one if there are two. -/
theorem roundDiv_eq (hd : 0 < den) (low : 2 * (m * den) ≤ 2 * num + den)
    (high : 2 * num ≤ 2 * (m * den) + den)
    (even : 2 * (m * den) = 2 * num + den ∨ 2 * num = 2 * (m * den) + den → m % 2 = 0) :
    roundDiv num den = m := by
  have parts : num / den * den + num % den = num := Nat.div_add_mod' num den
  have rest : num % den < den := Nat.mod_lt _ hd
  rw [roundDiv]
  generalize num / den = q at parts ⊢
  generalize num % den = r at parts rest ⊢
  subst parts
  rcases Nat.lt_trichotomy q m with less | rfl | more
  · obtain rfl : m = q + 1 := by
      by_contra other
      have two : (q + 2) * den ≤ m * den := Nat.mul_le_mul_right den (by omega)
      rw [Nat.add_mul] at two
      omega
    rw [Nat.add_mul, Nat.one_mul] at low high even
    split
    · omega
    · split
      · rfl
      · have := even (.inl (by omega))
        rw [if_neg (by omega)]
  · split
    · rfl
    · split
      · omega
      · have := even (.inr (by omega))
        rw [if_pos this]
  · have one : (m + 1) * den ≤ q * den := Nat.mul_le_mul_right den more
    rw [Nat.add_mul] at one
    omega

/-- The same of a quotient as a rational number. -/
theorem roundDiv_eq_of_ratio (hd : 0 < den) (hx : (num / den : ℚ) = x) (low : 2 * (m : ℚ) - 1 ≤ 2 * x)
    (high : 2 * x ≤ 2 * m + 1) (even : 2 * (m : ℚ) - 1 = 2 * x ∨ 2 * x = 2 * m + 1 → m % 2 = 0) :
    roundDiv num den = m := by
  have positive : (0 : ℚ) < den := by exact_mod_cast hd
  rw [div_eq_iff positive.ne'] at hx
  have units : ∀ a b : ℚ, a * den ≤ b * den ↔ a ≤ b := fun a b => mul_le_mul_iff_left₀ positive
  have same : ∀ a b : ℚ, a * den = b * den ↔ a = b := fun a b => mul_left_inj' positive.ne'
  have lowNat : 2 * ((m : ℚ) * den) ≤ 2 * num + den := by
    have := (units _ _).mpr low
    rw [hx]
    linarith
  have highNat : 2 * (num : ℚ) ≤ 2 * (m * den) + den := by
    have := (units _ _).mpr high
    rw [hx]
    linarith
  refine roundDiv_eq hd (by exact_mod_cast lowNat) (by exact_mod_cast highNat) fun ends => even ?_
  refine ends.imp (fun h => ?_) fun h => ?_
  · have h : 2 * ((m : ℚ) * den) = 2 * num + den := by exact_mod_cast h
    rw [← same]
    linarith
  · have h : 2 * (num : ℚ) = 2 * (m * den) + den := by exact_mod_cast h
    rw [← same]
    linarith

/-! ## Magnitudes -/

/-- The pattern of a significand and an exponent. -/
def pattern (significand : Nat) (exponent : Int) : Nat :=
  (exponent - leastExponent).toNat * fractions + significand

/-- A significand and an exponent are those of a finite magnitude. -/
structure IsMagnitude (significand : Nat) (exponent : Int) : Prop where
  /-- The exponent is not below the least. -/
  least : leastExponent ≤ exponent
  /-- The significand has at most 53 binary digits. -/
  small : significand < 2 * fractions
  /-- It has so many unless the exponent is the least. -/
  full : exponent = leastExponent ∨ fractions ≤ significand
  /-- The magnitude is not infinite. -/
  finite : pattern significand exponent < infinityBits

/-- A pattern is a fraction with the least exponent, or one behind a first digit with an exponent
that its raised bits give. -/
theorem magnitude_cases (bits : Nat) :
    (bits < fractions ∧ magnitude bits = (bits, leastExponent)) ∨
    ∃ raised : Nat, ∃ f < fractions, bits = raised * fractions + (fractions + f) ∧
      magnitude bits = (fractions + f, raised + leastExponent) := by
  have positive : 0 < fractions := by decide
  have parts : bits / fractions * fractions + bits % fractions = bits := Nat.div_add_mod' _ _
  have fraction : bits % fractions < fractions := Nat.mod_lt _ positive
  rcases Nat.eq_zero_or_eq_succ_pred (bits / fractions) with none | more
  · rw [none] at parts
    refine .inl ⟨by omega, ?_⟩
    rw [magnitude]
    simp only [if_pos none]
    rw [← parts]
    simp
  · generalize (bits / fractions).pred = raised at more
    rw [more, Nat.succ_mul] at parts
    have whole : bits = raised * fractions + (fractions + bits % fractions) := by omega
    refine .inr ⟨raised, bits % fractions, fraction, whole, ?_⟩
    conv_lhs => rw [whole]
    exact magnitude_normal (by omega) (by omega)

/-- **The magnitude of a pattern has that pattern.** -/
theorem pattern_magnitude (bits : Nat) : pattern (magnitude bits).1 (magnitude bits).2 = bits := by
  rcases magnitude_cases bits with ⟨-, parts⟩ | ⟨raised, f, -, whole, parts⟩
  · rw [parts, pattern, Int.sub_self, Int.toNat_zero, Nat.zero_mul, Nat.zero_add]
  · rw [parts, pattern, Int.add_sub_cancel, Int.toNat_natCast, ← whole]

/-- A pattern below that of infinity is that of a finite magnitude. -/
theorem isMagnitude_magnitude {bits : Nat} (h : bits < infinityBits) :
    IsMagnitude (magnitude bits).1 (magnitude bits).2 := by
  have finite : pattern (magnitude bits).1 (magnitude bits).2 < infinityBits := by
    rwa [pattern_magnitude]
  rcases magnitude_cases bits with ⟨low, parts⟩ | ⟨raised, f, fraction, -, parts⟩
  · rw [parts] at finite ⊢
    exact ⟨Int.le_refl _, by omega, .inl rfl, finite⟩
  · rw [parts] at finite ⊢
    exact ⟨by omega, by omega, .inr (by omega), finite⟩

/-- A magnitude counted in quarters of its unit. -/
theorem magnitude_quarters (m : Nat) (e : Int) : (m * 2 ^ e : ℚ) = 4 * m * 2 ^ (e - 2) := by
  rw [zpow_sub₀ two_ne_zero]
  norm_num
  ring

/-- The unit of a magnitude with less than 54 binary digits before the point is at most one. -/
theorem IsMagnitude.unit_le (magnitude : IsMagnitude m e) (small : (m * 2 ^ e : ℚ) < 2 * fractions) :
    (4 * 2 ^ (e - 2) : ℚ) ≤ 1 := by
  have unit : (2 : ℚ) ^ e = 4 * 2 ^ (e - 2) := by
    have := magnitude_quarters 1 e
    rwa [Nat.cast_one, one_mul, mul_one] at this
  rw [← unit]
  rcases magnitude.full with rfl | full
  · exact zpow_le_one_of_nonpos₀ one_le_two (by decide)
  · by_contra coarse
    have more : 0 < e := by
      by_contra other
      exact coarse (zpow_le_one_of_nonpos₀ one_le_two (not_lt.mp other))
    have two : (2 : ℚ) ^ (1 : Int) ≤ 2 ^ e := zpow_le_zpow_right₀ one_le_two more
    have : (fractions * 2 : ℚ) ≤ m * 2 ^ e :=
      mul_le_mul (by exact_mod_cast full) (by simpa using two) (by norm_num) (by positivity)
    linarith

/-! ## Nearest patterns -/

/-- A number lies in the interval of a magnitude: half way up and down to its neighbours, where
the one below a power of two is only half as far away.  The ends belong to an even significand. -/
structure Near (significand : Nat) (exponent : Int) (x : ℚ) : Prop where
  /-- It is not below the interval. -/
  low : (4 * significand - reachDown significand) * 2 ^ (exponent - 2) ≤ x
  /-- It is not above the interval. -/
  high : x ≤ (4 * significand + 2) * 2 ^ (exponent - 2)
  /-- It is at an end only if the significand is even. -/
  even : (4 * significand - reachDown significand) * 2 ^ (exponent - 2) = x ∨
    x = (4 * significand + 2) * 2 ^ (exponent - 2) → significand % 2 = 0

/-- The interval reaches one quarter down from a power of two and two from any other. -/
theorem reachDown_cases (m : Nat) :
    (m = fractions ∧ (reachDown m : ℚ) = 1) ∨ (m ≠ fractions ∧ (reachDown m : ℚ) = 2) := by
  by_cases power : m = fractions
  · exact .inl ⟨power, by rw [reachDown, if_pos power, Nat.cast_one]⟩
  · exact .inr ⟨power, by rw [reachDown, if_neg power, Nat.cast_ofNat]⟩

/-- The interval reaches at least one quarter down and at most two. -/
theorem reachDown_bounds (m : Nat) : 1 ≤ (reachDown m : ℚ) ∧ (reachDown m : ℚ) ≤ 2 := by
  rcases reachDown_cases m with ⟨-, reach⟩ | ⟨-, reach⟩ <;> norm_num [reach]

/-- A magnitude lies in its own interval. -/
theorem near_self (m : Nat) (e : Int) : Near m e (m * 2 ^ e) := by
  have unit : (0 : ℚ) < 2 ^ (e - 2) := zpow_pos two_pos _
  have down : (0 : ℚ) < reachDown m * 2 ^ (e - 2) :=
    mul_pos (one_pos.trans_le (reachDown_bounds m).1) unit
  rw [magnitude_quarters]
  refine ⟨by linarith, by linarith, ?_⟩
  rintro (ends | ends) <;> linarith

/-- If the unit is at most one, the interval reaches at most a half up and down. -/
theorem Near.half (near : Near m e x) (fine : (4 * 2 ^ (e - 2) : ℚ) ≤ 1) :
    2 * (m * 2 ^ e) ≤ 2 * x + 1 ∧ 2 * x ≤ 2 * (m * 2 ^ e) + 1 := by
  have unit : (0 : ℚ) < 2 ^ (e - 2) := zpow_pos two_pos _
  have down : (reachDown m * 2 ^ (e - 2) : ℚ) ≤ 2 * 2 ^ (e - 2) :=
    mul_le_mul_of_nonneg_right (reachDown_bounds m).2 unit.le
  have low := near.low
  have high := near.high
  rw [magnitude_quarters]
  constructor <;> linarith

/-- The pattern nearest to a fraction, once the exponent and the rounded quotient are known. -/
theorem nearest_of_exponent (hn : 0 < num) (hd : 0 < den) (hx : (num / den : ℚ) = x)
    (exponent : max (Int.log 2 x - 52) leastExponent = e)
    (low : 2 * (m : ℚ) - 1 ≤ 2 * (x * 2 ^ (-e))) (high : 2 * (x * 2 ^ (-e)) ≤ 2 * m + 1)
    (even : 2 * (m : ℚ) - 1 = 2 * (x * 2 ^ (-e)) ∨ 2 * (x * 2 ^ (-e)) = 2 * m + 1 → m % 2 = 0) :
    nearest num den = min infinityBits (pattern m e) := by
  have scaled := scale_eq Nat.two_pos (-e) num den
  rw [hx, Nat.cast_two] at scaled
  rw [nearest, floorLog2_eq hn hd, hx]
  simp only [exponent]
  rw [roundDiv_eq_of_ratio (scale_pos Nat.two_pos hd _ _) scaled low high even]
  rfl

/-- A power of two is twice as many units of half the size. -/
theorem pattern_carry (h : leastExponent < e) : pattern (2 * fractions) (e - 1) = pattern fractions e := by
  obtain ⟨k, hk⟩ : ∃ k : Nat, e - leastExponent = k + 1 := ⟨(e - leastExponent - 1).toNat, by omega⟩
  have raised : (e - 1 - leastExponent).toNat = k := by omega
  have more : (e - leastExponent).toNat = k + 1 := by omega
  rw [pattern, pattern, raised, more, Nat.add_mul]
  omega

/-- The interval counted in quarters of a unit. -/
theorem near_quarters {y : ℚ} (near : Near m e (y * 2 ^ (e - 2))) :
    4 * m - reachDown m ≤ y ∧ y ≤ 4 * m + 2 ∧
      (4 * m - reachDown m = y ∨ y = 4 * m + 2 → m % 2 = 0) := by
  have unit : (0 : ℚ) < 2 ^ (e - 2) := zpow_pos two_pos _
  refine ⟨le_of_mul_le_mul_right near.low unit, le_of_mul_le_mul_right near.high unit, ?_⟩
  intro ends
  exact near.even (ends.imp (congrArg (· * _)) (congrArg (· * _)))

/-- The logarithm of a positive number is compared with a number of binary digits by counting
quarters of a unit. -/
theorem le_log_iff {y : ℚ} (positive : 0 < y * 2 ^ (e - 2)) (k : Nat) :
    e + k ≤ Int.log 2 (y * 2 ^ (e - 2)) ↔ 2 ^ (k + 2) ≤ y := by
  have unit : (0 : ℚ) < 2 ^ (e - 2) := zpow_pos two_pos _
  have power : (2 : ℚ) ^ (e + k) = 2 ^ (k + 2) * 2 ^ (e - 2) := by
    rw [← zpow_natCast, ← zpow_add₀ two_ne_zero]
    congr 1
    push_cast
    omega
  rw [← Int.zpow_le_iff_le_log Nat.one_lt_two positive, Nat.cast_two, power,
    mul_le_mul_iff_left₀ unit]

/-- A number that has the exponent of a magnitude and is near it is rounded to it. -/
theorem nearest_of_quarters {y : ℚ} (hn : 0 < num) (hd : 0 < den)
    (hx : (num / den : ℚ) = y * 2 ^ (e - 2))
    (exponent : max (Int.log 2 (y * 2 ^ (e - 2)) - 52) leastExponent = e)
    (near : Near m e (y * 2 ^ (e - 2))) : nearest num den = min infinityBits (pattern m e) := by
  obtain ⟨low, high, even⟩ := near_quarters near
  have quotient : y * 2 ^ (e - 2) * 2 ^ (-e) = y / 4 := by
    rw [mul_assoc, ← zpow_add₀ two_ne_zero, show e - 2 + -e = -2 by omega]
    norm_num
    ring
  rw [nearest_of_exponent hn hd hx exponent]
  all_goals rw [quotient]
  · have down := (reachDown_bounds m).2
    linarith
  · linarith
  · rintro (down | up)
    · rcases reachDown_cases m with ⟨-, reach⟩ | ⟨-, reach⟩
      · linarith
      · exact even (.inl (by linarith))
    · exact even (.inr (by linarith))

/-- A number that lies at most a quarter of a unit below a power of two is rounded up to it. -/
theorem nearest_of_below {y : ℚ} (hn : 0 < num) (hd : 0 < den)
    (hx : (num / den : ℚ) = y * 2 ^ (e - 2)) (least : leastExponent < e)
    (low : 2 ^ 54 - 1 ≤ y) (high : y < 2 ^ 54) :
    nearest num den = min infinityBits (pattern fractions e) := by
  have positive : 0 < y * 2 ^ (e - 2) :=
    mul_pos (by norm_num at low ⊢; linarith) (zpow_pos two_pos _)
  have exponent : max (Int.log 2 (y * 2 ^ (e - 2)) - 52) leastExponent = e - 1 := by
    have more := (le_log_iff positive 51).mpr (by norm_num at low ⊢; linarith)
    have less := mt (le_log_iff positive 52).mp (not_le.mpr high)
    omega
  have quotient : y * 2 ^ (e - 2) * 2 ^ (-(e - 1)) = y / 2 := by
    rw [mul_assoc, ← zpow_add₀ two_ne_zero, show e - 2 + -(e - 1) = -1 by omega]
    norm_num
    ring
  have size : ((2 * fractions : Nat) : ℚ) = 2 * 2 ^ 52 := by norm_num [fractions]
  rw [← pattern_carry least, nearest_of_exponent hn hd hx exponent]
  all_goals rw [quotient, size]
  · linarith
  · linarith
  · exact fun _ => by decide

/-- **A fraction near a magnitude has its pattern as the nearest one.** -/
theorem nearest_eq (hn : 0 < num) (hd : 0 < den) (magnitude : IsMagnitude m e)
    (near : Near m e (num / den)) : nearest num den = pattern m e := by
  obtain ⟨least, small, full, finite⟩ := magnitude
  obtain ⟨y, hx⟩ : ∃ y : ℚ, (num / den : ℚ) = y * 2 ^ (e - 2) :=
    ⟨_, (div_mul_cancel₀ _ (zpow_pos two_pos _).ne').symm⟩
  have positive : (0 : ℚ) < y * 2 ^ (e - 2) := by
    rw [← hx]
    positivity
  rw [hx] at near
  obtain ⟨low, high, -⟩ := near_quarters near
  have notAbove : ¬ e + (53 : Nat) ≤ Int.log 2 (y * 2 ^ (e - 2)) := by
    have bound : (m : ℚ) + 1 ≤ 2 ^ 53 := by exact_mod_cast small
    rw [le_log_iff positive, not_le]
    norm_num at bound ⊢
    linarith
  by_cases binade : e = leastExponent ∨ e + (52 : Nat) ≤ Int.log 2 (y * 2 ^ (e - 2))
  · rw [nearest_of_quarters hn hd hx (by omega) near, Nat.min_eq_right finite.le]
  · -- only a power of two has numbers with a smaller exponent near it
    rw [not_or, le_log_iff positive, not_le] at binade
    have full : fractions ≤ m := full.resolve_left binade.1
    have size : (fractions : ℚ) = 2 ^ 52 := by norm_num [fractions]
    rcases reachDown_cases m with ⟨rfl, reach⟩ | ⟨other, reach⟩
    · rw [size, reach] at low
      rw [nearest_of_below hn hd hx (by omega) (by linarith) binade.2, Nat.min_eq_right finite.le]
    · have more : (2 ^ 52 : ℚ) + 1 ≤ m := by
        exact_mod_cast Nat.lt_of_le_of_ne full (Ne.symm other)
      have less : y < 2 ^ 54 := binade.2
      linarith

end Binary

end Teletype
