/-
# The shortest decimal near a magnitude

On each decimal grid the two neighbours of a magnitude are tried, and the first grid on which
one of them is near is taken.  A grid of seventeen digits always has one
(`Decimal.isSome_onGrid`), so that **the decimal that is chosen is near the magnitude**
(`Decimal.near_shortest`).  A whole number of at most 53 binary digits is on the grid of its own
digits, and nothing else on that grid or a wider one is near: **what is chosen is the number
itself** (`Decimal.shortest_whole`).
-/
import Mathlib.Data.List.Pairwise
import Teletype.Proofs.Rounding

namespace Teletype

namespace Decimal

open Binary

variable {m d n k N : Nat} {e step : Int} {y : ℚ}

/-! ## Digits -/

/-- The powers of ten around a number, from the number of its digits. -/
theorem length_ofNat_bounds (h : 0 < n) :
    ((10 : Nat) : ℚ) ^ (((ofNat n).length : Int) - 1) ≤ n ∧
      (n : ℚ) < ((10 : Nat) : ℚ) ^ (((ofNat n).length : Int) - 1 + 1) := by
  obtain ⟨l, hl⟩ := Nat.exists_eq_add_one.mpr (List.length_pos_iff.mpr (value_ofNat n).2.2)
  have exponent : ((ofNat n).length : Int) - 1 = l := by omega
  have fewer : ∀ k, 0 < k → ((ofNat n).length ≤ k ↔ n < 10 ^ k) :=
    fun k hk => Nat.length_toDigits_le_iff (by decide) hk
  have least : 10 ^ l ≤ n := by
    rcases Nat.eq_zero_or_pos l with rfl | more
    · exact h
    · have := fewer l more
      omega
  rw [exponent]
  constructor
  · exact_mod_cast least
  · exact_mod_cast (fewer (l + 1) (by omega)).mp hl.le

/-- The power of ten that is not above a fraction is its decimal logarithm. -/
theorem floorLog10_eq {num den : Nat} (hn : 0 < num) (hd : 0 < den) :
    floorLog10 num den = Int.log 10 (num / den : ℚ) := by
  obtain ⟨nlow, nhigh⟩ := length_ofNat_bounds hn
  obtain ⟨dlow, dhigh⟩ := length_ofNat_bounds hd
  obtain ⟨low, high⟩ :=
    quotient_bounds (by decide) (by exact_mod_cast hd) nlow nhigh dlow dhigh
  rw [sub_sub_sub_cancel_right] at low high
  exact log_of_estimate (by decide) hn hd low high

/-! ## One grid -/

/-- Below a magnitude only the lower end of its interval matters. -/
theorem near_iff_low (h : y ≤ 4 * m * 2 ^ (e - 2)) :
    Near m e y ↔ (4 * m - reachDown m) * 2 ^ (e - 2) < y ∨
      m % 2 = 0 ∧ (4 * m - reachDown m) * 2 ^ (e - 2) = y := by
  have unit : (0 : ℚ) < 2 ^ (e - 2) := zpow_pos two_pos _
  have below : y < (4 * m + 2) * 2 ^ (e - 2) := by linarith
  constructor
  · intro near
    exact near.low.lt_or_eq.imp_right fun ends => ⟨near.even (.inl ends), ends⟩
  · intro fits
    refine ⟨fits.elim le_of_lt fun ends => ends.2.le, below.le, ?_⟩
    rintro (ends | ends)
    · exact fits.elim (fun less => absurd ends less.ne) And.left
    · exact absurd ends below.ne

/-- Above a magnitude only the upper end of its interval matters. -/
theorem near_iff_high (h : 4 * m * 2 ^ (e - 2) < y) :
    Near m e y ↔ y < (4 * m + 2) * 2 ^ (e - 2) ∨
      m % 2 = 0 ∧ y = (4 * m + 2) * 2 ^ (e - 2) := by
  have unit : (0 : ℚ) < 2 ^ (e - 2) := zpow_pos two_pos _
  have above : (4 * m - reachDown m) * 2 ^ (e - 2) < y := by
    have : 0 ≤ (reachDown m : ℚ) * 2 ^ (e - 2) := by positivity
    linarith
  constructor
  · intro near
    exact near.high.lt_or_eq.imp_right fun ends => ⟨near.even (.inr ends), ends⟩
  · intro fits
    refine ⟨above.le, fits.elim le_of_lt fun ends => ends.2.le, ?_⟩
    rintro (ends | ends)
    · exact absurd ends above.ne
    · exact fits.elim (fun less => absurd ends less.ne) And.left

/-- A quarter of a unit and a step of a grid are whole numbers of one small part, so that they
are compared as whole numbers. -/
structure Commensurable (e step : Int) (quarter unit : Nat) (part : ℚ) : Prop where
  /-- There is a part. -/
  positive : 0 < part
  /-- So many parts are a quarter of a unit. -/
  quarter : 2 ^ (e - 2) = quarter * part
  /-- So many parts are a step. -/
  step : 10 ^ step = unit * part

namespace Commensurable

variable {quarter unit b : Nat} {part : ℚ}

/-- Fewer quarters than steps. -/
theorem lt_iff (h : Commensurable e step quarter unit part) (a b : Nat) :
    a * quarter < b * unit ↔ (a : ℚ) * 2 ^ (e - 2) < b * 10 ^ step := by
  rw [h.quarter, h.step, ← mul_assoc, ← mul_assoc, mul_lt_mul_iff_left₀ h.positive]
  exact_mod_cast Iff.rfl

/-- More quarters than steps. -/
theorem gt_iff (h : Commensurable e step quarter unit part) (a b : Nat) :
    b * unit < a * quarter ↔ (b : ℚ) * 10 ^ step < a * 2 ^ (e - 2) := by
  rw [h.quarter, h.step, ← mul_assoc, ← mul_assoc, mul_lt_mul_iff_left₀ h.positive]
  exact_mod_cast Iff.rfl

/-- As many quarters as steps. -/
theorem eq_iff (h : Commensurable e step quarter unit part) (a b : Nat) :
    a * quarter = b * unit ↔ (a : ℚ) * 2 ^ (e - 2) = b * 10 ^ step := by
  rw [h.quarter, h.step, ← mul_assoc, ← mul_assoc, mul_left_inj' h.positive.ne']
  exact_mod_cast Iff.rfl

/-- So many steps are above the magnitude. -/
theorem above_iff (h : Commensurable e step quarter unit part) (m b : Nat) :
    4 * m * quarter < b * unit ↔ (4 * m * 2 ^ (e - 2) : ℚ) < b * 10 ^ step := by
  rw [h.lt_iff, Nat.cast_mul, Nat.cast_ofNat]

/-- Whether so many steps are near is told by whole numbers if they are not above the
magnitude. -/
theorem near_below_iff (h : Commensurable e step quarter unit part) (hm : 0 < m)
    (notAbove : (b : ℚ) * 10 ^ step ≤ 4 * m * 2 ^ (e - 2)) : Near m e (b * 10 ^ step) ↔
      (4 * m - reachDown m) * quarter < b * unit ∨
        m % 2 = 0 ∧ (4 * m - reachDown m) * quarter = b * unit := by
  have reach : reachDown m ≤ 4 * m := by
    rw [reachDown]
    split <;> omega
  rw [near_iff_low notAbove, h.lt_iff, h.eq_iff, Nat.cast_sub reach, Nat.cast_mul, Nat.cast_ofNat]

/-- Whether so many steps are near is told by whole numbers if they are above the magnitude. -/
theorem near_above_iff (h : Commensurable e step quarter unit part)
    (above : 4 * m * 2 ^ (e - 2) < (b : ℚ) * 10 ^ step) : Near m e (b * 10 ^ step) ↔
      b * unit < (4 * m + 2) * quarter ∨ m % 2 = 0 ∧ b * unit = (4 * m + 2) * quarter := by
  rw [near_iff_high above, h.gt_iff, eq_comm (a := b * unit), h.eq_iff,
    eq_comm (a := (b : ℚ) * 10 ^ step), Nat.cast_add, Nat.cast_mul, Nat.cast_ofNat, Nat.cast_ofNat]

end Commensurable

/-- The numbers that a grid is searched with count parts. -/
theorem exists_part (e step : Int) :
    let binary := scale 2 (e - 2) 1 1
    let parts := scale 10 (-step) binary.1 binary.2
    0 < parts.2 ∧ ∃ part, Commensurable e step parts.1 parts.2 part := by
  intro binary parts
  have unit : 0 < parts.2 := scale_pos (by decide) (scale_pos (by decide) Nat.one_pos _ _) _ _
  have positive : (0 : ℚ) < parts.2 := by exact_mod_cast unit
  have ratio : (parts.1 : ℚ) / parts.2 = 2 ^ (e - 2) * 10 ^ (-step) := by
    have decimal := scale_eq (show 0 < 10 by decide) (-step) binary.1 binary.2
    have quarter := scale_eq Nat.two_pos (e - 2) 1 1
    rw [decimal, quarter]
    norm_num
  have step_pos : (0 : ℚ) < 10 ^ step := zpow_pos (by norm_num) _
  refine ⟨unit, 10 ^ step / parts.2, div_pos step_pos positive, ?_, ?_⟩
  · rw [zpow_neg, div_eq_iff positive.ne'] at ratio
    rw [ratio]
    field_simp
  · field_simp

/-- **What a grid gives is near, and it gives something if a neighbour of the magnitude is
near.** -/
theorem onGrid?_spec (hm : 0 < m) (e step : Int) :
    ∃ below : Nat, (below : ℚ) * 10 ^ step ≤ 4 * m * 2 ^ (e - 2) ∧
      4 * m * 2 ^ (e - 2) < ((below + 1 : Nat) : ℚ) * 10 ^ step ∧
      (∀ d, onGrid? m e step = some d → Near m e (d * 10 ^ step)) ∧
      (Near m e (below * 10 ^ step) ∨ Near m e ((below + 1 : Nat) * 10 ^ step) →
        (onGrid? m e step).isSome) := by
  obtain ⟨unit_pos, part, measure⟩ := exists_part e step
  unfold onGrid?
  dsimp only
  generalize (scale 10 (-step) (scale 2 (e - 2) 1 1).1 (scale 2 (e - 2) 1 1).2).1 = quarter at *
  generalize (scale 10 (-step) (scale 2 (e - 2) 1 1).1 (scale 2 (e - 2) 1 1).2).2 = unit at *
  have parts : 4 * m * quarter / unit * unit + 4 * m * quarter % unit = 4 * m * quarter :=
    Nat.div_add_mod' _ _
  have rest : 4 * m * quarter % unit < unit := Nat.mod_lt _ unit_pos
  generalize 4 * m * quarter / unit = below at *
  have notAbove : (below : ℚ) * 10 ^ step ≤ 4 * m * 2 ^ (e - 2) := by
    rw [← not_lt, ← measure.above_iff]
    omega
  have above : 4 * m * 2 ^ (e - 2) < ((below + 1 : Nat) : ℚ) * 10 ^ step := by
    rw [← measure.above_iff, Nat.add_mul]
    omega
  have low := measure.near_below_iff hm notAbove
  have high := measure.near_above_iff above
  refine ⟨below, notAbove, above, fun d found => ?_, fun near => ?_⟩
  · split at found
    · next fits =>
      cases found
      exact low.mpr fits.1
    · split at found
      · next fits =>
        cases found
        exact high.mpr fits
      · cases found
  · split
    · rfl
    · next neither =>
      split
      · rfl
      · next highMisses =>
        rcases near with near | near
        · exact absurd ⟨low.mp near, .inl highMisses⟩ neither
        · exact absurd (high.mp near) highMisses

/-! ## The first grid -/

/-- **A grid of seventeen digits has a near decimal**: its step is less than four quarters of a
unit, and less than two at a power of two. -/
theorem isSome_onGrid (hm : 0 < m) (small : m < 2 * fractions) :
    (onGrid? m e (Int.log 10 (m * 2 ^ e : ℚ) - (16 : Nat))).isSome := by
  have unit : (0 : ℚ) < 2 ^ (e - 2) := zpow_pos two_pos _
  have size : (m * 2 ^ e : ℚ) = 4 * m * 2 ^ (e - 2) := magnitude_quarters m e
  have least : (10 : ℚ) ^ (Int.log 10 (m * 2 ^ e : ℚ) - (16 : Nat)) * 10 ^ 16
      ≤ 4 * m * 2 ^ (e - 2) := by
    have power : (10 : ℚ) ^ Int.log 10 (m * 2 ^ e : ℚ) ≤ m * 2 ^ e := by
      have positive : (0 : ℚ) < m * 2 ^ e := mul_pos (Nat.cast_pos.mpr hm) (zpow_pos two_pos _)
      exact_mod_cast Int.zpow_log_le_self (b := 10) (by decide) positive
    rwa [← zpow_natCast, ← zpow_add₀ (by norm_num), Int.sub_add_cancel, ← size]
  obtain ⟨below, notAbove, above, -, found⟩ :=
    onGrid?_spec hm e (Int.log 10 (m * 2 ^ e : ℚ) - (16 : Nat))
  apply found
  rw [near_iff_low notAbove, near_iff_high above]
  generalize (10 : ℚ) ^ (Int.log 10 (m * 2 ^ e : ℚ) - (16 : Nat)) = grid at *
  rw [Nat.cast_succ, add_one_mul] at *
  rcases reachDown_cases m with ⟨rfl, reach⟩ | ⟨-, reach⟩
  · have power : (fractions : ℚ) = 2 ^ 52 := by norm_num [fractions]
    rw [power] at least notAbove ⊢
    exact .inr (.inl (by linarith))
  · have bound : (m : ℚ) * 2 ^ (e - 2) < 2 ^ 53 * 2 ^ (e - 2) :=
      mul_lt_mul_of_pos_right (by exact_mod_cast small) unit
    rw [reach]
    by_cases down : (4 * m - 2) * 2 ^ (e - 2) < below * grid
    · exact .inl (.inl down)
    · exact .inr (.inl (by linarith))

/-- A search through the numbers in order stops at a hit or before it. -/
theorem findSome?_range {α : Type} {f : Nat → Option α} (hk : k < N) (hit : (f k).isSome) :
    ∃ n ≤ k, ∃ a, f n = some a ∧ (List.range N).findSome? f = some a := by
  have found : ((List.range N).findSome? f).isSome :=
    List.findSome?_isSome_iff.mpr ⟨k, List.mem_range.mpr hk, hit⟩
  obtain ⟨a, ha⟩ := Option.isSome_iff_exists.mp found
  obtain ⟨before, n, after, order, first, none⟩ := List.findSome?_eq_some_iff.mp ha
  have sorted : (before ++ n :: after).Pairwise (· < ·) := order ▸ List.pairwise_lt_range
  have place : k ∈ before ++ n :: after := order ▸ List.mem_range.mpr hk
  refine ⟨n, ?_, a, first, ha⟩
  rcases List.mem_append.mp place with early | late
  · rw [none k early] at hit
    cases hit
  · rcases List.mem_cons.mp late with rfl | late
    · exact Nat.le_refl _
    · exact ((List.pairwise_cons.mp (List.pairwise_append.mp sorted).2.1).1 k late).le

/-- The number that a scaled number stands for. -/
def Scaled.value (s : Scaled) : ℚ := s.digits * 10 ^ s.exponent

/-- **The shortest decimal is what the first grid gives that gives anything**, with one digit if
it is a power of ten. -/
theorem shortest_spec (hm : 0 < m) (hk : k < mostDigits)
    (hit : (onGrid? m e (Int.log 10 (m * 2 ^ e : ℚ) - k)).isSome) :
    ∃ n ≤ k, ∃ d, onGrid? m e (Int.log 10 (m * 2 ^ e : ℚ) - n) = some d ∧
      shortest m e = if d = 10 ^ (n + 1) then ⟨1, Int.log 10 (m * 2 ^ e : ℚ) + 1⟩
        else ⟨d, Int.log 10 (m * 2 ^ e : ℚ) - n⟩ := by
  have lead : floorLog10 (scale 2 e m 1).1 (scale 2 e m 1).2 = Int.log 10 (m * 2 ^ e : ℚ) := by
    rw [floorLog10_eq (scale_num_pos Nat.two_pos hm _ _) (scale_pos Nat.two_pos Nat.one_pos _ _),
      scale_eq Nat.two_pos, Nat.cast_one, div_one, Nat.cast_two]
  obtain ⟨n, less, a, first, found⟩ :=
    findSome?_range (f := fun n : Nat => (onGrid? m e (Int.log 10 (m * 2 ^ e : ℚ) - n)).map
      fun d => if d = Nat.pow 10 (n + 1) then (⟨1, Int.log 10 (m * 2 ^ e : ℚ) + 1⟩ : Scaled)
        else ⟨d, Int.log 10 (m * 2 ^ e : ℚ) - n⟩)
      hk (by rwa [Option.isSome_map])
  obtain ⟨d, grid, rfl⟩ := Option.map_eq_some_iff.mp first
  refine ⟨n, less, d, grid, ?_⟩
  rw [shortest]
  simp only [lead, found]
  rfl

/-- A power of ten is the same number written with one digit. -/
theorem value_trimmed (d n : Nat) (lead : Int) :
    (if d = 10 ^ (n + 1) then (⟨1, lead + 1⟩ : Scaled) else ⟨d, lead - n⟩).value
      = d * 10 ^ (lead - n) := by
  split
  · next power =>
    rw [power, Scaled.value, Nat.cast_one, one_mul, Nat.cast_pow, ← zpow_natCast, Nat.cast_ofNat,
      ← zpow_add₀ (by norm_num)]
    congr 1
    push_cast
    omega
  · rfl

/-- **The shortest decimal is near the magnitude.** -/
theorem near_shortest (hm : 0 < m) (small : m < 2 * fractions) :
    Near m e (shortest m e).value := by
  obtain ⟨n, -, d, grid, short⟩ := shortest_spec hm (by decide) (isSome_onGrid hm small)
  obtain ⟨-, -, -, near, -⟩ := onGrid?_spec hm e (Int.log 10 (m * 2 ^ e : ℚ) - n)
  rw [short, value_trimmed]
  exact near d grid

-- The magnitude nearest to one tenth is near a decimal of one digit.
example : (shortest 7205759403792794 (-56)).text = "0.1".toList := by decide +kernel

/-- **The shortest decimal of a whole number of at most 53 binary digits is the number.** -/
theorem shortest_whole (magnitude : IsMagnitude m e) (hN : 0 < N) (small : N < 2 * fractions)
    (whole : (m * 2 ^ e : ℚ) = N) :
    ∃ d k : Nat, shortest m e = ⟨d, k⟩ ∧ d * 10 ^ k = N := by
  have unit : (0 : ℚ) < 2 ^ (e - 2) := zpow_pos two_pos _
  have hm : 0 < m := by
    rw [Nat.pos_iff_ne_zero]
    rintro rfl
    rw [Nat.cast_zero, zero_mul] at whole
    exact hN.ne (by exact_mod_cast whole)
  have size : (4 * m * 2 ^ (e - 2) : ℚ) = N := (magnitude_quarters m e).symm.trans whole
  have fine : (4 * 2 ^ (e - 2) : ℚ) ≤ 1 := magnitude.unit_le (by rw [whole]; exact_mod_cast small)
  have lead : Int.log 10 (m * 2 ^ e : ℚ) = Nat.log 10 N := by
    rw [whole, Int.log_natCast]
  have few : Nat.log 10 N < mostDigits :=
    Nat.log_lt_of_lt_pow hN.ne' (small.trans (by decide))
  -- the grid of the number's own digits has the number
  have hit : (onGrid? m e (Int.log 10 (m * 2 ^ e : ℚ) - Nat.log 10 N)).isSome := by
    obtain ⟨below, notAbove, above, -, found⟩ :=
      onGrid?_spec hm e (Int.log 10 (m * 2 ^ e : ℚ) - Nat.log 10 N)
    rw [lead, Int.sub_self, zpow_zero, mul_one, size] at notAbove above
    have : below = N := by
      have notAbove : below ≤ N := by exact_mod_cast notAbove
      have above : N < below + 1 := by exact_mod_cast above
      omega
    apply found
    left
    rw [this, lead, Int.sub_self, zpow_zero, mul_one, ← whole]
    exact near_self m e
  obtain ⟨n, less, d, grid, short⟩ := shortest_spec hm few hit
  obtain ⟨k, step⟩ : ∃ k : Nat, Int.log 10 (m * 2 ^ e : ℚ) - n = k :=
    ⟨Nat.log 10 N - n, by omega⟩
  -- whole numbers no further than a half from each other are equal
  have same : d * 10 ^ k = N := by
    obtain ⟨-, -, -, near, -⟩ := onGrid?_spec hm e (Int.log 10 (m * 2 ^ e : ℚ) - n)
    have half := (near d grid).half fine
    rw [step, zpow_natCast, whole] at half
    have low : 2 * N ≤ 2 * (d * 10 ^ k) + 1 := by exact_mod_cast half.1
    have high : 2 * (d * 10 ^ k) ≤ 2 * N + 1 := by exact_mod_cast half.2
    omega
  rw [short]
  split
  · next power =>
    refine ⟨1, n + 1 + k, ?_, ?_⟩
    · congr 1
      push_cast
      omega
    · rw [Nat.pow_add, Nat.one_mul, ← power, same]
  · exact ⟨d, k, by rw [step], same⟩

end Decimal

end Teletype
