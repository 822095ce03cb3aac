/-
# Words of parentheses

What is left of a word of parentheses when neighbours that match are cancelled again and
again.  In whatever order this is done, the same word is left (`Leaves.unique`): closing
parentheses first and then opening ones.  The main statement is that **nothing is left
exactly of the balanced words** (`Leaves.eq_nil_iff`), in which every beginning has at
least as many opening as closing parentheses and the whole word as many of both.
-/
import Mathlib.Data.List.Infix
import Mathlib.Logic.Relation
import Teletype.Text

namespace Teletype

open Relation (ReflTransGen)

/-! ## Cancelling -/

/-- The character is a parenthesis. -/
def isParen (c : Char) : Bool := c = '(' || c = ')'

/-- An opening parenthesis and the closing one right behind it are cancelled. -/
inductive Cancel : Text → Text → Prop
  | pair (a b : Text) : Cancel (a ++ '(' :: ')' :: b) (a ++ b)

/-- The word that is left when nothing more can be cancelled. -/
def Leaves (w r : Text) : Prop := ReflTransGen Cancel w r ∧ ∀ x, ¬ Cancel r x

namespace Cancel

variable {c : Char} {w x : Text}

/-- What is cancelled is cancelled behind a character as well. -/
theorem cons (c : Char) (h : Cancel w x) : Cancel (c :: w) (c :: x) := by
  obtain ⟨a, b⟩ := h
  exact .pair (c :: a) b

/-- All that is cancelled is cancelled behind a character as well. -/
theorem many_cons (c : Char) (h : ReflTransGen Cancel w x) :
    ReflTransGen Cancel (c :: w) (c :: x) :=
  h.lift (c :: ·) fun _ _ => cons c

/-- Parentheses with a word between them that is cancelled are cancelled. -/
theorem many_enclosed (h : ReflTransGen Cancel w (')' :: x)) :
    ReflTransGen Cancel ('(' :: w) x :=
  (many_cons '(' h).tail (.pair [] x)

/-- Of a word of parentheses a word of parentheses is left. -/
theorem isParen_of_many (h : ReflTransGen Cancel w x) (hw : ∀ c ∈ w, isParen c = true) :
    ∀ c ∈ x, isParen c = true := by
  induction h with
  | refl => exact hw
  | tail _ step ih =>
    obtain ⟨a, b⟩ := step
    intro c hc
    apply ih
    rw [List.mem_append] at hc ⊢
    rcases hc with hc | hc
    · exact .inl hc
    · exact .inr (List.mem_cons_of_mem _ (List.mem_cons_of_mem _ hc))

end Cancel

/-! ## Parentheses without a partner -/

/-- How many closing parentheses of a word have no partner. -/
def loneClosings : Text → Nat
  | [] => 0
  | c :: w =>
    if c = '(' then loneClosings w - 1
    else if c = ')' then loneClosings w + 1
    else loneClosings w

/-- **A word has few closing parentheses without a partner exactly if every beginning has
few more closing than opening ones.** -/
theorem loneClosings_le_iff (w : Text) (k : Nat) :
    loneClosings w ≤ k ↔ ∀ p, p <+: w → p.count ')' ≤ p.count '(' + k := by
  induction w generalizing k with
  | nil => simp [loneClosings]
  | cons c w ih =>
    -- a beginning that is not empty is the first character and a beginning of the rest
    have beginnings : (∀ p, p <+: c :: w → p.count ')' ≤ p.count '(' + k) ↔
        ∀ p, p <+: w → (c :: p).count ')' ≤ (c :: p).count '(' + k := by
      constructor
      · intro h p hp
        exact h (c :: p) ((List.prefix_cons_inj c).mpr hp)
      · intro h p hp
        obtain rfl | ⟨q, rfl, hq⟩ := List.prefix_cons_iff.mp hp
        · simp
        · exact h q hq
    rw [beginnings, loneClosings]
    by_cases hopen : c = '('
    · subst hopen
      rw [if_pos rfl, Nat.sub_le_iff_le_add, ih]
      refine forall_congr' fun p => imp_congr_right fun _ => ?_
      rw [List.count_cons_of_ne (by decide), List.count_cons_self]
      omega
    · rw [if_neg hopen]
      by_cases hclose : c = ')'
      · subst hclose
        rw [if_pos rfl]
        cases k with
        | zero =>
          -- the first character alone has one closing parenthesis too many
          refine iff_of_false (Nat.not_succ_le_zero _) fun h => ?_
          have first := h [] List.nil_prefix
          simp at first
        | succ k =>
          rw [Nat.succ_le_succ_iff, ih]
          refine forall_congr' fun p => imp_congr_right fun _ => ?_
          rw [List.count_cons_self, List.count_cons_of_ne (by decide)]
          omega
      · rw [if_neg hclose, ih]
        refine forall_congr' fun p => imp_congr_right fun _ => ?_
        rw [List.count_cons_of_ne hclose, List.count_cons_of_ne hopen]

namespace Cancel

variable {w x : Text}

/-- Cancelling leaves the closing parentheses that have no partner. -/
theorem loneClosings_eq (h : Cancel w x) : loneClosings x = loneClosings w := by
  obtain ⟨a, b⟩ := h
  induction a with
  | nil => simp [loneClosings]
  | cons c a ih => rw [List.cons_append, List.cons_append, loneClosings, loneClosings, ih]

/-- Cancelling takes away as many opening as closing parentheses. -/
theorem count_eq (h : Cancel w x) :
    w.count '(' + x.count ')' = x.count '(' + w.count ')' := by
  obtain ⟨a, b⟩ := h
  simp only [List.count_append, List.count_cons]
  simp
  omega

/-- All that is cancelled leaves the closing parentheses that have no partner, and takes
away as many opening as closing ones. -/
theorem many_invariant (h : ReflTransGen Cancel w x) :
    loneClosings x = loneClosings w ∧ w.count '(' + x.count ')' = x.count '(' + w.count ')' := by
  induction h with
  | refl => exact ⟨rfl, rfl⟩
  | tail _ step ih =>
    have lone := step.loneClosings_eq
    have count := step.count_eq
    obtain ⟨ihl, ihc⟩ := ih
    exact ⟨lone.trans ihl, by omega⟩

end Cancel

/-! ## What is left -/

namespace Leaves

variable {w r : Text}

/-- A word in which nothing can be cancelled has its closing parentheses first. -/
theorem shape_of_settled (settled : ∀ x, ¬ Cancel r x) (hr : ∀ c ∈ r, isParen c = true) :
    r = List.replicate (loneClosings r) ')' ++ List.replicate (r.count '(') '(' := by
  induction r with
  | nil => rfl
  | cons c r ih =>
    rw [List.forall_mem_cons] at hr
    have behind := ih (fun x hx => settled _ (hx.cons c)) hr.2
    have hc : c = '(' ∨ c = ')' := by simpa [isParen] using hr.1
    rcases hc with rfl | rfl
    · -- no closing parenthesis comes behind an opening one
      have none : loneClosings r = 0 := by
        rcases Nat.eq_zero_or_pos (loneClosings r) with h | h
        · exact h
        · obtain ⟨n, hn⟩ := Nat.exists_eq_add_one_of_ne_zero (Nat.ne_of_gt h)
          rw [hn, List.replicate_succ, List.cons_append] at behind
          refine absurd (Cancel.pair [] (List.replicate n ')' ++ List.replicate (r.count '(') '('))
            ?_
          rw [List.nil_append, ← behind]
          exact settled _
      rw [none, List.replicate_zero, List.nil_append] at behind
      rw [loneClosings, if_pos rfl, none, List.count_cons_self, List.replicate_succ, ← behind]
      rfl
    · rw [loneClosings, if_neg (by decide), if_pos rfl, List.count_cons_of_ne (by decide),
        List.replicate_succ, List.cons_append, ← behind]

/-- A word in which nothing can be cancelled has only closing parentheses without a
partner. -/
theorem count_of_settled (settled : ∀ x, ¬ Cancel r x) (hr : ∀ c ∈ r, isParen c = true) :
    r.count ')' = loneClosings r := by
  rw [congrArg (List.count ')') (shape_of_settled settled hr), List.count_append,
    List.count_replicate_self, List.count_replicate]
  simp

/-- **One word is left**, in whatever order pairs are cancelled. -/
theorem unique (hw : ∀ c ∈ w, isParen c = true) {r' : Text} (h : Leaves w r)
    (h' : Leaves w r') : r = r' := by
  have paren := Cancel.isParen_of_many h.1 hw
  have paren' := Cancel.isParen_of_many h'.1 hw
  obtain ⟨lone, count⟩ := Cancel.many_invariant h.1
  obtain ⟨lone', count'⟩ := Cancel.many_invariant h'.1
  have closing := count_of_settled h.2 paren
  have closing' := count_of_settled h'.2 paren'
  have opening : r.count '(' = r'.count '(' := by omega
  rw [shape_of_settled h.2 paren, shape_of_settled h'.2 paren', opening, lone, lone']

end Leaves

/-- A word of parentheses is balanced: it has as many opening as closing ones, and no
beginning of it has fewer. -/
structure Balanced (w : Text) : Prop where
  /-- There are as many opening as closing parentheses. -/
  even : w.count '(' = w.count ')'
  /-- No beginning has more closing than opening ones. -/
  covered : ∀ p, p <+: w → p.count ')' ≤ p.count '('

/-- **Nothing is left exactly of the balanced words.** -/
theorem Leaves.eq_nil_iff {w r : Text} (hw : ∀ c ∈ w, isParen c = true) (h : Leaves w r) :
    r = [] ↔ Balanced w := by
  have paren := Cancel.isParen_of_many h.1 hw
  obtain ⟨lone, count⟩ := Cancel.many_invariant h.1
  have closing := count_of_settled h.2 paren
  have covered := loneClosings_le_iff w 0
  constructor
  · rintro rfl
    have none : loneClosings w = 0 := lone.symm
    refine ⟨?_, covered.mp (Nat.le_of_eq none)⟩
    simpa using count
  · rintro ⟨even, hcovered⟩
    have none : loneClosings w = 0 := Nat.le_zero.mp (covered.mpr hcovered)
    have opening : r.count '(' = 0 := by omega
    rw [shape_of_settled h.2 paren, lone, none, opening]
    rfl

/-- A word of parentheses of which nothing is left is balanced. -/
theorem Balanced.of_cancel {w : Text} (hw : ∀ c ∈ w, isParen c = true)
    (h : ReflTransGen Cancel w []) : Balanced w := by
  have settled : ∀ x, ¬ Cancel [] x := by
    intro x hx
    generalize hnil : ([] : Text) = w at hx
    obtain ⟨a, b⟩ := hx
    cases a <;> cases hnil
  exact (Leaves.eq_nil_iff hw ⟨h, settled⟩).mp rfl

end Teletype
