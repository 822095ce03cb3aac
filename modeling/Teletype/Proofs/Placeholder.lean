/-
# Placeholders

Reading placeholders back.  A placeholder is three words between percent signs, and none
of the words holds one, so that no placeholder is the beginning of another
(`Token.placeholder_prefix`).  Where every token of a table has a placeholder of its own, a
scan from left to right finds in a text the tokens that the text was written with, also
where placeholders stand side by side and parts of them look like other placeholders.
-/
import Teletype.Token

namespace Teletype

/-! ## Placeholders differ -/

/-- What stands before a first separator and behind it is told by the text. -/
theorem eq_of_append_separator {c : Char} {a b x y : Text} (ha : c ∉ a) (hb : c ∉ b)
    (h : a ++ c :: x = b ++ c :: y) : a = b ∧ x = y := by
  induction a generalizing b with
  | nil =>
    cases b with
    | nil => exact ⟨rfl, List.tail_eq_of_cons_eq h⟩
    | cons d b =>
      rw [List.nil_append, List.cons_append, List.cons.injEq] at h
      exact absurd (h.1 ▸ List.mem_cons_self) hb
  | cons d a ih =>
    cases b with
    | nil =>
      rw [List.nil_append, List.cons_append, List.cons.injEq] at h
      exact absurd (h.1 ▸ List.mem_cons_self) ha
    | cons e b =>
      rw [List.cons_append, List.cons_append, List.cons.injEq] at h
      obtain ⟨rfl, ht⟩ := h
      obtain ⟨rfl, hxy⟩ := ih (fun m => ha (List.mem_cons_of_mem _ m))
        (fun m => hb (List.mem_cons_of_mem _ m)) ht
      exact ⟨rfl, hxy⟩

/-- The word for a kind holds no percent sign. -/
theorem Token.Kind.percent_not_mem_tag (k : Kind) : '%' ∉ k.tag := by
  cases k <;> decide

/-- The word for a kind tells the kind. -/
theorem Token.Kind.tag_injective {k l : Kind} (h : k.tag = l.tag) : k = l := by
  cases k <;> cases l <;> first | rfl | (revert h; decide)

/-- Decimal digits hold no character that is not a digit. -/
theorem Decimal.not_mem_ofNat {c : Char} (h : isDigit c = false) (n : Nat) : c ∉ ofNat n := by
  intro m
  obtain ⟨-, digits, -⟩ := value_ofNat n
  rw [List.all_eq_true.mp digits c m] at h
  cases h

/-- Decimal digits tell the number. -/
theorem Decimal.ofNat_injective {n m : Nat} (h : ofNat n = ofNat m) : n = m := by
  rw [← (value_ofNat n).1, h, (value_ofNat m).1]

/-- A placeholder is a percent sign and what follows it. -/
theorem Token.placeholder_eq_cons (t : Token) :
    t.placeholder
      = '%' :: (t.kind.tag ++ '%' :: (Decimal.ofNat t.index ++ '%' :: (t.kind.tag ++ ['%']))) := by
  simp [placeholder]

/-- **No placeholder is the beginning of one of another kind or number.** -/
theorem Token.placeholder_prefix {t u : Token} {rest : Text}
    (h : t.placeholder <+: u.placeholder ++ rest) : t.kind = u.kind ∧ t.index = u.index := by
  obtain ⟨x, hx⟩ := h
  rw [placeholder_eq_cons, placeholder_eq_cons] at hx
  simp only [List.cons_append, List.append_assoc, List.cons.injEq, true_and] at hx
  obtain ⟨htag, hx⟩ := eq_of_append_separator t.kind.percent_not_mem_tag
    u.kind.percent_not_mem_tag hx
  obtain ⟨hindex, -⟩ := eq_of_append_separator (Decimal.not_mem_ofNat (by decide) _)
    (Decimal.not_mem_ofNat (by decide) _) hx
  exact ⟨Kind.tag_injective htag, Decimal.ofNat_injective hindex⟩

/-- The characters that delimit the words and the spans of a line. -/
def delimiters : List Char := ['"', '(', ')', ' ']

/-- No delimiter stands in a placeholder. -/
theorem Token.not_mem_placeholder {c : Char} (h : c ∈ delimiters) (t : Token) :
    c ∉ t.placeholder := by
  have tags : delimiters.all (fun d => d ∉ t.kind.tag) = true := by
    cases t.kind <;> rfl
  have digits : delimiters.all (fun d => !Decimal.isDigit d) = true := by rfl
  have marks : delimiters.all (fun d => d ≠ '%') = true := by rfl
  have tag := of_decide_eq_true (List.all_eq_true.mp tags c h)
  have digit := Bool.not_eq_true' _ ▸ List.all_eq_true.mp digits c h
  have mark := of_decide_eq_true (List.all_eq_true.mp marks c h)
  rw [placeholder_eq_cons]
  simp [tag, Decimal.not_mem_ofNat digit, mark]

/-- A text is shorter than with a placeholder in front. -/
theorem Token.length_lt_append (token : Token) (t : Text) :
    t.length < (token.placeholder ++ t).length := by
  have := List.length_pos_iff.mpr token.placeholder_ne_nil
  rw [List.length_append]
  omega

/-! ## Scanning -/

/-- No two tokens of a table have the same placeholder. -/
def Apart (tokens : List Token) : Prop :=
  ∀ t ∈ tokens, ∀ u ∈ tokens, t.kind = u.kind → t.index = u.index → t = u

/-- A character that is no percent sign stays. -/
theorem scanTokens_cons {c : Char} (h : c ≠ '%') (tokens : List Token) (rest : Text) :
    scanTokens tokens 0 (c :: rest) = .plain c :: scanTokens tokens 0 rest := by
  have none : tokens.find? (fun t => t.placeholder.isPrefixOf (c :: rest)) = none := by
    rw [List.find?_eq_none]
    intro t _ ht
    rw [Token.placeholder_eq_cons, List.isPrefixOf_cons_cons] at ht
    simp only [Bool.and_eq_true, beq_iff_eq] at ht
    exact h ht.1.symm
  rw [scanTokens, none]

/-- Characters of a placeholder that was found are passed over. -/
theorem scanTokens_append (tokens : List Token) (passed rest : Text) :
    scanTokens tokens passed.length (passed ++ rest) = scanTokens tokens 0 rest := by
  induction passed with
  | nil => rfl
  | cons c passed ih => exact ih

/-- **A placeholder is found where it stands, and the scan goes on behind it.** -/
theorem scanTokens_placeholder {tokens : List Token} (apart : Apart tokens) {t : Token}
    (ht : t ∈ tokens) (rest : Text) :
    scanTokens tokens 0 (t.placeholder ++ rest) = .item t :: scanTokens tokens 0 rest := by
  have found : tokens.find? (fun u => u.placeholder.isPrefixOf (t.placeholder ++ rest))
      = some t := by
    cases h : tokens.find? fun u => u.placeholder.isPrefixOf (t.placeholder ++ rest) with
    | none =>
      have := List.find?_eq_none.mp h t ht
      rw [List.isPrefixOf_iff_prefix] at this
      exact absurd (List.prefix_append _ _) this
    | some u =>
      have hu := List.find?_some h
      rw [List.isPrefixOf_iff_prefix] at hu
      obtain ⟨hkind, hindex⟩ := Token.placeholder_prefix hu
      rw [apart u (List.mem_of_find?_eq_some h) t ht hkind hindex]
  have hlength := List.length_pos_iff.mpr t.placeholder_ne_nil
  rw [Token.placeholder_eq_cons] at found hlength ⊢
  rw [List.cons_append] at found ⊢
  rw [scanTokens, found]
  simp only [Token.placeholder_eq_cons, List.length_cons, Nat.add_sub_cancel]
  rw [scanTokens_append]

end Teletype
