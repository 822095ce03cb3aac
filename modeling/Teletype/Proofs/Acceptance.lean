/-
# Phrases are accepted

The text of a well-formed phrase is balanced, because quotes and parentheses open and close
in it as its nodes do.  So it is tokenized, and as it is the text of one phrase only, the
main statement is that **the text of a well-formed phrase is expanded to what the phrase
comes to** (`Phrase.WellFormed.expand_eq`).
-/
import Teletype.Proofs.Balance
import Teletype.Proofs.Evaluation

namespace Teletype

open Relation (ReflTransGen)

/-! ## Texts inside and outside quotes -/

/-- A text without quotes stands outside quotes where it begins there. -/
theorem unquoted_append {t : Text} (h : '"' ∉ t) (x : Text) :
    unquoted false (t ++ x) = t ++ unquoted false x := by
  induction t with
  | nil => rfl
  | cons c t ih =>
    rw [List.mem_cons, not_or] at h
    rw [List.cons_append, unquoted, if_neg (Ne.symm h.1), ih h.2]
    rfl

/-- What stands between quotes is passed over. -/
theorem unquoted_quoted {t : Text} (h : '"' ∉ t) (x : Text) :
    unquoted true (t ++ '"' :: x) = unquoted false x := by
  induction t with
  | nil => rfl
  | cons c t ih =>
    rw [List.mem_cons, not_or] at h
    rw [List.cons_append, unquoted, if_neg (Ne.symm h.1)]
    exact ih h.2

namespace Phrase

/-! ## Delimiters of phrases -/

/-- No mark stands in a name. -/
theorem IsName.not_mem {name : Text} (h : IsName name) {c : Char} (hc : isMark c = true) :
    c ∉ name := by
  intro mem
  rw [isMark_of_isNameChar (h.2 c mem)] at hc
  cases hc

/-- No quote stands inside a quote. -/
theorem Row.quote_not_mem {p : Phrase} (h : p.Row quotable) : '"' ∉ p.text := by
  induction p with
  | done => exact List.not_mem_nil
  | char c rest ih =>
    obtain ⟨hc, -, hr⟩ := h
    have hc : c ≠ '"' := by simpa [quotable] using hc
    rw [text, List.mem_cons, not_or]
    exact ⟨Ne.symm hc, ih hr⟩
  | reference name rest ih =>
    obtain ⟨hname, -, hr⟩ := h
    rw [text, List.cons_append, List.mem_cons, List.mem_append, not_or, not_or]
    exact ⟨by decide, hname.not_mem rfl, ih hr⟩
  | quote _ _ => exact absurd h id
  | paren _ _ => exact absurd h id

/-- The quotes of a phrase pair up. -/
theorem WellFormed.count_quote {p : Phrase} (h : p.WellFormed) : p.text.count '"' % 2 = 0 := by
  induction p with
  | done => rfl
  | char c rest ih =>
    obtain ⟨hc, -, hr⟩ := h
    have hc : (c ≠ '"' ∧ c ≠ '(') ∧ c ≠ ')' := by simpa [bare] using hc
    rw [text, List.count_cons_of_ne hc.1.1]
    exact ih hr
  | reference name rest ih =>
    obtain ⟨hname, -, hr⟩ := h
    rw [text, List.cons_append, List.count_cons_of_ne (by decide), List.count_append,
      List.count_eq_zero_of_not_mem (hname.not_mem rfl), Nat.zero_add]
    exact ih hr
  | quote inside rest _ ih =>
    have even := ih h.2
    rw [text, List.cons_append, List.count_cons_self, List.count_append, List.count_cons_self,
      List.count_eq_zero_of_not_mem h.1.quote_not_mem]
    omega
  | paren inside rest ihi ih =>
    have inner := ihi h.1
    have even := ih h.2
    rw [text, List.cons_append, List.count_cons_of_ne (by decide), List.count_append,
      List.count_cons_of_ne (by decide)]
    omega

/-- **The parentheses of a phrase are cancelled**, whatever stands behind it. -/
theorem WellFormed.cancel {p : Phrase} (h : p.WellFormed) (x : Text) :
    ReflTransGen Cancel (brackets (p.text ++ x)) (brackets x) := by
  induction p generalizing x with
  | done => exact .refl
  | char c rest ih =>
    obtain ⟨hc, -, hr⟩ := h
    have hc : (c ≠ '"' ∧ c ≠ '(') ∧ c ≠ ')' := by simpa [bare] using hc
    have plain : brackets (c :: (rest.text ++ x)) = brackets (rest.text ++ x) := by
      rw [brackets, unquoted, if_neg hc.1.1]
      exact List.filter_cons_of_neg (by simp [isParen, hc.1.2, hc.2])
    rw [text, List.cons_append, plain]
    exact ih hr x
  | reference name rest ih =>
    obtain ⟨hname, -, hr⟩ := h
    have quoteless : '"' ∉ '$' :: name := by
      rw [List.mem_cons, not_or]
      exact ⟨by decide, hname.not_mem rfl⟩
    have plain : parens ('$' :: name) = [] := by
      refine parens_eq_nil ?_ ?_ <;> rw [List.mem_cons, not_or] <;>
        exact ⟨by decide, hname.not_mem rfl⟩
    rw [text, List.append_assoc, brackets, unquoted_append quoteless, parens_append, plain]
    exact ih hr x
  | quote inside rest _ ih =>
    have passed : brackets ('"' :: (inside.text ++ '"' :: (rest.text ++ x)))
        = brackets (rest.text ++ x) := by
      rw [brackets, unquoted, if_pos rfl, Bool.not_false, unquoted_quoted h.1.quote_not_mem,
        brackets]
    rw [text, List.cons_append, List.cons_append, List.append_assoc, List.cons_append, passed]
    exact ih h.2 x
  | paren inside rest ihi ih =>
    have opened : brackets ('(' :: (inside.text ++ ')' :: (rest.text ++ x)))
        = '(' :: brackets (inside.text ++ ')' :: (rest.text ++ x)) := rfl
    have closed : brackets (')' :: (rest.text ++ x)) = ')' :: brackets (rest.text ++ x) := rfl
    rw [text, List.cons_append, List.cons_append, List.append_assoc, List.cons_append, opened]
    -- what stands inside is cancelled up to the closing parenthesis
    have inner := ihi h.1 (')' :: (rest.text ++ x))
    rw [closed] at inner
    exact (Cancel.many_enclosed inner).trans (ih h.2 x)

/-! ## Phrases as lines -/

/-- **The text of a well-formed phrase is accepted.** -/
theorem WellFormed.accepted {p : Phrase} (h : p.WellFormed) :
    ∃ tokenized, tokenize p.text = .ok tokenized := by
  have cancelled := h.cancel []
  rw [List.append_nil] at cancelled
  exact (accepted_iff p.text).mpr
    ⟨h.count_quote, Balanced.of_cancel (isParen_brackets p.text) cancelled⟩

/-- **The text of a well-formed phrase is expanded to what the phrase comes to**, in a host
that lets tokens stand as deep inside one another as they do in the phrase. -/
theorem WellFormed.expand_eq {p : Phrase} (h : p.WellFormed) (clean : '%' ∉ p.text) {host : Host}
    (hb : p.depth < host.bound) :
    host.expand (Text.words p.text) = p.evaluateWords host.dispatch := by
  obtain ⟨tokenized, accepted⟩ := h.accepted
  obtain ⟨q, t, hq, ht, hwords, hs, apart⟩ := exists_phrase_of_tokenize clean accepted
  obtain rfl := hq.unique h ht
  rw [Host.expand, Text.unwords_words, Expansion.expandLine, accepted]
  show tokenized.words.mapM _ = _
  rw [hwords, evaluateWords]
  exact mapM_expand_eq apart host.dispatch hs.words fun w hw =>
    Nat.lt_of_le_of_lt (depth_le_of_mem_words hw) hb

end Phrase

end Teletype
