/-
# Evaluating phrases

What a phrase comes to: its characters stay, a reference is looked up when it is reached,
a quote is what stands in it, and a parenthesis is what the line in it gives back when it
is carried out without printing.  No placeholders occur in this.  The main statement is
that **a text that stands for a phrase is expanded to what the phrase comes to**
(`Stands.expand_eq`), for every way to carry out lines.
-/
import Mathlib.Data.List.Forall2
import Teletype.Command
import Teletype.Proofs.Below
import Teletype.Proofs.Tokenization

namespace Teletype

/-! ## The evaluation of a phrase -/

namespace Phrase

/-- The text that a phrase comes to, from left to right. -/
def evaluate (dispatch : Text → Run Output) : Phrase → Act Text
  | done => pure []
  | char c rest => do
    let behind ← rest.evaluate dispatch
    pure (c :: behind)
  | reference name rest => do
    let value ← Expansion.lookUp name
    let behind ← rest.evaluate dispatch
    pure (value ++ behind)
  | quote inside rest => do
    let value ← inside.evaluate dispatch
    let behind ← rest.evaluate dispatch
    pure (value ++ behind)
  | paren inside rest => do
    let line ← inside.evaluate dispatch
    let output ← Expansion.valueOf dispatch line
    let behind ← rest.evaluate dispatch
    pure (output.value ++ behind)

/-- Put a node in front of the first of some phrases. -/
def onHead (node : Phrase → Phrase) : List Phrase → List Phrase
  | [] => [node done]
  | p :: ps => node p :: ps

/-- The words of a phrase: what stands between single spaces outside quotes and
parentheses. -/
def words : Phrase → List Phrase
  | done => [done]
  | char c rest => if c = ' ' then done :: rest.words else onHead (char c) rest.words
  | reference name rest => onHead (reference name) rest.words
  | quote inside rest => onHead (quote inside) rest.words
  | paren inside rest => onHead (paren inside) rest.words

/-- The texts that the words of a phrase come to, from left to right. -/
def evaluateWords (dispatch : Text → Run Output) (p : Phrase) : Act (List Text) :=
  p.words.mapM (evaluate dispatch)

/-- What stands in the parentheses, in the order in which they are closed. -/
def closings : Phrase → List Phrase
  | done => []
  | char _ rest => rest.closings
  | reference _ rest => rest.closings
  | quote inside rest => inside.closings ++ rest.closings
  | paren inside rest => inside.closings ++ inside :: rest.closings

/-- A phrase has at least one word. -/
theorem words_ne_nil (p : Phrase) : p.words ≠ [] := by
  have head : ∀ (node : Phrase → Phrase) (ps : List Phrase), onHead node ps ≠ [] := by
    intro node ps
    cases ps <;> exact List.cons_ne_nil _ _
  cases p with
  | done => exact List.cons_ne_nil _ _
  | char c rest =>
    rw [words]
    split
    · exact List.cons_ne_nil _ _
    · exact head _ _
  | _ => exact head _ _

/-- With a node in front of the first of some phrases, each is as before or has it. -/
theorem mem_onHead {node : Phrase → Phrase} {ps : List Phrase} {w : Phrase}
    (h : w ∈ onHead node ps) : w ∈ ps ∨ ∃ q ∈ done :: ps, w = node q := by
  cases ps with
  | nil => exact .inr ⟨done, List.mem_cons_self, List.mem_singleton.mp h⟩
  | cons p ps =>
    rcases List.mem_cons.mp h with rfl | h
    · exact .inr ⟨p, List.mem_cons_of_mem _ List.mem_cons_self, rfl⟩
    · exact .inl (List.mem_cons_of_mem _ h)

/-- With a node in front of the first of some phrases, none is deeper than the node makes
them. -/
theorem depth_le_of_mem_onHead (node : Phrase → Phrase) {ps : List Phrase} {w : Phrase}
    {m n : Nat} (hnode : ∀ q, q.depth ≤ m → (node q).depth ≤ n) (hmn : m ≤ n)
    (hps : ∀ q ∈ ps, q.depth ≤ m) (h : w ∈ onHead node ps) : w.depth ≤ n := by
  rcases mem_onHead h with h | ⟨q, hq, rfl⟩
  · exact Nat.le_trans (hps w h) hmn
  · apply hnode
    rcases List.mem_cons.mp hq with rfl | hq
    · exact Nat.zero_le m
    · exact hps q hq

/-- A word is no deeper than the phrase. -/
theorem depth_le_of_mem_words {p w : Phrase} (h : w ∈ p.words) : w.depth ≤ p.depth := by
  induction p generalizing w with
  | done => rw [List.mem_singleton.mp h]
  | char c rest ih =>
    rw [words] at h
    split at h
    · rcases List.mem_cons.mp h with rfl | h
      · exact Nat.zero_le _
      · exact ih h
    · exact depth_le_of_mem_onHead (char c) (fun _ hq => hq) (Nat.le_refl _) (fun _ => ih) h
  | reference name rest ih =>
    exact depth_le_of_mem_onHead (reference name) (fun _ hq => hq) (Nat.le_refl _) (fun _ => ih) h
  | quote inside rest _ ih =>
    refine depth_le_of_mem_onHead (quote inside) (fun q hq => ?_) (Nat.le_max_right _ _) (fun _ => ih) h
    show max (inside.depth + 1) q.depth ≤ max (inside.depth + 1) rest.depth
    omega
  | paren inside rest _ ih =>
    refine depth_le_of_mem_onHead (paren inside) (fun q hq => ?_) (Nat.le_max_right _ _) (fun _ => ih) h
    show max (inside.depth + 1) q.depth ≤ max (inside.depth + 1) rest.depth
    omega

end Phrase

/-! ## Expansion is evaluation -/

/-- What one act gives, another gives as well. -/
def Act.Below {α : Type} (a b : Act α) : Prop :=
  ∀ s r u, a.run s = some (r, u) → b.run s = some (r, u)

/-- To give less is to give less on all terminals. -/
theorem Act.below_iff {α : Type} {a b : Act α} : a.Below b ↔ a.BelowOn (fun _ => True) b :=
  ⟨fun h s r u _ => h s r u, fun h s r u => h s r u trivial⟩

/-- Acts on the items of a list give what acts above them give. -/
theorem Act.Below.mapM {α β : Type} {f g : α → Act β} (h : ∀ x, Below (f x) (g x))
    (l : List α) : Below (l.mapM f) (l.mapM g) :=
  below_iff.mpr (.mapM (fun x => below_iff.mp (h x)) (fun _ _ _ _ _ _ => trivial) l)

namespace Expansion

/-- A larger bound gives what a smaller one gives. -/
theorem expand_below (dispatch : Text → Run Output) (tokens : List Token) {m n : Nat}
    (h : m ≤ n) (t : Text) :
    (expand dispatch tokens m t).Below (expand dispatch tokens n t) :=
  Act.below_iff.mpr (expand_belowOn (fun _ => .refl _) (fun _ _ _ _ _ _ => trivial)
    (fun _ _ _ _ _ _ _ => trivial) h t)

/-- What a token comes to when it is expanded. -/
def tokenValue (dispatch : Text → Run Output) (tokens : List Token) (bound : Nat)
    (token : Token) : Act Text :=
  match token.kind with
  | .variable => lookUp token.raw
  | .quote => expand dispatch tokens bound token.raw
  | .paren => do
    let line ← expand dispatch tokens bound token.raw
    let output ← valueOf dispatch line
    pure output.value

variable {tokens : List Token} (dispatch : Text → Run Output) (bound : Nat)

/-- A character that begins no placeholder stays. -/
theorem expand_cons {c : Char} (hc : c ≠ '%') (t : Text) :
    expand dispatch tokens (bound + 1) (c :: t) = (do
      let behind ← expand dispatch tokens (bound + 1) t
      pure (c :: behind)) := by
  rw [expand, scanTokens_cons hc, fill]
  rfl

/-- A placeholder is expanded to what its token comes to. -/
theorem expand_placeholder (apart : Apart tokens) {token : Token} (ht : token ∈ tokens)
    (t : Text) :
    expand dispatch tokens (bound + 1) (token.placeholder ++ t) = (do
      let value ← tokenValue dispatch tokens bound token
      let behind ← expand dispatch tokens (bound + 1) t
      pure (value ++ behind)) := by
  rw [expand, scanTokens_placeholder apart ht, fill]
  rfl

end Expansion

/-- **A text that stands for a phrase is expanded to what the phrase comes to.** -/
theorem Stands.expand_eq {tokens : List Token} (apart : Apart tokens)
    (dispatch : Text → Run Output) {t : Text} {p : Phrase} (h : Stands tokens t p) {bound : Nat}
    (hb : p.depth < bound) :
    Expansion.expand dispatch tokens bound t = p.evaluate dispatch := by
  -- every node needs one step of the bound, and what stands in a span one less
  induction h generalizing bound with
  | done =>
    obtain ⟨bound, rfl⟩ := Nat.exists_eq_add_one_of_ne_zero (Nat.ne_zero_of_lt hb)
    rfl
  | char hc _ ih =>
    obtain ⟨bound, rfl⟩ := Nat.exists_eq_add_one_of_ne_zero (Nat.ne_zero_of_lt hb)
    rw [Phrase.evaluate, ← ih hb, Expansion.expand_cons dispatch bound hc]
  | reference hm _ ih =>
    obtain ⟨bound, rfl⟩ := Nat.exists_eq_add_one_of_ne_zero (Nat.ne_zero_of_lt hb)
    rw [Phrase.evaluate, ← ih hb, Expansion.expand_placeholder dispatch bound apart hm,
      Expansion.tokenValue]
  | quote hm _ _ ihi ih =>
    obtain ⟨bound, rfl⟩ := Nat.exists_eq_add_one_of_ne_zero (Nat.ne_zero_of_lt hb)
    rw [Phrase.depth] at hb
    have inner := @ihi bound (by omega)
    have behind := @ih (bound + 1) (by omega)
    rw [Phrase.evaluate, ← inner, ← behind, Expansion.expand_placeholder dispatch bound apart hm,
      Expansion.tokenValue]
  | paren hm _ _ ihi ih =>
    obtain ⟨bound, rfl⟩ := Nat.exists_eq_add_one_of_ne_zero (Nat.ne_zero_of_lt hb)
    rw [Phrase.depth] at hb
    have inner := @ihi bound (by omega)
    have behind := @ih (bound + 1) (by omega)
    rw [Phrase.evaluate, ← inner, ← behind, Expansion.expand_placeholder dispatch bound apart hm,
      Expansion.tokenValue]
    simp only [bind_assoc, pure_bind]

/-! ## Words -/

/-- Characters in front of a text that stands for a node are in front of its first word. -/
theorem Stands.words_append {tokens : List Token} {x t : Text} {p : Phrase}
    {node : Phrase → Phrase} (hx : ' ' ∉ x)
    (hnode : ∀ {u q}, Stands tokens u q → Stands tokens (x ++ u) (node q))
    (h : List.Forall₂ (Stands tokens) (Text.words t) p.words) :
    List.Forall₂ (Stands tokens) (Text.words (x ++ t)) (Phrase.onHead node p.words) := by
  obtain ⟨a, as, ht⟩ := List.exists_cons_of_ne_nil (Text.cut_ne_nil ' ' t)
  obtain ⟨q, qs, hp⟩ := List.exists_cons_of_ne_nil p.words_ne_nil
  rw [Text.words, ht, hp, List.forall₂_cons] at h
  rw [Text.words, Text.cut_append hx ht, hp, Phrase.onHead, List.forall₂_cons]
  exact ⟨hnode h.1, h.2⟩

/-- **The words of a text stand for the words of its phrase.** -/
theorem Stands.words {tokens : List Token} {t : Text} {p : Phrase} (h : Stands tokens t p) :
    List.Forall₂ (Stands tokens) (Text.words t) p.words := by
  induction h with
  | done => exact .cons .done .nil
  | @char c t rest hc _ ih =>
    by_cases hs : c = ' '
    · rw [Phrase.words, if_pos hs, Text.words, Text.cut, if_pos hs]
      exact .cons .done ih
    · rw [Phrase.words, if_neg hs]
      have hx : ' ' ∉ [c] := by simpa using Ne.symm hs
      exact words_append (x := [c]) hx (fun h => .char hc h) ih
  | reference hm _ ih =>
    exact words_append (Token.not_mem_placeholder (by decide) _) (fun h => .reference hm h) ih
  | quote hm hi _ _ ih =>
    exact words_append (Token.not_mem_placeholder (by decide) _) (fun h => .quote hm hi h) ih
  | paren hm hi _ _ ih =>
    exact words_append (Token.not_mem_placeholder (by decide) _) (fun h => .paren hm hi h) ih

/-- Words that stand for phrases are expanded to what these come to. -/
theorem mapM_expand_eq {tokens : List Token} (apart : Apart tokens)
    (dispatch : Text → Run Output) {ts : List Text} {ps : List Phrase}
    (h : List.Forall₂ (Stands tokens) ts ps) {bound : Nat} (hb : ∀ p ∈ ps, p.depth < bound) :
    ts.mapM (Expansion.expand dispatch tokens bound) = ps.mapM (Phrase.evaluate dispatch) := by
  induction h with
  | nil => rfl
  | cons ht _ ih =>
    rw [List.forall_mem_cons] at hb
    rw [List.mapM_cons, List.mapM_cons, ht.expand_eq apart dispatch hb.1, ih hb.2]

end Teletype
