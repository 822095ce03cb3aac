/-
# Lines without parentheses

Nothing is carried out while the words of a line are expanded in which no parenthesis is
opened: its tokens are variables and quotes, and these are only looked at.  The main
statement is that **the expansion of such a line leaves the terminal as it is**
(`Host.still_expand`), whether it gives words or ends in a fault.
-/
import Teletype.Command
import Teletype.Text.Blank
import Teletype.Proofs.Balance
import Teletype.Proofs.Tokenization

namespace Teletype

/-! ## Acts that only look -/

/-- However the act ends, the terminal is as it was. -/
def Act.Still {α : Type} (a : Act α) : Prop := ∀ s r u, a.run s = some (r, u) → u = s

namespace Act.Still

variable {α β : Type} {a : Act α} {f : α → Act β}

/-- A value or a fault is given. -/
theorem ofExcept (r : Except Fault α) : Still (Act.ofExcept r) := by
  intro s r' u h
  cases h
  rfl

/-- A value is given. -/
theorem pure (x : α) : Still (Pure.pure x : Act α) := ofExcept (.ok x)

/-- A fault is thrown. -/
theorem throw (f : Fault) : Still (MonadExcept.throw f : Act α) := ofExcept (.error f)

/-- One act is done after another. -/
theorem bind (h : Still a) (hf : ∀ x, Still (f x)) : Still (a >>= f) := by
  intro s r u hr
  rcases Act.bind_eq_some.mp hr with ⟨e, he, -⟩ | ⟨x, t, hx, hr'⟩
  · exact h s _ u he
  · obtain rfl := h s _ t hx
    exact hf x t r u hr'

/-- One act is done after a value or a fault was given. -/
theorem given {r : Except Fault α} (hf : ∀ x, r = .ok x → Still (f x)) :
    Still (Act.ofExcept r >>= f) := by
  cases r with
  | error e => exact throw e
  | ok x => exact hf x rfl

/-- The session is looked at. -/
theorem session {f : Session → Act β} (hf : ∀ x, Still (f x)) :
    Still (liftM Run.session >>= f) := by
  intro s r u h
  rw [Act.run_session_bind] at h
  exact hf _ s r u h

/-- Acts are done on the items of a list. -/
theorem mapM {g : α → Act β} (h : ∀ x, Still (g x)) (l : List α) : Still (l.mapM g) := by
  induction l with
  | nil => exact pure _
  | cons x l ih =>
    rw [List.mapM_cons]
    exact bind (h x) fun y => bind ih fun ys => pure _

/-- A variable is looked up. -/
theorem lookUp (name : Text) : Still (Expansion.lookUp name) := by
  refine session fun s => ?_
  split
  · exact pure _
  · exact throw _

end Act.Still

/-! ## Lines without parentheses -/

/-- What is put in the place of placeholders are tokens of the line. -/
theorem mem_of_item_mem_scanTokens {tokens : List Token} {t : Token} {skip : Nat} {text : Text}
    (h : .item t ∈ scanTokens tokens skip text) : t ∈ tokens := by
  fun_induction scanTokens tokens skip text with
  | case1 => cases h
  | case2 _ _ _ ih => exact ih h
  | case3 _ _ _ found ih =>
    rcases List.mem_cons.mp h with same | behind
    · cases same
      exact List.mem_of_find?_eq_some found
    · exact ih behind
  | case4 _ _ _ ih =>
    rcases List.mem_cons.mp h with same | behind
    · cases same
    · exact ih behind

/-- A character outside the quotes of a line is one of its characters. -/
theorem mem_of_mem_unquoted {c : Char} {quoted : Bool} {line : Text}
    (h : c ∈ unquoted quoted line) : c ∈ line := by
  fun_induction unquoted quoted line with
  | case1 => exact h
  | case2 _ _ ih => exact List.mem_cons_of_mem _ (ih h)
  | case3 _ _ _ ih => exact List.mem_cons_of_mem _ (ih h)
  | case4 _ _ _ _ _ ih =>
    rcases List.mem_cons.mp h with rfl | h
    · exact List.mem_cons_self
    · exact List.mem_cons_of_mem _ (ih h)

/-- **A line without parentheses has no token that is one.** -/
theorem kind_ne_paren_of_tokenize {line : Text} {tokenized : Tokenized} (flat : '(' ∉ line)
    (h : tokenize line = .ok tokenized) : ∀ t ∈ tokenized.tokens, t.kind ≠ .paren := by
  have marks : (numberSpans .variable 0 (variablePieces line)).1.filter isMark
      = line.filter isMark := by
    rw [filter_numberSpans fun _ h => h, filter_variablePieces]
  obtain ⟨references, -⟩ := Numbered.numberSpans .variable 0 (variablePieces line)
  unfold tokenize at h
  generalize numberSpans .variable 0 (variablePieces line) = bound at marks references h
  obtain ⟨named, bindings⟩ := bound
  simp only at marks references h
  -- neither the names nor the quotes that were taken out leave a parenthesis
  have unopened : '(' ∉ named := by
    intro mem
    have marked : '(' ∈ named.filter isMark := List.mem_filter.mpr ⟨mem, rfl⟩
    rw [marks] at marked
    exact flat (List.mem_filter.mp marked).1
  rcases hq : quotePieces _ with _ | pieces
  · rw [hq] at h
    cases h
  · rw [hq] at h
    have plain := (plains_alternate _).1 pieces hq
    have left : '(' ∉ (numberSpans .quote 0 pieces).1 := by
      intro mem
      have marked : '(' ∈ (numberSpans .quote 0 pieces).1.filter isMark :=
        List.mem_filter.mpr ⟨mem, rfl⟩
      rw [filter_numberSpans fun _ h => h, plain] at marked
      exact unopened (mem_of_mem_unquoted (List.mem_filter.mp marked).1)
    obtain ⟨quotes, -⟩ := Numbered.numberSpans .quote 0 pieces
    dsimp only at h
    rw [List.count_eq_zero_of_not_mem left, extractParens, if_neg left] at h
    split at h
    · cases h
    · cases h
      intro t ht
      rw [List.nil_append, List.mem_append] at ht
      rcases ht with ht | ht
      · rw [quotes t ht]
        decide
      · rw [references t ht]
        decide

namespace Expansion

/-- Without parentheses among the tokens a text is expanded by looking at variables. -/
theorem still_expand (dispatch : Text → Run Output) {tokens : List Token}
    (flat : ∀ t ∈ tokens, t.kind ≠ .paren) (bound : Nat) (text : Text) :
    (expand dispatch tokens bound text).Still := by
  -- what stands inside a quote is expanded within a smaller bound
  induction bound generalizing text with
  | zero =>
    intro s r u h
    cases h
  | succ bound ih =>
    rw [expand]
    have items : ∀ t, .item t ∈ scanTokens tokens 0 text → t.kind ≠ .paren :=
      fun t ht => flat t (mem_of_item_mem_scanTokens ht)
    generalize scanTokens tokens 0 text = pieces at items
    induction pieces with
    | nil => exact .pure _
    | cons piece pieces rest =>
      have rest := rest fun t ht => items t (List.mem_cons_of_mem _ ht)
      cases piece with
      | plain c => exact .bind rest fun _ => .pure _
      | item token =>
        refine .bind ?_ fun value => .bind rest fun _ => .pure _
        dsimp only
        split
        · exact .lookUp _
        · exact ih _
        · next paren => exact absurd paren (items token List.mem_cons_self)

end Expansion

/-- **The words of a line without parentheses are expanded by looking at variables.** -/
theorem Host.still_expand (host : Host) {words : List Text} (flat : '(' ∉ Text.unwords words) :
    (host.expand words).Still := by
  unfold Host.expand Expansion.expandLine
  split
  · exact .throw _
  · next h =>
    exact .mapM (fun text =>
      Expansion.still_expand _ (kind_ne_paren_of_tokenize flat h) _ text) _

/-- So are they sorted by a grammar of flags. -/
theorem Host.still_parse (host : Host) (g : Flags.Grammar) (o : Flags.Options) {words : List Text}
    (flat : '(' ∉ Text.unwords words) : (host.parse g o words).Still := by
  unfold Host.parse
  split
  · exact .bind (host.still_expand flat) fun words => .pure _
  · exact .pure _

end Teletype
