/-
# Choices

The operands of a choice are found in the words of its line by two scans: one looks for the
keywords at which nothing is open, the other for the end of the parenthesis or the quote
that an operand begins with.  Both agree with the way in which operands are written.  The
main statement is that **a choice evaluates its condition once, without printing, and then
carries out exactly one of its branches** (`Registry.dispatch_choice`), whatever keywords,
spaces and marks of spans stand inside its parentheses and quotes.
-/
import Teletype.Proofs.Address
import Teletype.Proofs.Balance

namespace Teletype

/-- A beginning of a text is a beginning of it outside quotes as well. -/
theorem unquoted_isPrefix (quoted : Bool) {p t : Text} (h : p <+: t) :
    unquoted quoted p <+: unquoted quoted t := by
  obtain ⟨rest, rfl⟩ := h
  induction p generalizing quoted with
  | nil => exact List.nil_prefix
  | cons c p ih =>
    rw [List.cons_append, unquoted, unquoted]
    split
    · exact ih _
    · split
      · exact ih _
      · exact (List.prefix_cons_inj c).mpr (ih _)

namespace Command

/-! ## Nesting -/

namespace Nesting

variable {n : Nesting}

/-- The nesting behind a character and a text. -/
theorem after_cons (n : Nesting) (c : Char) (t : Text) :
    n.after (c :: t) = (n.step c).after t := rfl

/-- A text without quotes and parentheses leaves the nesting. -/
theorem after_of_plain {t : Text} (h : ∀ c ∈ t, isMark c = false) : n.after t = n := by
  induction t with
  | nil => rfl
  | cons c t ih =>
    rw [List.forall_mem_cons] at h
    have still : n.step c = n := by
      have plain := h.1
      simp only [isMark, isParen, Bool.or_eq_false_iff, decide_eq_false_iff_not] at plain
      simp [step, plain]
    rw [after_cons, still, ih h.2]

/-- Inside a quote only a quote changes the nesting. -/
theorem after_quoted {t : Text} (quoted : n.quoted = true) (h : '"' ∉ t) : n.after t = n := by
  induction t with
  | nil => rfl
  | cons c t ih =>
    rw [List.mem_cons, not_or] at h
    have still : n.step c = n := by
      simp [step, quoted, Ne.symm h.1]
    rw [after_cons, still, ih h.2]

/-- **The nesting behind a text** counts its parentheses outside quotes, and its quotes. -/
theorem after_eq (n : Nesting) (t : Text) :
    n.after t = {
      depth := n.depth + (unquoted n.quoted t).count '(' - (unquoted n.quoted t).count ')'
      quoted := n.quoted ^^ decide (t.count '"' % 2 = 1) } := by
  induction t generalizing n with
  | nil => simp [after, unquoted]
  | cons c t ih =>
    rw [after_cons, ih]
    obtain ⟨depth, quoted⟩ := n
    by_cases quote : c = '"'
    · subst quote
      have odd : decide ((t.count '"' + 1) % 2 = 1) = !decide (t.count '"' % 2 = 1) := by
        rcases Nat.mod_two_eq_zero_or_one (t.count '"') with even | odd <;> simp [Nat.add_mod, *]
      simp [step, unquoted, odd]
    · cases quoted with
      | true => simp [step, unquoted, quote]
      | false =>
        by_cases opening : c = '('
        · subst opening
          have stepped : step ⟨depth, false⟩ '(' = ⟨depth + 1, false⟩ := rfl
          have outside : unquoted false ('(' :: t) = '(' :: unquoted false t := rfl
          rw [stepped, outside, List.count_cons_self, List.count_cons_of_ne (by decide),
            List.count_cons_of_ne (by decide)]
          dsimp only
          exact congrArg₂ Nesting.mk (by omega) rfl
        · by_cases closing : c = ')'
          · subst closing
            have stepped : step ⟨depth, false⟩ ')' = ⟨depth - 1, false⟩ := rfl
            have outside : unquoted false (')' :: t) = ')' :: unquoted false t := rfl
            rw [stepped, outside, List.count_cons_self, List.count_cons_of_ne (by decide),
              List.count_cons_of_ne (by decide)]
            dsimp only
            exact congrArg₂ Nesting.mk (by omega) rfl
          · simp [step, unquoted, quote, opening, closing]

/-- The nesting behind words is reached through the first. -/
theorem after_unwords_cons (n : Nesting) (w : Text) (ws : List Text) :
    n.after (Text.unwords (w :: ws)) = (n.after w).after (Text.unwords ws) := by
  cases ws with
  | nil => rfl
  | cons next ws =>
    have still : (n.after w).step ' ' = n.after w :=
      after_of_plain (t := [' ']) (List.forall_mem_singleton.mpr rfl)
    show n.after (w ++ ' ' :: Text.unwords (next :: ws)) = _
    rw [after_append, after_cons, still]

end Nesting

/-! ## Keywords -/

variable {keyword word : Text} {n : Nesting} {ws before behind : List Text}

/-- Words are split at a keyword at which nothing is open. -/
theorem splitKeyword_eq_some (h : splitKeyword keyword n ws = some (before, behind)) :
    ∃ word, ws = before ++ word :: behind ∧ Text.sameAscii word keyword = true ∧
      (n.after (Text.unwords before)).isTop = true := by
  induction ws generalizing n before with
  | nil => cases h
  | cons w ws ih =>
    rw [splitKeyword] at h
    split at h
    · next top =>
      cases h
      exact ⟨w, rfl, top.2, top.1⟩
    · obtain ⟨⟨before', behind'⟩, split, parts⟩ := Option.map_eq_some_iff.mp h
      cases parts
      obtain ⟨word, rfl, same, top⟩ := ih split
      exact ⟨word, rfl, same, by rw [Nesting.after_unwords_cons, top]⟩

/-- Words that are not split themselves are split off at a keyword behind them at which nothing
is open. -/
theorem splitKeyword_append (uncut : splitKeyword keyword n ws = none)
    (top : (n.after (Text.unwords ws)).isTop = true) (same : Text.sameAscii word keyword = true)
    (rest : List Text) : splitKeyword keyword n (ws ++ word :: rest) = some (ws, rest) := by
  induction ws generalizing n with
  | nil => exact if_pos ⟨top, same⟩
  | cons w ws ih =>
    rw [splitKeyword] at uncut
    rw [List.cons_append, splitKeyword]
    split at uncut
    · cases uncut
    · next other =>
      rw [Nesting.after_unwords_cons] at top
      rw [if_neg other, ih (Option.map_eq_none_iff.mp uncut) top]
      rfl

/-! ## Parentheses and quotes -/

/-- A parenthesis or a quote that is closed by its last character, and not before. -/
structure Spans (x : Text) : Prop where
  /-- It begins with a mark. -/
  marked : ∃ c rest, x = c :: rest ∧ (c = '(' ∨ c = '"')
  /-- Something is open behind every proper beginning. -/
  inside {p q : Text} : x = p ++ q → p ≠ [] → q ≠ [] → (Nesting.after {} p).isTop = false
  /-- Nothing is open behind the whole. -/
  whole : Nesting.after {} x = {}

/-- The quotes of a text are closed, and its parentheses outside them are balanced. -/
structure Enclosed (e : Text) : Prop where
  /-- Quotes come in pairs. -/
  closed : e.count '"' % 2 = 0
  /-- The parentheses outside quotes are balanced. -/
  balanced : Balanced (brackets e)

namespace Enclosed

variable {e p : Text}

/-- Outside quotes there are as many opening as closing parentheses. -/
theorem even (h : Enclosed e) : (unquoted false e).count '(' = (unquoted false e).count ')' := by
  have even := h.balanced.even
  rwa [brackets, parens, List.count_filter rfl, List.count_filter rfl] at even

/-- No beginning has more closing than opening parentheses outside quotes. -/
theorem covered (h : Enclosed e) (hp : p <+: e) :
    (unquoted false p).count ')' ≤ (unquoted false p).count '(' := by
  have covered := h.balanced.covered (brackets p) ((unquoted_isPrefix false hp).filter isParen)
  rwa [brackets, parens, List.count_filter rfl, List.count_filter rfl] at covered

end Enclosed

namespace Spans

variable {x e s : Text}

/-- A proper beginning of what is put between two marks is the first mark and a beginning of
what is put between. -/
theorem exists_beginning {c d : Char} {p q : Text} (h : c :: e ++ [d] = p ++ q) (hp : p ≠ [])
    (hq : q ≠ []) : ∃ p', p = c :: p' ∧ p' <+: e := by
  obtain ⟨c', p', rfl⟩ := List.exists_cons_of_ne_nil hp
  rw [List.cons_append, List.cons_append, List.cons.injEq] at h
  obtain ⟨rfl, tail⟩ := h
  refine ⟨p', rfl, ?_⟩
  rcases List.prefix_concat_iff.mp ⟨q, tail.symm⟩ with whole | inside
  · rw [whole, List.self_eq_append_right] at tail
    exact absurd tail hq
  · exact inside

/-- A quote without quotes inside. -/
theorem quote (h : '"' ∉ s) : Spans ('"' :: s ++ ['"']) where
  marked := ⟨_, _, rfl, .inr rfl⟩
  inside := by
    intro p q split hp hq
    obtain ⟨p', rfl, inside⟩ := exists_beginning split hp hq
    have still : Nesting.after { quoted := true } p' = { quoted := true } :=
      Nesting.after_quoted rfl fun mem => h (inside.subset mem)
    rw [Nesting.after_cons, show Nesting.step {} '"' = { quoted := true } from rfl, still]
    rfl
  whole := by
    have still : Nesting.after { quoted := true } s = { quoted := true } :=
      Nesting.after_quoted rfl h
    rw [List.cons_append, Nesting.after_cons, Nesting.after_append,
      show Nesting.step {} '"' = { quoted := true } from rfl, still]
    rfl

/-- A parenthesis around what is enclosed. -/
theorem paren (h : Enclosed e) : Spans ('(' :: e ++ [')']) where
  marked := ⟨_, _, rfl, .inl rfl⟩
  inside := by
    intro p q split hp hq
    obtain ⟨p', rfl, inside⟩ := exists_beginning split hp hq
    have covered := h.covered inside
    rw [Nesting.after_cons, Nesting.after_eq, Nesting.isTop, Bool.and_eq_false_iff,
      decide_eq_false_iff_not]
    left
    show ¬ (1 : Int) + (unquoted false p').count '(' - (unquoted false p').count ')' = 0
    omega
  whole := by
    have closed : decide (e.count '"' % 2 = 1) = false := by
      rw [h.closed]
      rfl
    have inner : Nesting.after { depth := 1 } e = { depth := 1 } := by
      rw [Nesting.after_eq]
      dsimp only
      rw [closed, h.even, Int.add_sub_cancel]
      rfl
    rw [List.cons_append, Nesting.after_cons, Nesting.after_append,
      show Nesting.step {} '(' = { depth := 1 } from rfl, inner]
    rfl

/-- A parenthesis or a quote is not split at a keyword that begins with a letter. -/
theorem splitKeyword_eq_none (h : Spans x)
    (lettered : ∀ rest, Text.sameAscii ('(' :: rest) keyword = false ∧
      Text.sameAscii ('"' :: rest) keyword = false) :
    splitKeyword keyword {} (Text.words x) = none := by
  obtain ⟨c, rest, hx, mark⟩ := h.marked
  refine Option.eq_none_iff_forall_ne_some.mpr fun ⟨before, behind⟩ split => ?_
  obtain ⟨word, parts, same, top⟩ := splitKeyword_eq_some split
  have space : c ≠ ' ' := by
    rintro rfl
    rcases mark with mark | mark <;> cases mark
  cases before with
  | nil =>
    -- the first word begins with the mark
    obtain ⟨w, ws, hw⟩ := Text.exists_words_cons space rest
    rw [hx, hw] at parts
    obtain ⟨rfl, -⟩ := List.cons.inj parts
    rcases mark with rfl | rfl
    · rw [(lettered w).1] at same
      cases same
    · rw [(lettered w).2] at same
      cases same
  | cons w ws =>
    -- something is open behind the first word
    have whole : x = Text.unwords (w :: ws) ++ ' ' :: Text.unwords (word :: behind) := by
      rw [← Text.unwords_append (List.cons_ne_nil _ _) (List.cons_ne_nil _ _), ← parts,
        Text.unwords_words]
    have nonempty : Text.unwords (w :: ws) ≠ [] := by
      intro nil
      rw [nil, hx] at whole
      exact space (List.cons.inj whole).1
    rw [h.inside whole nonempty (List.cons_ne_nil _ _)] at top
    cases top

end Spans

/-! ## Closing an operand -/

/-- Words are gathered up to the last if no text before is closed. -/
theorem firstClosed_eq {closed : Text → Bool} {t : Text} {ws : List Text}
    (whole : closed (Text.unwords (t :: ws)) = true)
    (inside : ∀ p q, Text.unwords (t :: ws) = p ++ ' ' :: q → closed p = false) :
    firstClosed closed t ws = some (Text.unwords (t :: ws)) := by
  induction ws generalizing t with
  | nil => exact if_pos whole
  | cons w ws ih =>
    have gathered : Text.unwords ((t ++ ' ' :: w) :: ws) = Text.unwords (t :: w :: ws) := by
      cases ws with
      | nil => rfl
      | cons next ws =>
        show t ++ ' ' :: w ++ ' ' :: Text.unwords (next :: ws) = _
        rw [List.append_assoc]
        rfl
    have unclosed : closed t = false := inside t (Text.unwords (w :: ws)) rfl
    rw [firstClosed, unclosed, if_neg Bool.false_ne_true, ← gathered]
    rw [← gathered] at whole inside
    exact ih whole inside

/-- A parenthesis is closed at its end and not before. -/
theorem firstClosed_paren {e head : Text} {ws : List Text} (h : Enclosed e)
    (hw : Text.words ('(' :: e ++ [')']) = head :: ws) :
    firstClosed closesParen head ws = some ('(' :: e ++ [')']) := by
  have spans := Spans.paren h
  have whole : Text.unwords (head :: ws) = '(' :: e ++ [')'] := by
    rw [← hw, Text.unwords_words]
  have last : ('(' :: e ++ [')']).getLast? = some ')' := List.getLast?_concat
  rw [← whole]
  refine firstClosed_eq ?_ fun p q split => ?_
  · rw [whole, closesParen, spans.whole, last]
    rfl
  · rw [whole] at split
    have nonempty : p ≠ [] := by
      rintro rfl
      cases split
    rw [closesParen, spans.inside split nonempty (List.cons_ne_nil _ _), Bool.false_and]

/-- A quote is closed at its end and not before. -/
theorem firstClosed_quote {s head : Text} {ws : List Text} (h : '"' ∉ s)
    (hw : Text.words ('"' :: s ++ ['"']) = head :: ws) :
    firstClosed closesQuote head ws = some ('"' :: s ++ ['"']) := by
  have whole : Text.unwords (head :: ws) = '"' :: s ++ ['"'] := by
    rw [← hw, Text.unwords_words]
  have last : ('"' :: s ++ ['"']).getLast? = some '"' := List.getLast?_concat
  rw [← whole]
  refine firstClosed_eq ?_ fun p q split => ?_
  · rw [whole, closesQuote, last]
    simp
  · rw [whole] at split
    have nonempty : p ≠ [] := by
      rintro rfl
      cases split
    obtain ⟨p', rfl, inside⟩ := Spans.exists_beginning split nonempty (List.cons_ne_nil _ _)
    cases p' with
    | nil => rfl
    | cons c p' =>
      -- what ends it would be a quote inside
      refine Bool.and_eq_false_iff.mpr (.inr (decide_eq_false fun ends => h (inside.subset ?_)))
      rw [List.getLast?_cons_cons] at ends
      exact List.mem_of_getLast? ends

/-! ## Clauses -/

/-- The keywords between the parts of a choice. -/
def branchWords : List Text := ["THEN".toList, "ELSE".toList]

/-- A stretch of a line without spaces, quotes and parentheses. -/
structure Simple (w : Text) : Prop where
  /-- It is one word. -/
  space : ' ' ∉ w
  /-- No quote and no parenthesis stands in it. -/
  plain : ∀ c ∈ w, isMark c = false
  /-- It does not end in a blank. -/
  full : w.EndsFull

/-- A word that stands for itself between the keywords of a choice. -/
structure Bare (w : Text) : Prop extends Simple w where
  /-- It has characters. -/
  nonempty : w ≠ []
  /-- It does not begin with the mark of a reference. -/
  constant : w.head? ≠ some '$'
  /-- It is none of the keywords. -/
  other : ∀ keyword ∈ branchWords, Text.sameAscii w keyword = false

/-- A word that stands for itself begins no operand that is more than a word. -/
theorem Bare.beginsOperand_eq {w : Text} (h : Bare w) : beginsOperand w = false := by
  obtain ⟨c, rest, rfl⟩ := List.exists_cons_of_ne_nil h.nonempty
  have mark := h.plain c List.mem_cons_self
  have constant : c ≠ '$' := fun same => h.constant (congrArg some same)
  simp only [isMark, isParen, Bool.or_eq_false_iff, decide_eq_false_iff_not] at mark
  simp [beginsOperand, mark, constant]

/-- A condition or a branch as it is written. -/
inductive Clause
  /-- A line in parentheses. -/
  | paren (e : Text) (h : Enclosed e)
  /-- A text in quotes. -/
  | quote (s : Text) (h : '"' ∉ s)
  /-- A reference to a variable. -/
  | reference (name : Text) (h : Simple name)
  /-- A word. -/
  | bare (w : Text) (h : Bare w)

namespace Clause

/-- The clause as it is written. -/
def text : Clause → Text
  | paren e _ => '(' :: e ++ [')']
  | quote s _ => '"' :: s ++ ['"']
  | reference name _ => '$' :: name
  | bare w _ => w

/-- What the clause comes to when nothing is printed: what the line gives back, the text in the
quotes, the value of the variable, or the word. -/
def value (host : Host) : Clause → Act Output
  | paren e _ => host.valueOf e
  | quote s _ => pure (.text s)
  | reference name _ => do
    let value ← Expansion.lookUp name
    pure (.text value)
  | bare w _ => pure (.text w)

/-- What the clause comes to when the line in it may print. -/
def perform (host : Host) : Clause → Act Output
  | paren e _ => do
    let output ← host.dispatch e
    if (← Run.status) ≠ 0 then throw (.runtime "expression evaluation failed.".toList)
    else pure output
  | quote s h => value host (quote s h)
  | reference name h => value host (reference name h)
  | bare w h => value host (bare w h)

/-- A choice between branches as it is written. -/
def choiceLine (condition positive : Clause) (negative : Option Clause) : Text :=
  match negative with
  | none => Text.unwords ["IF".toList, condition.text, "THEN".toList, positive.text]
  | some negative => Text.unwords
      ["IF".toList, condition.text, "THEN".toList, positive.text, "ELSE".toList, negative.text]

variable {c : Clause} {keyword : Text}

/-- A clause is written with a character that is not blank at its end. -/
theorem text_full (c : Clause) : c.text ≠ [] ∧ c.text.EndsFull := by
  cases c with
  | paren e => exact ⟨List.cons_ne_nil _ _, .concat _ rfl⟩
  | quote s => exact ⟨List.cons_ne_nil _ _, .concat _ rfl⟩
  | reference name h =>
    refine ⟨List.cons_ne_nil _ _, fun d hd => ?_⟩
    cases name with
    | nil =>
      cases hd
      rfl
    | cons e name => exact h.full d (List.getLast?_cons_cons ▸ hd)
  | bare w h => exact ⟨h.nonempty, h.full⟩

/-- Nothing is open behind a clause. -/
theorem after_text (c : Clause) : Nesting.after {} c.text = {} := by
  cases c with
  | paren e h => exact (Spans.paren h).whole
  | quote s h => exact (Spans.quote h).whole
  | reference name h =>
    exact Nesting.after_of_plain (List.forall_mem_cons.mpr ⟨rfl, h.plain⟩)
  | bare w h => exact Nesting.after_of_plain h.plain

/-- A keyword begins with a letter. -/
theorem sameAscii_keyword (hk : keyword ∈ branchWords) {c : Char} (hc : c ∈ ['(', '"', '$'])
    (rest : Text) : Text.sameAscii (c :: rest) keyword = false := by
  simp only [branchWords, List.mem_cons, List.not_mem_nil, or_false] at hk hc
  rcases hk with rfl | rfl <;> rcases hc with rfl | rfl | rfl <;>
    simp [Text.sameAscii, Text.lowerAscii]

/-- A word is not split at a keyword that it is not. -/
theorem splitKeyword_single {w : Text} (h : Text.sameAscii w keyword = false) (n : Nesting) :
    splitKeyword keyword n [w] = none := by
  rw [splitKeyword, h, if_neg fun top => Bool.false_ne_true top.2]
  rfl

/-- The clause is not the keyword. -/
def Differs (c : Clause) (keyword : Text) : Prop :=
  ∀ w h, c = .bare w h → Text.sameAscii w keyword = false

/-- A clause that is more than a word differs from a keyword. -/
theorem Differs.of_beginsOperand (h : beginsOperand c.text = true) : c.Differs keyword := by
  rintro w bare rfl
  exact absurd (bare.beginsOperand_eq.symm.trans h) Bool.false_ne_true

/-- A clause is not split at a keyword that begins with a letter, unless it is the keyword. -/
theorem splitKeyword_of_lettered
    (lettered : ∀ d ∈ ['(', '"', '$'], ∀ rest, Text.sameAscii (d :: rest) keyword = false)
    (other : c.Differs keyword) :
    splitKeyword keyword {} (Text.words c.text) = none := by
  have marks : ∀ rest, Text.sameAscii ('(' :: rest) keyword = false ∧
      Text.sameAscii ('"' :: rest) keyword = false := fun rest =>
    ⟨lettered '(' (by decide) rest, lettered '"' (by decide) rest⟩
  cases c with
  | paren e h => exact (Spans.paren h).splitKeyword_eq_none marks
  | quote s h => exact (Spans.quote h).splitKeyword_eq_none marks
  | reference name h =>
    have one : Text.words ('$' :: name) = ['$' :: name] :=
      Text.cut_of_not_mem (by simp [h.space])
    rw [text, one]
    exact splitKeyword_single (lettered '$' (by decide) name) _
  | bare w h =>
    have one : Text.words w = [w] := Text.cut_of_not_mem h.space
    rw [text, one]
    exact splitKeyword_single (other w h rfl) _

/-- A clause is split at no keyword. -/
theorem splitKeyword_eq_none (c : Clause) (hk : keyword ∈ branchWords) :
    splitKeyword keyword {} (Text.words c.text) = none :=
  splitKeyword_of_lettered (fun _ hc rest => sameAscii_keyword hk hc rest)
    fun _ h _ => h.other keyword hk

/-- Behind a clause words are split at a keyword. -/
theorem splitKeyword_text (c : Clause) (hk : keyword ∈ branchWords) (rest : List Text) :
    splitKeyword keyword {} (Text.words c.text ++ keyword :: rest)
      = some (Text.words c.text, rest) := by
  refine splitKeyword_append (c.splitKeyword_eq_none hk) ?_ (Text.sameAscii_self keyword) rest
  rw [Text.unwords_words, c.after_text]
  rfl

/-- The operand that the words of a clause make up. -/
def operand (bindings : Table Text Text) : Clause → Except Fault Operand
  | paren e _ => .ok (.line e)
  | quote s _ => .ok (.text s)
  | reference name _ =>
    match bindings.get? name with
    | some value => .ok (.text value)
    | none => .error (.unbound name)
  | bare w _ => .ok (.text w)

/-- **The words of a clause make up its operand**, and nothing else. -/
theorem operand_words (bindings : Table Text Text) (c : Clause) :
    Command.operand bindings (Text.words c.text) = c.operand bindings := by
  cases c with
  | paren e h =>
    obtain ⟨w, ws, hw⟩ := Text.exists_words_cons (d := '(') (by decide) (e ++ [')'])
    have closed : firstClosed closesParen ('(' :: w) ws = some ('(' :: e ++ [')']) :=
      firstClosed_paren h hw
    have bared : inside ('(' :: e ++ [')']) = e := List.dropLast_concat
    have begins : beginsOperand ('(' :: w) = true := rfl
    show Command.operand bindings (Text.words ('(' :: (e ++ [')']))) = .ok (.line e)
    rw [hw, Command.operand, List.dropWhile_cons_of_neg (by simp [begins])]
    dsimp only
    rw [closed]
    dsimp only
    rw [bared]
    rfl
  | quote s h =>
    obtain ⟨w, ws, hw⟩ := Text.exists_words_cons (d := '"') (by decide) (s ++ ['"'])
    have closed : firstClosed closesQuote ('"' :: w) ws = some ('"' :: s ++ ['"']) :=
      firstClosed_quote h hw
    have bared : inside ('"' :: s ++ ['"']) = s := List.dropLast_concat
    have begins : beginsOperand ('"' :: w) = true := rfl
    show Command.operand bindings (Text.words ('"' :: (s ++ ['"']))) = .ok (.text s)
    rw [hw, Command.operand, List.dropWhile_cons_of_neg (by simp [begins])]
    dsimp only
    rw [closed]
    dsimp only
    rw [bared]
    rfl
  | reference name h =>
    have one : Text.words ('$' :: name) = ['$' :: name] :=
      Text.cut_of_not_mem (by simp [h.space])
    rw [text, one]
    rfl
  | bare w h =>
    have one : Text.words w = [w] := Text.cut_of_not_mem h.space
    rw [text, one, Command.operand, List.dropWhile_cons_of_pos (by rw [h.beginsOperand_eq]; rfl)]
    rfl

/-- A clause is carried out without printing as its words are. -/
theorem run_value (host : Host) (c : Clause) (s : Terminal) :
    ((Act.ofExcept (Command.operand s.session.bindings (Text.words c.text))) >>= fun o =>
      o.value host).run s = (c.value host).run s := by
  rw [operand_words]
  cases c with
  | reference name h =>
    rw [operand, value, Expansion.lookUp, bind_assoc, Act.run_session_bind]
    cases s.session.bindings.get? name <;> rfl
  | _ => rfl

/-- A clause is carried out as its words are. -/
theorem run_perform (host : Host) (c : Clause) (s : Terminal) :
    (performWords host (Text.words c.text)).run s = (c.perform host).run s := by
  rw [performWords, Act.run_session_bind, operand_words]
  cases c with
  | reference name h =>
    rw [operand, perform, value, Expansion.lookUp, bind_assoc, Act.run_session_bind]
    cases s.session.bindings.get? name <;> rfl
  | _ => rfl

/-! ## Choices -/

/-- The words of a choice, the word of the command left out. -/
def choiceWords (condition positive : Clause) (negative : Option Clause) : List Text :=
  Text.words condition.text ++ "THEN".toList :: (Text.words positive.text ++
    match negative with
    | none => []
    | some negative => "ELSE".toList :: Text.words negative.text)

/-- A choice is cut into its parts. -/
theorem read_choiceWords (head : Text) (condition positive : Clause) (negative : Option Clause) :
    Choice.read (head :: choiceWords condition positive negative)
      = .ok ⟨Text.words condition.text, Text.words positive.text,
          negative.map fun negative => Text.words negative.text⟩ := by
  have nonempty : ∀ c : Clause, ∃ w ws, Text.words c.text = w :: ws := fun c =>
    List.exists_cons_of_ne_nil (Text.cut_ne_nil ' ' c.text)
  obtain ⟨w, ws, hw⟩ := nonempty condition
  obtain ⟨v, vs, hv⟩ := nonempty positive
  unfold Choice.read choiceWords
  rw [List.drop_one, List.tail_cons, condition.splitKeyword_text List.mem_cons_self, hw, hv]
  cases negative with
  | none =>
    have uncut : splitKeyword "ELSE".toList {} (Text.words positive.text) = none :=
      positive.splitKeyword_eq_none (by decide)
    rw [hv] at uncut
    rw [List.append_nil]
    dsimp only
    rw [uncut]
    rfl
  | some negative =>
    have cut : splitKeyword "ELSE".toList {} (Text.words positive.text ++
        "ELSE".toList :: Text.words negative.text)
          = some (Text.words positive.text, Text.words negative.text) :=
      positive.splitKeyword_text (by decide) _
    obtain ⟨x, xs, hx⟩ := nonempty negative
    rw [hv, hx, List.cons_append] at cut
    dsimp only
    rw [Option.map_some, hx, List.cons_append]
    dsimp only
    rw [cut]

/-- **A choice comes to its condition, and to one branch behind it.** -/
theorem run_choose (host : Host) (head : Text) (condition positive : Clause)
    (negative : Option Clause) (s : Terminal) :
    (choose.perform host (head :: choiceWords condition positive negative)).run s
      = match (condition.value host).run s with
        | none => none
        | some (.error f, t) => some (.error f, t)
        | some (.ok result, t) =>
          if Number.isTruthy result.value then (positive.perform host).run t
          else match negative with
            | none => some (.ok .none, t)
            | some negative => (negative.perform host).run t := by
  have read : (Act.ofExcept (Choice.read (head :: choiceWords condition positive negative))).run s
      = some (.ok ⟨Text.words condition.text, Text.words positive.text,
          negative.map fun negative => Text.words negative.text⟩, s) := by
    rw [read_choiceWords]
    rfl
  show (Act.ofExcept (Choice.read _) >>= _).run s = _
  rw [Act.run_bind_of_ok read, Act.run_session_bind, ← bind_assoc]
  have valued := condition.run_value host s
  rcases evaluated : (condition.value host).run s with _ | ⟨f | result, t⟩
  · rw [evaluated] at valued
    exact Act.run_bind_of_none valued
  · rw [evaluated] at valued
    exact Act.run_bind_of_error valued
  · rw [evaluated] at valued
    rw [Act.run_bind_of_ok valued]
    dsimp only
    split
    · exact positive.run_perform host t
    · cases negative with
      | none => rfl
      | some negative => exact negative.run_perform host t

end Clause

end Command

namespace Registry

open Command (Clause)

/-- The line of a choice has its words, and is not changed by trimming. -/
theorem choiceLine_parts (condition positive : Clause) (negative : Option Clause) :
    Text.strip (Clause.choiceLine condition positive negative)
        = Clause.choiceLine condition positive negative ∧
      Text.words (Clause.choiceLine condition positive negative)
        = "IF".toList :: Clause.choiceWords condition positive negative := by
  constructor
  · have full : (Clause.choiceLine condition positive negative).EndsFull := by
      open Text.EndsFull in
      cases negative with
      | none => exact (after_space (after_space (after_space positive.text_full _) _) _).2
      | some negative =>
        exact (after_space (after_space (after_space (after_space (after_space
          negative.text_full _) _) _) _) _).2
    refine Text.strip_eq_self (fun c hc => ?_) full
    cases negative <;> cases hc <;> rfl
  · have command : ' ' ∉ "IF".toList := by decide
    have keyword : ' ' ∉ "THEN".toList := by decide
    have keyword' : ' ' ∉ "ELSE".toList := by decide
    cases negative with
    | none =>
      show Text.words ("IF".toList ++ ' ' ::
        (condition.text ++ ' ' :: ("THEN".toList ++ ' ' :: positive.text))) = _
      rw [Text.words_word command, Text.words_append condition.text,
        Text.words_word keyword, Clause.choiceWords, List.append_nil]
    | some negative =>
      show Text.words ("IF".toList ++ ' ' :: (condition.text ++ ' ' :: ("THEN".toList ++ ' ' ::
        (positive.text ++ ' ' :: ("ELSE".toList ++ ' ' :: negative.text))))) = _
      rw [Text.words_word command, Text.words_append condition.text, Text.words_word keyword,
        Text.words_append positive.text, Text.words_word keyword', Clause.choiceWords]

/-- The line of a choice is dispatched as the choice is carried out. -/
theorem dispatch_choiceLine (bound : Nat) (s : Terminal) (condition positive : Clause)
    (negative : Option Clause) :
    let line := Clause.choiceLine condition positive negative
    builtin.dispatch (bound + 1) line s
      = (Run.settle (Command.choose.perform (builtin.host bound)
          ("IF".toList :: Clause.choiceWords condition positive negative))
          (entered s line)).map leave := by
  intro line
  obtain ⟨stripped, words⟩ := choiceLine_parts condition positive negative
  have named : Builtin.ofLine? (Text.strip line) = some .choose := by
    rw [stripped, Builtin.ofLine?, Text.firstWord, words]
    show Builtin.named? (Text.upper "IF".toList) = some .choose
    decide
  rw [dispatch_command named, stripped, words]
  rfl

/-- **A choice evaluates its condition once, without printing, and carries out one branch.**
Whatever stands in parentheses and quotes, the line comes to its condition; if that ends in a
fault, the line fails, and no branch is carried out; otherwise the value decides which branch
is carried out as the whole of the line, and nothing of the other one is.  Without a second
branch a condition that is not true gives the empty text. -/
theorem dispatch_choice (bound : Nat) (s : Terminal) (condition positive : Clause)
    (negative : Option Clause) :
    let line := Clause.choiceLine condition positive negative
    let host := builtin.host bound
    builtin.dispatch (bound + 1) line s
      = match (condition.value host).run (entered s line) with
        | none => none
        | some (.error f, t) => some (leave (.failure, t.report f))
        | some (.ok result, t) =>
          if Number.isTruthy result.value then (Run.settle (positive.perform host) t).map leave
          else match negative with
            | none => some (leave (.none, t))
            | some negative => (Run.settle (negative.perform host) t).map leave := by
  intro line host
  rw [dispatch_choiceLine]
  have ran := Clause.run_choose host "IF".toList condition positive negative (entered s line)
  rcases evaluated : (condition.value host).run (entered s line) with _ | ⟨f | result, t⟩
  · rw [evaluated] at ran
    exact congrArg (Option.map leave) (Run.bind_of_none ran)
  · rw [evaluated] at ran
    exact congrArg (Option.map leave) (Run.bind_of_some ran)
  · rw [evaluated] at ran
    dsimp only at ran ⊢
    by_cases truthy : Number.isTruthy result.value = true
    · rw [if_pos truthy] at ran ⊢
      exact congrArg (Option.map leave) (Run.settle_congr ran)
    · rw [if_neg truthy] at ran ⊢
      cases negative with
      | none => exact congrArg (Option.map leave) (Run.bind_of_some ran)
      | some negative => exact congrArg (Option.map leave) (Run.settle_congr ran)

/-- A condition and a branch with keywords and an open parenthesis in their quotes and
parentheses; the variable of the other branch does not exist. -/
theorem dispatch_choice_keywords :
    let start := Terminal.ofSettings {} (.recorder { grid := ⟨60, 25⟩ }) (.memory .empty) ⟨0⟩
    let line := "IF (EQUALS \"THEN (\" \"THEN (\") THEN (PRINT ELSE  (PRINT a)) ELSE $X".toList
    ∃ condition positive negative : Clause,
      Clause.choiceLine condition positive (some negative) = line ∧
      builtin.dispatch 6 line start
        = (match (condition.value (builtin.host 5)).run (entered start line) with
          | none => none
          | some (.error f, t) => some (leave (.failure, t.report f))
          | some (.ok result, t) =>
            if Number.isTruthy result.value then
              (Run.settle (positive.perform (builtin.host 5)) t).map leave
            else (Run.settle (negative.perform (builtin.host 5)) t).map leave) ∧
      (builtin.dispatch 6 line start).map Prod.fst = some (.text "ELSE  a".toList) := by
  intro start line
  let condition : Clause := .paren "EQUALS \"THEN (\" \"THEN (\"".toList
    ⟨by decide, by rw [show brackets _ = [] by decide]; exact .of_cancel (by simp) .refl⟩
  let positive : Clause := .paren "PRINT ELSE  (PRINT a)".toList
    ⟨by decide, by
      rw [show brackets _ = "()".toList by decide]
      exact .of_cancel (by simp [isParen]) (.single (.pair [] []))⟩
  let negative : Clause := .reference "X".toList
    ⟨by decide, List.forall_mem_singleton.mpr rfl, .concat [] rfl⟩
  have written : Clause.choiceLine condition positive (some negative) = line := by decide +kernel
  have chosen := dispatch_choice 5 start condition positive (some negative)
  rw [written] at chosen
  exact ⟨condition, positive, negative, written, chosen, by decide +kernel⟩

end Registry

end Teletype
