/-
# Tokenizing

What `tokenize` makes of a line.  Quotes are taken out from left to right, with a line that
is either outside a quote or inside one; parentheses are taken out round by round, the
innermost ones first.  A step leaves the text of the phrase for which the line stands, so
that after the last one the line stands for the phrase of the whole line.  The main
statement is that **the words that a line is tokenized into stand for the words of the one
well-formed phrase of the line** (`exists_phrase_of_tokenize`).
-/
import Teletype.Proofs.Extraction

namespace Teletype

/-! ## Quotes -/

/-- Characters in front of the first of some texts stay in front of their pieces. -/
theorem alternate_append (x piece : Text) (pieces : List Text) :
    alternate ((x ++ piece) :: pieces)
      = (alternate (piece :: pieces)).map fun ps => x.map .plain ++ ps := by
  cases pieces with
  | nil => rw [alternate, alternate, List.map_append, Option.map_some]
  | cons quoted rest =>
    rw [alternate, alternate, Option.map_map]
    congr 1
    funext ps
    rw [List.map_append, Function.comp_apply, List.append_assoc]

/-- What comes of a text when its quotes are taken out.  If the text begins outside a quote
its pieces stand for a phrase with the same text; if it begins behind an open quote, so do
what the quote holds and the pieces behind it together. -/
structure Quoted (tokens : List Token) (t : Text) (p : Phrase) : Prop where
  /-- The text begins outside a quote. -/
  outside {pieces : List (Piece Text)} (ha : alternate (Text.cut '"' t) = some pieces) :
    ∃ q, Cuts .quote tokens pieces q ∧ q.text = p.text ∧ q.Nest Phrase.quotable
  /-- The text begins behind an open quote. -/
  within {quoted : Text} {rest : List Text} {pieces : List (Piece Text)}
    (hc : Text.cut '"' t = quoted :: rest) (ha : alternate rest = some pieces) :
    ∃ inside q, Stands tokens quoted inside ∧ inside.Row Phrase.quotable ∧
      Cuts .quote tokens pieces q ∧ q.Nest Phrase.quotable ∧ inside.text ++ '"' :: q.text = p.text

namespace Quoted

variable {tokens : List Token} {t : Text} {p : Phrase}

/-- The end of a line ends no quote. -/
theorem done : Quoted tokens [] .done := by
  constructor
  · intro pieces ha
    cases ha
    exact ⟨.done, .done, rfl, trivial⟩
  · intro quoted rest pieces hc ha
    cases hc
    cases ha

/-- A quote opens a span outside one, and closes the one that it stands in. -/
theorem at_quote (h : Quoted tokens t p) : Quoted tokens ('"' :: t) (.char '"' p) := by
  constructor
  · intro pieces ha
    obtain ⟨a, as, hcut⟩ := List.exists_cons_of_ne_nil (Text.cut_ne_nil '"' t)
    rw [Text.cut, if_pos rfl, hcut, alternate] at ha
    obtain ⟨ps, hps, rfl⟩ := Option.map_eq_some_iff.mp ha
    obtain ⟨inside, q, hi, hir, hc, hn, ht⟩ := h.within hcut hps
    refine ⟨.quote inside q, .quote rfl hi hc, ?_, hir, hn⟩
    rw [Phrase.text, Phrase.text, ← ht]
    rfl
  · intro quoted rest pieces hc ha
    rw [Text.cut, if_pos rfl] at hc
    cases hc
    obtain ⟨q, hcuts, ht, hn⟩ := h.outside ha
    refine ⟨.done, q, .done, trivial, hcuts, hn, ?_⟩
    rw [Phrase.text, Phrase.text, ht]
    rfl

/-- Characters that hold no quote go with what stands behind them, on either side of a
quote.  They stand for a node in front of it. -/
theorem in_front {x y : Text} {node : Phrase → Phrase} (h : Quoted tokens t p) (hx : '"' ∉ x)
    (stands : ∀ {u q}, Stands tokens u q → Stands tokens (x ++ u) (node q))
    (cuts : ∀ {pieces q}, Cuts .quote tokens pieces q →
      Cuts .quote tokens (x.map .plain ++ pieces) (node q))
    (text : ∀ q, (node q).text = y ++ q.text)
    (nest : ∀ q, q.text = p.text → q.Nest Phrase.quotable → (node q).Nest Phrase.quotable)
    (row : ∀ q z, q.text ++ '"' :: z = p.text → q.Row Phrase.quotable →
      (node q).Row Phrase.quotable) : Quoted tokens (x ++ t) (node p) := by
  obtain ⟨a, as, hcut⟩ := List.exists_cons_of_ne_nil (Text.cut_ne_nil '"' t)
  have cut : Text.cut '"' (x ++ t) = (x ++ a) :: as := Text.cut_append hx hcut
  constructor
  · intro pieces ha
    rw [cut, alternate_append] at ha
    obtain ⟨ps, hps, rfl⟩ := Option.map_eq_some_iff.mp ha
    rw [← hcut] at hps
    obtain ⟨q, hc, ht, hn⟩ := h.outside hps
    exact ⟨node q, cuts hc, by rw [text, text, ht], nest q ht hn⟩
  · intro quoted rest pieces hc ha
    rw [cut] at hc
    cases hc
    obtain ⟨inside, q, hi, hir, hc, hn, ht⟩ := h.within hcut ha
    refine ⟨node inside, q, stands hi, row inside _ ht hir, hc, hn, ?_⟩
    rw [text, text, ← ht, List.append_assoc]

end Quoted

/-- **A line whose quotes pair up stands for a phrase with its quotes as nodes.** -/
theorem Stands.quotes {tokens : List Token} {t : Text} {p : Phrase} (h : Stands tokens t p)
    (hp : p.Row fun _ => true) : Quoted tokens t p := by
  induction h with
  | done => exact .done
  | @char c t rest hm behind ih =>
    obtain ⟨-, hd, hr⟩ := hp
    by_cases hq : c = '"'
    · subst hq
      exact (ih hr).at_quote
    · have plain : Phrase.quotable c = true := by simpa [Phrase.quotable] using hq
      have hx : '"' ∉ [c] := by simpa using Ne.symm hq
      refine (ih hr).in_front hx (fun h => .char hm h) (fun h => .stretch (.char hm .done) h)
        (fun q => (rfl : _ = [c] ++ q.text)) (fun q ht hn => ⟨plain, ?_, hn⟩)
        (fun q z ht hn => ⟨plain, ?_, hn⟩)
      · rw [ht]
        exact hd
      · rw [← ht] at hd
        exact fun e => Phrase.startsName_of_append (hd e)
  | @reference i name t rest hm behind ih =>
    obtain ⟨hname, hd, hr⟩ := hp
    refine (ih hr).in_front (Token.not_mem_placeholder (by decide) _)
      (fun h => .reference hm h) (fun h => .placeholder_reference hm h)
      (fun q => (rfl : _ = ('$' :: name) ++ q.text)) (fun q ht hn => ⟨hname, ?_, hn⟩)
      (fun q z ht hn => ⟨hname, ?_, hn⟩)
    · rw [ht]
      exact hd
    · rw [← ht] at hd
      exact Phrase.startsName_of_append hd
  | quote _ _ _ => exact absurd hp id
  | paren _ _ _ => exact absurd hp id

/-! ## Parentheses -/

/-- Characters that open no parenthesis stay in front. -/
theorem parenPieces_append {x : Text} (hx : '(' ∉ x) (t : Text) :
    parenPieces (x ++ t) = x.map .plain ++ parenPieces t := by
  induction x with
  | nil => rfl
  | cons c x ih =>
    rw [List.mem_cons, not_or] at hx
    rw [List.cons_append, parenPieces, if_neg (Ne.symm hx.1), ih hx.2, List.map_cons,
      List.cons_append]

/-- A character that is no parenthesis belongs to what the next one closes. -/
theorem splitClosing?_cons {c : Char} (hclose : c ≠ ')') (hopen : c ≠ '(')
    (pieces : List (Piece Text)) :
    splitClosing? (.plain c :: pieces)
      = (splitClosing? pieces).map fun (inside, rest) => (c :: inside, rest) := by
  rw [splitClosing?.eq_3 _ _ hclose hopen]

/-- What is found up to a closing parenthesis holds no parenthesis. -/
theorem exists_of_splitClosing? {t inside : Text} {behind : List (Piece Text)}
    (h : splitClosing? (parenPieces t) = some (inside, behind)) :
    ∃ rest, t = inside ++ ')' :: rest ∧ behind = parenPieces rest ∧ '(' ∉ inside ∧
      ')' ∉ inside := by
  induction t generalizing inside with
  | nil => cases h
  | cons c t ih =>
    by_cases hopen : c = '('
    · subst hopen
      rw [parenPieces, if_pos rfl] at h
      split at h <;> cases h
    · rw [parenPieces, if_neg hopen] at h
      by_cases hclose : c = ')'
      · subst hclose
        cases h
        exact ⟨t, rfl, rfl, List.not_mem_nil, List.not_mem_nil⟩
      · rw [splitClosing?_cons hclose hopen] at h
        obtain ⟨⟨inside', behind'⟩, hs, he⟩ := Option.map_eq_some_iff.mp h
        cases he
        obtain ⟨rest, rfl, hb, ho, hc⟩ := ih hs
        refine ⟨rest, rfl, hb, ?_, ?_⟩
        · rw [List.mem_cons, not_or]
          exact ⟨Ne.symm hopen, ho⟩
        · rw [List.mem_cons, not_or]
          exact ⟨Ne.symm hclose, hc⟩

/-- **A round takes out innermost parentheses and leaves the text of the phrase.** -/
theorem Stands.parens {tokens : List Token} {t : Text} {p : Phrase} (h : Stands tokens t p)
    (hp : p.Nest Phrase.quotable) :
    ∃ q, Cuts .paren tokens (parenPieces t) q ∧ q.text = p.text ∧
      q.Nest Phrase.quotable := by
  -- a parenthesis takes several characters away
  induction hn : t.length using Nat.strongRecOn generalizing t p with
  | ind n ih =>
    cases h with
    | done => exact ⟨.done, .done, rfl, trivial⟩
    | @char c t rest hm behind =>
      have shorter : t.length < n := by
        rw [← hn, List.length_cons]
        exact Nat.lt_succ_self _
      obtain ⟨q, hq, ht, hr⟩ := ih _ shorter behind hp.2.2 rfl
      have plain : Cuts .paren tokens (.plain c :: parenPieces t) (.char c q) :=
        .stretch (.char hm .done) hq
      have stays : (Phrase.char c q).Nest Phrase.quotable :=
        ⟨hp.1, fun e => by rw [ht]; exact hp.2.1 e, hr⟩
      have same : (Phrase.char c q).text = (Phrase.char c rest).text := by
        rw [Phrase.text, Phrase.text, ht]
      by_cases hopen : c = '('
      · subst hopen
        rw [parenPieces, if_pos rfl]
        cases hs : splitClosing? (parenPieces t) with
        | none => exact ⟨_, plain, same, stays⟩
        | some found =>
          obtain ⟨inside, pieces⟩ := found
          obtain ⟨u, rfl, rfl, ho, hc⟩ := exists_of_splitClosing? hs
          -- the closing parenthesis parts the phrase into what it closes and what follows
          obtain ⟨pi, pr, hi, hb, rfl⟩ := behind.split (by decide) hc rfl
          obtain ⟨hpi, hpr⟩ := hp.2.2.of_append
          have last : u.length < n := by
            rw [List.length_append, List.length_cons] at shorter
            omega
          obtain ⟨r, hr, hrt, hrn⟩ := ih _ last hb hpr.2.2 rfl
          refine ⟨.paren pi r, .paren rfl hi hr, ?_, hi.nest_bare hpi ho hc, hrn⟩
          rw [Phrase.text, Phrase.text, Phrase.text_append, Phrase.text, hrt]
          rfl
      · rw [parenPieces, if_neg hopen]
        exact ⟨_, plain, same, stays⟩
    | @reference i name t rest hm behind =>
      have shorter := Token.length_lt_append ⟨.variable, i, name⟩ t
      rw [hn] at shorter
      obtain ⟨q, hq, ht, hr⟩ := ih _ shorter behind hp.2.2 rfl
      rw [parenPieces_append (Token.not_mem_placeholder (by decide) _)]
      refine ⟨.reference name q, .placeholder_reference hm hq, ?_, hp.1, ?_, hr⟩
      · rw [Phrase.text, Phrase.text, ht]
      · rw [ht]
        exact hp.2.1
    | @quote i raw t inside rest hm within behind =>
      have shorter := Token.length_lt_append ⟨.quote, i, raw⟩ t
      rw [hn] at shorter
      obtain ⟨q, hq, ht, hr⟩ := ih _ shorter behind hp.2 rfl
      rw [parenPieces_append (Token.not_mem_placeholder (by decide) _)]
      refine ⟨.quote inside q, .placeholder_quote hm within hq, ?_, hp.1, hr⟩
      rw [Phrase.text, Phrase.text, ht]
    | @paren i raw t inside rest hm within behind =>
      have shorter := Token.length_lt_append ⟨.paren, i, raw⟩ t
      rw [hn] at shorter
      obtain ⟨q, hq, ht, hr⟩ := ih _ shorter behind hp.2 rfl
      rw [parenPieces_append (Token.not_mem_placeholder (by decide) _)]
      refine ⟨.paren inside q, .placeholder_paren hm within hq, ?_, hp.1, hr⟩
      rw [Phrase.text, Phrase.text, ht]

/-- A line whose parentheses were taken out stands for a phrase with the same text. -/
theorem Stands.extractParens {tokens : List Token} {t : Text} {p : Phrase}
    (h : Stands tokens t p) (hp : p.Nest Phrase.quotable) (n rounds : Nat) :
    ∃ q, Stands ((extractParens n t rounds).2 ++ tokens) (extractParens n t rounds).1 q ∧
      q.text = p.text ∧ q.Nest Phrase.quotable := by
  induction rounds generalizing n t p tokens with
  | zero => exact ⟨p, h, rfl, hp⟩
  | succ rounds ih =>
    obtain ⟨q, hc, hq, hn⟩ := h.parens hp
    rw [Teletype.extractParens]
    split
    -- a round that took something out is followed by others, with its tokens in the table
    · obtain ⟨r, hs, hr, hrn⟩ := ih (hc.stands_numberSpans n) hn
        (n + (numberSpans .paren n (parenPieces t)).2.length)
      refine ⟨r, hs.mono ?_, by rw [hr, hq], hrn⟩
      intro u hu
      simp only [List.mem_append] at hu ⊢
      tauto
    · exact ⟨p, h, rfl, hp⟩

/-! ## Numbers of tokens -/

/-- The tokens are of a kind and bear the numbers from `n` on. -/
def Numbered (kind : Token.Kind) (n : Nat) (tokens : List Token) : Prop :=
  (∀ t ∈ tokens, t.kind = kind) ∧ tokens.map Token.index = List.range' n tokens.length

namespace Numbered

variable {kind : Token.Kind} {n : Nat} {tokens more : List Token}

/-- Tokens are numbered on behind other tokens. -/
theorem append (h : Numbered kind n tokens) (h' : Numbered kind (n + tokens.length) more) :
    Numbered kind n (tokens ++ more) := by
  constructor
  · intro t ht
    rcases List.mem_append.mp ht with ht | ht
    · exact h.1 t ht
    · exact h'.1 t ht
  · rw [List.map_append, h.2, h'.2, List.length_append, List.range'_append_1]

/-- Numbered tokens have placeholders of their own. -/
theorem apart (h : Numbered kind n tokens) : Apart tokens := by
  intro t ht u hu _ hindex
  have nodup : (tokens.map Token.index).Nodup := by
    rw [h.2]
    exact List.nodup_range'
  exact List.inj_on_of_nodup_map nodup ht hu hindex

/-- The spans among pieces are numbered. -/
theorem numberSpans (kind : Token.Kind) (n : Nat) (pieces : List (Piece Text)) :
    Numbered kind n (Teletype.numberSpans kind n pieces).2 := by
  induction pieces generalizing n with
  | nil => exact ⟨fun _ h => absurd h List.not_mem_nil, rfl⟩
  | cons p pieces ih =>
    cases p with
    | plain c => exact ih n
    | item raw =>
      have first : Numbered kind n [⟨kind, n, raw⟩] :=
        ⟨fun t ht => by rw [List.mem_singleton.mp ht], rfl⟩
      exact first.append (ih (n + 1))

/-- Parentheses are numbered through all rounds. -/
theorem extractParens (n : Nat) (t : Text) (rounds : Nat) :
    Numbered .paren n (Teletype.extractParens n t rounds).2 := by
  induction rounds generalizing n t with
  | zero => exact ⟨fun _ h => absurd h List.not_mem_nil, rfl⟩
  | succ rounds ih =>
    rw [Teletype.extractParens]
    split
    · exact append (numberSpans .paren n _) (ih _ _)
    · exact ⟨fun _ h => absurd h List.not_mem_nil, rfl⟩

end Numbered

/-- Tables of different kinds make up a table of tokens with placeholders of their own. -/
theorem Apart.append {tokens more : List Token} (h : Apart tokens) (h' : Apart more)
    (differ : ∀ t ∈ tokens, ∀ u ∈ more, t.kind ≠ u.kind) : Apart (tokens ++ more) := by
  intro t ht u hu hkind hindex
  rcases List.mem_append.mp ht with ht | ht <;> rcases List.mem_append.mp hu with hu | hu
  · exact h t ht u hu hkind hindex
  · exact absurd hkind (differ t ht u hu)
  · exact absurd hkind.symm (differ u hu t ht)
  · exact h' t ht u hu hkind hindex

/-- The tokens of a line have placeholders of their own. -/
theorem Apart.of_numbered {parens quotes bindings : List Token} {n m k : Nat}
    (hp : Numbered .paren n parens) (hq : Numbered .quote m quotes)
    (hv : Numbered .variable k bindings) : Apart (parens ++ quotes ++ bindings) := by
  refine (hp.apart.append hq.apart fun t ht u hu => ?_).append hv.apart fun t ht u hu => ?_
  · rw [hp.1 t ht, hq.1 u hu]
    decide
  · rw [hv.1 u hu]
    rcases List.mem_append.mp ht with ht | ht
    · rw [hp.1 t ht]
      decide
    · rw [hq.1 t ht]
      decide

/-! ## The whole line -/

/-- **The words of an accepted line stand for the one phrase of the line.** -/
theorem exists_phrase_of_tokenize {line : Text} {tokenized : Tokenized} (clean : '%' ∉ line)
    (h : tokenize line = .ok tokenized) :
    ∃ (p : Phrase) (t : Text), p.WellFormed ∧ p.text = line ∧
      tokenized.words = Text.words t ∧ Stands tokenized.tokens t p ∧ Apart tokenized.tokens := by
  obtain ⟨p, hc, ht, hr⟩ := exists_row_of_variablePieces clean
  have hs := hc.stands_numberSpans 0
  rw [List.append_nil] at hs
  have hv := Numbered.numberSpans .variable 0 (variablePieces line)
  unfold tokenize at h
  generalize numberSpans .variable 0 (variablePieces line) = bound at h hs hv
  obtain ⟨named, bindings⟩ := bound
  simp only at h hs hv
  split at h
  · cases h
  · next pieces hquotes =>
    obtain ⟨q, hcq, hqt, hqn⟩ := (hs.quotes hr).outside hquotes
    have hsq := hcq.stands_numberSpans 0
    have hq := Numbered.numberSpans .quote 0 pieces
    generalize numberSpans .quote 0 pieces = unquoted at h hsq hq
    obtain ⟨quoteless, quotes⟩ := unquoted
    simp only at h hsq hq
    obtain ⟨r, hsr, hrt, hrn⟩ := hsq.extractParens hqn 0 (quoteless.count '(')
    have hp := Numbered.extractParens 0 quoteless (quoteless.count '(')
    generalize Teletype.extractParens 0 quoteless (quoteless.count '(') = last at h hsr hp
    obtain ⟨t, parens⟩ := last
    simp only at h hsr hp
    split at h
    · cases h
    · next hopen =>
      split at h
      · cases h
      · next hclose =>
        cases h
        rw [← List.append_assoc] at hsr
        exact ⟨r, t, hsr.nest_bare hrn hopen hclose, by rw [hrt, hqt, ht], rfl, hsr,
          .of_numbered hp hq hv⟩

end Teletype
