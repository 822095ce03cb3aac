/-
# Quoted lines

A line with quotes and without references and parentheses stands for its words with the
quotes taken away.  Expansion finds them by placeholders, which are written into the line
among the characters that the user typed; these may make up a placeholder as well, by
themselves or together with the beginning of one that was written behind them.  The main
statement is that **where no typed text is mistaken for a placeholder the line expands to
its words without the quotes, and these expand to themselves with the same tokens exactly
when none of them holds a placeholder** (`Host.expand_quotation`).  Nothing keeps typed
text from being mistaken (`Host.expand_quotation_mistaken`).
-/
import Teletype.Command.Builtin
import Teletype.Dispatch
import Teletype.Proofs.Evaluation
import Teletype.Proofs.Still

namespace Teletype

/-! ## What the line stands for -/

/-- The words of a line between spaces outside quotes, with the quotes taken away; whether
the line begins inside a quote is told. -/
def unquotedWords : (quoted : Bool) → Text → List Text
  | _, [] => [[]]
  | quoted, c :: rest =>
    if c = '"' then unquotedWords (!quoted) rest
    else if c = ' ' ∧ quoted = false then [] :: unquotedWords quoted rest
    else Text.pushFront c (unquotedWords quoted rest)

/-- Outside quotes a character that is no quote is in front of the words. -/
theorem unquotedWords_cons {c : Char} (h : c ≠ '"') (rest : Text) :
    unquotedWords false (c :: rest)
      = if c = ' ' then [] :: unquotedWords false rest
        else Text.pushFront c (unquotedWords false rest) := by
  rw [unquotedWords, if_neg h]
  simp only [and_true]

/-- A quote is in front of the first word behind it, with its spaces. -/
theorem unquotedWords_quote {q : Text} (h : '"' ∉ q) (rest : Text) :
    unquotedWords false ('"' :: q ++ '"' :: rest)
      = q.foldr Text.pushFront (unquotedWords false rest) := by
  show unquotedWords true (q ++ '"' :: rest) = _
  induction q with
  | nil => rfl
  | cons c q ih =>
    rw [List.mem_cons, not_or] at h
    rw [List.cons_append, unquotedWords, if_neg (Ne.symm h.1), if_neg (by simp), ih h.2,
      List.foldr_cons]

/-- Characters in front of words are in front of the first. -/
theorem Text.foldr_pushFront (q w : Text) (ws : List Text) :
    q.foldr pushFront (w :: ws) = (q ++ w) :: ws := by
  induction q with
  | nil => rfl
  | cons c q ih => rw [List.foldr_cons, ih, pushFront, List.cons_append]

/-! ## Placeholders in typed text -/

/-- The placeholder of no token stands in the text. -/
def Clear (tokens : List Token) (t : Text) : Prop :=
  ∀ token ∈ tokens, ¬ token.placeholder <:+: t

/-- The placeholders of the first quotes do not stand in the text. -/
def Lacks (n : Nat) (t : Text) : Prop :=
  ∀ i < n, ¬ (⟨.quote, i, []⟩ : Token).placeholder <:+: t

instance (n : Nat) (t : Text) : Decidable (Lacks n t) :=
  inferInstanceAs (Decidable (∀ i < n, ¬ (⟨.quote, i, []⟩ : Token).placeholder <:+: t))

/-- No text between the quotes of a line is mistaken for one of its first placeholders.  Of
the placeholder that is written behind a text outside quotes the beginning counts, up to the
number. -/
def Unmistaken (n : Nat) : List Text → Prop
  | [] => True
  | [outside] => Lacks n outside
  | outside :: quoted :: rest =>
    Lacks n (outside ++ "%quote%".toList) ∧ Lacks n quoted ∧ Unmistaken n rest

instance Unmistaken.instDecidable (n : Nat) : ∀ texts, Decidable (Unmistaken n texts)
  | [] => .isTrue trivial
  | [outside] => inferInstanceAs (Decidable (Lacks n outside))
  | outside :: quoted :: rest =>
    have := instDecidable n rest
    inferInstanceAs (Decidable
      (Lacks n (outside ++ "%quote%".toList) ∧ Lacks n quoted ∧ Unmistaken n rest))

/-- Numbered quotes have the placeholders of the first quotes. -/
theorem clear_iff {tokens : List Token} (h : Numbered .quote 0 tokens) (t : Text) :
    Clear tokens t ↔ Lacks tokens.length t := by
  have index : ∀ i, i < tokens.length ↔ ∃ token ∈ tokens, token.index = i := by
    intro i
    rw [← List.mem_map (f := Token.index), h.2, List.mem_range'_1]
    omega
  have same : ∀ token ∈ tokens, token.placeholder
      = (⟨.quote, token.index, []⟩ : Token).placeholder := by
    intro token mem
    rw [Token.placeholder, Token.placeholder, h.1 token mem]
  constructor
  · intro clear i hi
    obtain ⟨token, mem, rfl⟩ := (index i).mp hi
    rw [← same token mem]
    exact clear token mem
  · intro lacks token mem
    rw [same token mem]
    exact lacks token.index ((index _).mpr ⟨token, mem, rfl⟩)

/-- What begins with a character is clear if what follows is and no placeholder begins it. -/
theorem Clear.cons_iff {tokens : List Token} {c : Char} {t : Text} :
    Clear tokens (c :: t)
      ↔ (∀ token ∈ tokens, ¬ token.placeholder <+: c :: t) ∧ Clear tokens t := by
  simp only [Clear, List.infix_cons_iff, not_or, forall_and]

/-- There are four percent signs in a placeholder. -/
theorem Token.count_placeholder (token : Token) : token.placeholder.count '%' = 4 := by
  have tag := List.count_eq_zero_of_not_mem token.kind.percent_not_mem_tag
  have digits : (Decimal.ofNat token.index).count '%' = 0 :=
    List.count_eq_zero_of_not_mem (Decimal.not_mem_ofNat (by decide) _)
  rw [placeholder_eq_cons]
  simp [List.count_append, tag, digits]

/-- **A placeholder that begins in typed text, before the placeholder of a quote, goes at most
up to the number of that quote.** -/
theorem Token.placeholder_prefix_quote {token written : Token} (ht : token.kind = .quote)
    (hw : written.kind = .quote) {b t : Text} (hb : b ≠ [])
    (h : token.placeholder <+: b ++ (written.placeholder ++ t)) :
    token.placeholder <+: b ++ "%quote%".toList := by
  have word : written.placeholder = "%quote%".toList
      ++ (Decimal.ofNat written.index ++ "%quote%".toList) := by
    rw [placeholder_eq_cons, hw]
    rfl
  rw [word, List.append_assoc, ← List.append_assoc b] at h
  rcases List.prefix_or_prefix_of_prefix h (List.prefix_append _ _) with inside | ⟨y, hy⟩
  · exact inside
  · -- it would hold the word between its own percent signs, and behind `b`
    rcases y.eq_nil_or_concat' with rfl | ⟨y, d, rfl⟩
    · exact ⟨[], by rw [← hy, List.append_nil, List.append_nil]⟩
    · exfalso
      have last : d = '%' := by
        have ends := congrArg List.getLast? hy
        rw [← List.append_assoc, List.getLast?_concat, placeholder, List.getLast?_concat] at ends
        exact Option.some.inj ends
      obtain ⟨c, b, rfl⟩ := List.exists_cons_of_ne_nil hb
      have percent := congrArg (List.count '%') hy
      rw [count_placeholder, last] at percent
      rw [placeholder_eq_cons, ht, List.cons_append, List.cons_append, List.cons.injEq] at hy
      obtain ⟨rfl, hy⟩ := hy
      have few : '%' ∉ b := by
        rw [← List.count_eq_zero]
        simp [List.count_append] at percent
        omega
      have separated : b ++ '%' :: ("quote".toList ++ '%' :: (y ++ [d]))
          = Kind.quote.tag ++ '%' :: (Decimal.ofNat token.index
            ++ '%' :: (Kind.quote.tag ++ ['%'])) := by
        rw [← hy, List.append_assoc]
        rfl
      obtain ⟨-, number⟩ := eq_of_append_separator few (Kind.percent_not_mem_tag _) separated
      obtain ⟨digits, -⟩ := eq_of_append_separator (by decide)
        (Decimal.not_mem_ofNat (by decide) _) number
      have letter : 'q' ∈ Decimal.ofNat token.index := by
        rw [← digits]
        exact List.mem_cons_self
      exact Decimal.not_mem_ofNat (by decide) _ letter

/-! ## Scanning typed text -/

/-- A character that begins no placeholder stays. -/
theorem scanTokens_cons_of_lacks {tokens : List Token} {c : Char} {t : Text}
    (h : ∀ token ∈ tokens, ¬ token.placeholder <+: c :: t) :
    scanTokens tokens 0 (c :: t) = .plain c :: scanTokens tokens 0 t := by
  have none : tokens.find? (fun token => token.placeholder.isPrefixOf (c :: t)) = none := by
    rw [List.find?_eq_none]
    intro token mem found
    exact h token mem (List.isPrefixOf_iff_prefix.mp found)
  rw [scanTokens, none]

/-- In a clear text every character stays. -/
theorem Clear.scanTokens_eq {tokens : List Token} {t : Text} (h : Clear tokens t) :
    scanTokens tokens 0 t = t.map .plain := by
  induction t with
  | nil => rfl
  | cons c t ih =>
    obtain ⟨first, rest⟩ := cons_iff.mp h
    rw [scanTokens_cons_of_lacks first, ih rest, List.map_cons]

namespace Expansion

variable {dispatch : Text → Run Output} {tokens : List Token} {bound : Nat}

/-- A clear text comes to itself. -/
theorem expand_of_clear {t : Text} (h : Clear tokens t) :
    expand dispatch tokens (bound + 1) t = pure t := by
  rw [expand, h.scanTokens_eq, fill_plain]

/-- The words of a text come to the given words. -/
def Gives (dispatch : Text → Run Output) (tokens : List Token) (bound : Nat) (t : Text)
    (words : List Text) : Prop :=
  List.Forall₂ (fun w v => expand dispatch tokens bound w = pure v) (Text.words t) words

/-- Words come to the given words one after the other. -/
theorem mapM_of_forall₂ {f : Text → Act Text} {ws vs : List Text}
    (h : List.Forall₂ (fun w v => f w = pure v) ws vs) : ws.mapM f = pure vs := by
  induction h with
  | nil => rfl
  | cons first _ ih => rw [List.mapM_cons, first, ih, pure_bind, pure_bind]

namespace Gives

variable {t : Text} {ws : List Text}

/-- The empty text is one empty word. -/
theorem nil : Gives dispatch tokens (bound + 1) [] [[]] := .cons rfl .nil

/-- A character that begins no placeholder is in front of the first word, or is the space in
front of it. -/
theorem cons {c : Char} (h : ∀ token ∈ tokens, ¬ token.placeholder <+: c :: t)
    (behind : Gives dispatch tokens (bound + 1) t ws) :
    Gives dispatch tokens (bound + 1) (c :: t)
      (if c = ' ' then [] :: ws else Text.pushFront c ws) := by
  by_cases space : c = ' '
  · rw [Gives, Text.words, Text.cut, if_pos space, if_pos space]
    exact .cons rfl behind
  · obtain ⟨w, rest, ht⟩ := List.exists_cons_of_ne_nil (Text.cut_ne_nil ' ' t)
    rw [Gives, Text.words, ht] at behind
    obtain ⟨v, vs, first, more, rfl⟩ := List.forall₂_cons_left_iff.mp behind
    rw [Gives, Text.words, Text.cut, if_neg space, if_neg space, ht]
    refine .cons ?_ more
    have beginning : w <+: t := by
      have first := Text.isPrefix_firstWord t
      rwa [Text.firstWord, Text.words, ht] at first
    rw [expand] at first ⊢
    rw [scanTokens_cons_of_lacks fun token mem found =>
      h token mem (found.trans ((List.prefix_cons_inj c).mpr beginning)), fill, first, pure_bind]

/-- The placeholder of a quote is in front of the first word, as what stands in the quote. -/
theorem placeholder (apart : Apart tokens) {token : Token} (mem : token ∈ tokens)
    (kind : token.kind = .quote) (clear : Clear tokens token.raw)
    (behind : Gives dispatch tokens (bound + 2) t ws) :
    Gives dispatch tokens (bound + 2) (token.placeholder ++ t)
      (token.raw.foldr Text.pushFront ws) := by
  obtain ⟨w, rest, ht⟩ := List.exists_cons_of_ne_nil (Text.cut_ne_nil ' ' t)
  rw [Gives, Text.words, ht] at behind
  obtain ⟨v, vs, first, more, rfl⟩ := List.forall₂_cons_left_iff.mp behind
  rw [Gives, Text.words, Text.cut_append (token.not_mem_placeholder (by decide)) ht,
    Text.foldr_pushFront]
  refine .cons ?_ more
  have value : tokenValue dispatch tokens (bound + 1) token = pure token.raw := by
    rw [tokenValue, kind]
    exact expand_of_clear clear
  rw [expand_placeholder dispatch (bound + 1) apart mem, value, first, pure_bind, pure_bind]

/-- Typed text that is clear up to the placeholder behind it is in front of the words. -/
theorem stretch {o x : Text} (tail : Text) (h : '"' ∉ o) (clear : Clear tokens (o ++ tail))
    (near : ∀ token ∈ tokens, ∀ b : Text, b ≠ [] → token.placeholder <+: b ++ t →
      token.placeholder <+: b ++ tail)
    (behind : Gives dispatch tokens (bound + 1) t (unquotedWords false x)) :
    Gives dispatch tokens (bound + 1) (o ++ t) (unquotedWords false (o ++ x)) := by
  induction o with
  | nil => exact behind
  | cons c o ih =>
    rw [List.mem_cons, not_or] at h
    obtain ⟨first, rest⟩ := Clear.cons_iff.mp clear
    rw [List.cons_append, List.cons_append, unquotedWords_cons (Ne.symm h.1)]
    refine (ih h.2 rest).cons fun token mem found => first token mem ?_
    exact near token mem (c :: o) (List.cons_ne_nil _ _) found

/-- **A line whose quotes are numbered comes to its words without the quotes**, if no typed text
is mistaken for a placeholder. -/
theorem numberSpans {texts : List Text} {pieces : List (Piece Text)} {n : Nat}
    (ha : alternate texts = some pieces) (quoteless : ∀ x ∈ texts, '"' ∉ x)
    (numbered : Numbered .quote 0 tokens) (sub : (Teletype.numberSpans .quote n pieces).2 ⊆ tokens)
    (clear : Unmistaken tokens.length texts) :
    Gives dispatch tokens (bound + 2) (Teletype.numberSpans .quote n pieces).1
      (unquotedWords false (Text.join '"' texts)) := by
  fun_induction alternate texts generalizing pieces n with
  | case1 => cases ha
  | case2 outside =>
    cases ha
    have whole : Gives dispatch tokens (bound + 2) _ _ := stretch (x := []) []
      (quoteless outside List.mem_cons_self) (by rwa [List.append_nil, clear_iff numbered])
      (fun _ _ _ _ found => found) nil
    rw [numberSpans_plain]
    simpa [Text.join] using whole
  | case3 outside quoted rest ih =>
    obtain ⟨behind, hb, rfl⟩ := Option.map_eq_some_iff.mp ha
    rw [numberSpans_map_plain, Teletype.numberSpans] at sub ⊢
    obtain ⟨before, inside, more⟩ := clear
    rw [← clear_iff numbered] at before inside
    obtain ⟨first, others, rfl⟩ : ∃ first others, rest = first :: others := by
      cases rest with
      | nil => cases hb
      | cons first others => exact ⟨first, others, rfl⟩
    have token := sub List.mem_cons_self
    have later := ih hb (fun x hx => quoteless x (List.mem_cons_of_mem _ (List.mem_cons_of_mem _ hx)))
      (List.subset_of_cons_subset sub) more
    have line : Text.join '"' (outside :: quoted :: first :: others)
        = outside ++ ('"' :: quoted ++ '"' :: Text.join '"' (first :: others)) := by
      simp [Text.join]
    have quote := later.placeholder numbered.apart token rfl inside
    rw [← unquotedWords_quote (quoteless quoted (by simp))] at quote
    rw [line]
    refine stretch _ (quoteless outside List.mem_cons_self) before ?_ quote
    exact fun other mem b hb found =>
      Token.placeholder_prefix_quote (numbered.1 other mem) rfl hb found

end Gives

end Expansion

/-! ## Tokenizing quoted lines -/

/-- A line without references and parentheses is tokenized to its words with the placeholders of
its quotes. -/
theorem tokenize_of_flat {line : Text} (flat : ∀ c ∈ ['$', '(', ')'], c ∉ line)
    {pieces : List (Piece Text)} (hq : quotePieces line = some pieces) :
    tokenize line = .ok ⟨Text.words (numberSpans .quote 0 pieces).1,
      (numberSpans .quote 0 pieces).2⟩ := by
  -- parentheses would be characters of the line
  have left : ∀ c ∈ ['$', '(', ')'], isParen c = true → c ∉ (numberSpans .quote 0 pieces).1 := by
    intro c hc paren mem
    have marked : c ∈ (numberSpans .quote 0 pieces).1.filter isParen :=
      List.mem_filter.mpr ⟨mem, paren⟩
    rw [filter_numberSpans fun _ => isMark_of_isParen, (plains_alternate line).1 pieces hq] at marked
    exact flat c hc (mem_of_mem_unquoted (List.mem_filter.mp marked).1)
  have hopen := left '(' (by decide) rfl
  have hclose := left ')' (by decide) rfl
  simp only [tokenize, variablePieces_eq_map (flat '$' (by decide)), numberSpans_plain, hq,
    List.count_eq_zero_of_not_mem hopen, extractParens, if_neg hopen, if_neg hclose,
    List.nil_append, List.append_nil]

/-- Every second text is a quote. -/
theorem length_numberSpans_alternate {texts : List Text} {pieces : List (Piece Text)}
    (ha : alternate texts = some pieces) (kind : Token.Kind) (n : Nat) :
    (numberSpans kind n pieces).2.length = texts.length / 2 := by
  fun_induction alternate texts generalizing pieces n with
  | case1 => cases ha
  | case2 outside =>
    cases ha
    simp [numberSpans_plain]
  | case3 outside quoted rest ih =>
    obtain ⟨behind, hb, rfl⟩ := Option.map_eq_some_iff.mp ha
    rw [numberSpans_map_plain, numberSpans]
    simp only [List.length_cons, ih hb]
    omega

/-- Every quote of a line in which no text is mistaken is a text without placeholders. -/
theorem Unmistaken.lacks_raw {m : Nat} {texts : List Text} (h : Unmistaken m texts)
    {pieces : List (Piece Text)} (ha : alternate texts = some pieces) {kind : Token.Kind} {n : Nat} :
    ∀ token ∈ (numberSpans kind n pieces).2, Lacks m token.raw := by
  fun_induction alternate texts generalizing pieces n with
  | case1 => cases ha
  | case2 outside =>
    cases ha
    simp [numberSpans_plain]
  | case3 outside quoted rest ih =>
    obtain ⟨behind, hb, rfl⟩ := Option.map_eq_some_iff.mp ha
    obtain ⟨-, inside, more⟩ := h
    rw [numberSpans_map_plain, numberSpans]
    exact List.forall_mem_cons.mpr ⟨inside, ih more hb⟩

/-! ## Expanding again -/

namespace Piece

/-- The text of pieces when a text is put in the place of every item. -/
def render (put : Token → Text) : List (Piece Token) → Text
  | [] => []
  | .plain c :: pieces => c :: render put pieces
  | .item token :: pieces => put token ++ render put pieces

variable {put : Token → Text} {pieces : List (Piece Token)}

/-- Items are replaced by what the texts in their places are. -/
theorem fill_eq {replace : Token → Act Text}
    (h : ∀ token, .item token ∈ pieces → replace token = pure (put token)) :
    Expansion.fill replace pieces = pure (render put pieces) := by
  induction pieces with
  | nil => rfl
  | cons p pieces ih =>
    have rest := ih fun token mem => h token (List.mem_cons_of_mem _ mem)
    cases p with
    | plain c => rw [Expansion.fill, rest, pure_bind, render]
    | item token =>
      rw [Expansion.fill, h token List.mem_cons_self, rest, pure_bind, pure_bind, render]

/-- The pieces found in a text make it up with their placeholders. -/
theorem render_scanTokens (tokens : List Token) (skip : Nat) (t : Text) :
    render Token.placeholder (scanTokens tokens skip t) = t.drop skip := by
  fun_induction scanTokens tokens skip t with
  | case1 skip => exact (List.drop_nil (i := skip)).symm
  | case2 skip _ rest ih => rw [ih, List.drop_succ_cons]
  | case3 c rest token found ih =>
    have first := List.find?_some found
    rw [List.isPrefixOf_iff_prefix] at first
    obtain ⟨behind, whole⟩ := first
    have some := List.length_pos_iff.mpr token.placeholder_ne_nil
    rw [render, ih, List.drop_zero, ← List.drop_cons some, ← whole, List.drop_left]
  | case4 c rest _ ih => rw [render, ih, List.drop_zero, List.drop_zero]

/-- Texts that hold no placeholder of their own do not make up for a lead of the
placeholders. -/
theorem render_ne_of_lead (h : ∀ token, .item token ∈ pieces → ¬ token.placeholder <:+: token.raw)
    {lead : Text} (nonempty : lead ≠ []) :
    lead ++ render Token.placeholder pieces ≠ render Token.raw pieces := by
  induction pieces generalizing lead with
  | nil => simpa [render] using nonempty
  | cons p pieces ih =>
    have rest := @ih fun token mem => h token (List.mem_cons_of_mem _ mem)
    cases p with
    | plain c =>
      intro same
      obtain ⟨d, lead, rfl⟩ := List.exists_cons_of_ne_nil nonempty
      rw [render, render, List.cons_append, List.cons.injEq] at same
      refine @rest (lead ++ [c]) (by simp) ?_
      rw [← same.2, List.append_assoc]
      rfl
    | item token =>
      intro same
      rw [render, render, ← List.append_assoc] at same
      rcases List.append_eq_append_iff.mp same with ⟨more, long, behind⟩ | ⟨more, short, behind⟩
      · exact h token List.mem_cons_self ⟨lead, more, long.symm⟩
      · refine @rest more ?_ behind.symm
        rintro rfl
        rw [List.append_nil] at short
        exact h token List.mem_cons_self ⟨lead, [], by rw [List.append_nil, short]⟩

/-- Texts put in the place of their own placeholders change a text, if none holds its own. -/
theorem render_raw_eq_iff
    (h : ∀ token, .item token ∈ pieces → ¬ token.placeholder <:+: token.raw) :
    render Token.raw pieces = render Token.placeholder pieces
      ↔ ∀ p ∈ pieces, p.isItem = false := by
  induction pieces with
  | nil => simp [render]
  | cons p pieces ih =>
    have rest := ih fun token mem => h token (List.mem_cons_of_mem _ mem)
    cases p with
    | plain c => simp [render, isItem, rest]
    | item token =>
      refine iff_of_false (fun same => ?_) fun none => nomatch none _ List.mem_cons_self
      have own := h token List.mem_cons_self
      rw [render, render] at same
      rcases List.append_eq_append_iff.mp same with ⟨lead, long, behind⟩ | ⟨more, short, -⟩
      · refine render_ne_of_lead (fun t mem => h t (List.mem_cons_of_mem _ mem)) ?_ behind.symm
        rintro rfl
        rw [List.append_nil] at long
        exact own ⟨[], [], by rw [List.append_nil, long, List.nil_append]⟩
      · exact own ⟨[], more, short.symm⟩

end Piece

/-- A text is clear when the scan finds no token in it. -/
theorem clear_iff_scanTokens {tokens : List Token} {t : Text} :
    Clear tokens t ↔ ∀ p ∈ scanTokens tokens 0 t, p.isItem = false := by
  constructor
  · intro clear p mem
    rw [clear.scanTokens_eq] at mem
    obtain ⟨c, -, rfl⟩ := List.mem_map.mp mem
    rfl
  · intro none
    induction t with
    | nil => exact fun token _ inside => token.placeholder_ne_nil (List.infix_nil.mp inside)
    | cons c t ih =>
      rw [scanTokens] at none
      split at none
      · cases none _ List.mem_cons_self
      · next missed =>
        refine Clear.cons_iff.mpr ⟨fun token mem found => ?_, ih fun p mem =>
          none p (List.mem_cons_of_mem _ mem)⟩
        exact List.find?_eq_none.mp missed token mem (List.isPrefixOf_iff_prefix.mpr found)

namespace Expansion

variable {dispatch : Text → Run Output} {tokens : List Token} {bound : Nat}

/-- **Texts expand to themselves exactly when they are clear**, if all tokens are quotes of clear
texts. -/
theorem mapM_expand_eq_self_iff (quotes : ∀ token ∈ tokens, token.kind = .quote)
    (raw : ∀ token ∈ tokens, Clear tokens token.raw) (ws : List Text) (s : Terminal) :
    (ws.mapM (expand dispatch tokens (bound + 2))).run s = some (.ok ws, s)
      ↔ ∀ w ∈ ws, Clear tokens w := by
  have items : ∀ w token, .item token ∈ scanTokens tokens 0 w → token ∈ tokens :=
    fun w token mem => mem_of_item_mem_scanTokens mem
  have value : ∀ w, expand dispatch tokens (bound + 2) w
      = pure (Piece.render Token.raw (scanTokens tokens 0 w)) := by
    intro w
    rw [expand]
    refine Piece.fill_eq fun token mem => ?_
    rw [quotes token (items w token mem)]
    exact expand_of_clear (raw token (items w token mem))
  have fixed : ∀ w, Piece.render Token.raw (scanTokens tokens 0 w) = w ↔ Clear tokens w := by
    intro w
    rw [clear_iff_scanTokens, ← Piece.render_raw_eq_iff fun token mem =>
      raw token (items w token mem) token (items w token mem), Piece.render_scanTokens,
      List.drop_zero]
  have all : (ws.mapM (expand dispatch tokens (bound + 2))).run s
      = some (.ok (ws.map fun w => Piece.render Token.raw (scanTokens tokens 0 w)), s) := by
    rw [funext value, List.mapM_pure]
    rfl
  have same : (ws.map fun w => Piece.render Token.raw (scanTokens tokens 0 w)) = ws
      ↔ ∀ w ∈ ws, Clear tokens w := by
    rw [← forall₂_congr fun w _ => fixed w]
    conv_lhs => rhs; rw [← List.map_id ws]
    exact List.map_inj_left
  rw [all, ← same]
  simp

end Expansion

/-! ## Quoted lines -/

/-- **A quoted line comes to its words without the quotes, and these come to themselves unless
a placeholder stands in them.**  On a line with paired quotes, without references and
parentheses, whatever else stands in it, evaluation ends.  If no text between the quotes is
mistaken for one of the placeholders of the line, the words are those between the spaces
outside quotes, with the quotes taken away.  With the same tokens these are left as they are
exactly when none of them holds one of the placeholders. -/
theorem Host.expand_quotation (host : Host) (hb : 1 < host.bound) {line : Text}
    (paired : line.count '"' % 2 = 0) (flat : ∀ c ∈ ['$', '(', ')'], c ∉ line)
    (clear : Unmistaken (line.count '"' / 2) (Text.cut '"' line)) (s : Terminal) :
    let words := unquotedWords false line
    (host.expand (Text.words line)).run s = some (.ok words, s) ∧
    ∃ tokenized, tokenize line = .ok tokenized ∧
      ((words.mapM (Expansion.expand host.dispatch tokenized.tokens host.bound)).run s
          = some (.ok words, s)
        ↔ ∀ word ∈ words, Lacks (line.count '"' / 2) word) := by
  intro words
  obtain ⟨bound, hbound⟩ := Nat.exists_eq_add_of_lt hb
  obtain ⟨pieces, hq⟩ : ∃ pieces, quotePieces line = some pieces := by
    rw [← Option.ne_none_iff_exists', Ne, quotePieces_eq_none_iff]
    omega
  have numbered := Numbered.numberSpans .quote 0 pieces
  have length : (numberSpans .quote 0 pieces).2.length = line.count '"' / 2 := by
    rw [length_numberSpans_alternate hq, length_cut]
    omega
  rw [← length] at clear ⊢
  have accepted := tokenize_of_flat flat hq
  have whole : Text.join '"' (Text.cut '"' line) = line := Text.join_cut '"' line
  have given : Expansion.Gives host.dispatch _ (bound + 2) _ _ := .numberSpans hq
    (fun x => Text.not_mem_of_mem_cut) numbered (List.Subset.refl _) clear
  rw [whole] at given
  have enough : host.bound = bound + 2 := by omega
  refine ⟨?_, _, accepted, ?_⟩
  · rw [Host.expand, Text.unwords_words, Expansion.expandLine, accepted, enough]
    exact congrArg (fun a : Act (List Text) => a.run s) (Expansion.mapM_of_forall₂ given)
  · rw [enough, Expansion.mapM_expand_eq_self_iff numbered.1 fun token mem =>
      (clear_iff numbered _).mpr (clear.lacks_raw hq token mem)]
    exact forall₂_congr fun w _ => clear_iff numbered w

/-- A line with a percent sign in a quote, and beside one the beginning of a placeholder.  Its
words come to themselves. -/
theorem Host.expand_quotation_percent :
    let host := Registry.builtin.host 3
    let start := Terminal.ofSettings {} (.recorder { grid := ⟨60, 25⟩ }) (.memory .empty) ⟨0⟩
    let line := "SAY 50% \"%quote%1 %\"%quote% %quote%0".toList
    let words := ["SAY".toList, "50%".toList, "%quote%1 %%quote%".toList, "%quote%0".toList]
    line.count '"' % 2 = 0 ∧ (∀ c ∈ ['$', '(', ')'], c ∉ line) ∧
      Unmistaken (line.count '"' / 2) (Text.cut '"' line) ∧
      (host.expand (Text.words line)).run start = some (.ok words, start) ∧
      ∃ tokenized, tokenize line = .ok tokenized ∧
        (words.mapM (Expansion.expand host.dispatch tokenized.tokens host.bound)).run start
          = some (.ok words, start) := by
  intro host start line words
  have even : line.count '"' % 2 = 0 := by decide
  have flat : ∀ c ∈ ['$', '(', ')'], c ∉ line := by simp [line]
  have clear : Unmistaken (line.count '"' / 2) (Text.cut '"' line) := by
    decide +kernel
  have lacking : ∀ word ∈ unquotedWords false line, Lacks (line.count '"' / 2) word := by
    decide +kernel
  obtain ⟨expanded, tokenized, accepted, again⟩ :=
    expand_quotation host (by decide) even flat clear start
  exact ⟨even, flat, clear, expanded, tokenized, accepted, again.mpr lacking⟩

/-- Typed text is mistaken for the placeholder of a quote that stands behind it, and the words
of a line make up its placeholder. -/
theorem Host.expand_quotation_mistaken :
    let host := Registry.builtin.host 3
    let start := Terminal.ofSettings {} (.recorder { grid := ⟨60, 25⟩ }) (.memory .empty) ⟨0⟩
    let typed := "%quote%0%quote% \"x\"".toList
    let made := "%quote%\"0\"%quote%".toList
    unquotedWords false typed = ["%quote%0%quote%".toList, "x".toList] ∧
    (host.expand (Text.words typed)).run start = some (.ok ["x".toList, "x".toList], start) ∧
    (host.expand (Text.words made)).run start = some (.ok ["%quote%0%quote%".toList], start) ∧
    ∃ tokenized, tokenize made = .ok tokenized ∧
      (["%quote%0%quote%".toList].mapM
        (Expansion.expand host.dispatch tokenized.tokens host.bound)).run start
          = some (.ok ["0".toList], start) := by
  intro host start typed made
  exact ⟨by decide +kernel, by decide +kernel, by decide +kernel, _, rfl, by decide +kernel⟩

end Teletype
