/-
# Balanced lines

Which lines are accepted.  The delimiters of a line are its quotes and its parentheses.
Taking out variables leaves them all; taking out quotes leaves the parentheses that stand
outside quotes; and a round that takes out innermost parentheses cancels neighbours that
match.  The main statement is that **a line is accepted exactly if its quotes pair up and
its parentheses outside quotes are balanced** (`tokenize_outcomes`), and the message that
refuses any other line says what is left of them.
-/
import Teletype.Proofs.Bracket
import Teletype.Proofs.Tokenization

namespace Teletype

open Relation (ReflTransGen)

/-! ## The delimiters of a line -/

/-- A line without what stands between its quotes, and without the quotes.  The first
argument tells whether the line begins behind an open quote. -/
def unquoted : Bool → Text → Text
  | _, [] => []
  | quoted, c :: t =>
    if c = '"' then unquoted (!quoted) t
    else if quoted then unquoted quoted t
    else c :: unquoted quoted t

/-- The parentheses of a text. -/
def parens (t : Text) : Text := t.filter isParen

/-- The parentheses of a line outside its quotes. -/
def brackets (line : Text) : Text := parens (unquoted false line)

/-- The character is a quote or a parenthesis. -/
def isMark (c : Char) : Bool := c = '"' || isParen c

/-- The marks are the quote and the parentheses. -/
theorem isMark_eq_true_iff {c : Char} : isMark c = true ↔ c = '"' ∨ c = '(' ∨ c = ')' := by
  simp [isMark, isParen]

/-- A parenthesis delimits spans. -/
theorem isMark_of_isParen {c : Char} (h : isParen c = true) : isMark c = true := by
  rw [isMark, h, Bool.or_true]

/-- Quotes and parentheses stand in no placeholder. -/
theorem isMark_placeholder (t : Token) : ∀ c ∈ t.placeholder, isMark c = false := by
  intro c hc
  cases h : isMark c with
  | false => rfl
  | true =>
    refine absurd hc (t.not_mem_placeholder ?_)
    rcases isMark_eq_true_iff.mp h with rfl | rfl | rfl <;> decide

/-- Quotes and parentheses stand in no name. -/
theorem isMark_of_isNameChar {c : Char} (h : isNameChar c = true) : isMark c = false := by
  cases hc : isMark c with
  | false => rfl
  | true => rcases isMark_eq_true_iff.mp hc with rfl | rfl | rfl <;> cases h

/-- Inside quotes there are no quotes, and outside there are none left. -/
theorem quote_not_mem_unquoted (quoted : Bool) (t : Text) : '"' ∉ unquoted quoted t := by
  induction t generalizing quoted with
  | nil => exact List.not_mem_nil
  | cons c t ih =>
    rw [unquoted]
    split
    · exact ih _
    · next hc =>
      split
      · exact ih _
      · rw [List.mem_cons, not_or]
        exact ⟨Ne.symm hc, ih _⟩

/-- The parentheses outside quotes are told by the quotes and the parentheses of a line. -/
theorem parens_unquoted_filter (quoted : Bool) (t : Text) :
    parens (unquoted quoted (t.filter isMark)) = parens (unquoted quoted t) := by
  induction t generalizing quoted with
  | nil => rfl
  | cons c t ih =>
    by_cases hmark : isMark c = true
    · rw [List.filter_cons_of_pos hmark, unquoted, unquoted]
      split
      · exact ih _
      · split
        · exact ih _
        · rw [parens, parens, List.filter_cons, List.filter_cons]
          rw [show List.filter isParen _ = _ from ih quoted]
          rfl
    · have hquote : c ≠ '"' := by
        rintro rfl
        exact hmark rfl
      have hparen : ¬ isParen c = true := fun h => hmark (isMark_of_isParen h)
      rw [List.filter_cons_of_neg hmark, unquoted, if_neg hquote, ih]
      split
      · rfl
      · rw [parens, parens, List.filter_cons_of_neg hparen]

/-- A line has the quotes that it has among its quotes and parentheses. -/
theorem count_quote_filter (t : Text) : (t.filter isMark).count '"' = t.count '"' :=
  List.count_filter rfl

/-! ## Pieces -/

/-- The characters among pieces. -/
def plains {α : Type} (pieces : List (Piece α)) : Text :=
  pieces.filterMap fun p => match p with
    | .plain c => some c
    | .item _ => none

/-- The characters among characters are all of them. -/
theorem plains_map_append {α : Type} (t : Text) (pieces : List (Piece α)) :
    plains (t.map .plain ++ pieces) = t ++ plains pieces := by
  induction t with
  | nil => rfl
  | cons c t ih => exact congrArg (c :: ·) ih

/-- Numbering the spans leaves the quotes and parentheses among the characters. -/
theorem filter_numberSpans {p : Char → Bool} (hp : ∀ c, p c = true → isMark c = true)
    (kind : Token.Kind) (n : Nat) (pieces : List (Piece Text)) :
    (numberSpans kind n pieces).1.filter p = (plains pieces).filter p := by
  induction pieces generalizing n with
  | nil => rfl
  | cons piece pieces ih =>
    cases piece with
    | plain c =>
      show List.filter p (c :: (numberSpans kind n pieces).1) = List.filter p (c :: plains pieces)
      rw [List.filter_cons, List.filter_cons, ih]
    | item raw =>
      show List.filter p ((⟨kind, n, raw⟩ : Token).placeholder ++ (numberSpans kind (n + 1) pieces).1)
        = List.filter p (plains pieces)
      have none : (⟨kind, n, raw⟩ : Token).placeholder.filter p = [] := by
        rw [List.filter_eq_nil_iff]
        intro c hc h
        have unmarked := isMark_placeholder _ c hc
        rw [hp c h] at unmarked
        cases unmarked
      rw [List.filter_append, none, List.nil_append, ih]

/-! ## Variables -/

/-- **Taking out variables leaves the quotes and parentheses of a line.** -/
theorem filter_variablePieces (line : Text) :
    (plains (variablePieces line)).filter isMark = line.filter isMark := by
  -- a reference takes several characters away
  induction hn : line.length using Nat.strongRecOn generalizing line with
  | ind n ih =>
    cases line with
    | nil => rfl
    | cons c rest =>
      have shorter : rest.length < n := by
        rw [← hn, List.length_cons]
        exact Nat.lt_succ_self _
      have stays : (plains (.plain c :: variablePieces rest)).filter isMark
          = (c :: rest).filter isMark := by
        show List.filter isMark (c :: plains (variablePieces rest)) = _
        rw [List.filter_cons, List.filter_cons, ih _ shorter rest rfl]
      by_cases hd : c = '$'
      · subst hd
        rw [variablePieces, if_pos rfl, splitName_variablePieces]
        cases hname : rest.takeWhile isNameChar with
        | nil => exact stays
        | cons d name =>
          have behind : (rest.dropWhile isNameChar).length < n :=
            Nat.lt_of_le_of_lt (List.dropWhile_sublist _).length_le shorter
          show List.filter isMark (plains (variablePieces (rest.dropWhile isNameChar))) = _
          have unmarked : (rest.takeWhile isNameChar).filter isMark = [] := by
            rw [List.filter_eq_nil_iff]
            intro e he
            rw [isMark_of_isNameChar (List.mem_takeWhile_imp he)]
            exact Bool.false_ne_true
          rw [ih _ behind _ rfl, List.filter_cons_of_neg (by decide),
            ← List.takeWhile_append_dropWhile (p := isNameChar) (l := rest), List.filter_append]
          rw [List.takeWhile_append_dropWhile, unmarked, List.nil_append]
      · rw [variablePieces_cons hd]
        exact stays

/-! ## Quotes -/

/-- A line is cut at its quotes into one piece more than it has quotes. -/
theorem length_cut (sep : Char) (t : Text) : (Text.cut sep t).length = t.count sep + 1 := by
  induction t with
  | nil => rfl
  | cons c t ih =>
    rw [Text.cut]
    split
    · next h =>
      subst h
      rw [List.length_cons, ih, List.count_cons_self]
    · next h =>
      obtain ⟨piece, pieces, hp⟩ := List.exists_cons_of_ne_nil (Text.cut_ne_nil sep t)
      rw [hp, List.length_cons] at ih
      rw [hp, Text.pushFront, List.length_cons, ih, List.count_cons_of_ne h]

/-- Quotes pair up when their number is even. -/
theorem quotePieces_eq_none_iff (t : Text) : quotePieces t = none ↔ t.count '"' % 2 = 1 := by
  rw [← Option.not_isSome_iff_eq_none, quotePieces, alternate_isSome, length_cut, beq_iff_eq]
  omega

/-- **Taking out quotes leaves the characters outside quotes**, and what stands behind an
open quote as well. -/
theorem plains_alternate (t : Text) :
    (∀ pieces, alternate (Text.cut '"' t) = some pieces → plains pieces = unquoted false t) ∧
    (∀ quoted rest pieces, Text.cut '"' t = quoted :: rest → alternate rest = some pieces →
      plains pieces = unquoted true t) := by
  induction t with
  | nil =>
    constructor
    · intro pieces h
      cases h
      rfl
    · intro quoted rest pieces hcut h
      cases hcut
      cases h
  | cons c t ih =>
    obtain ⟨outside, within⟩ := ih
    obtain ⟨piece, more, hcut⟩ := List.exists_cons_of_ne_nil (Text.cut_ne_nil '"' t)
    by_cases hc : c = '"'
    · subst hc
      constructor
      · intro pieces h
        rw [Text.cut, if_pos rfl, hcut, alternate] at h
        obtain ⟨ps, hps, rfl⟩ := Option.map_eq_some_iff.mp h
        exact within piece more ps hcut hps
      · intro quoted rest pieces hq h
        rw [Text.cut, if_pos rfl] at hq
        cases hq
        exact outside pieces h
    · have cut : Text.cut '"' (c :: t) = (c :: piece) :: more := by
        rw [Text.cut, if_neg hc, hcut, Text.pushFront]
      constructor
      · intro pieces h
        rw [cut, show c :: piece = [c] ++ piece from rfl, alternate_append, ← hcut] at h
        obtain ⟨ps, hps, rfl⟩ := Option.map_eq_some_iff.mp h
        rw [plains_map_append, outside ps hps, unquoted, if_neg hc]
        rfl
      · intro quoted rest pieces hq h
        rw [cut] at hq
        cases hq
        rw [within piece _ pieces hcut h, unquoted, if_neg hc]
        rfl

/-! ## Parentheses -/

/-- A text without parentheses has none. -/
theorem parens_eq_nil {t : Text} (hopen : '(' ∉ t) (hclose : ')' ∉ t) : parens t = [] := by
  rw [parens, List.filter_eq_nil_iff]
  intro c hc h
  have paren : c = '(' ∨ c = ')' := by simpa [isParen] using h
  rcases paren with rfl | rfl
  · exact hopen hc
  · exact hclose hc

/-- The parentheses of two texts are those of the one and then those of the other. -/
theorem parens_append (a b : Text) : parens (a ++ b) = parens a ++ parens b :=
  List.filter_append a b

/-- A text has the opening parentheses that it has among its parentheses. -/
theorem count_opening_parens (t : Text) : (parens t).count '(' = t.count '(' :=
  List.count_filter rfl

/-- What holds of the pieces of a text if it holds with one piece more in front: a character,
or what stands between parentheses without others between them. -/
theorem parenPieces_induction {motive : Text → List (Piece Text) → Prop} (nil : motive [] [])
    (plain : ∀ c t, motive t (parenPieces t) → motive (c :: t) (.plain c :: parenPieces t))
    (item : ∀ inside t, '(' ∉ inside → ')' ∉ inside → motive t (parenPieces t) →
      motive ('(' :: (inside ++ ')' :: t)) (.item inside :: parenPieces t)) (t : Text) :
    motive t (parenPieces t) := by
  -- a parenthesis takes several characters away
  induction hn : t.length using Nat.strongRecOn generalizing t with
  | ind n ih =>
    cases t with
    | nil => exact nil
    | cons c t =>
      have shorter : t.length < n := by
        rw [← hn, List.length_cons]
        exact Nat.lt_succ_self _
      by_cases hopen : c = '('
      · subst hopen
        rw [parenPieces, if_pos rfl]
        cases hs : splitClosing? (parenPieces t) with
        | none => exact plain _ t (ih _ shorter t rfl)
        | some found =>
          obtain ⟨inside, pieces⟩ := found
          obtain ⟨u, rfl, rfl, ho, hc⟩ := exists_of_splitClosing? hs
          have last : u.length < n := by
            rw [List.length_append, List.length_cons] at shorter
            omega
          exact item inside u ho hc (ih _ last u rfl)
      · rw [parenPieces, if_neg hopen]
        exact plain c t (ih _ shorter t rfl)

/-- **A round cancels parentheses that match.** -/
theorem cancel_parenPieces (t : Text) :
    ReflTransGen Cancel (parens t) (parens (plains (parenPieces t))) := by
  induction t using parenPieces_induction with
  | nil => exact .refl
  | plain c t ih =>
    show ReflTransGen Cancel (parens (c :: t)) (parens (c :: plains (parenPieces t)))
    rw [parens, parens, List.filter_cons, List.filter_cons]
    split
    · exact Cancel.many_cons c ih
    · exact ih
  | item inside t ho hc ih =>
    have matching : parens ('(' :: (inside ++ ')' :: t)) = '(' :: ')' :: parens t := by
      show '(' :: parens (inside ++ ')' :: t) = _
      rw [parens_append, parens_eq_nil ho hc]
      rfl
    rw [matching]
    exact .head (.pair [] _) ih

/-- A round takes away one opening parenthesis for each span. -/
theorem count_parenPieces (t : Text) :
    (plains (parenPieces t)).count '(' + (parenPieces t).countP Piece.isItem = t.count '(' := by
  induction t using parenPieces_induction with
  | nil => rfl
  | plain c t ih =>
    show (c :: plains (parenPieces t)).count '(' + _ = _
    rw [List.countP_cons_of_neg (by exact Bool.false_ne_true), List.count_cons, List.count_cons]
    omega
  | item inside t ho _ ih =>
    show (plains (parenPieces t)).count '(' + _ = _
    rw [List.countP_cons_of_pos rfl, List.count_cons_self, List.count_append,
      List.count_cons_of_ne (by decide), List.count_eq_zero_of_not_mem ho]
    omega

/-- The characters that a round leaves are characters of the text. -/
theorem plains_parenPieces_subset (t : Text) : plains (parenPieces t) ⊆ t := by
  induction t using parenPieces_induction with
  | nil => exact List.Subset.refl _
  | plain c t ih => exact List.cons_subset_cons c ih
  | item inside t _ _ ih =>
    refine List.Subset.trans ih ?_
    refine List.subset_cons_of_subset _ (List.subset_append_of_subset_right _ ?_)
    exact List.subset_cons_self _ _

/-- The span that is closed by a first closing parenthesis is found. -/
theorem splitClosing?_append {m b : Text} (hopen : '(' ∉ m) (hclose : ')' ∉ m) :
    splitClosing? (parenPieces (m ++ ')' :: b)) = some (m, parenPieces b) := by
  induction m with
  | nil =>
    rw [List.nil_append, parenPieces, if_neg (by decide), splitClosing?]
  | cons c m ih =>
    rw [List.mem_cons, not_or] at hopen hclose
    rw [List.cons_append, parenPieces, if_neg (Ne.symm hopen.1),
      splitClosing?_cons (Ne.symm hclose.1) (Ne.symm hopen.1), ih hopen.2 hclose.2]
    rfl

/-- **A round finds a span as long as parentheses match.** -/
theorem any_isItem_of_cancel {t x : Text} (h : Cancel (parens t) x) :
    (parenPieces t).any Piece.isItem = true := by
  -- the matching parentheses are neighbours but for characters that are none
  generalize hw : parens t = w at h
  obtain ⟨a, b⟩ := h
  obtain ⟨front, rest, rfl, -, hrest⟩ := List.filter_eq_append_iff.mp hw
  obtain ⟨skipped, behind, rfl, -, -, hbehind⟩ := List.filter_eq_cons_iff.mp hrest
  obtain ⟨inside, last, rfl, hinside, -, -⟩ := List.filter_eq_cons_iff.mp hbehind
  have found : (parenPieces ('(' :: (inside ++ ')' :: last))).any Piece.isItem = true := by
    rw [parenPieces, if_pos rfl, splitClosing?_append (fun m => hinside _ m rfl)
      (fun m => hinside _ m rfl)]
    rfl
  rw [← List.append_assoc]
  generalize front ++ skipped = outer
  induction outer with
  | nil => exact found
  | cons c outer ih =>
    have behind : (Piece.plain c :: parenPieces (outer ++ '(' :: (inside ++ ')' :: last))).any
        Piece.isItem = true := by
      rw [List.any_cons, ih, Bool.or_true]
    rw [List.cons_append, parenPieces]
    split
    · split
      · rfl
      · exact behind
    · exact behind

/-- The placeholders that a round puts in leave the parentheses. -/
theorem parens_round (n : Nat) (t : Text) :
    parens (numberSpans .paren n (parenPieces t)).1 = parens (plains (parenPieces t)) :=
  filter_numberSpans (fun _ => isMark_of_isParen) _ _ _

/-- A round that finds a span takes away an opening parenthesis. -/
theorem count_round {t : Text} (hany : (parenPieces t).any Piece.isItem = true) (n : Nat) :
    (numberSpans .paren n (parenPieces t)).1.count '(' < t.count '(' := by
  have taken : 0 < (parenPieces t).countP Piece.isItem := by
    rw [List.countP_pos_iff]
    exact List.any_eq_true.mp hany
  have counted := count_parenPieces t
  rw [← count_opening_parens, parens_round, count_opening_parens]
  omega

/-- **Rounds cancel all parentheses that match**, if there are as many as there are opening
parentheses. -/
theorem leaves_extractParens (n : Nat) (t : Text) (rounds : Nat) (enough : t.count '(' ≤ rounds) :
    Leaves (parens t) (parens (extractParens n t rounds).1) := by
  induction rounds generalizing n t with
  | zero =>
    -- nothing is cancelled where nothing is opened
    have none : '(' ∉ parens t := fun h =>
      List.count_eq_zero.mp (Nat.le_zero.mp enough) (List.mem_filter.mp h).1
    refine ⟨.refl, fun x h => ?_⟩
    change Cancel (parens t) x at h
    generalize parens t = w at h none
    obtain ⟨a, b⟩ := h
    exact none (List.mem_append_right _ List.mem_cons_self)
  | succ rounds ih =>
    rw [extractParens]
    cases hany : (parenPieces t).any Piece.isItem with
    | true =>
      rw [if_pos rfl]
      have fewer := count_round hany n
      have left := ih (n + (numberSpans .paren n (parenPieces t)).2.length)
        (numberSpans .paren n (parenPieces t)).1 (by omega)
      rw [parens_round] at left
      exact ⟨(cancel_parenPieces t).trans left.1, left.2⟩
    | false =>
      rw [if_neg Bool.false_ne_true]
      refine ⟨.refl, fun x h => ?_⟩
      rw [any_isItem_of_cancel h] at hany
      cases hany

/-- **Rounds come to an end.**  Rounds beyond the number of opening parentheses change
nothing. -/
theorem extractParens_add (n : Nat) (t : Text) {rounds : Nat} (enough : t.count '(' ≤ rounds)
    (more : Nat) : extractParens n t (rounds + more) = extractParens n t rounds := by
  induction rounds generalizing n t with
  | zero =>
    -- where nothing is opened there is no span
    have none : (parenPieces t).any Piece.isItem = false := by
      have counted := count_parenPieces t
      rw [← Bool.not_eq_true, List.any_eq_true, ← List.countP_pos_iff]
      omega
    cases more with
    | zero => rfl
    | succ more =>
      show extractParens n t (0 + more + 1) = (t, [])
      rw [extractParens, none, if_neg Bool.false_ne_true]
  | succ rounds ih =>
    rw [Nat.add_right_comm, extractParens, extractParens]
    split
    · next hany =>
      have fewer := count_round hany n
      have same := ih (n + (numberSpans .paren n (parenPieces t)).2.length)
        (numberSpans .paren n (parenPieces t)).1 (by omega)
      simp only [same]
    · rfl

/-- No quote comes with the placeholders of parentheses. -/
theorem quote_not_mem_extractParens (n : Nat) {t : Text} (rounds : Nat) (h : '"' ∉ t) :
    '"' ∉ (extractParens n t rounds).1 := by
  induction rounds generalizing n t with
  | zero => exact h
  | succ rounds ih =>
    rw [extractParens]
    split
    · apply ih
      intro mem
      have marked : '"' ∈ (numberSpans .paren n (parenPieces t)).1.filter isMark :=
        List.mem_filter.mpr ⟨mem, rfl⟩
      rw [filter_numberSpans fun _ h => h] at marked
      exact h (plains_parenPieces_subset t (List.mem_filter.mp marked).1)
    · exact h

/-! ## Accepted lines -/

/-- What is left of a line when its spans are taken out, if its quotes pair up. -/
theorem tokenize_cases (line : Text) :
    (tokenize line = .error .quote ∧ line.count '"' % 2 = 1) ∨
    (line.count '"' % 2 = 0 ∧ ∃ last tokens, '"' ∉ last ∧ Leaves (brackets line) (parens last) ∧
      tokenize line = if '(' ∈ last then .error .opening
        else if ')' ∈ last then .error .closing
        else .ok ⟨Text.words last, tokens⟩) := by
  -- the names leave the delimiters
  have marks : (numberSpans .variable 0 (variablePieces line)).1.filter isMark
      = line.filter isMark := by
    rw [filter_numberSpans fun _ h => h, filter_variablePieces]
  unfold tokenize
  generalize numberSpans .variable 0 (variablePieces line) = bound at marks
  obtain ⟨named, bindings⟩ := bound
  simp only at marks ⊢
  have count : named.count '"' = line.count '"' := by
    rw [← count_quote_filter, marks, count_quote_filter]
  have outside : brackets named = brackets line := by
    rw [brackets, ← parens_unquoted_filter, marks, parens_unquoted_filter, brackets]
  rcases hquotes : quotePieces named with _ | pieces
  · refine .inl ⟨rfl, ?_⟩
    rw [← count]
    exact (quotePieces_eq_none_iff named).mp hquotes
  · right
    have paired : ¬ named.count '"' % 2 = 1 := fun odd => by
      rw [(quotePieces_eq_none_iff named).mpr odd] at hquotes
      cases hquotes
    have plain : plains pieces = unquoted false named := (plains_alternate named).1 pieces hquotes
    -- the quotes leave the parentheses outside
    have quoteless : '"' ∉ (numberSpans .quote 0 pieces).1 := by
      intro mem
      have marked : '"' ∈ (numberSpans .quote 0 pieces).1.filter isMark :=
        List.mem_filter.mpr ⟨mem, rfl⟩
      rw [filter_numberSpans fun _ h => h, plain] at marked
      exact quote_not_mem_unquoted false named (List.mem_filter.mp marked).1
    have brackets : parens (numberSpans .quote 0 pieces).1 = brackets line := by
      rw [parens, filter_numberSpans fun _ => isMark_of_isParen, plain, ← outside]
      rfl
    have left := leaves_extractParens 0 (numberSpans .quote 0 pieces).1 _ (Nat.le_refl _)
    rw [brackets] at left
    exact ⟨by omega, _, _, quote_not_mem_extractParens 0 _ quoteless, left, rfl⟩

/-- The message with which a line is refused. -/
def refusal? (line : Text) : Option Text :=
  match tokenize line with
  | .error imbalance => some imbalance.message
  | .ok _ => none

/-- The message tells how the delimiters fail to pair up. -/
theorem refusal?_eq_some_iff {line : Text} {e : Imbalance} :
    refusal? line = some e.message ↔ tokenize line = .error e := by
  have differ : ∀ e e' : Imbalance, e.message = e'.message → e = e' := by
    intro e e' h
    cases e <;> cases e' <;> first | rfl | (revert h; decide)
  unfold refusal?
  cases tokenize line with
  | ok tokenized => exact iff_of_false (fun h => nomatch h) (fun h => nomatch h)
  | error e' =>
    constructor
    · intro h
      rw [differ e' e (Option.some.inj h)]
    · intro h
      cases h
      rfl

/-- Words of parentheses hold parentheses. -/
theorem isParen_brackets (line : Text) : ∀ c ∈ brackets line, isParen c = true :=
  fun _ h => (List.mem_filter.mp h).2

/-- A parenthesis of a text is one of its parentheses. -/
theorem mem_parens_iff {c : Char} (h : isParen c = true) (t : Text) : c ∈ parens t ↔ c ∈ t := by
  rw [parens, List.mem_filter]
  exact and_iff_left h

/-- What is left of the parentheses of a line tells whether the line is balanced. -/
theorem brackets_left {line last : Text} (left : Leaves (brackets line) (parens last)) :
    ((∃ r, Leaves (brackets line) r ∧ '(' ∈ r) ↔ '(' ∈ last) ∧
    ((∃ r, Leaves (brackets line) r ∧ '(' ∉ r ∧ ')' ∈ r) ↔ '(' ∉ last ∧ ')' ∈ last) ∧
    (Balanced (brackets line) ↔ '(' ∉ last ∧ ')' ∉ last) := by
  have paren := isParen_brackets line
  have only : ∀ P : Text → Prop, (∃ r, Leaves (brackets line) r ∧ P r) ↔ P (parens last) := by
    intro P
    constructor
    · rintro ⟨r, hr, h⟩
      rwa [← hr.unique paren left]
    · exact fun h => ⟨_, left, h⟩
  have opening := mem_parens_iff (c := '(') rfl last
  have closing := mem_parens_iff (c := ')') rfl last
  refine ⟨(only _).trans opening, (only _).trans (and_congr (not_congr opening) closing), ?_⟩
  rw [← left.eq_nil_iff paren]
  constructor
  · intro h
    rw [← opening, ← closing, h]
    exact ⟨List.not_mem_nil, List.not_mem_nil⟩
  · rintro ⟨ho, hc⟩
    exact parens_eq_nil ho hc

/-- **A line is accepted exactly if its quotes pair up and its parentheses outside quotes are
balanced.** -/
theorem accepted_iff (line : Text) : (∃ tokenized, tokenize line = .ok tokenized) ↔
    line.count '"' % 2 = 0 ∧ Balanced (brackets line) := by
  rcases tokenize_cases line with ⟨h, odd⟩ | ⟨even, last, tokens, -, left, h⟩
  · simp [h, odd]
  · obtain ⟨-, -, balanced⟩ := brackets_left left
    rw [balanced]
    by_cases hopen : '(' ∈ last
    · simp [h, hopen]
    · by_cases hclose : ')' ∈ last
      · simp [h, hopen, hclose]
      · simp [h, even, hopen, hclose]

/-- A word of a text has characters of the text. -/
theorem subset_of_mem_cut {sep : Char} {t piece : Text} (h : piece ∈ Text.cut sep t) :
    piece ⊆ t := by
  induction t generalizing piece with
  | nil =>
    rw [List.mem_singleton.mp h]
    exact List.nil_subset _
  | cons c t ih =>
    rw [Text.cut] at h
    split at h
    · rcases List.mem_cons.mp h with rfl | h
      · exact List.nil_subset _
      · exact List.subset_cons_of_subset c (ih h)
    · obtain ⟨first, others, hcut⟩ := List.exists_cons_of_ne_nil (Text.cut_ne_nil sep t)
      rw [hcut] at h ih
      rcases List.mem_cons.mp h with rfl | h
      · exact List.cons_subset_cons c (ih List.mem_cons_self)
      · exact List.subset_cons_of_subset c (ih (List.mem_cons_of_mem _ h))

/-- **The lines that are accepted are the balanced ones.**  On no text do more rounds than it
has opening parentheses change anything, so that every line is accepted or refused.  It is
refused for its quotes exactly if their number is odd.  Otherwise the parentheses outside
quotes decide: the line is refused for an opening one if such a one is left when those that
match are cancelled, for a closing one if only closing ones are left, and it is accepted if
they are balanced.  In the words of an accepted line no delimiter is left. -/
theorem tokenize_outcomes (line : Text) :
    (∀ n t more, extractParens n t (t.count '(' + more) = extractParens n t (t.count '(')) ∧
    (refusal? line = some "Unmatched opening double quote.".toList ↔ line.count '"' % 2 = 1) ∧
    (refusal? line = some "Unmatched opening parenthesis.".toList ↔
      line.count '"' % 2 = 0 ∧ ∃ r, Leaves (brackets line) r ∧ '(' ∈ r) ∧
    (refusal? line = some "Unmatched closing parenthesis.".toList ↔
      line.count '"' % 2 = 0 ∧ ∃ r, Leaves (brackets line) r ∧ '(' ∉ r ∧ ')' ∈ r) ∧
    ((∃ tokenized, tokenize line = .ok tokenized) ↔
      line.count '"' % 2 = 0 ∧ Balanced (brackets line)) ∧
    ∀ tokenized, tokenize line = .ok tokenized →
      ∀ word ∈ tokenized.words, '"' ∉ word ∧ '(' ∉ word ∧ ')' ∉ word := by
  have quote : refusal? line = some "Unmatched opening double quote.".toList ↔
      tokenize line = .error .quote := refusal?_eq_some_iff (e := .quote)
  have opening : refusal? line = some "Unmatched opening parenthesis.".toList ↔
      tokenize line = .error .opening := refusal?_eq_some_iff (e := .opening)
  have closing : refusal? line = some "Unmatched closing parenthesis.".toList ↔
      tokenize line = .error .closing := refusal?_eq_some_iff (e := .closing)
  rw [quote, opening, closing]
  refine ⟨fun n t more => extractParens_add n t (Nat.le_refl _) more, ?_⟩
  rcases tokenize_cases line with ⟨h, odd⟩ | ⟨even, last, tokens, clean, left, h⟩
  · exact ⟨by simp [h, odd], by simp [h, odd], by simp [h, odd], accepted_iff line, by simp [h]⟩
  · obtain ⟨ho, hc, -⟩ := brackets_left left
    refine ⟨?_, ?_, ?_, accepted_iff line, ?_⟩
    · rw [h]
      split_ifs <;> simp [even]
    · rw [h, ho]
      split_ifs <;> simp [*]
    · rw [h, hc]
      split_ifs <;> simp [*]
    · intro tokenized htok word hword
      rw [h] at htok
      split_ifs at htok with hopen hclose
      cases htok
      have sub := subset_of_mem_cut hword
      exact ⟨fun m => clean (sub m), fun m => hopen (sub m), fun m => hclose (sub m)⟩

/-- A closing parenthesis does not hide an opening one, and parentheses in quotes are none. -/
example : refusal? "PRINT \")\" a) (b".toList = some "Unmatched opening parenthesis.".toList := by
  decide +kernel

end Teletype
