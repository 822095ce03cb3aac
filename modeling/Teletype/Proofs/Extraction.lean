/-
# Taking spans out of a line

What a line stands for while its spans are taken out.  A text with the placeholders of
tokens in it stands for a phrase (`Stands`).  Each of the three steps of `tokenize` cuts
such a text into pieces (`Cuts`) and numbers the spans among them; the text of the phrase
stays, and only more of its spans become nodes.  The main statement is that **the words
that a line is tokenized into stand for the words of the one phrase of the line**
(`exists_phrase_of_tokenize`).
-/
import Mathlib.Data.List.Nodup
import Mathlib.Data.List.TakeWhile
import Teletype.Proofs.Phrase
import Teletype.Proofs.Placeholder

namespace Teletype

/-! ## Texts that stand for phrases -/

/-- A delimiter behind the beginning of a placeholder is behind all of it. -/
theorem Token.exists_behind_placeholder {token : Token} {d : Char} (hd : d ∈ delimiters)
    {t a b : Text} (h : token.placeholder ++ t = a ++ d :: b) :
    ∃ behind, a = token.placeholder ++ behind ∧ t = behind ++ d :: b := by
  -- either the placeholder ends first, or the delimiter stands in it
  obtain ⟨x, hx, ht⟩ | ⟨x, hx, ht⟩ := List.append_eq_append_iff.mp h
  · exact ⟨x, hx, ht⟩
  · cases x with
    | nil => exact ⟨[], by rw [hx, List.append_nil, List.append_nil], ht.symm⟩
    | cons c x =>
      rw [List.cons_append, List.cons.injEq] at ht
      refine absurd ?_ (token.not_mem_placeholder hd)
      rw [hx, ht.1]
      exact List.mem_append_right _ List.mem_cons_self

/-- A text with the placeholders of tokens in it stands for a phrase. -/
inductive Stands (tokens : List Token) : Text → Phrase → Prop
  /-- The empty text stands for nothing. -/
  | done : Stands tokens [] .done
  /-- A character that begins no placeholder stands for itself. -/
  | char {c : Char} {t : Text} {rest : Phrase} (h : c ≠ '%') (behind : Stands tokens t rest) :
      Stands tokens (c :: t) (.char c rest)
  /-- The placeholder of a variable stands for a reference to it. -/
  | reference {i : Nat} {name t : Text} {rest : Phrase}
      (h : ⟨.variable, i, name⟩ ∈ tokens) (behind : Stands tokens t rest) :
      Stands tokens ((⟨.variable, i, name⟩ : Token).placeholder ++ t) (.reference name rest)
  /-- The placeholder of a quote stands for what its characters stand for. -/
  | quote {i : Nat} {raw t : Text} {inside rest : Phrase} (h : ⟨.quote, i, raw⟩ ∈ tokens)
      (within : Stands tokens raw inside) (behind : Stands tokens t rest) :
      Stands tokens ((⟨.quote, i, raw⟩ : Token).placeholder ++ t) (.quote inside rest)
  /-- The placeholder of a parenthesis stands for what its characters stand for. -/
  | paren {i : Nat} {raw t : Text} {inside rest : Phrase} (h : ⟨.paren, i, raw⟩ ∈ tokens)
      (within : Stands tokens raw inside) (behind : Stands tokens t rest) :
      Stands tokens ((⟨.paren, i, raw⟩ : Token).placeholder ++ t) (.paren inside rest)

namespace Stands

variable {tokens : List Token}

/-- With more tokens a text stands for what it stood for. -/
theorem mono {more : List Token} (sub : tokens ⊆ more) {t : Text} {p : Phrase}
    (h : Stands tokens t p) : Stands more t p := by
  induction h with
  | done => exact .done
  | char hc _ ih => exact .char hc ih
  | reference ht _ ih => exact .reference (sub ht) ih
  | quote ht _ _ ihi ih => exact .quote (sub ht) ihi ih
  | paren ht _ _ ihi ih => exact .paren (sub ht) ihi ih

/-- Two texts stand for two phrases. -/
theorem append {t u : Text} {p q : Phrase} (ht : Stands tokens t p) (hu : Stands tokens u q) :
    Stands tokens (t ++ u) (p.append q) := by
  induction ht with
  | done => exact hu
  | char hc _ ih => exact .char hc ih
  | reference hm _ ih => rw [List.append_assoc]; exact .reference hm ih
  | quote hm hi _ _ ih => rw [List.append_assoc]; exact .quote hm hi ih
  | paren hm hi _ _ ih => rw [List.append_assoc]; exact .paren hm hi ih

/-- A text is parted in front of a delimiter, which belongs to no placeholder. -/
theorem split {d : Char} (hd : d ∈ delimiters) {t a b : Text} {p : Phrase}
    (h : Stands tokens t p) (ha : d ∉ a) (ht : t = a ++ d :: b) :
    ∃ q r, Stands tokens a q ∧ Stands tokens b r ∧ p = q.append (.char d r) := by
  -- a placeholder is passed over as a whole, so only characters can be the delimiter
  induction h generalizing a with
  | done => cases a <;> cases ht
  | @char c t rest hc behind ih =>
    cases a with
    | nil =>
      rw [List.nil_append, List.cons.injEq] at ht
      obtain ⟨rfl, rfl⟩ := ht
      exact ⟨.done, rest, .done, behind, rfl⟩
    | cons e a =>
      rw [List.cons_append, List.cons.injEq] at ht
      obtain ⟨rfl, ht⟩ := ht
      obtain ⟨q, r, hq, hr, rfl⟩ := ih (fun m => ha (List.mem_cons_of_mem _ m)) ht
      exact ⟨.char c q, r, .char hc hq, hr, rfl⟩
  | reference hm _ ih =>
    obtain ⟨a', rfl, hb⟩ := Token.exists_behind_placeholder hd ht
    obtain ⟨q, r, hq, hr, rfl⟩ := ih (fun m => ha (List.mem_append_right _ m)) hb
    exact ⟨_, r, .reference hm hq, hr, rfl⟩
  | quote hm hi _ _ ih =>
    obtain ⟨a', rfl, hb⟩ := Token.exists_behind_placeholder hd ht
    obtain ⟨q, r, hq, hr, rfl⟩ := ih (fun m => ha (List.mem_append_right _ m)) hb
    exact ⟨_, r, .quote hm hi hq, hr, rfl⟩
  | paren hm hi _ _ ih =>
    obtain ⟨a', rfl, hb⟩ := Token.exists_behind_placeholder hd ht
    obtain ⟨q, r, hq, hr, rfl⟩ := ih (fun m => ha (List.mem_append_right _ m)) hb
    exact ⟨_, r, .paren hm hi hq, hr, rfl⟩

/-- A text without parentheses stands for a phrase without any among its characters. -/
theorem nest_bare {t : Text} {p : Phrase} (h : Stands tokens t p) (hp : p.Nest Phrase.quotable)
    (hopen : '(' ∉ t) (hclose : ')' ∉ t) : p.WellFormed := by
  induction h with
  | done => exact trivial
  | @char c t rest hc behind ih =>
    obtain ⟨hq, hd, hr⟩ := hp
    have hq : c ≠ '"' := by simpa [Phrase.quotable] using hq
    have ho : c ≠ '(' := fun e => hopen (e ▸ List.mem_cons_self)
    have hx : c ≠ ')' := fun e => hclose (e ▸ List.mem_cons_self)
    refine ⟨by simp [Phrase.bare, hq, ho, hx], hd, ih hr ?_ ?_⟩
    · exact fun m => hopen (List.mem_cons_of_mem _ m)
    · exact fun m => hclose (List.mem_cons_of_mem _ m)
  | reference _ _ ih =>
    exact ⟨hp.1, hp.2.1, ih hp.2.2 (fun m => hopen (List.mem_append_right _ m))
      (fun m => hclose (List.mem_append_right _ m))⟩
  | quote _ _ _ _ ih =>
    exact ⟨hp.1, ih hp.2 (fun m => hopen (List.mem_append_right _ m))
      (fun m => hclose (List.mem_append_right _ m))⟩
  | paren _ _ _ _ ih =>
    exact ⟨hp.1, ih hp.2 (fun m => hopen (List.mem_append_right _ m))
      (fun m => hclose (List.mem_append_right _ m))⟩

end Stands

/-! ## Pieces that stand for phrases -/

/-- Pieces whose spans are of a kind, and whose characters may make up placeholders of
tokens, stand for a phrase. -/
inductive Cuts (kind : Token.Kind) (tokens : List Token) : List (Piece Text) → Phrase → Prop
  /-- No pieces stand for nothing. -/
  | done : Cuts kind tokens [] .done
  /-- Characters stand for what their text stands for. -/
  | stretch {t : Text} {p q : Phrase} {pieces : List (Piece Text)} (text : Stands tokens t p)
      (behind : Cuts kind tokens pieces q) :
      Cuts kind tokens (t.map .plain ++ pieces) (p.append q)
  /-- A name stands for a reference. -/
  | reference {name : Text} {q : Phrase} {pieces : List (Piece Text)} (h : kind = .variable)
      (behind : Cuts kind tokens pieces q) :
      Cuts kind tokens (.item name :: pieces) (.reference name q)
  /-- A quoted span stands for a quote. -/
  | quote {raw : Text} {inside q : Phrase} {pieces : List (Piece Text)} (h : kind = .quote)
      (within : Stands tokens raw inside) (behind : Cuts kind tokens pieces q) :
      Cuts kind tokens (.item raw :: pieces) (.quote inside q)
  /-- A span between parentheses stands for a parenthesis. -/
  | paren {raw : Text} {inside q : Phrase} {pieces : List (Piece Text)} (h : kind = .paren)
      (within : Stands tokens raw inside) (behind : Cuts kind tokens pieces q) :
      Cuts kind tokens (.item raw :: pieces) (.paren inside q)

section Placeholders

variable {kind : Token.Kind} {tokens : List Token} {i : Nat} {q : Phrase}
  {pieces : List (Piece Text)}

/-- The characters of a variable's placeholder stand for a reference. -/
theorem Cuts.placeholder_reference {name : Text} (h : ⟨.variable, i, name⟩ ∈ tokens)
    (behind : Cuts kind tokens pieces q) :
    Cuts kind tokens ((⟨.variable, i, name⟩ : Token).placeholder.map .plain ++ pieces)
      (.reference name q) := by
  have text := Stands.reference h Stands.done
  rw [List.append_nil] at text
  exact .stretch text behind

/-- The characters of a quote's placeholder stand for a quote. -/
theorem Cuts.placeholder_quote {raw : Text} {inside : Phrase} (h : ⟨.quote, i, raw⟩ ∈ tokens)
    (within : Stands tokens raw inside) (behind : Cuts kind tokens pieces q) :
    Cuts kind tokens ((⟨.quote, i, raw⟩ : Token).placeholder.map .plain ++ pieces)
      (.quote inside q) := by
  have text := Stands.quote h within Stands.done
  rw [List.append_nil] at text
  exact .stretch text behind

/-- The characters of a parenthesis's placeholder stand for a parenthesis. -/
theorem Cuts.placeholder_paren {raw : Text} {inside : Phrase} (h : ⟨.paren, i, raw⟩ ∈ tokens)
    (within : Stands tokens raw inside) (behind : Cuts kind tokens pieces q) :
    Cuts kind tokens ((⟨.paren, i, raw⟩ : Token).placeholder.map .plain ++ pieces)
      (.paren inside q) := by
  have text := Stands.paren h within Stands.done
  rw [List.append_nil] at text
  exact .stretch text behind

end Placeholders

/-- Characters in front of the spans stay in front of the line. -/
theorem numberSpans_map_plain (kind : Token.Kind) (n : Nat) (t : Text)
    (pieces : List (Piece Text)) :
    numberSpans kind n (t.map .plain ++ pieces)
      = (t ++ (numberSpans kind n pieces).1, (numberSpans kind n pieces).2) := by
  induction t with
  | nil => rfl
  | cons c t ih => rw [List.map_cons, List.cons_append, numberSpans, ih, List.cons_append]

/-- Without spans the line is its characters. -/
theorem numberSpans_plain (kind : Token.Kind) (n : Nat) (t : Text) :
    numberSpans kind n (t.map .plain) = (t, []) := by
  have front := numberSpans_map_plain kind n t []
  rwa [List.append_nil, numberSpans, List.append_nil] at front

/-- **Numbering the spans makes a text that stands for what the pieces stood for.** -/
theorem Cuts.stands_numberSpans {kind : Token.Kind} {tokens : List Token}
    {pieces : List (Piece Text)} {p : Phrase} (h : Cuts kind tokens pieces p) (n : Nat) :
    Stands ((numberSpans kind n pieces).2 ++ tokens) (numberSpans kind n pieces).1 p := by
  -- the tokens that come behind a span are numbered from the next number on
  have grow : ∀ (t : Token) (l : List Token), l ++ tokens ⊆ (t :: l) ++ tokens :=
    fun t l => List.subset_cons_self t (l ++ tokens)
  induction h generalizing n with
  | done => exact .done
  | stretch text _ ih =>
    rw [numberSpans_map_plain]
    exact (text.mono (List.subset_append_right _ _)).append (ih n)
  | reference hk _ ih =>
    subst hk
    exact .reference List.mem_cons_self ((ih (n + 1)).mono (grow _ _))
  | quote hk within _ ih =>
    subst hk
    exact .quote List.mem_cons_self (within.mono (List.subset_append_right _ _)) ((ih (n + 1)).mono (grow _ _))
  | paren hk within _ ih =>
    subst hk
    exact .paren List.mem_cons_self (within.mono (List.subset_append_right _ _)) ((ih (n + 1)).mono (grow _ _))

/-! ## Variables -/

/-- The name at the head of a line is the name at the head of its pieces. -/
theorem splitName_variablePieces (line : Text) :
    splitName (variablePieces line)
      = (line.takeWhile isNameChar, variablePieces (line.dropWhile isNameChar)) := by
  induction line with
  | nil => rfl
  | cons c rest ih =>
    by_cases hc : isNameChar c = true
    · have hd : c ≠ '$' := by
        rintro rfl
        revert hc
        decide
      rw [variablePieces_cons hd, splitName, if_pos hc, ih, List.takeWhile_cons_of_pos hc,
        List.dropWhile_cons_of_pos hc]
    · rw [List.takeWhile_cons_of_neg hc, List.dropWhile_cons_of_neg hc]
      -- a `$` that begins a reference is a piece of its own, and ends the name as well
      by_cases hd : c = '$'
      · subst hd
        rw [variablePieces, if_pos rfl]
        split
        · rw [splitName, if_neg hc]
        · rfl
      · rw [variablePieces_cons hd, splitName, if_neg hc]

/-- **A line stands for a row of its characters and of the references in it.** -/
theorem exists_row_of_variablePieces {line : Text} (clean : '%' ∉ line) :
    ∃ p : Phrase, Cuts .variable [] (variablePieces line) p ∧ p.text = line
      ∧ p.Row fun _ => true := by
  -- a reference takes several characters away
  induction hn : line.length using Nat.strongRecOn generalizing line with
  | ind n ih =>
    cases line with
    | nil => exact ⟨.done, .done, rfl, trivial⟩
    | cons c rest =>
      rw [List.mem_cons, not_or] at clean
      have shorter : rest.length < n := by
        rw [← hn, List.length_cons]
        exact Nat.lt_succ_self _
      obtain ⟨p, hp, ht, hr⟩ := ih _ shorter clean.2 rfl
      have plain : Cuts .variable [] (.plain c :: variablePieces rest) (.char c p) :=
        .stretch (.char (Ne.symm clean.1) .done) hp
      by_cases hd : c = '$'
      · subst hd
        rw [variablePieces, if_pos rfl, splitName_variablePieces]
        cases hname : rest.takeWhile isNameChar with
        | nil =>
          refine ⟨.char '$' p, plain, by rw [Phrase.text, ht], rfl, fun _ => ?_, hr⟩
          rw [ht]
          exact Phrase.startsName_of_takeWhile hname
        | cons d name =>
          have behind : (rest.dropWhile isNameChar).length < n :=
            Nat.lt_of_le_of_lt (List.dropWhile_sublist _).length_le shorter
          obtain ⟨q, hq, hqt, hqr⟩ :=
            ih _ behind (fun m => clean.2 ((List.dropWhile_sublist _).mem m)) rfl
          refine ⟨.reference (d :: name) q, .reference rfl hq, ?_, ⟨by simp, ?_⟩, ?_, hqr⟩
          · rw [Phrase.text, hqt, ← hname, List.cons_append, List.takeWhile_append_dropWhile]
          · intro e he
            rw [← hname] at he
            exact List.mem_takeWhile_imp he
          · rw [hqt]
            exact Phrase.startsName_dropWhile rest
      · rw [variablePieces_cons hd]
        exact ⟨.char c p, plain, by rw [Phrase.text, ht], rfl, fun e => absurd e hd, hr⟩

end Teletype
