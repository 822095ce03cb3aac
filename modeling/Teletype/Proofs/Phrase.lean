/-
# Phrases

A line as a tree: its characters, references to variables, quotes and parentheses, one
after the other.  Inside a quote stand characters and references only; inside a
parenthesis stands a phrase in turn.  A phrase is well formed when it is what its text
says: no delimiter stands among its characters, and a name goes on as far as it can.  The
main statement is that **a text is the text of at most one well-formed phrase**
(`WellFormed.unique`), because the head of the text tells how the phrase begins.
-/
import Teletype.Token

namespace Teletype

/-- A line, or a part of one, as a tree.  Each constructor but the first holds what comes
behind it. -/
inductive Phrase
  /-- Nothing. -/
  | done
  /-- A character that stands for itself. -/
  | char (c : Char) (rest : Phrase)
  /-- A reference to a variable. -/
  | reference (name : Text) (rest : Phrase)
  /-- What stands between two quotes. -/
  | quote (inside rest : Phrase)
  /-- What stands between two parentheses. -/
  | paren (inside rest : Phrase)
  deriving DecidableEq, Repr

namespace Phrase

/-! ## The text of a phrase -/

/-- The text of a phrase. -/
def text : Phrase → Text
  | done => []
  | char c rest => c :: rest.text
  | reference name rest => '$' :: name ++ rest.text
  | quote inside rest => '"' :: inside.text ++ '"' :: rest.text
  | paren inside rest => '(' :: inside.text ++ ')' :: rest.text

/-- A phrase and then another. -/
def append : Phrase → Phrase → Phrase
  | done, q => q
  | char c rest, q => char c (rest.append q)
  | reference name rest, q => reference name (rest.append q)
  | quote inside rest, q => quote inside (rest.append q)
  | paren inside rest, q => paren inside (rest.append q)

/-- The text of two phrases is the one and then the other. -/
theorem text_append (p q : Phrase) : (p.append q).text = p.text ++ q.text := by
  induction p with
  | done => rfl
  | char c rest ih => simp [append, text, ih]
  | reference name rest ih => simp [append, text, ih]
  | quote inside rest _ ih => simp [append, text, ih]
  | paren inside rest _ ih => simp [append, text, ih]

/-- How deep quotes and parentheses stand inside one another. -/
def depth : Phrase → Nat
  | done => 0
  | char _ rest => rest.depth
  | reference _ rest => rest.depth
  | quote inside rest => max (inside.depth + 1) rest.depth
  | paren inside rest => max (inside.depth + 1) rest.depth

/-! ## Names -/

/-- A text goes on with a character of a name. -/
def startsName (t : Text) : Bool := t.head?.any isNameChar

/-- A text is the name of a reference: it has characters, all of them of names. -/
def IsName (name : Text) : Prop := name ≠ [] ∧ ∀ c ∈ name, isNameChar c = true

/-- A name goes on with a character of a name. -/
theorem startsName_of_isName {name : Text} (h : IsName name) (t : Text) :
    startsName (name ++ t) = true := by
  obtain ⟨hne, hall⟩ := h
  cases name with
  | nil => exact absurd rfl hne
  | cons c name => exact hall c List.mem_cons_self

/-- No name begins where neither a text nor what follows it begins one. -/
theorem startsName_append {t x : Text} (ht : startsName t = false) (hx : startsName x = false) :
    startsName (t ++ x) = false := by
  cases t with
  | nil => exact hx
  | cons c t => exact ht

/-- No name begins where a longer text begins none. -/
theorem startsName_of_append {t x : Text} (h : startsName (t ++ x) = false) :
    startsName t = false := by
  cases t with
  | nil => rfl
  | cons c t => exact h

/-- No name begins behind a name that goes on as far as it can. -/
theorem startsName_dropWhile (t : Text) : startsName (t.dropWhile isNameChar) = false := by
  have h := List.head?_dropWhile_not isNameChar t
  unfold startsName
  cases hd : (t.dropWhile isNameChar).head? with
  | none => rfl
  | some c =>
    rw [hd] at h
    simpa using h

/-- No name begins where no characters of a name stand. -/
theorem startsName_of_takeWhile {t : Text} (h : t.takeWhile isNameChar = []) :
    startsName t = false := by
  have hd := startsName_dropWhile t
  rwa [← List.takeWhile_append_dropWhile (p := isNameChar) (l := t), h]

/-- **A name that goes on as far as it can is told by the text.** -/
theorem eq_of_name_append {a b x y : Text} (ha : ∀ c ∈ a, isNameChar c = true)
    (hb : ∀ c ∈ b, isNameChar c = true) (hx : startsName x = false) (hy : startsName y = false)
    (h : a ++ x = b ++ y) : a = b ∧ x = y := by
  induction a generalizing b with
  | nil =>
    cases b with
    | nil => exact ⟨rfl, h⟩
    | cons d b =>
      rw [List.nil_append] at h
      rw [h] at hx
      exact absurd (hb d List.mem_cons_self) (by simpa [startsName] using hx)
  | cons c a ih =>
    cases b with
    | nil =>
      rw [List.nil_append] at h
      rw [← h] at hy
      exact absurd (ha c List.mem_cons_self) (by simpa [startsName] using hy)
    | cons d b =>
      rw [List.cons_append, List.cons_append, List.cons.injEq] at h
      obtain ⟨rfl, h⟩ := h
      obtain ⟨rfl, hxy⟩ := ih (fun e he => ha e (List.mem_cons_of_mem _ he))
        (fun e he => hb e (List.mem_cons_of_mem _ he)) h
      exact ⟨rfl, hxy⟩

/-! ## Well-formed phrases -/

/-- The phrase is a row of characters of a class and of references.  A reference has a name
that goes on as far as it can, and a lone `$` has none. -/
def Row (allowed : Char → Bool) : Phrase → Prop
  | done => True
  | char c rest =>
    allowed c = true ∧ (c = '$' → startsName rest.text = false) ∧ rest.Row allowed
  | reference name rest => IsName name ∧ startsName rest.text = false ∧ rest.Row allowed
  | quote _ _ => False
  | paren _ _ => False

/-- The character may stand between quotes. -/
def quotable (c : Char) : Bool := c ≠ '"'

/-- The character may stand outside quotes for itself. -/
def bare (c : Char) : Bool := c ≠ '"' && c ≠ '(' && c ≠ ')'

/-- The phrase is made of characters of a class, of references, of quotes, and of
parentheses whose insides are made so of characters that are no delimiters. -/
def Nest (allowed : Char → Bool) : Phrase → Prop
  | done => True
  | char c rest =>
    allowed c = true ∧ (c = '$' → startsName rest.text = false) ∧ rest.Nest allowed
  | reference name rest => IsName name ∧ startsName rest.text = false ∧ rest.Nest allowed
  | quote inside rest => inside.Row quotable ∧ rest.Nest allowed
  | paren inside rest => inside.Nest bare ∧ rest.Nest allowed

/-- The phrase is what its text says. -/
def WellFormed (p : Phrase) : Prop := p.Nest bare

/-- Two phrases that are well formed together are so each. -/
theorem Nest.of_append {allowed : Char → Bool} {p q : Phrase} (h : (p.append q).Nest allowed) :
    p.Nest allowed ∧ q.Nest allowed := by
  induction p with
  | done => exact ⟨trivial, h⟩
  | char c rest ih =>
    obtain ⟨hr, hq⟩ := ih h.2.2
    refine ⟨⟨h.1, fun e => startsName_of_append (x := q.text) ?_, hr⟩, hq⟩
    rw [← text_append]
    exact h.2.1 e
  | reference name rest ih =>
    obtain ⟨hr, hq⟩ := ih h.2.2
    refine ⟨⟨h.1, startsName_of_append (x := q.text) ?_, hr⟩, hq⟩
    rw [← text_append]
    exact h.2.1
  | quote inside rest _ ih =>
    obtain ⟨hr, hq⟩ := ih h.2
    exact ⟨⟨h.1, hr⟩, hq⟩
  | paren inside rest _ ih =>
    obtain ⟨hr, hq⟩ := ih h.2
    exact ⟨⟨h.1, hr⟩, hq⟩

/-! ## A text has one phrase -/

/-- How a phrase begins. -/
inductive Shape
  | done | char | reference | quote | paren
  deriving DecidableEq, Repr

/-- How the phrase begins. -/
def shape : Phrase → Shape
  | done => .done
  | char _ _ => .char
  | reference _ _ => .reference
  | quote _ _ => .quote
  | paren _ _ => .paren

/-- How a phrase begins that stands between quotes and has a text as its head. -/
def Shape.between : Text → Shape
  | [] => done
  | c :: t => if c = '"' then done else if c = '$' ∧ startsName t = true then reference else char

/-- How a phrase begins that stands outside quotes and has a text as its head. -/
def Shape.outside : Text → Shape
  | [] => done
  | c :: t =>
    if c = ')' then done else if c = '"' then quote else if c = '(' then paren
    else if c = '$' ∧ startsName t = true then reference else char

/-- Between quotes the text tells how the phrase begins. -/
theorem Row.shape_eq {p : Phrase} (h : p.Row quotable) (x : Text) :
    p.shape = Shape.between (p.text ++ '"' :: x) := by
  cases p with
  | done => rfl
  | char c rest =>
    obtain ⟨hc, hd, -⟩ := h
    have hc : c ≠ '"' := by simpa [quotable] using hc
    have lone : ¬ (c = '$' ∧ startsName (rest.text ++ '"' :: x) = true) := by
      rintro ⟨rfl, hs⟩
      rw [startsName_append (hd rfl) rfl] at hs
      cases hs
    rw [text, List.cons_append, Shape.between, if_neg hc, if_neg lone, shape]
  | reference name rest =>
    have hs : startsName (name ++ (rest.text ++ '"' :: x)) = true := startsName_of_isName h.1 _
    rw [text, List.cons_append, List.cons_append, List.append_assoc, Shape.between,
      if_neg (by decide), if_pos ⟨rfl, hs⟩, shape]
  | quote inside rest => exact absurd h id
  | paren inside rest => exact absurd h id

/-- The text begins with a closing parenthesis, or there is none. -/
def Ends (t : Text) : Prop := t = [] ∨ ∃ rest, t = ')' :: rest

/-- No name begins where a phrase ends. -/
theorem Ends.startsName_eq {t : Text} (h : Ends t) : startsName t = false := by
  obtain rfl | ⟨rest, rfl⟩ := h <;> rfl

/-- Outside quotes the text tells how the phrase begins. -/
theorem WellFormed.shape_eq {p : Phrase} (h : p.WellFormed) {x : Text} (hx : Ends x) :
    p.shape = Shape.outside (p.text ++ x) := by
  cases p with
  | done => obtain rfl | ⟨rest, rfl⟩ := hx <;> rfl
  | char c rest =>
    obtain ⟨hc, hd, -⟩ := h
    have hc : (c ≠ '"' ∧ c ≠ '(') ∧ c ≠ ')' := by simpa [bare] using hc
    have lone : ¬ (c = '$' ∧ startsName (rest.text ++ x) = true) := by
      rintro ⟨rfl, hs⟩
      rw [startsName_append (hd rfl) hx.startsName_eq] at hs
      cases hs
    rw [text, List.cons_append, Shape.outside, if_neg hc.2, if_neg hc.1.1, if_neg hc.1.2,
      if_neg lone, shape]
  | reference name rest =>
    have hs : startsName (name ++ (rest.text ++ x)) = true := startsName_of_isName h.1 _
    rw [text, List.cons_append, List.cons_append, List.append_assoc, Shape.outside,
      if_neg (by decide), if_neg (by decide), if_neg (by decide), if_pos ⟨rfl, hs⟩, shape]
  | quote inside rest => rfl
  | paren inside rest => rfl

/-- Phrases between quotes that have one text begin alike. -/
theorem Row.same_shape {p q : Phrase} (hp : p.Row quotable) (hq : q.Row quotable) {x y : Text}
    (h : p.text ++ '"' :: x = q.text ++ '"' :: y) : p.shape = q.shape := by
  rw [hp.shape_eq x, hq.shape_eq y, h]

/-- Phrases outside quotes that have one text begin alike. -/
theorem WellFormed.same_shape {p q : Phrase} (hp : p.WellFormed) (hq : q.WellFormed)
    {x y : Text} (hx : Ends x) (hy : Ends y) (h : p.text ++ x = q.text ++ y) :
    p.shape = q.shape := by
  rw [hp.shape_eq hx, hq.shape_eq hy, h]

/-- Between quotes a text is the text of one phrase. -/
theorem Row.unique {p q : Phrase} (hp : p.Row quotable) (hq : q.Row quotable) {x y : Text}
    (h : p.text ++ '"' :: x = q.text ++ '"' :: y) : p = q ∧ x = y := by
  -- the two begin alike, so that only one case for the second phrase is left in each case
  -- for the first
  induction p generalizing q with
  | done =>
    cases q with
    | done => exact ⟨rfl, List.tail_eq_of_cons_eq h⟩
    | _ => cases hp.same_shape hq h
  | char c rest ih =>
    cases q with
    | char d rest' =>
      simp only [text, List.cons_append, List.cons.injEq] at h
      obtain ⟨rfl, ht⟩ := h
      obtain ⟨rfl, hxy⟩ := ih hp.2.2 hq.2.2 ht
      exact ⟨rfl, hxy⟩
    | _ => cases hp.same_shape hq h
  | reference name rest ih =>
    cases q with
    | reference name' rest' =>
      simp only [text, List.cons_append, List.append_assoc, List.cons.injEq, true_and] at h
      obtain ⟨rfl, ht⟩ := eq_of_name_append hp.1.2 hq.1.2 (startsName_append hp.2.1 rfl)
        (startsName_append hq.2.1 rfl) h
      obtain ⟨rfl, hxy⟩ := ih hp.2.2 hq.2.2 ht
      exact ⟨rfl, hxy⟩
    | _ => cases hp.same_shape hq h
  | quote inside rest => exact absurd hp id
  | paren inside rest => exact absurd hp id

/-- Up to a closing parenthesis or to its end a text is the text of one phrase. -/
theorem WellFormed.unique_append {p q : Phrase} (hp : p.WellFormed) (hq : q.WellFormed)
    {x y : Text} (hx : Ends x) (hy : Ends y) (h : p.text ++ x = q.text ++ y) :
    p = q ∧ x = y := by
  induction p generalizing q x y with
  | done =>
    cases q with
    | done => exact ⟨rfl, h⟩
    | _ => cases hp.same_shape hq hx hy h
  | char c rest ih =>
    cases q with
    | char d rest' =>
      simp only [text, List.cons_append, List.cons.injEq] at h
      obtain ⟨rfl, ht⟩ := h
      obtain ⟨rfl, hxy⟩ := ih hp.2.2 hq.2.2 hx hy ht
      exact ⟨rfl, hxy⟩
    | _ => cases hp.same_shape hq hx hy h
  | reference name rest ih =>
    cases q with
    | reference name' rest' =>
      simp only [text, List.cons_append, List.append_assoc, List.cons.injEq, true_and] at h
      obtain ⟨rfl, ht⟩ := eq_of_name_append hp.1.2 hq.1.2
        (startsName_append hp.2.1 hx.startsName_eq) (startsName_append hq.2.1 hy.startsName_eq) h
      obtain ⟨rfl, hxy⟩ := ih hp.2.2 hq.2.2 hx hy ht
      exact ⟨rfl, hxy⟩
    | _ => cases hp.same_shape hq hx hy h
  | quote inside rest _ ih =>
    cases q with
    | quote inside' rest' =>
      simp only [text, List.cons_append, List.append_assoc, List.cons.injEq, true_and] at h
      obtain ⟨rfl, ht⟩ := hp.1.unique hq.1 h
      obtain ⟨rfl, hxy⟩ := ih hp.2 hq.2 hx hy ht
      exact ⟨rfl, hxy⟩
    | _ => cases hp.same_shape hq hx hy h
  | paren inside rest ihi ih =>
    cases q with
    | paren inside' rest' =>
      simp only [text, List.cons_append, List.append_assoc, List.cons.injEq, true_and] at h
      -- the insides end at a closing parenthesis, whatever stands behind it
      have ends : ∀ t, Ends (')' :: t) := fun t => .inr ⟨t, rfl⟩
      obtain ⟨rfl, ht⟩ := ihi hp.1 hq.1 (ends _) (ends _) h
      obtain ⟨rfl, hxy⟩ := ih hp.2 hq.2 hx hy (List.tail_eq_of_cons_eq ht)
      exact ⟨rfl, hxy⟩
    | _ => cases hp.same_shape hq hx hy h

/-- **A text is the text of at most one well-formed phrase.** -/
theorem WellFormed.unique {p q : Phrase} (hp : p.WellFormed) (hq : q.WellFormed)
    (h : p.text = q.text) : p = q :=
  (hp.unique_append hq (x := []) (y := []) (.inl rfl) (.inl rfl) (by rw [h])).1

end Phrase

end Teletype
