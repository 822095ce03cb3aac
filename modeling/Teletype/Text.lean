/-
# Texts

A text is the list of its characters.  This file holds the operations on texts that
the command language is written in: cutting at a separator, joining, comparing without
regard to ASCII case, and trimming by a character class.  The main statement is that
joining the pieces of a cut gives the text back.
-/

namespace Teletype

/-- A text is the list of its characters. -/
abbrev Text := List Char

/-- Texts that are told equal are equal. -/
instance : LawfulBEq Text := inferInstance

namespace Text

/-! ## Cutting and joining -/

/-- Put a character in front of the first piece. -/
def pushFront (c : Char) : List Text → List Text
  | [] => [[c]]
  | piece :: pieces => (c :: piece) :: pieces

/-- The pieces of a text between the occurrences of a separator, empty pieces included. -/
def cut (sep : Char) : Text → List Text
  | [] => [[]]
  | c :: rest => if c = sep then [] :: cut sep rest else pushFront c (cut sep rest)

/-- The pieces one after the other with the separator between neighbours. -/
def join (sep : Char) : List Text → Text
  | [] => []
  | [piece] => piece
  | piece :: next :: pieces => piece ++ sep :: join sep (next :: pieces)

/-- A cut has at least one piece. -/
theorem cut_ne_nil (sep : Char) (t : Text) : cut sep t ≠ [] := by
  cases t with
  | nil => simp [cut]
  | cons c rest =>
    unfold cut
    split
    · simp
    · cases cut sep rest <;> simp [pushFront]

/-- Pushing a character in front of the pieces pushes it in front of the joined text. -/
theorem join_pushFront (sep c : Char) (pieces : List Text) :
    join sep (pushFront c pieces) = c :: join sep pieces := by
  match pieces with
  | [] => rfl
  | [_] => rfl
  | _ :: _ :: _ => rfl

/-- **Joining the pieces of a cut gives the text back.** -/
theorem join_cut (sep : Char) (t : Text) : join sep (cut sep t) = t := by
  induction t with
  | nil => rfl
  | cons c rest ih =>
    unfold cut
    split
    · next h =>
      obtain ⟨piece, pieces, hp⟩ := List.exists_cons_of_ne_nil (cut_ne_nil sep rest)
      rw [hp] at ih
      simp [hp, join, ih, h]
    · rw [join_pushFront, ih]

/-- No piece of a cut holds the separator. -/
theorem not_mem_of_mem_cut {sep : Char} {t piece : Text} (h : piece ∈ cut sep t) :
    sep ∉ piece := by
  induction t generalizing piece with
  | nil => simp_all [cut]
  | cons c rest ih =>
    unfold cut at h
    split at h
    · rcases List.mem_cons.mp h with rfl | h'
      · simp
      · exact ih h'
    · next hc =>
      obtain ⟨first, pieces, hp⟩ := List.exists_cons_of_ne_nil (cut_ne_nil sep rest)
      rw [hp] at h ih
      rcases List.mem_cons.mp h with rfl | h'
      · simp only [List.mem_cons, not_or]
        exact ⟨fun e => hc e.symm, ih List.mem_cons_self⟩
      · exact ih (List.mem_cons_of_mem _ h')

/-- Characters in front of a text are in front of its first piece. -/
theorem cut_append {sep : Char} {x t piece : Text} {pieces : List Text} (hx : sep ∉ x)
    (h : cut sep t = piece :: pieces) : cut sep (x ++ t) = (x ++ piece) :: pieces := by
  induction x with
  | nil => exact h
  | cons c x ih =>
    rw [List.mem_cons, not_or] at hx
    rw [List.cons_append, cut, if_neg (Ne.symm hx.1), ih hx.2, pushFront, List.cons_append]

/-- A text that does not hold the separator is its only piece. -/
theorem cut_of_not_mem {sep : Char} {x : Text} (hx : sep ∉ x) : cut sep x = [x] := by
  have appended := cut_append (t := []) hx rfl
  rwa [List.append_nil] at appended

/-! ## Words and lines -/

/-- The words of a line: its pieces between single spaces. -/
def words (line : Text) : List Text := cut ' ' line

/-- The line that has the given words. -/
def unwords (ws : List Text) : Text := join ' ' ws

/-- The lines of a text: its pieces between line feeds. -/
def lines (t : Text) : List Text := cut '\n' t

/-- The text that has the given lines. -/
def unlines (ls : List Text) : Text := join '\n' ls

/-- The words of a line make up the line. -/
theorem unwords_words (line : Text) : unwords (words line) = line := join_cut ' ' line

/-- The lines of a text make up the text. -/
theorem unlines_lines (t : Text) : unlines (lines t) = t := join_cut '\n' t

/-- The first word of a line; a line always has one. -/
def firstWord (line : Text) : Text := (words line).headD []

/-- The first word of a line is at its front. -/
theorem isPrefix_firstWord (line : Text) : firstWord line <+: line := by
  obtain ⟨first, rest, cut⟩ := List.exists_cons_of_ne_nil (cut_ne_nil ' ' line)
  have whole := unwords_words line
  rw [words, cut] at whole
  rw [firstWord, words, cut, ← whole]
  cases rest with
  | nil => exact List.prefix_rfl
  | cons next rest => exact List.prefix_append _ _

/-- The first word of a line stands at the head of its words. -/
theorem head?_words (line : Text) : (words line).head? = some (firstWord line) := by
  obtain ⟨w, ws, hw⟩ := List.exists_cons_of_ne_nil (cut_ne_nil ' ' line)
  have whole : words line = w :: ws := hw
  rw [firstWord, whole]
  rfl

/-- The words of two texts with a space between them are the words of both. -/
theorem words_append (x y : Text) : words (x ++ ' ' :: y) = words x ++ words y := by
  induction x with
  | nil =>
    show cut ' ' (' ' :: y) = [] :: cut ' ' y
    exact if_pos rfl
  | cons c x ih =>
    by_cases space : c = ' '
    · have front : words (c :: (x ++ ' ' :: y)) = [] :: words (x ++ ' ' :: y) := if_pos space
      have first : words (c :: x) = [] :: words x := if_pos space
      rw [List.cons_append, front, ih, first, List.cons_append]
    · have front : words (c :: (x ++ ' ' :: y)) = pushFront c (words (x ++ ' ' :: y)) :=
        if_neg space
      have first : words (c :: x) = pushFront c (words x) := if_neg space
      obtain ⟨w, ws, hw⟩ := List.exists_cons_of_ne_nil (cut_ne_nil ' ' x)
      rw [List.cons_append, front, ih, first, show words x = w :: ws from hw]
      rfl

/-- The words of a line begin with its first word. -/
theorem words_word {w : Text} (h : ' ' ∉ w) (x : Text) : words (w ++ ' ' :: x) = w :: words x := by
  have one : words w = [w] := cut_of_not_mem h
  rw [words_append, one]
  rfl

/-- Words without a space in them are the words of the line that they make up. -/
theorem words_unwords {ws : List Text} (h : ∀ w ∈ ws, ' ' ∉ w) (hn : ws ≠ []) :
    words (unwords ws) = ws := by
  induction ws with
  | nil => exact absurd rfl hn
  | cons w ws ih =>
    rw [List.forall_mem_cons] at h
    cases ws with
    | nil => exact cut_of_not_mem h.1
    | cons next ws =>
      show words (w ++ ' ' :: unwords (next :: ws)) = _
      rw [words_word h.1, ih h.2 (List.cons_ne_nil _ _)]

/-- What begins with a character that is no space has a word that does. -/
theorem exists_words_cons {d : Char} (space : d ≠ ' ') (x : Text) :
    ∃ w ws, words (d :: x) = (d :: w) :: ws := by
  obtain ⟨w, ws, hw⟩ := List.exists_cons_of_ne_nil (cut_ne_nil ' ' x)
  exact ⟨w, ws, (if_neg space).trans (congrArg (pushFront d) hw)⟩

/-- Some words and others make up two texts with a space between them. -/
theorem unwords_append {ws vs : List Text} (hw : ws ≠ []) (hv : vs ≠ []) :
    unwords (ws ++ vs) = unwords ws ++ ' ' :: unwords vs := by
  induction ws with
  | nil => exact absurd rfl hw
  | cons w ws ih =>
    cases ws with
    | nil =>
      obtain ⟨v, vs, rfl⟩ := List.exists_cons_of_ne_nil hv
      rfl
    | cons next ws =>
      have rest := ih (List.cons_ne_nil _ _)
      show w ++ ' ' :: unwords (next :: ws ++ vs) = w ++ ' ' :: unwords (next :: ws) ++ _
      rw [rest, List.append_assoc, List.cons_append]

/-! ## Trimming -/

/-- A text without its longest end of characters in a class. -/
def trimEnd (p : Char → Bool) (t : Text) : Text := (t.reverse.dropWhile p).reverse

/-- A text without its longest start and its longest end of characters in a class. -/
def trim (p : Char → Bool) (t : Text) : Text := trimEnd p (t.dropWhile p)

/-! ## ASCII case -/

/-- The text with every ASCII capital made small. -/
def lowerAscii (t : Text) : Text := t.map Char.toLower

/-- Equality of texts up to the case of ASCII letters. -/
def sameAscii (a b : Text) : Bool := lowerAscii a = lowerAscii b

/-- A text is the same as itself up to case. -/
theorem sameAscii_self (a : Text) : sameAscii a a = true := by simp [sameAscii]

/-! ## Measures -/

/-- The number of bytes that the text takes in UTF-8. -/
def byteSize (t : Text) : Nat := t.foldl (fun n c => n + c.utf8Size) 0

/-- Texts behind one another take the bytes of both. -/
theorem byteSize_append (a b : Text) : byteSize (a ++ b) = byteSize a + byteSize b := by
  have start : ∀ (t : Text) (n : Nat), t.foldl (fun n c => n + c.utf8Size) n = n + byteSize t := by
    intro t
    induction t with
    | nil => exact fun n => rfl
    | cons c t ih =>
      intro n
      rw [byteSize, List.foldl_cons, List.foldl_cons, ih, ih]
      omega
  rw [byteSize, List.foldl_append, start]
  rfl

/-- The text with `n` copies of a character behind it. -/
def padRight (t : Text) (c : Char) (n : Nat) : Text := t ++ List.replicate n c

end Text

end Teletype
