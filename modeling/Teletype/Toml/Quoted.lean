/-
# Strings of settings documents

A string stands between quotes or between apostrophes, on one line between single ones or
on several lines between triples.  Between quotes a backslash stands with what follows it
for another character, or joins two lines; between apostrophes it stands for itself.  The
main statements are that a string without escapes is what stands between its marks, on one
line and on several.
-/
import Teletype.Decimal.Natural
import Teletype.Toml.Gap

namespace Teletype

namespace Toml

/-- How a string is quoted. -/
structure Quoting where
  /-- The character around the string. -/
  mark : Char
  /-- The string may have several lines; the character then stands three times. -/
  hasLines : Bool
  deriving DecidableEq, Repr

namespace Quoting

/-- A quote. -/
def quote : Char := '"'

/-- An apostrophe. -/
def apostrophe : Char := '\''

/-- A backslash stands for another character. -/
def hasEscapes (q : Quoting) : Bool := q.mark = quote

end Quoting

/-! ## Escapes -/

/-- The value of a hexadecimal digit, in either case. -/
def hexValue? (c : Char) : Option Nat :=
  if Decimal.isDigit c then some (Decimal.digitValue c)
  else if 'a' ≤ c ∧ c ≤ 'f' then some (c.toNat - 'a'.toNat + 10)
  else if 'A' ≤ c ∧ c ≤ 'F' then some (c.toNat - 'A'.toNat + 10)
  else none

/-- The character whose code is written by as many hexadecimal digits at the head of a
text, if there is one, and what follows. -/
def coded? (width : Nat) (t : Text) : Option (Char × Text) := do
  let digits := t.take width
  let values ← digits.mapM hexValue?
  let code := values.foldl (fun n v => n * 16 + v) 0
  if digits.length = width ∧ code.isValidChar then some (Char.ofNat code, t.drop width) else none

/-- The characters that stand behind a backslash for another, and those others. -/
def escapes : List (Char × Char) :=
  [('b', '\x08'), ('t', '\t'), ('n', '\n'), ('f', '\x0c'), ('r', '\r'), ('"', '"'), ('\\', '\\')]

/-- The blanks of a text with several lines at its head, comments not counted. -/
def skipBlank (t : Text) : Text :=
  match _h : newline? (skipGap t) with
  | some rest => skipBlank rest
  | none => skipGap t
  termination_by t.length
  decreasing_by
    have shorter := length_of_newline? (by assumption)
    have gap := (List.dropWhile_sublist (l := t) isGap).length_le
    simp only [skipGap] at shorter
    omega

/-- What a backslash stands for with the text behind it, and what follows. -/
def escape? (q : Quoting) (t : Text) : Option (Text × Text) :=
  match t with
  | 'u' :: rest => (coded? 4 rest).map fun (c, rest) => ([c], rest)
  | 'U' :: rest => (coded? 8 rest).map fun (c, rest) => ([c], rest)
  | c :: rest =>
    match escapes.lookup c with
    | some d => some ([d], rest)
    | none =>
      if q.hasLines ∧ (newline? (skipGap t)).isSome then some ([], skipBlank t) else none
  | [] => none

/-! ## Strings -/

/-- What stands for a piece of the string at the head of a text, and what follows. -/
def piece? (q : Quoting) (t : Text) : Option (Text × Text) :=
  match t with
  | [] => none
  | c :: rest =>
    if c = '\\' ∧ q.hasEscapes then escape? q rest
    else if isShown c then some ([c], rest)
    else if q.hasLines then (newline? t).map fun rest => (['\n'], rest)
    else none

/-- The string up to the marks that close it, and what follows them.  Where three marks
close it, one or two more may belong to the string.  The first argument bounds the number
of its pieces. -/
def closing? (q : Quoting) : Nat → Text → Option (Text × Text)
  | 0, _ => none
  | bound + 1, t =>
    let marks := t.takeWhile (· = q.mark)
    if marks = [] then do
      let (piece, rest) ← piece? q t
      (closing? q bound rest).map fun (s, rest) => (piece ++ s, rest)
    else if !q.hasLines then some ([], t.drop 1)
    else if marks.length < 3 then
      (closing? q bound (t.drop marks.length)).map fun (s, rest) => (marks ++ s, rest)
    else if marks.length ≤ 5 then some (marks.drop 3, t.drop marks.length)
    else none

/-- The string whose first character stands at the head of a text, and what follows. -/
def body? (q : Quoting) (t : Text) : Option (Text × Text) := closing? q (t.length + 1) t

/-- The string on one line behind a mark, and what follows. -/
def line? (mark : Char) (t : Text) : Option (Text × Text) := body? ⟨mark, false⟩ t

/-- The string on several lines behind three marks, and what follows.  A line feed right
behind the marks does not belong to it. -/
def block? (mark : Char) (t : Text) : Option (Text × Text) :=
  body? ⟨mark, true⟩ ((newline? t).getD t)

/-- The string behind a mark, on one line or on several, and what follows. -/
def string? (mark : Char) (t : Text) : Option (Text × Text) :=
  if [mark, mark].isPrefixOf t then block? mark (t.drop 2) else line? mark t

/-! ## Strings without escapes -/

/-- The character stands for itself in a string. -/
def Quoting.isPlain (q : Quoting) (c : Char) : Bool :=
  c ≠ q.mark && !(c = '\\' && q.hasEscapes) && (isShown c || q.hasLines && c = '\n')

/-- A plain character is a piece of its own, and no mark. -/
theorem piece?_plain {q : Quoting} {c : Char} (plain : q.isPlain c = true) (t : Text) :
    piece? q (c :: t) = some ([c], t) ∧ (c :: t).takeWhile (· = q.mark) = [] := by
  simp only [Quoting.isPlain, Bool.and_eq_true, decide_eq_true_eq, Bool.not_eq_true',
    Bool.and_eq_false_iff, decide_eq_false_iff_not, Bool.or_eq_true] at plain
  obtain ⟨⟨other, free⟩, shown⟩ := plain
  have free : ¬ (c = '\\' ∧ q.hasEscapes = true) := by
    simpa [Decidable.or_iff_not_imp_left] using free
  refine ⟨?_, by simp [other]⟩
  rcases shown with shown | ⟨lines, rfl⟩
  · simp [piece?, if_neg free, shown]
  · have hidden : ¬ isShown '\n' = true := by decide
    simp [piece?, hidden, lines, newline?]

/-- Plain characters are taken over. -/
theorem closing?_append {q : Quoting} {s : Text} (plain : s.all q.isPlain = true) (bound : Nat)
    (t : Text) : closing? q (bound + s.length) (s ++ t)
      = (closing? q bound t).map fun found => (s ++ found.1, found.2) := by
  induction s with
  | nil => simp
  | cons c s ih =>
    obtain ⟨here, plain⟩ := by simpa using plain
    obtain ⟨piece, mark⟩ := piece?_plain here (s ++ t)
    simp only [List.length_cons, ← Nat.add_assoc, List.cons_append, closing?, mark, if_pos, piece,
      Option.bind_eq_bind, Option.bind_some, ih (by simpa using plain), Option.map_map]
    rfl

/-- **A string of plain characters on one line is what stands between its marks.** -/
theorem line?_plain {mark : Char} {s : Text} (plain : s.all (Quoting.isPlain ⟨mark, false⟩) = true)
    (rest : Text) : line? mark (s ++ mark :: rest) = some (s, rest) := by
  have enough : (s ++ mark :: rest).length + 1 = rest.length + 2 + s.length := by
    simp only [List.length_append, List.length_cons]
    omega
  have closed : closing? ⟨mark, false⟩ (rest.length + 2) (mark :: rest) = some ([], rest) := by
    simp [closing?]
  rw [line?, body?, enough, closing?_append plain, closed]
  simp

/-- Of three marks and up to two more in a row the last three close a string of several
lines. -/
theorem closing?_marks {mark : Char} {more : Nat} (few : more ≤ 2) {rest : Text}
    (other : rest.head? ≠ some mark) (bound : Nat) :
    closing? ⟨mark, true⟩ (bound + 1) (List.replicate (more + 3) mark ++ rest)
      = some (List.replicate more mark, rest) := by
  have none : rest.takeWhile (· = mark) = [] := by
    cases rest with
    | nil => rfl
    | cons c rest =>
      have other : c ≠ mark := by simpa using other
      simp [other]
  have marks : (List.replicate (more + 3) mark ++ rest).takeWhile (· = mark)
      = List.replicate (more + 3) mark := by
    rw [List.takeWhile_append_of_pos (by simp [List.mem_replicate]), none, List.append_nil]
  have long : ¬ more + 3 < 3 := by omega
  have fits : more + 3 ≤ 5 := by omega
  simp [closing?, marks, long, fits]

/-- **A string of plain characters on several lines is what stands between its marks**, with
the up to two marks that stand in front of the last three. -/
theorem block?_plain {mark : Char} (shown : isShown mark = true) {s : Text}
    (plain : s.all (Quoting.isPlain ⟨mark, true⟩) = true) (first : s.head? ≠ some '\n')
    {more : Nat} (few : more ≤ 2) {rest : Text} (other : rest.head? ≠ some mark) :
    block? mark (s ++ (List.replicate (more + 3) mark ++ rest))
      = some (s ++ List.replicate more mark, rest) := by
  have started : newline? (s ++ (List.replicate (more + 3) mark ++ rest)) = none := by
    cases s with
    | nil => exact newline?_of_isShown shown _
    | cons c s =>
      have first : c ≠ '\n' := by simpa using first
      have here : Quoting.isPlain ⟨mark, true⟩ c = true := (List.all_eq_true.mp plain) c (by simp)
      simp only [Quoting.isPlain, first, decide_false, Bool.and_false, Bool.or_false,
        Bool.and_eq_true] at here
      exact newline?_of_isShown here.2 _
  have enough : (s ++ (List.replicate (more + 3) mark ++ rest)).length + 1
      = more + rest.length + 3 + 1 + s.length := by
    simp only [List.length_append, List.length_replicate]
    omega
  rw [block?, started, Option.getD_none, body?, enough, closing?_append plain,
    closing?_marks few other]
  rfl

end Toml

end Teletype
