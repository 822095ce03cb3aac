/-
# Gaps in settings documents

What may stand between the marks of a document and means nothing: spaces and tabs on a
line, comments, and the ends of lines.
-/
import Teletype.Text

namespace Teletype

namespace Toml

/-- The character may stand between the marks of a line. -/
def isGap (c : Char) : Bool := c = ' ' || c = '\t'

/-- A text without the gap at its head. -/
def skipGap (t : Text) : Text := t.dropWhile isGap

/-- The character may stand in a comment or a string. -/
def isShown (c : Char) : Bool := c = '\t' || (0x20 ≤ c.toNat && c.toNat ≠ 0x7F)

/-- A text without the comment at its head. -/
def skipComment (t : Text) : Text :=
  match t with
  | '#' :: rest => rest.dropWhile isShown
  | _ => t

/-- What follows the line feed at the head of a text, which may have a carriage return in
front of it. -/
def newline? (t : Text) : Option Text :=
  match t with
  | '\n' :: rest => some rest
  | '\r' :: '\n' :: rest => some rest
  | _ => none

/-- What follows the end of a line at the head of a text.  Nothing but a gap and a comment
may be left of the line. -/
def lineEnd? (t : Text) : Option Text :=
  match skipComment (skipGap t) with
  | [] => some []
  | rest => newline? rest

/-- A text without its comment is no longer. -/
theorem length_skipComment_le (t : Text) : (skipComment t).length ≤ t.length := by
  unfold skipComment
  split
  · have := (List.dropWhile_sublist (l := ‹Text›) isShown).length_le
    simp only [List.length_cons]
    omega
  · exact Nat.le_refl _

/-- What follows a line feed is shorter. -/
theorem length_of_newline? {t rest : Text} (h : newline? t = some rest) :
    rest.length < t.length := by
  unfold newline? at h
  split at h
  all_goals cases h
  all_goals simp only [List.length_cons]; omega

/-- No line feed stands at the head of a text that begins with a character of a line. -/
theorem newline?_of_isShown {c : Char} (h : isShown c = true) (t : Text) :
    newline? (c :: t) = none := by
  unfold newline?
  split
  · next same =>
    cases same
    exact absurd h (by decide)
  · next same =>
    cases same
    exact absurd h (by decide)
  · rfl

/-- A text without the gaps, comments and ends of lines at its head. -/
def skipLines (t : Text) : Text :=
  match _h : newline? (skipComment (skipGap t)) with
  | some rest => skipLines rest
  | none => skipGap t
  termination_by t.length
  decreasing_by
    have shorter := length_of_newline? (by assumption)
    have comment := length_skipComment_le (skipGap t)
    have gap := (List.dropWhile_sublist (l := t) isGap).length_le
    simp only [skipGap] at shorter comment
    omega

/-- A gap at the head of a text is skipped. -/
theorem skipGap_append {gap : Text} (hg : gap.all isGap = true) (t : Text) :
    skipGap (gap ++ t) = skipGap t :=
  List.dropWhile_append_of_pos (by simpa using hg)

/-- No gap is left behind a gap that was skipped. -/
theorem skipGap_skipGap (t : Text) : skipGap (skipGap t) = skipGap t := by
  induction t with
  | nil => rfl
  | cons c rest ih =>
    by_cases gap : isGap c
    · simpa [skipGap, gap] using ih
    · simp [skipGap, gap]

/-- The gap at the head of a line does not count at its end. -/
theorem lineEnd?_skipGap (t : Text) : lineEnd? (skipGap t) = lineEnd? t := by
  rw [lineEnd?, skipGap_skipGap, lineEnd?]

/-- **A gap and a comment end a line**, and what follows is the next one. -/
theorem lineEnd?_comment {gap comment : Text} (hg : gap.all isGap = true)
    (hc : comment.all isShown = true) (rest : Text) :
    lineEnd? (gap ++ '#' :: (comment ++ '\n' :: rest)) = some rest := by
  have head : skipGap (gap ++ '#' :: (comment ++ '\n' :: rest))
      = '#' :: (comment ++ '\n' :: rest) := skipGap_append hg _
  have shown : (comment ++ '\n' :: rest).dropWhile isShown = '\n' :: rest :=
    List.dropWhile_append_of_pos (by simpa using hc)
  rw [lineEnd?, head, skipComment, shown]
  rfl

end Toml

end Teletype
