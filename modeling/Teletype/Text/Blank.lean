/-
# Blank characters

The characters that count as blank at the two ends of a line, and the line without them.
-/
import Teletype.Text

namespace Teletype

namespace Text

/-- First and last codes of the runs of blank characters. -/
def blankRuns : List (Nat × Nat) :=
  [(0x09, 0x0D), (0x20, 0x20), (0x85, 0x85), (0xA0, 0xA0), (0x1680, 0x1680),
    (0x2000, 0x200A), (0x2028, 0x2029), (0x202F, 0x202F), (0x205F, 0x205F), (0x3000, 0x3000)]

/-- A character is blank when its code lies in one of the runs. -/
def isBlank (c : Char) : Bool :=
  blankRuns.any fun run => run.1 ≤ c.toNat && c.toNat ≤ run.2

/-- The text without the blanks at its two ends. -/
def strip (t : Text) : Text := trim isBlank t

/-- Trimming leaves a stretch of the text. -/
theorem isInfix_strip (t : Text) : strip t <:+: t := by
  have front : trimEnd isBlank (t.dropWhile isBlank) <+: t.dropWhile isBlank := by
    rw [← List.reverse_suffix, trimEnd, List.reverse_reverse]
    exact List.dropWhile_suffix _
  exact front.isInfix.trans (List.dropWhile_suffix _).isInfix

/-- The ASCII white space is blank. -/
theorem isBlank_of_isWhitespace {c : Char} (h : c.isWhitespace = true) : isBlank c = true := by
  simp only [Char.isWhitespace, Bool.or_eq_true, decide_eq_true_eq] at h
  rcases h with ((rfl | rfl) | rfl) | rfl <;> rfl

/-- A printable ASCII character that is no space is not blank. -/
theorem isBlank_of_printable {c : Char} (low : 33 ≤ c.toNat) (high : c.toNat ≤ 126) :
    isBlank c = false := by
  rw [← Bool.not_eq_true]
  intro blank
  obtain ⟨run, mem, within⟩ := List.any_eq_true.mp blank
  rw [Bool.and_eq_true, decide_eq_true_eq, decide_eq_true_eq] at within
  simp only [blankRuns, List.mem_cons, List.not_mem_nil, or_false] at mem
  rcases mem with rfl | rfl | rfl | rfl | rfl | rfl | rfl | rfl | rfl | rfl <;> omega

/-- A text that neither begins nor ends in a blank is not changed. -/
theorem strip_eq_self {t : Text} (first : ∀ c ∈ t.head?, isBlank c = false)
    (last : ∀ c ∈ t.getLast?, isBlank c = false) : strip t = t := by
  have start : ∀ l : Text, (∀ c ∈ l.head?, isBlank c = false) → l.dropWhile isBlank = l := by
    intro l hl
    cases l with
    | nil => rfl
    | cons c l => simp [hl c rfl]
  have back := start t.reverse fun c hc => last c (by rwa [List.head?_reverse] at hc)
  rw [strip, trim, start t first, trimEnd, back, List.reverse_reverse]

end Text

end Teletype
