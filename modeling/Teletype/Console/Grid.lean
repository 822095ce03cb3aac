/-
# Grids

A screen is a grid of characters with a cursor on it.  Each character moves the cursor to
the next column, and a line feed or the last column to the head of the next row; the
screen scrolls, so that the cursor stays on the last row.  The main statement is that the
cursor ends at one place whether the screen scrolls after each character or at the end.
-/
import Teletype.Text

namespace Teletype

/-- A place on the screen, counted from zero. -/
structure Cursor where
  /-- The column. -/
  column : Nat
  /-- The row. -/
  row : Nat
  deriving DecidableEq, Repr, Inhabited

/-- The top left corner. -/
def Cursor.home : Cursor := ⟨0, 0⟩

/-- The size of a screen. -/
structure Grid where
  /-- The number of columns. -/
  columns : Nat
  /-- The number of rows. -/
  rows : Nat
  deriving DecidableEq, Repr

namespace Grid

/-- The cursor after a character, on a screen that does not end below. -/
def step (g : Grid) (c : Cursor) (ch : Char) : Cursor :=
  if ch = '\n' ∨ g.columns ≤ c.column + 1 then ⟨0, c.row + 1⟩ else ⟨c.column + 1, c.row⟩

/-- The cursor after the screen has scrolled up to its last row. -/
def scroll (g : Grid) (c : Cursor) : Cursor := { c with row := min c.row (g.rows - 1) }

/-- The cursor after a text, if the screen scrolls once at the end. -/
def advance (g : Grid) (c : Cursor) (t : Text) : Cursor := g.scroll (t.foldl g.step c)

/-- The cursor after a text, if the screen scrolls after each character. -/
def advanceEach (g : Grid) (c : Cursor) (t : Text) : Cursor :=
  t.foldl (fun c ch => g.scroll (g.step c ch)) c

/-- The cursor is on the screen. -/
def Holds (g : Grid) (c : Cursor) : Prop := c.column < g.columns ∧ c.row < g.rows

instance (g : Grid) (c : Cursor) : Decidable (g.Holds c) := inferInstanceAs (Decidable (_ ∧ _))

/-- Scrolling twice is scrolling once. -/
theorem scroll_scroll (g : Grid) (c : Cursor) : g.scroll (g.scroll c) = g.scroll c := by
  simp [scroll]

/-- Scrolling before a step makes no difference after it. -/
theorem scroll_step_scroll (g : Grid) (c : Cursor) (ch : Char) :
    g.scroll (g.step (g.scroll c) ch) = g.scroll (g.step c ch) := by
  unfold step scroll
  simp only
  split <;> simp only [Cursor.mk.injEq, true_and] <;> omega

/-- Scrolling before a text makes no difference after it. -/
theorem advance_scroll (g : Grid) (c : Cursor) (t : Text) :
    g.advance (g.scroll c) t = g.advance c t := by
  induction t generalizing c with
  | nil => exact scroll_scroll g c
  | cons ch t ih =>
    show g.advance (g.step (g.scroll c) ch) t = g.advance (g.step c ch) t
    rw [← ih, scroll_step_scroll, ih]

/-- **Scrolling after each character of a text and scrolling at its end lead to one
place.** -/
theorem advanceEach_cons (g : Grid) (c : Cursor) (ch : Char) (t : Text) :
    g.advanceEach c (ch :: t) = g.advance c (ch :: t) := by
  induction t generalizing c ch with
  | nil => rfl
  | cons next t ih =>
    show g.advanceEach (g.scroll (g.step c ch)) (next :: t) = g.advance (g.step c ch) (next :: t)
    rw [ih, advance_scroll]

end Grid

end Teletype
