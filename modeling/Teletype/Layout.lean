/-
# Column layout

Names set out in columns of one width: as many columns, up to six, as leave room over when all
are as wide as the longest name.  Each row ends with a line feed and its last name is not
padded.
-/
import Teletype.Text

namespace Teletype

namespace Layout

/-- The text with spaces behind it up to a number of characters. -/
def pad (t : Text) (width : Nat) : Text := Text.padRight t ' ' (width - t.length)

/-- The number of characters of the longest name. -/
def longest (names : List Text) : Nat := names.foldr (fun n m => max n.length m) 0

/-- The number of columns: the largest from six down to two at which the columns, all as
wide as the longest name, leave room over, and one if none does. -/
def columnCount (longest width : Nat) : Nat :=
  ([6, 5, 4, 3, 2].find? fun cols => longest * cols < width).getD 1

/-- The names cut into rows of `n + 1`. -/
def rows (n : Nat) : List Text → List (List Text)
  | [] => []
  | name :: rest => (name :: rest.take n) :: rows n (rest.drop n)
  termination_by names => names.length
  decreasing_by
    simp only [List.length_drop, List.length_cons]
    omega

/-- A row of names, every one but the last padded to the width of a cell. -/
def rowText (cell : Nat) : List Text → Text
  | [] => []
  | [name] => name
  | name :: next :: rest => pad name cell ++ rowText cell (next :: rest)

/-- The names in columns within a width. -/
def columnize (names : List Text) (width : Nat) : Text :=
  let cols := columnCount (longest names) width
  (rows (cols - 1) names).flatMap fun row => rowText (width / cols) row ++ ['\n']

/-- Padding does not shorten a text, and fills it up to the width. -/
theorem length_pad (t : Text) (width : Nat) : (pad t width).length = max t.length width := by
  simp only [pad, Text.padRight, List.length_append, List.length_replicate]
  omega

/-- There are one to six columns. -/
theorem columnCount_bounds (longest width : Nat) :
    1 ≤ columnCount longest width ∧ columnCount longest width ≤ 6 := by
  unfold columnCount
  cases h : [6, 5, 4, 3, 2].find? fun cols => longest * cols < width with
  | none => simp
  | some c =>
    have := List.mem_of_find?_eq_some h
    simp only [List.mem_cons, List.not_mem_nil, or_false] at this
    simp only [Option.getD_some]
    omega

/-- With more than one column the columns leave room over. -/
theorem columnCount_mul_lt {longest width : Nat} (h : columnCount longest width ≠ 1) :
    longest * columnCount longest width < width := by
  unfold columnCount at h ⊢
  cases hf : [6, 5, 4, 3, 2].find? fun cols => longest * cols < width with
  | none => simp [hf] at h
  | some c =>
    have := List.find?_some hf
    simpa using this

/-- The rows hold the names in order. -/
theorem flatten_rows (n : Nat) (names : List Text) : (rows n names).flatten = names := by
  fun_induction rows n names with
  | case1 => rfl
  | case2 name rest ih =>
    rw [List.flatten_cons, ih, List.cons_append, List.take_append_drop]

/-- The names of a row are among the names. -/
theorem mem_of_mem_rows {n : Nat} {names row : List Text} {name : Text} (h : row ∈ rows n names)
    (hn : name ∈ row) : name ∈ names := by
  rw [← flatten_rows n names]
  exact List.mem_flatten_of_mem h hn

end Layout

end Teletype
