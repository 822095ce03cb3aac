/-
# Names in columns

Names are cut into rows of as many as there are columns, and every name of a row but the last
is padded to the width of a cell.  A cell is never narrower than the longest name, so that
padding fills each cell up exactly.  The main statement is that **every name stands whole at
the head of its cell, on the row that its number gives, and nothing stands behind the last
name of a row** (`Layout.columnize_exact`).
-/
import Mathlib.Order.Bounds.Defs
import Teletype.Layout

namespace Teletype

namespace Layout

variable {names row : List Text} {name : Text} {cell cols width n k i : Nat}

/-! ## The number of columns -/

/-- No name is longer than the longest. -/
theorem length_le_longest (h : name ∈ names) : name.length ≤ longest names := by
  induction names with
  | nil => simp at h
  | cons first rest ih =>
    have whole : longest (first :: rest) = max first.length (longest rest) := rfl
    rw [whole]
    rcases List.mem_cons.mp h with rfl | h
    · omega
    · have := ih h
      omega

/-- What is found first in a descending list is the greatest that can be found. -/
theorem le_of_find?_eq_some {p : Nat → Bool} {l : List Nat} {c d : Nat}
    (descending : l.Pairwise (· > ·)) (found : l.find? p = some d) (hc : c ∈ l) (hp : p c = true) :
    c ≤ d := by
  induction l with
  | nil => simp at hc
  | cons a l ih =>
    rw [List.pairwise_cons] at descending
    cases ha : p a with
    | true =>
      rw [List.find?_cons_of_pos ha] at found
      cases found
      rcases List.mem_cons.mp hc with rfl | hc
      · exact Nat.le_refl c
      · exact Nat.le_of_lt (descending.1 c hc)
    | false =>
      rw [List.find?_cons_of_neg (by simp [ha])] at found
      rcases List.mem_cons.mp hc with rfl | hc
      · rw [hp] at ha
        cases ha
      · exact ih descending.2 found hc

/-- There is one column exactly if no number from two to six leaves room over. -/
theorem columnCount_eq_one_iff {l : Nat} :
    columnCount l width = 1 ↔ ∀ c, 2 ≤ c → c ≤ 6 → width ≤ l * c := by
  unfold columnCount
  cases found : [6, 5, 4, 3, 2].find? fun c => l * c < width with
  | none =>
    simp only [Option.getD_none, true_iff]
    intro c two six
    have mem : c ∈ [6, 5, 4, 3, 2] := by
      simp only [List.mem_cons, List.not_mem_nil, or_false]
      omega
    simpa using List.find?_eq_none.mp found c mem
  | some d =>
    have room : l * d < width := by simpa using List.find?_some found
    have mem := List.mem_of_find?_eq_some found
    simp only [List.mem_cons, List.not_mem_nil, or_false] at mem
    simp only [Option.getD_some]
    constructor
    · omega
    · intro none
      have := none d (by omega) (by omega)
      omega

/-- With more than one column their number is the greatest from two to six that leaves room
over. -/
theorem isGreatest_columnCount {l : Nat} (h : columnCount l width ≠ 1) :
    IsGreatest {c | 2 ≤ c ∧ c ≤ 6 ∧ l * c < width} (columnCount l width) := by
  have bounds := columnCount_bounds l width
  refine ⟨⟨by omega, bounds.2, columnCount_mul_lt h⟩, ?_⟩
  rintro c ⟨two, six, room⟩
  have mem : c ∈ [6, 5, 4, 3, 2] := by
    simp only [List.mem_cons, List.not_mem_nil, or_false]
    omega
  unfold columnCount
  cases found : [6, 5, 4, 3, 2].find? fun c => l * c < width with
  | none =>
    have := List.find?_eq_none.mp found c mem
    simp only [decide_eq_true_eq] at this
    omega
  | some d => exact le_of_find?_eq_some (by decide) found mem (decide_eq_true room)

/-- With more than one column a cell is as wide as the longest name. -/
theorem longest_le_cell (h : columnCount (longest names) width ≠ 1) :
    longest names ≤ width / columnCount (longest names) width := by
  have bounds := columnCount_bounds (longest names) width
  rw [Nat.le_div_iff_mul_le (by omega)]
  exact Nat.le_of_lt (columnCount_mul_lt h)

/-! ## One row -/

/-- How a name stands in a row of cells: what stands before it fills the cells before, nothing
stands behind the last name, and any other has the spaces behind it that fill its cell. -/
def StandsIn (cell : Nat) (line : Text) (i : Nat) (name : Text) (last : Prop) : Prop :=
  ∃ before behind, line = before ++ name ++ behind ∧ before.length = i * cell ∧
    (last → behind = []) ∧
    (¬ last → List.replicate (cell - name.length) ' ' <+: behind)

/-- **Every name of a row stands at the head of its cell.** -/
theorem standsIn_rowText (fits : ∀ name ∈ row, name.length ≤ cell) (h : row[i]? = some name) :
    StandsIn cell (rowText cell row) i name (i + 1 = row.length) := by
  fun_induction rowText cell row generalizing i with
  | case1 => simp at h
  | case2 only =>
    obtain ⟨rfl, rfl⟩ : i = 0 ∧ only = name := by
      cases i with
      | zero => simpa using h
      | succ i => simp at h
    exact ⟨[], [], by simp, by simp, fun _ => rfl, fun other => absurd rfl other⟩
  | case3 first next rest ih =>
    have length : (pad first cell).length = cell := by
      have := fits first List.mem_cons_self
      rw [length_pad]
      omega
    cases i with
    | zero =>
      obtain rfl : first = name := by simpa using h
      refine ⟨[], List.replicate (cell - first.length) ' ' ++ rowText cell (next :: rest), ?_, ?_, ?_, ?_⟩
      · simp [pad, Text.padRight]
      · simp
      · simp
      · intro _
        exact List.prefix_append _ _
    | succ i =>
      obtain ⟨before, behind, whole, start, ends, gap⟩ :=
        ih (fun name mem => fits name (List.mem_cons_of_mem _ mem)) h
      refine ⟨pad first cell ++ before, behind, ?_, ?_, ?_, ?_⟩
      · rw [whole]
        simp
      · rw [List.length_append, length, start, Nat.succ_mul]
        omega
      · intro last
        exact ends (by simpa using last)
      · intro last
        exact gap (by simpa using last)

/-- A row takes no more than its cells. -/
theorem length_rowText_le (fits : ∀ name ∈ row, name.length ≤ cell) :
    (rowText cell row).length ≤ row.length * cell := by
  fun_induction rowText cell row with
  | case1 => simp
  | case2 only =>
    have := fits only List.mem_cons_self
    simp
    omega
  | case3 first next rest ih =>
    have := fits first List.mem_cons_self
    have := ih fun name mem => fits name (List.mem_cons_of_mem _ mem)
    rw [List.length_append, length_pad, List.length_cons, Nat.succ_mul]
    omega

/-- A row without line feeds in its names has none. -/
theorem not_mem_rowText {c : Char} (space : c ≠ ' ') (h : ∀ name ∈ row, c ∉ name) :
    c ∉ rowText cell row := by
  fun_induction rowText cell row with
  | case1 => simp
  | case2 only => exact h only List.mem_cons_self
  | case3 first next rest ih =>
    have := h first List.mem_cons_self
    have := ih fun name mem => h name (List.mem_cons_of_mem _ mem)
    simp_all [pad, Text.padRight]

/-! ## All rows -/

/-- A row has at least one name, and no more than there are columns. -/
theorem length_of_mem_rows (h : row ∈ rows n names) : 1 ≤ row.length ∧ row.length ≤ n + 1 := by
  fun_induction rows n names with
  | case1 => simp at h
  | case2 first rest ih =>
    rcases List.mem_cons.mp h with rfl | h
    · rw [List.length_cons, List.length_take]
      omega
    · exact ih h

/-- There are as many rows as the names need. -/
theorem length_rows (n : Nat) (names : List Text) :
    (rows n names).length = (names.length + n) / (n + 1) := by
  fun_induction rows n names with
  | case1 =>
    rw [List.length_nil, List.length_nil, Nat.zero_add, Nat.div_eq_of_lt (Nat.lt_succ_self n)]
  | case2 first rest ih =>
    rw [List.length_cons, ih, List.length_drop, List.length_cons]
    by_cases full : n ≤ rest.length
    · rw [Nat.sub_add_cancel full, show rest.length + 1 + n = rest.length + (n + 1) by omega,
        Nat.add_div_right _ (Nat.succ_pos n)]
    · rw [show rest.length - n + n = n by omega, Nat.div_eq_of_lt (Nat.lt_succ_self n)]
      symm
      rw [Nat.div_eq_iff (Nat.succ_pos n)]
      constructor <;> omega

/-- **A name stands on the row that its number gives**, behind as many names as the number
says, and it is the last of its row if the row is full or there are no more names. -/
theorem exists_row (n : Nat) (h : names[k]? = some name) :
    ∃ row, (rows n names)[k / (n + 1)]? = some row ∧ row[k % (n + 1)]? = some name ∧
      (k % (n + 1) + 1 = row.length ↔ (k + 1) % (n + 1) = 0 ∨ k + 1 = names.length) := by
  fun_induction rows n names generalizing k with
  | case1 => simp at h
  | case2 first rest ih =>
    by_cases early : k < n + 1
    · rw [Nat.div_eq_of_lt early, Nat.mod_eq_of_lt early]
      refine ⟨first :: rest.take n, rfl, ?_, ?_⟩
      · cases k with
        | zero => exact h
        | succ k =>
          rw [List.getElem?_cons_succ, List.getElem?_take_of_lt (by omega)]
          exact h
      · have short : k < (first :: rest).length := (List.getElem?_eq_some_iff.mp h).1
        simp only [List.length_cons, List.length_take] at short ⊢
        by_cases full : k = n
        · subst full
          simp
          omega
        · rw [Nat.mod_eq_of_lt (by omega)]
          omega
    · obtain ⟨j, rfl⟩ : ∃ j, k = j + (n + 1) := ⟨k - (n + 1), by omega⟩
      have later : (rest.drop n)[j]? = some name := by
        rw [List.getElem?_drop, ← h, show j + (n + 1) = n + j + 1 by omega,
          List.getElem?_cons_succ]
      obtain ⟨row, found, stands, last⟩ := ih later
      have short : j < (rest.drop n).length := (List.getElem?_eq_some_iff.mp later).1
      rw [Nat.add_div_right _ (Nat.succ_pos n), Nat.add_mod_right]
      refine ⟨row, found, stands, last.trans ?_⟩
      rw [List.length_drop] at short ⊢
      rw [show j + (n + 1) + 1 = j + 1 + (n + 1) by omega, Nat.add_mod_right, List.length_cons]
      omega

/-! ## Columns -/

/-- Lines set names out in columns of cells. -/
structure SetOut (names : List Text) (cols cell : Nat) (lines : List Text) : Prop where
  /-- The lines are single lines. -/
  single : ∀ line ∈ lines, '\n' ∉ line
  /-- There are as many as the names need rows. -/
  count : lines.length = (names.length + (cols - 1)) / cols
  /-- Each name stands at the head of its cell, and is the last one if its row is full or there
  are no more names. -/
  stands (k : Nat) (name : Text) : names[k]? = some name → ∃ line, lines[k / cols]? = some line ∧
    StandsIn cell line (k % cols) name ((k + 1) % cols = 0 ∨ k + 1 = names.length)

/-- A single column has a row for each name. -/
theorem rows_zero (names : List Text) : rows 0 names = names.map fun name => [name] := by
  induction names with
  | nil => simp [rows]
  | cons name rest ih => simp [rows, ih]

/-- In a single column every name is a line. -/
theorem columnize_of_one (h : columnCount (longest names) width = 1) :
    columnize names width = names.flatMap (· ++ ['\n']) := by
  simp only [columnize, h, Nat.sub_self, rows_zero, List.flatMap_map]
  rfl

/-- Names are set out in a single column if each is a line. -/
theorem setOut_one (plain : ∀ name ∈ names, '\n' ∉ name) (cell : Nat) :
    SetOut names 1 cell names where
  single := plain
  count := by simp
  stands k name found := by
    have full : (k + 1) % 1 = 0 := Nat.mod_one _
    refine ⟨name, by simpa using found, [], [], by simp, ?_, fun _ => rfl, fun other => ?_⟩
    · simp [Nat.mod_one]
    · exact absurd (.inl full) other

/-- **The rows of names set them out** if no name is wider than a cell. -/
theorem setOut_rows (plain : ∀ name ∈ names, '\n' ∉ name)
    (wide : ∀ name ∈ names, name.length ≤ cell) (n : Nat) :
    SetOut names (n + 1) cell ((rows n names).map (rowText cell)) := by
  refine ⟨?_, ?_, ?_⟩
  · intro line hline
    obtain ⟨row, hrow, rfl⟩ := List.mem_map.mp hline
    exact not_mem_rowText (by decide) fun name hname => plain name (mem_of_mem_rows hrow hname)
  · rw [List.length_map, length_rows]
    rfl
  · intro k name found
    obtain ⟨row, hrow, stands, last⟩ := exists_row n found
    have fits : ∀ name ∈ row, name.length ≤ cell := fun name hname =>
      wide name (mem_of_mem_rows (List.mem_of_getElem? hrow) hname)
    have standing := standsIn_rowText fits stands
    rw [last] at standing
    exact ⟨rowText cell row, by rw [List.getElem?_map, hrow]; rfl, standing⟩

/-- The rows are no longer than the cells of all columns. -/
theorem length_le_of_mem_rows {line : Text} (wide : ∀ name ∈ names, name.length ≤ cell)
    (h : line ∈ (rows n names).map (rowText cell)) : line.length ≤ (n + 1) * cell := by
  obtain ⟨row, hrow, rfl⟩ := List.mem_map.mp h
  have fits : ∀ name ∈ row, name.length ≤ cell := fun name hname =>
    wide name (mem_of_mem_rows hrow hname)
  calc (rowText cell row).length
      ≤ row.length * cell := length_rowText_le fits
    _ ≤ (n + 1) * cell := Nat.mul_le_mul_right _ (length_of_mem_rows hrow).2

/-- **Names are set out exactly.**  In a single column, which is chosen only if no more fit,
every name is a line.  Otherwise there are as many columns, from two to six, as leave room over
with all of them as wide as the longest name.  The text is as many lines as the names need rows,
each with a line feed behind it.  Name `k` stands on line `k / cols` at the head of its cell;
nothing stands behind the last name of a line, and behind any other name stand the spaces that
fill its cell.  With more than one column no line is longer than the width. -/
theorem columnize_exact (plain : ∀ name ∈ names, '\n' ∉ name) (width : Nat) :
    let cols := columnCount (longest names) width
    (cols = 1 ↔ ∀ c, 2 ≤ c → c ≤ 6 → width ≤ longest names * c) ∧
    (cols = 1 → columnize names width = names.flatMap (· ++ ['\n'])) ∧
    (cols ≠ 1 → IsGreatest {c | 2 ≤ c ∧ c ≤ 6 ∧ longest names * c < width} cols) ∧
    ∃ lines : List Text, columnize names width = lines.flatMap (· ++ ['\n']) ∧
      SetOut names cols (width / cols) lines ∧
      (cols ≠ 1 → ∀ line ∈ lines, line.length ≤ width) := by
  intro cols
  refine ⟨columnCount_eq_one_iff, columnize_of_one, isGreatest_columnCount, ?_⟩
  by_cases one : cols = 1
  · refine ⟨names, columnize_of_one one, ?_, fun more => absurd one more⟩
    rw [one]
    exact setOut_one plain _
  · have bounds : 1 ≤ cols ∧ cols ≤ 6 := columnCount_bounds _ _
    have wide : ∀ name ∈ names, name.length ≤ width / cols := fun name hname =>
      Nat.le_trans (length_le_longest hname) (longest_le_cell one)
    have hn : cols - 1 + 1 = cols := by omega
    refine ⟨(rows (cols - 1) names).map (rowText (width / cols)), ?_, ?_, fun _ line hline => ?_⟩
    · rw [columnize, List.flatMap_map]
    · have set := setOut_rows plain wide (cols - 1)
      rwa [hn] at set
    · have cells := length_le_of_mem_rows wide hline
      rw [hn] at cells
      exact Nat.le_trans cells (Nat.mul_div_le width cols)

/-- Five names in two columns: the last stands alone on the third line. -/
theorem columnize_exact_alone :
    let names := ["ALIAS".toList, "ASSIGN".toList, "DIVIDE".toList, "EQUALS".toList,
      "LOGARITHM".toList]
    (∀ name ∈ names, '\n' ∉ name) ∧ columnCount (longest names) 21 = 2 ∧
    ∃ lines : List Text, columnize names 21 = lines.flatMap (· ++ ['\n']) ∧ lines.length = 3 ∧
      (∀ line ∈ lines, line.length ≤ 21) ∧ lines[2]? = some "LOGARITHM".toList := by
  intro names
  have plain : ∀ name ∈ names, '\n' ∉ name := by decide
  have two : columnCount (longest names) 21 = 2 := by decide
  obtain ⟨-, -, -, lines, whole, set, short⟩ := columnize_exact plain 21
  rw [two] at set short
  obtain ⟨line, found, before, behind, rfl, start, ends, -⟩ := set.stands 4 "LOGARITHM".toList rfl
  obtain rfl : before = [] := List.length_eq_zero_iff.mp start
  obtain rfl : behind = [] := ends (.inr rfl)
  have three : lines.length = 3 := set.count.trans (by decide)
  exact ⟨plain, two, lines, whole, three, short (by decide), by simpa using found⟩

end Layout

end Teletype
