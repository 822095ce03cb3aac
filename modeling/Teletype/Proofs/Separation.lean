/-
# Names apart

Columns are chosen so that all of them, as wide as the longest name, leave room over.  The room
may be less than one character for each column; then a cell is no wider than the longest name,
and this name reaches up to the next one.  The main statement is that **the names can be read
off their columns exactly if every name but the last of a row is narrower than its cell**
(`Layout.fields_columnize`).  The names of the parameters of a terminal can be read off at every
width (`Layout.fields_parameters`), those of the commands exactly if there is one column or a cell
is wider than the longest of them (`Layout.fields_commands`).
-/
import Teletype.Command.Builtin
import Teletype.Proofs.Columns

namespace Teletype

namespace Text

variable {x t : Text} {c : Char}

/-! ## The texts between blanks -/

/-- The texts between the blanks of a text. -/
def fields (t : Text) : List Text := (t.splitOnP isBlank).filter (· ≠ [])

/-- A text that has characters and no blank among them. -/
structure Solid (t : Text) : Prop where
  /-- There is a character. -/
  nonempty : t ≠ []
  /-- There is no blank. -/
  full : ∀ c ∈ t, isBlank c = false

instance (t : Text) : Decidable t.Solid :=
  decidable_of_iff (t ≠ [] ∧ (t.all fun c => !isBlank c) = true)
    ⟨fun h => ⟨h.1, by simpa using h.2⟩, fun h => ⟨h.1, by simpa using h.2⟩⟩

/-- Texts with a blank between them have the fields of both. -/
theorem fields_append (hc : isBlank c = true) (x t : Text) :
    fields (x ++ c :: t) = fields x ++ fields t := by
  rw [fields, List.splitOnP_append_cons x t hc, List.filter_append]
  rfl

/-- Blanks in front of a text are no part of its fields. -/
theorem fields_replicate (n : Nat) (t : Text) : fields (List.replicate n ' ' ++ t) = fields t := by
  induction n with
  | zero => rfl
  | succ n ih =>
    have blank : isBlank ' ' = true := by decide
    rw [List.replicate_succ, List.cons_append, ← ih]
    exact fields_append blank [] _

namespace Solid

/-- A solid text is its only field. -/
theorem fields (h : x.Solid) : fields x = [x] := by
  rw [Text.fields, List.splitOnP_eq_singleton h.full]
  simp [h.nonempty]

/-- A solid text with blanks behind it is the first field. -/
theorem fields_pad (h : x.Solid) (n : Nat) (t : Text) :
    Text.fields (x ++ List.replicate (n + 1) ' ' ++ t) = x :: Text.fields t := by
  have blank : isBlank ' ' = true := by decide
  rw [List.replicate_succ, List.append_assoc, List.cons_append, fields_append blank, h.fields,
    fields_replicate]
  rfl

/-- What stands in front of a text without a blank between belongs to its first piece. -/
theorem splitOnP_append (h : x.Solid) (t : Text) :
    (x ++ t).splitOnP isBlank = (t.splitOnP isBlank).modifyHead (x ++ ·) := by
  have full := h.full
  clear h
  induction x with
  | nil =>
    obtain ⟨w, ws, cut⟩ := List.exists_cons_of_ne_nil (List.splitOnP_ne_nil isBlank t)
    rw [List.nil_append, cut]
    rfl
  | cons c x ih =>
    rw [List.forall_mem_cons] at full
    rw [List.cons_append, List.splitOnP_cons_eq_if_modifyHead, full.1, ih full.2,
      List.modifyHead_modifyHead]
    rfl

/-- A solid text in front of another one is read as one with its first field. -/
theorem fields_append (h : x.Solid) {y : Text} (hy : y.Solid) (t : Text) :
    Text.fields (x ++ (y ++ t)) = (Text.fields (y ++ t)).modifyHead (x ++ ·) := by
  obtain ⟨w, ws, cut⟩ := List.exists_cons_of_ne_nil (List.splitOnP_ne_nil isBlank t)
  have first : y ++ w ≠ [] := fun none => hy.nonempty (List.append_eq_nil_iff.mp none).1
  have whole : x ++ (y ++ w) ≠ [] := fun none => first (List.append_eq_nil_iff.mp none).2
  rw [Text.fields, Text.fields, h.splitOnP_append, hy.splitOnP_append, cut, List.modifyHead_cons,
    List.modifyHead_cons, List.filter_cons, if_pos (decide_eq_true whole), List.filter_cons,
    if_pos (decide_eq_true first), List.modifyHead_cons]

end Solid

end Text

namespace Layout

open Text

variable {names row : List Text} {name next : Text} {cell cols width n : Nat}

/-! ## One row -/

/-- A row as it is read: a name that fills its cell and the next one are read as one. -/
def merged (cell : Nat) : List Text → List Text
  | [] => []
  | [name] => [name]
  | name :: next :: rest =>
    if name.length < cell then name :: merged cell (next :: rest)
    else (merged cell (next :: rest)).modifyHead (name ++ ·)

/-- A row begins with its first name. -/
theorem exists_rowText (cell : Nat) (name : Text) (rest : List Text) :
    ∃ behind, rowText cell (name :: rest) = name ++ behind := by
  cases rest with
  | nil => exact ⟨[], (List.append_nil name).symm⟩
  | cons next rest => exact ⟨_, List.append_assoc _ _ _⟩

/-- **The fields of a row are its names, those in a full cell read as one with the next.** -/
theorem fields_rowText (solid : ∀ name ∈ row, name.Solid) :
    fields (rowText cell row) = merged cell row := by
  fun_induction rowText cell row with
  | case1 => rfl
  | case2 name => exact (solid name List.mem_cons_self).fields
  | case3 name next rest ih =>
    rw [List.forall_mem_cons] at solid
    have rest_merged := ih solid.2
    rw [merged, pad, padRight]
    split
    · next narrow =>
      obtain ⟨gap, hgap⟩ := Nat.exists_eq_add_of_lt narrow
      have spaces : cell - name.length = gap + 1 := by omega
      rw [spaces, solid.1.fields_pad, rest_merged]
    · next full =>
      obtain ⟨behind, first⟩ := exists_rowText cell next rest
      have none : cell - name.length = 0 := by omega
      rw [none, List.replicate_zero, List.append_nil, ← rest_merged, first]
      exact solid.1.fields_append (solid.2 next List.mem_cons_self) behind

/-- No more names are read than there are. -/
theorem length_merged_le (cell : Nat) (row : List Text) :
    (merged cell row).length ≤ row.length := by
  fun_induction merged cell row with
  | case1 => exact Nat.le_refl _
  | case2 => exact Nat.le_refl _
  | case3 name next rest narrow ih => exact Nat.succ_le_succ ih
  | case4 name next rest full ih =>
    rw [List.length_modifyHead]
    exact Nat.le_succ_of_le ih

/-- Something is read where there is a name. -/
theorem merged_ne_nil (cell : Nat) (h : row ≠ []) : merged cell row ≠ [] := by
  fun_induction merged cell row with
  | case1 => exact h
  | case2 => exact List.cons_ne_nil _ _
  | case3 => exact List.cons_ne_nil _ _
  | case4 name next rest full ih =>
    obtain ⟨w, ws, read⟩ := List.exists_cons_of_ne_nil (ih (List.cons_ne_nil _ _))
    rw [read]
    exact List.cons_ne_nil _ _

/-- What is read has the characters of the names. -/
theorem flatten_merged (cell : Nat) (row : List Text) :
    (merged cell row).flatten = row.flatten := by
  fun_induction merged cell row with
  | case1 => rfl
  | case2 => rfl
  | case3 name next rest narrow ih => rw [List.flatten_cons, ih, List.flatten_cons (l := name)]
  | case4 name next rest full ih =>
    obtain ⟨w, ws, read⟩ :=
      List.exists_cons_of_ne_nil (merged_ne_nil cell (List.cons_ne_nil next rest))
    rw [List.flatten_cons, ← ih, read, List.modifyHead_cons, List.flatten_cons, List.flatten_cons,
      List.append_assoc]

/-- **The names of a row are read exactly if all but the last are narrower than their cells.** -/
theorem merged_eq_iff : merged cell row = row ↔ ∀ name ∈ row.dropLast, name.length < cell := by
  fun_induction merged cell row with
  | case1 => simp
  | case2 => simp
  | case3 name next rest narrow ih =>
    rw [List.cons_inj_right, ih, List.dropLast_cons_cons, List.forall_mem_cons]
    exact (and_iff_right narrow).symm
  | case4 name next rest full ih =>
    constructor
    · intro read
      have fewer := length_merged_le cell (next :: rest)
      have lengths := congrArg List.length read
      rw [List.length_modifyHead, List.length_cons] at lengths
      omega
    · intro narrow
      exact absurd (narrow name List.mem_cons_self) full

/-- **Between two neighbours of a row stand the spaces that fill the cell of the first.** -/
theorem isInfix_rowText (h : [name, next] <:+: row) :
    name ++ List.replicate (cell - name.length) ' ' ++ next <:+: rowText cell row := by
  obtain ⟨before, behind, rfl⟩ := h
  induction before with
  | nil =>
    obtain ⟨line, first⟩ := exists_rowText cell next behind
    have whole : rowText cell (name :: next :: behind)
        = name ++ List.replicate (cell - name.length) ' ' ++ (next ++ line) :=
      congrArg (pad name cell ++ ·) first
    refine ⟨[], line, ?_⟩
    rw [List.nil_append, List.append_assoc _ next]
    exact whole.symm
  | cons first before ih =>
    obtain ⟨second, rest, tail⟩ :=
      List.exists_cons_of_ne_nil (show before ++ [name, next] ++ behind ≠ [] by simp)
    rw [tail] at ih
    rw [List.cons_append, List.cons_append, tail]
    exact ih.trans (List.suffix_append (pad first cell) _).isInfix

/-! ## All rows -/

/-- The fields of rows are those of each. -/
theorem fields_flatMap_rowText {lines : List (List Text)}
    (solid : ∀ row ∈ lines, ∀ name ∈ row, name.Solid) (cell : Nat) :
    fields (lines.flatMap fun row => rowText cell row ++ ['\n']) = lines.flatMap (merged cell) := by
  induction lines with
  | nil => rfl
  | cons row lines ih =>
    have feed : isBlank '\n' = true := by decide
    rw [List.forall_mem_cons] at solid
    rw [List.flatMap_cons, List.flatMap_cons, List.append_assoc, List.singleton_append,
      fields_append feed, fields_rowText solid.1, ih solid.2]

/-- No more names are read off rows than there are. -/
theorem length_flatMap_merged_le (cell : Nat) (lines : List (List Text)) :
    (lines.flatMap (merged cell)).length ≤ lines.flatten.length := by
  induction lines with
  | nil => exact Nat.le_refl _
  | cons row lines ih =>
    rw [List.flatMap_cons, List.flatten_cons, List.length_append, List.length_append]
    exact Nat.add_le_add (length_merged_le cell row) ih

/-- All names are read exactly if those of every row are. -/
theorem flatMap_merged_eq_iff {lines : List (List Text)} :
    lines.flatMap (merged cell) = lines.flatten ↔ ∀ row ∈ lines, merged cell row = row := by
  induction lines with
  | nil => simp
  | cons row lines ih =>
    rw [List.flatMap_cons, List.flatten_cons, List.forall_mem_cons, ← ih]
    constructor
    · intro read
      -- neither part can make up for a name that the other one does not give
      have lengths := congrArg List.length read
      have first := length_merged_le cell row
      have others := length_flatMap_merged_le cell lines
      rw [List.length_append, List.length_append] at lengths
      exact List.append_inj read (by omega)
    · rintro ⟨first, others⟩
      rw [first, others]

/-- What is read has the characters of the names of all rows. -/
theorem flatten_flatMap_merged (cell : Nat) (lines : List (List Text)) :
    (lines.flatMap (merged cell)).flatten = lines.flatten.flatten := by
  induction lines with
  | nil => rfl
  | cons row lines ih =>
    rw [List.flatMap_cons, List.flatten_cons, List.flatten_append, List.flatten_append,
      flatten_merged, ih]

/-! ## Columns -/

/-- The names as they are read off their columns. -/
theorem fields_columnize_eq (solid : ∀ name ∈ names, name.Solid) (width : Nat) :
    let cols := columnCount (longest names) width
    fields (columnize names width) = (rows (cols - 1) names).flatMap (merged (width / cols)) :=
  fields_flatMap_rowText (fun _ hrow name hname => solid name (mem_of_mem_rows hrow hname)) _

/-- Names can be read off their columns exactly if every name but the last of a row is narrower
than its cell. -/
theorem fields_columnize_iff (solid : ∀ name ∈ names, name.Solid) (width : Nat) :
    let cols := columnCount (longest names) width
    fields (columnize names width) = names ↔
      ∀ row ∈ rows (cols - 1) names, ∀ name ∈ row.dropLast, name.length < width / cols := by
  intro cols
  have all : (rows (cols - 1) names).flatMap (merged (width / cols)) = names ↔
      ∀ row ∈ rows (cols - 1) names, merged (width / cols) row = row := by
    rw [← flatMap_merged_eq_iff, flatten_rows]
  rw [fields_columnize_eq solid, all]
  exact forall₂_congr fun row _ => merged_eq_iff

/-- Every name is narrower than its cell if a character more than the longest one has room in
every column. -/
theorem narrow_of_room {cols : Nat} (positive : 0 < cols)
    (room : (longest names + 1) * cols ≤ width) (h : name ∈ names) :
    name.length < width / cols :=
  Nat.lt_of_le_of_lt (length_le_longest h) ((Nat.le_div_iff_mul_le positive).mpr room)

/-- In a single column no name stands in front of another one. -/
theorem not_mem_dropLast_of_single (single : cols = 1) (h : row ∈ rows (cols - 1) names) :
    name ∉ row.dropLast := by
  subst single
  rw [rows_zero] at h
  obtain ⟨name, -, rfl⟩ := List.mem_map.mp h
  exact List.not_mem_nil

/-- The names of the parameters of a terminal can be read off their columns at every width: the
one name that can fill a cell is the last of all. -/
theorem fields_parameters (width : Nat) :
    let names := Command.Parameter.all.map Command.Parameter.name
    fields (columnize names width) = names := by
  intro names
  have solid : ∀ name ∈ names, name.Solid := by decide
  have shorter : ∀ n < 6, ∀ row ∈ rows n names, ∀ name ∈ row.dropLast,
      name.length < longest names := by
    decide +kernel
  have bounds := columnCount_bounds (longest names) width
  refine (fields_columnize_iff solid width).mpr fun row hrow name hname => ?_
  by_cases one : columnCount (longest names) width = 1
  · exact absurd hname (not_mem_dropLast_of_single one hrow)
  · exact Nat.lt_of_lt_of_le (shorter _ (by omega) row hrow name hname) (longest_le_cell one)

/-- The names of the commands can be read off their columns exactly if there is one column or a
cell is wider than the longest of them. -/
theorem fields_commands (width : Nat) :
    let names := (Registry.builtin.manual.entries.filter fun e => !e.2.hidden).map Prod.fst
    let cols := columnCount (longest names) width
    fields (columnize names width) = names ↔ cols = 1 ∨ longest names < width / cols := by
  intro names cols
  have solid : ∀ name ∈ names, name.Solid := by decide +kernel
  have before : ∀ n < 5, ∃ row ∈ rows (n + 1) names, ∃ name ∈ row.dropLast,
      name.length = longest names := by
    decide +kernel
  have bounds : 1 ≤ cols ∧ cols ≤ 6 := columnCount_bounds (longest names) width
  refine (fields_columnize_iff solid width).trans ?_
  by_cases one : cols = 1
  · exact iff_of_true (fun row hrow name hname =>
      absurd hname (not_mem_dropLast_of_single one hrow)) (.inl one)
  · constructor
    · intro narrow
      obtain ⟨row, hrow, name, hname, long⟩ := before (cols - 2) (by omega)
      rw [show cols - 2 + 1 = cols - 1 by omega] at hrow
      rw [← long]
      exact .inr (narrow row hrow name hname)
    · intro wide row hrow name hname
      have bound := length_le_longest (mem_of_mem_rows hrow (row.dropLast_subset hname))
      exact Nat.lt_of_le_of_lt bound (wide.resolve_left one)

/-- **Names are read off their columns exactly if no name fills its cell in front of another.**
The fields of the columns are the names, in order, exactly if every name but the last of a row is
narrower than its cell; so they are wherever a character more than the longest name has room in
every column.  Between two neighbours of a row stand the spaces that the first one leaves in its
cell, which may be none.  What is read has all characters of the names.  The names of the
parameters are read off their columns at every width, and those of the commands exactly if there is
one column or the cell is wider than the longest of them. -/
theorem fields_columnize (names : List Text) (width : Nat) :
    let cols := columnCount (longest names) width
    let cell := width / cols
    let parameters := Command.Parameter.all.map Command.Parameter.name
    let commands := (Registry.builtin.manual.entries.filter fun e => !e.2.hidden).map Prod.fst
    ((∀ name ∈ names, name.Solid) →
      (fields (columnize names width) = names ↔
        ∀ row ∈ rows (cols - 1) names, ∀ name ∈ row.dropLast, name.length < cell) ∧
      ((longest names + 1) * cols ≤ width → fields (columnize names width) = names) ∧
      (∀ row ∈ rows (cols - 1) names, ∀ name next, [name, next] <:+: row →
        name ++ List.replicate (cell - name.length) ' ' ++ next <:+: columnize names width) ∧
      (fields (columnize names width)).flatten = names.flatten) ∧
    fields (columnize parameters width) = parameters ∧
    (fields (columnize commands width) = commands ↔
      columnCount (longest commands) width = 1 ∨
        longest commands < width / columnCount (longest commands) width) := by
  intro cols cell parameters commands
  refine ⟨fun solid => ?_, fields_parameters width, fields_commands width⟩
  have positive : 0 < cols := (columnCount_bounds (longest names) width).1
  refine ⟨fields_columnize_iff solid width, fun room => ?_, fun row hrow name next h => ?_, ?_⟩
  · exact (fields_columnize_iff solid width).mpr fun row hrow name hname =>
      narrow_of_room positive room (mem_of_mem_rows hrow (row.dropLast_subset hname))
  · have line : rowText cell row <:+: columnize names width :=
      (List.prefix_append _ _).isInfix.trans
        (List.infix_of_mem_flatten (List.mem_map_of_mem (f := fun row => _ ++ _) hrow))
    exact (isInfix_rowText h).trans line
  · rw [fields_columnize_eq solid, flatten_flatMap_merged, flatten_rows]

/-- Two names on a row of a screen of 60 columns are apart; with 58 columns they are not, and
neither are the names of the commands. -/
theorem fields_columnize_screens :
    let names : List Text := ["LOGARITHM".toList, "LT".toList]
    let commands := (Registry.builtin.manual.entries.filter fun e => !e.2.hidden).map Prod.fst
    (∀ name ∈ names, name.Solid) ∧ fields (columnize names 60) = names ∧
      fields (columnize names 58) ≠ names ∧ fields (columnize commands 60) = commands ∧
      fields (columnize commands 58) ≠ commands := by
  intro names commands
  have solid : ∀ name ∈ names, name.Solid := by decide
  obtain ⟨wide, -, wideCommands⟩ := fields_columnize names 60
  obtain ⟨narrow, -, narrowCommands⟩ := fields_columnize names 58
  refine ⟨solid, (wide solid).2.1 (by decide), fun read => ?_,
    wideCommands.mpr (.inr (by decide +kernel)), fun read => ?_⟩
  · have fits := (narrow solid).1.mp read names (by decide +kernel)
    exact absurd (fits "LOGARITHM".toList (by decide)) (by decide)
  · exact absurd (narrowCommands.mp read) (by decide +kernel)

/-- On a screen of 58 columns two names are read as one. -/
theorem fields_columnize_full : ¬ ∀ (names : List Text) (width : Nat),
    (∀ name ∈ names, name.Solid) → fields (columnize names width) = names := by
  intro apart
  have one : fields (columnize ["LOGARITHM".toList, "LT".toList] 58) = ["LOGARITHMLT".toList] := by
    decide +kernel
  have two := apart ["LOGARITHM".toList, "LT".toList] 58 (by decide)
  rw [one] at two
  cases two

end Layout

end Teletype
