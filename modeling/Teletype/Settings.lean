/-
# Settings

What a terminal is set up with: the size of its screen, what its prompt shows, how it
prints, how often a program may jump, and where it keeps what it saves.
-/
import Teletype.Color

namespace Teletype

/-- The settings of a terminal. -/
structure Settings where
  /-- The number of columns of the screen. -/
  columns : Nat := 60
  /-- The number of rows of the screen. -/
  rows : Nat := 25
  /-- The end of the prompt. -/
  prompt : Text := "$".toList
  /-- The name in front of the path in the prompt. -/
  account : Text := "guest".toList
  /-- The path in the prompt. -/
  path : Text := "/".toList
  /-- The color of text. -/
  color : Color := .white
  /-- The theme of the screen. -/
  theme : Theme := .plain
  /-- Milliseconds to wait for each character that is printed. -/
  delay : Nat := 0
  /-- The number of jumps at which a program is stopped. -/
  jumpBudget : Nat := 100
  /-- The key under which the session is saved. -/
  storageKey : Text := "cterm--programInput".toList
  /-- The folder that holds what is saved. -/
  dataFolder : Text := ".cterm".toList
  /-- Whether the terminal reports what it does. -/
  debug : Bool := false
  deriving DecidableEq, Repr

namespace Settings

instance : Inhabited Settings := ⟨{}⟩

/-- The least and the largest number of columns. -/
def columnRange : Nat × Nat := (30, 100)

/-- The least and the largest number of rows. -/
def rowRange : Nat × Nat := (15, 100)

/-- A rule for settings that can be broken. -/
inductive Breach
  | fewColumns | manyColumns | fewRows | manyRows | noJumps
  deriving DecidableEq, Repr

/-- What is said of a broken rule. -/
def Breach.text : Breach → Text
  | fewColumns => "Minimum of 30 columns.".toList
  | manyColumns => "Maximum of 100 columns.".toList
  | fewRows => "Minimum of 15 rows.".toList
  | manyRows => "Maximum of 100 rows.".toList
  | noJumps => "jump_budget must be at least 1.".toList

/-- The first rule that the settings break. -/
def breach? (s : Settings) : Option Breach :=
  if s.columns < columnRange.1 then some .fewColumns
  else if columnRange.2 < s.columns then some .manyColumns
  else if s.rows < rowRange.1 then some .fewRows
  else if rowRange.2 < s.rows then some .manyRows
  else if s.jumpBudget = 0 then some .noJumps
  else none

/-- The settings if they break no rule. -/
def check (s : Settings) : Except Fault Settings :=
  match s.breach? with
  | some b => .error (.settings b.text)
  | none => .ok s

/-- Settings break no rule exactly when the screen is within its ranges and a program may
jump. -/
theorem breach?_eq_none_iff (s : Settings) :
    s.breach? = none ↔
      (30 ≤ s.columns ∧ s.columns ≤ 100) ∧ (15 ≤ s.rows ∧ s.rows ≤ 100) ∧
        s.jumpBudget ≠ 0 := by
  simp only [breach?, columnRange, rowRange]
  grind

/-- Settings that are passed are as they were and break no rule. -/
theorem check_eq_ok_iff {s passed : Settings} :
    s.check = .ok passed ↔ passed = s ∧ s.breach? = none := by
  unfold check
  cases s.breach? with
  | some b => simp
  | none => simp [eq_comm]

end Settings

end Teletype
