/-
# Colors and themes

The named text colors, and the themes of the console, some of which force a color.  A
name read back gives the color or theme that has it.
-/
import Teletype.Fault

namespace Teletype

/-- A color that text is printed in. -/
inductive Color
  | white | red | green | blue | yellow | orange
  deriving DecidableEq, Repr, Inhabited

namespace Color

/-- Every color. -/
def all : List Color := [white, red, green, blue, yellow, orange]

/-- The name in small letters. -/
def name : Color → Text
  | white => "white".toList
  | red => "red".toList
  | green => "green".toList
  | blue => "blue".toList
  | yellow => "yellow".toList
  | orange => "orange".toList

/-- Place of the color in the 256-color palette of a terminal. -/
def paletteIndex : Color → Nat
  | white => 15
  | red => 9
  | green => 10
  | blue => 12
  | yellow => 11
  | orange => 208

/-- The color with a name. -/
def ofName? (t : Text) : Option Color := all.find? (·.name = t)

/-- The color with a name, in any case. -/
def ofWord? (t : Text) : Option Color := ofName? (Text.lowerAscii t)

/-- Read the color that a word names. -/
def read (word : Text) : Except Fault Color :=
  match ofWord? word with
  | some c => .ok c
  | none => .error (.refused "Invalid color selection.".toList)

/-- No color is missing from the list. -/
theorem mem_all (c : Color) : c ∈ all := by cases c <;> decide

/-- A color's name is read back as the color. -/
theorem ofName?_name (c : Color) : ofName? c.name = some c := by cases c <;> decide

end Color

/-- A palette of the console. -/
inductive Theme
  | plain | blue | green | amber
  deriving DecidableEq, Repr, Inhabited

namespace Theme

/-- Every theme. -/
def all : List Theme := [plain, blue, green, amber]

/-- The name in small letters. -/
def name : Theme → Text
  | plain => "default".toList
  | blue => "blue".toList
  | green => "green".toList
  | amber => "amber".toList

/-- The text color that the theme forces, if it forces one. -/
def textColor : Theme → Option Color
  | plain => none
  | blue => some .blue
  | green => some .green
  | amber => some .orange

/-- The theme with a name. -/
def ofName? (t : Text) : Option Theme := all.find? (·.name = t)

/-- The theme with a name, in any case. -/
def ofWord? (t : Text) : Option Theme := ofName? (Text.lowerAscii t)

/-- Read the theme that a word names. -/
def read (word : Text) : Except Fault Theme :=
  match ofWord? word with
  | some t => .ok t
  | none => .error (.refused
      "Invalid theme selection, available themes are: DEFAULT, BLUE, GREEN, and AMBER".toList)

/-- No theme is missing from the list. -/
theorem mem_all (t : Theme) : t ∈ all := by cases t <;> decide

/-- A theme's name is read back as the theme. -/
theorem ofName?_name (t : Theme) : ofName? t.name = some t := by cases t <;> decide

end Theme

end Teletype
