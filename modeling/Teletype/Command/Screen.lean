/-
# Commands for the screen

Printing, the manual, clearing the screen, colors and themes, the cursor, and what the
terminal can tell about itself.
-/
import Teletype.Command
import Teletype.Layout
import Teletype.Number

namespace Teletype

namespace Command

/-! ## Printing -/

/-- Print the words as a line. -/
def print : Command where
  page := { name := "PRINT".toList, hints := ["text".toList],
            help := "Prints text to the terminal.".toList }
  perform host words := do
    let words ← host.expand words
    say (Text.unwords (words.drop 1))

/-! ## The manual -/

/-- What stands below the list of all commands. -/
def generalHelp : Text := Text.unlines
  ["You can also specify a line number and commands to add to the stored program.".toList,
    "For example:".toList,
    "  10 PRINT \"HELLO WORLD!\"".toList,
    "For more information on the stored program and aliases, type HELP PROGRAM".toList]

/-- What stands below the list of commands for the stored program. -/
def programHelp : Text := Text.unlines
  [("Specifying a line number followed by the command will update the stored program. "
    ++ "Lines will be executed in order from lowest to highest, ignoring missing line "
    ++ "numbers.").toList,
    "For example:".toList,
    "  10 PRINT \"HELLO WORLD!\"".toList,
    "  20 INPUT -U -P \"CONTINUE? (Y/N)\" USERIN".toList,
    "  30 IF (EQUALS $USERIN Y) THEN (GOTO 10)".toList,
    "  40 PRINT \"GOODBYE WORLD!\"".toList,
    "  RUN".toList,
    ("If you want to save the stored program, use the SAVE command. This will save the "
      ++ "program as an alias that can be called using the provided name.").toList,
    "For example: SAVE TESTPROG".toList]

/-- Print the names of the pages in a class as columns between a header and a trailer. -/
def listPages (host : Host) (header : Text) (listed : Page → Bool) (trailer : Text) :
    Act Output := do
  let names := (host.manual.entries.filter fun e => listed e.2).map Prod.fst
  let columns := Layout.columnize names (← get).console.grid.columns
  Run.printLine header
  Run.print columns
  Run.printLine trailer
  pure (.text (header ++ '\n' :: columns ++ trailer))

/-- What the manual says of a command when it is asked for under a name. -/
def pageText (name : Text) (page : Page) : Text :=
  page.help ++ '\n' ::
    if page.hints = [] then "There are no arguments for ".toList ++ name ++ ['.']
    else "Arguments for ".toList ++ name ++ " are: ".toList
      ++ List.intercalate ", ".toList page.hints ++ ['.']

/-- List the commands, or show the page of one. -/
def help : Command where
  page := { name := "HELP".toList, hints := ["cmd".toList],
            help := ("Lists the available commands, or describes one. HELP PROGRAM explains "
              ++ "the stored program.").toList }
  complete manual _ words :=
    match words with
    | [word, start] => (only? (manual.completions start)).map fun name => word ++ ' ' :: name
    | _ => none
  perform host words := do
    let words ← host.expand words
    match words[1]? with
    | none =>
      listPages host "Available commands are:".toList (fun page => !page.hidden) generalHelp
    | some topic =>
      let name := Text.upper topic
      match host.manual.page? name with
      | some page => say (pageText name page)
      | none =>
        if name = "PROGRAM".toList then
          listPages host "Available commands for use with the stored program are:".toList
            (fun page => page.forPrograms) programHelp
        else throw (.refused (unknownCommand topic))

/-! ## The screen -/

/-- Clear the screen; only the first of its names is listed. -/
def clearNamed (name : Text) (hidden : Bool) : Command where
  page := { name, help := "Clears the screen and homes the cursor.".toList, hidden }
  perform _ _ := do
    modify fun t => t.clear.moveTo .home
    pure (.text "[0,0]".toList)

/-- Set the color of text. -/
def color : Command where
  page := { name := "COLOR".toList, hints := ["color".toList],
            help := "Sets the text color: WHITE, RED, GREEN, BLUE, YELLOW or ORANGE.".toList }
  perform host words := do
    let words ← host.expand words
    let color ← Act.ofExcept (Color.read (words.getD 1 []))
    Run.update fun s => { s with display := { s.display with color } }
    pure .none

/-- Show or set the theme. -/
def theme : Command where
  page := { name := "THEME".toList, hints := ["theme".toList],
            help := "Shows or sets the terminal theme.".toList }
  perform host words := do
    let words ← host.expand words
    match words[1]? with
    | none =>
      let current := (← Run.session).display.theme
      Run.printLine ("Current theme is: ".toList ++ Text.upper current.name ++ ['.'])
      Run.printLine "Available themes are: DEFAULT, BLUE, GREEN, and AMBER".toList
      pure .none
    | some word =>
      let theme ← Act.ofExcept (Theme.read word)
      Run.update fun s => { s with display := { s.display with theme } }
      modify fun t => t.setTheme theme
      pure .none

/-- The text of a place on the screen. -/
def placeText (x y : Text) : Text := '[' :: x ++ ',' :: y ++ [']']

/-- Move the cursor to a place on the screen. -/
def setCursor : Command where
  page := { name := "SETCURSOR".toList, hints := ["x".toList, "y".toList],
            help := "Moves the cursor to column x, row y.".toList }
  perform host words := do
    match ← host.expand words with
    | [_, x, y] =>
      match Number.readIndex x, Number.readIndex y with
      | .ok x, .ok y =>
        let grid := (← get).console.grid
        let place : Cursor := ⟨x.toNat, y.toNat⟩
        if grid.Holds place then
          modify fun t => t.moveTo place
          pure (.text (placeText (LineNumber.text x) (LineNumber.text y)))
        else throw (.refused ("Cursor position must be within ".toList
          ++ Decimal.ofNat grid.columns ++ " columns and ".toList
          ++ Decimal.ofNat grid.rows ++ " rows.".toList))
      | _, _ => throw (.malformed "SETCURSOR requires integer arguments.".toList)
    | _ => throw (.malformed "SETCURSOR requires two arguments.".toList)

/-! ## The terminal about itself -/

/-- What the terminal can tell about itself. -/
inductive Parameter
  | rows | cols | x | y | status | debug | prompt | color | theme | version
  deriving DecidableEq, Repr

namespace Parameter

/-- Every parameter. -/
def all : List Parameter := [rows, cols, x, y, status, debug, prompt, color, theme, version]

/-- The name in capitals. -/
def name : Parameter → Text
  | rows => "ROWS".toList
  | cols => "COLS".toList
  | x => "X".toList
  | y => "Y".toList
  | status => "STATUS".toList
  | debug => "DEBUG".toList
  | prompt => "PROMPT".toList
  | color => "COLOR".toList
  | theme => "THEME".toList
  | version => "VERSION".toList

/-- The parameter with a name, in any case. -/
def ofWord? (word : Text) : Option Parameter := all.find? (·.name = Text.upper word)

/-- The text of a truth value. -/
def truth (b : Bool) : Text := if b then "TRUE".toList else "FALSE".toList

/-- The name and the version of the program. -/
def versionText : Text :=
  ("cterm-terminal - version 0.1.0\n  Command interpreter for cterm: tokenizer, evaluator, "
    ++ "flag parser, stored programs, command registry and builtins").toList

/-- What a terminal tells. -/
def read (t : Terminal) : Parameter → Text
  | rows => Decimal.ofNat t.console.grid.rows
  | cols => Decimal.ofNat t.console.grid.columns
  | x => Decimal.ofNat t.console.cursor.column
  | y => Decimal.ofNat t.console.cursor.row
  | status => Decimal.ofInt t.session.status
  | debug => truth t.session.display.debug
  | prompt => t.session.display.prompt
  | color => Text.upper t.session.display.color.name
  | theme => Text.upper t.session.display.theme.name
  | version => versionText

/-- No parameter is missing from the list. -/
theorem mem_all (p : Parameter) : p ∈ all := by cases p <;> decide

end Parameter

/-- Show a parameter, or list them. -/
def system : Command where
  page := { name := "SYSTEM".toList, hints := ["parameter".toList],
            help := ("Shows a terminal setting. SYSTEM LIST names the available "
              ++ "parameters.").toList }
  perform host words := do
    let words ← host.expand words
    let word := words.getD 1 "LIST".toList
    if Text.upper word = "LIST".toList then
      let names := Parameter.all.map Parameter.name
      Run.print (Layout.columnize names (← get).console.grid.columns)
      pure (.text (Text.join ',' names))
    else match Parameter.ofWord? word with
      | some parameter => say (parameter.read (← get))
      | none =>
        throw (.refused ("Invalid SYSTEM parameter: ".toList ++ word ++ ['.']))

end Command

end Teletype
