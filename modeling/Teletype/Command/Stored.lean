/-
# Commands for the stored program

Listing, running and clearing the program, moving and deleting its lines, saving it under
an alias and using aliases, and writing its listing to the store.
-/
import Teletype.Command
import Teletype.Number

namespace Teletype

namespace Command

/-! ## Listing, running, clearing -/

/-- Print lines of a program and the mark at their end, and give the lines back. -/
def printListing (lines : List (LineNumber × Text)) : Act Output := do
  let listed := lines.map Program.entryText
  listed.forM fun line => Run.printLine line
  Run.printLine "End of Program.".toList
  pure (.text (listed.flatMap fun line => line ++ ['\n']))

/-- The bound of a listing that a word gives, or the one that holds without a word. -/
def listBound (word : Option Text) (missing : LineNumber) : Except Fault LineNumber :=
  match word with
  | none => .ok missing
  | some word =>
    match Number.readIndex word with
    | .ok n => .ok n
    | .error _ => .error (.malformed "LIST requires integer arguments.".toList)

/-- List the program, or a part of it. -/
def list : Command where
  page := { name := "LIST".toList, hints := ["start".toList, "end".toList],
            help := ("Lists the stored program, optionally only the lines from start to "
              ++ "end.").toList,
            forPrograms := true }
  perform host words := do
    let words ← host.expand words
    let first ← Act.ofExcept (listBound words[1]? 0)
    let last ← Act.ofExcept (listBound words[2]? (UInt64.ofNat (UInt64.size - 1)))
    printListing ((← Run.session).program.linesBetween first last)

/-- Run the program. -/
def run : Command where
  page := { name := "RUN".toList,
            help := "Executes the stored program from its lowest line number.".toList,
            forPrograms := true }
  perform host _ := do
    Act.ensureIdle
    host.runAndSave (← Run.session).program

/-- Clear the program. -/
def new : Command where
  page := { name := "NEW".toList, help := "Clears the stored program.".toList,
            forPrograms := true }
  perform _ _ := do
    Run.update fun s => { s with program := .empty }
    Run.printLine "Stored program cleared.".toList
    Run.save
    pure .none

/-! ## Aliases -/

/-- Save the program under an alias. -/
def save : Command where
  page := { name := "SAVE".toList, hints := ["name".toList],
            help := ("Saves the stored program as an alias that runs it when its name is "
              ++ "entered.").toList,
            forPrograms := true }
  perform host words := do
    Act.ensureIdle
    match ← host.expand words with
    | [_, name] =>
      let name := Text.upper name
      if (host.manual.page? name).isSome then
        throw (.refused
          "Cannot SAVE an alias with the same name as built in command.".toList)
      else
        Run.update fun s => { s with aliases := s.aliases.insert name s.program }
        Run.save
        pure .none
    | _ => throw (.malformed "SAVE requires one argument.".toList)

/-- List the aliases. -/
def listAliases : Act Output := do
  let names := (← Run.session).aliases.keys
  if names = [] then Run.printLine "No available aliases yet".toList
  else
    Run.printLine "Available aliases:".toList
    names.forM fun name => Run.printLine name
  pure .none

/-- What can be done with an alias, besides running it. -/
inductive AliasAction
  | delete | list | fetch
  deriving DecidableEq, Repr

namespace AliasAction

/-- Every action, in the order in which they are looked for. -/
def all : List AliasAction := [delete, list, fetch]

/-- The name of the action. -/
def name : AliasAction → Text
  | delete => "delete".toList
  | list => "list".toList
  | fetch => "recall".toList

/-- The letter of the flag for the action. -/
def letter : AliasAction → Char
  | delete => 'D'
  | list => 'L'
  | fetch => 'R'

/-- What is said of a missing alias. -/
def missingText : AliasAction → Text
  | delete => "; nothing deleted".toList
  | list => []
  | fetch => "; nothing recalled".toList

/-- The action that sorted words ask for. -/
def ofParsed? (p : Flags.Parsed) : Option AliasAction := all.find? fun a => p.wants a.name a.letter

end AliasAction

/-- Carry out an action on an alias and its program. -/
def AliasAction.perform (name : Text) (program : Program) : AliasAction → Act Output
  | delete => do
    Run.update fun s => { s with aliases := s.aliases.erase name }
    Run.save
    Run.printLine ("Alias ".toList ++ name ++ " deleted.".toList)
    pure .none
  | fetch => do
    Run.update fun s => { s with program := program }
    Run.save
    Run.printLine ("Alias ".toList ++ name ++ " recalled.".toList)
    pure .none
  | list => printListing program.entries

/-- Complete the name of an alias. -/
def completeAlias (session : Session) (words : List Text) : Option Text :=
  let parsed := Flags.parse .standard {} words
  let start := Text.upper parsed.name
  (only? (session.aliases.keys.filter fun name => start.isPrefixOf name)).map fun name =>
    Text.unwords (words.take parsed.start) ++ ' ' :: name

/-- List, recall, delete, show or run aliases. -/
def aliases : Command where
  page := { name := "ALIAS".toList, hints := ["action".toList, "name".toList],
            help := ("Lists, recalls, deletes or runs saved aliases. Actions: -L list, -R "
              ++ "recall into the stored program, -D delete.").toList,
            forPrograms := true }
  complete _ session words := completeAlias session words
  perform host words := do
    if words.length < 2 then listAliases
    else do
      let parsed ← host.parse .standard {} words
      let name := Text.upper parsed.name
      let program? := (← Run.session).aliases.get? name
      match AliasAction.ofParsed? parsed with
      | none =>
        match program? with
        | some program => host.runAndSave program
        | none => listAliases
      | some action =>
        if name = [] then
          Run.printLine "Alias name required.".toList
          pure .none
        else match program? with
          | some program => action.perform name program
          | none =>
            Run.printLine ("Alias ".toList ++ name ++ " does not exist".toList
              ++ action.missingText ++ ['.'])
            pure .none

/-! ## Lines -/

/-- Read two line numbers; a word that is no index is a worse fault than a negative
number. -/
def readMove (source target : Text) : Except Fault (LineNumber × LineNumber) :=
  match Number.readIndex source, Number.readIndex target with
  | .ok n, .ok m => .ok (n, m)
  | .error .other, _ | _, .error .other =>
    .error (.malformed "MOVE command requires two integer arguments.".toList)
  | _, _ => .error (.malformed "MOVE arguments cannot be less than 0.".toList)

/-- Move a line of the program. -/
def move : Command where
  page := { name := "MOVE".toList, hints := ["from".toList, "to".toList],
            help := ("Moves a stored program line to a new line number, replacing any line "
              ++ "already there.").toList,
            forPrograms := true }
  perform host words := do
    Act.ensureIdle
    match ← host.expand words with
    | [_, source, target] =>
      let (source, target) ← Act.ofExcept (readMove source target)
      match (← Run.session).program.moveLine? source target with
      | none =>
        throw (.refused ("Line ".toList ++ source.text
          ++ " does not exist; nothing moved.".toList))
      | some (text, program) =>
        Run.update fun s => { s with program }
        Run.save
        say (Program.entryText (target, text))
    | _ => throw (.malformed "MOVE requires two arguments.".toList)

/-- Read the number of a line to delete. -/
def readDelete (word : Text) : Except Fault LineNumber :=
  match Number.readIndex word with
  | .ok n => .ok n
  | .error .negative => .error (.malformed "DELETE argument cannot be less than 0.".toList)
  | .error .other =>
    .error (.malformed "DELETE command requires one integer argument.".toList)

/-- Delete a line of the program. -/
def delete : Command where
  page := { name := "DELETE".toList, hints := ["line".toList],
            help := "Removes a line from the stored program.".toList,
            forPrograms := true }
  perform host words := do
    Act.ensureIdle
    match ← host.expand words with
    | [_, word] =>
      let n ← Act.ofExcept (readDelete word)
      match (← Run.session).program.line? n with
      | none =>
        throw (.refused ("Line ".toList ++ n.text
          ++ " does not exist; nothing deleted.".toList))
      | some text =>
        Run.update fun s => { s with program := s.program.erase n }
        Run.save
        say (Program.entryText (n, text))
    | _ => throw (.malformed "DELETE requires one argument.".toList)

/-! ## Writing the listing to the store -/

/-- The key under which a listing is written if none is given. -/
def listingKey : Text := "terminal-program".toList

/-- Write the listing to the store as a string. -/
def download : Command where
  page := { name := "DOWNLOAD".toList, hints := ["file".toList],
            help := ("Exports the stored program listing as a JSON string to the given file "
              ++ "(default terminal-program).").toList }
  perform host words := do
    let words ← host.expand words
    let key := words.getD 1 listingKey
    let listing := (← Run.session).program.listing.flatMap fun line => line ++ ['\n']
    Act.saveUnder key (Json.quote listing)
    Run.printLine ("Program saved to ".toList ++ key ++ ['.'])
    pure (.text listing)

end Command

end Teletype
