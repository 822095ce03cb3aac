/-
# The program

A terminal on the standard streams.  The first argument names the file of the settings.
Lines are read when the terminal asks for them, and what it saves is written to its folder
after every line.
-/
import Teletype.Shell

namespace Teletype

namespace Main

/-- What is read as a file, or else a folder. -/
def readAt (name : String) : IO Entry := do
  try
    return .file (← IO.FS.readBinFile name)
  catch _ => return .folder

/-- What stands under a name.  What cannot be read as a file counts as a folder. -/
def entryAt (name : String) : IO (Option Entry) := do
  try
    let path ← IO.FS.realPath name
    if ← path.pathExists then return some (← readAt name) else return none
  catch _ => return none

/-- The place where the folder of a store may stand.  Of its files only the one is read
that holds the value of a key. -/
def placeAt (name : String) (key : Text) : IO Place := do
  match ← entryAt name with
  | none => return .absent
  | some (.file _) => return { site := .blocked }
  | some .folder =>
    let file := Store.fileName key
    match ← entryAt (name ++ "/" ++ String.ofList file) with
    | none => return { site := .folder .empty }
    | some entry => return { site := .folder (Table.empty.insert file entry) }

/-- Write the bytes of a file.  One that holds the value of a key is first written under
the name of the key's draft, and then put in place; a draft that was left is only written. -/
def writeFile (name : String) (file : Text) (bytes : ByteArray) : IO Unit := do
  let pathOf := fun (file : Text) => name ++ "/" ++ String.ofList file
  match Store.keyOfName? file with
  | some key =>
    IO.FS.writeBinFile (pathOf (Store.draftName key)) bytes
    IO.FS.rename (pathOf (Store.draftName key)) (pathOf file)
  | none => IO.FS.writeBinFile (pathOf file) bytes

/-- Write what changed at a place. -/
def writePlace (name : String) (before after : Place) : IO Unit := do
  match after.site with
  | .folder entries =>
    IO.FS.createDirAll name
    for (file, entry) in entries.entries do
      if before.find? file ≠ some entry then
        match entry with
        | .file bytes => writeFile name file bytes
        | .folder => pure ()
  | _ => pure ()

/-- Write a text. -/
def write (out : IO.FS.Stream) (t : Text) : IO Unit := do
  out.putStr (String.ofList t)
  out.flush

/-- The bytes up to a line feed, which is kept, or up to the end of the input. -/
partial def readBytes (input : IO.FS.Stream) (sofar : ByteArray) : IO ByteArray := do
  let b ← input.read 1
  if b.size = 0 then return sofar
  let sofar := sofar ++ b
  if b.toList = [10] then return sofar else readBytes input sofar

/-- Take a turn, reading lines as they are asked for.  The second number counts what was
written already. -/
partial def takeTurn (input out : IO.FS.Stream) (t : Terminal) (known : List (Option Text))
    (sofar : Nat) : IO (Option (Bool × Terminal)) := do
  match Shell.turn t known with
  | none => return none
  | some (.over output goesOn t) =>
    write out (output.drop sofar)
    return some (goesOn, t)
  | some (.waiting output) =>
    write out (output.drop sofar)
    let bytes ← readBytes input .empty
    let line := if bytes.size = 0 then none else Text.ofBytes? bytes
    takeTurn input out t (known ++ [line]) output.length

/-- Take turns until the input is closed or a line asks to exit. -/
partial def takeTurns (input out : IO.FS.Stream) (folder : String) (t : Terminal) :
    IO (Option Int) := do
  match ← takeTurn input out t [] 0 with
  | none => return none
  | some (goesOn, after) =>
    try
      writePlace folder (Shell.placeOf t) (Shell.placeOf after)
    catch _ => pure ()
    if goesOn then takeTurns input out folder after else return some after.session.status

end Main

end Teletype

open Teletype in
/-- Run a terminal on the standard streams. -/
def main (args : List String) : IO UInt32 := do
  let file := args.headD (String.ofList Shell.settingsFile)
  match Settings.load (← Main.entryAt file) with
  | .error f =>
    (← IO.getStderr).putStrLn (String.ofList f.message)
    return UInt32.ofNat Shell.refusedCode
  | .ok settings =>
    let named := String.ofList settings.dataFolder
    let folder := if named.isEmpty then "." else named
    let seed ← IO.rand 0 (Nat.pow 2 62)
    let place ← Main.placeAt folder settings.storageKey
    let t := Shell.start settings place place ⟨UInt64.ofNat seed⟩ []
    match ← Main.takeTurns (← IO.getStdin) (← IO.getStdout) folder t with
    | none => return 134
    | some status => return UInt32.ofNat (Shell.exitCode status)
