/-
# Snapshots

The part of a session that survives a restart, and the document that it is saved as: an
object with the stored program, the variables and the programs under aliases, each of
them an object in turn.
-/
import Teletype.Json
import Teletype.Session

namespace Teletype

/-- What is saved of a session. -/
structure Snapshot where
  /-- The stored program. -/
  program : Program := .empty
  /-- The variables. -/
  bindings : Table Text Text := .empty
  /-- The programs under aliases. -/
  aliases : Table Text Program := .empty
  deriving DecidableEq

namespace Session

/-- What is saved of the session. -/
def snapshot (s : Session) : Snapshot := ⟨s.program, s.bindings, s.aliases⟩

/-- The session with what was saved put back. -/
def restore (s : Session) (saved : Snapshot) : Session :=
  { s with program := saved.program, bindings := saved.bindings, aliases := saved.aliases }

/-- What was put back is what would be saved. -/
theorem snapshot_restore (s : Session) (saved : Snapshot) : (s.restore saved).snapshot = saved :=
  rfl

end Session

namespace Snapshot

open Json (Letter)

/-! ## Writing -/

/-- The name of the field that holds the program. -/
def programField : Text := "input".toList

/-- The name of the field that holds the variables. -/
def bindingsField : Text := "variables".toList

/-- The name of the field that holds the aliases. -/
def aliasesField : Text := "aliases".toList

/-- A text as a value of a document. -/
def textJson (t : Text) : Json := .string (Json.letters t)

/-- A table as an object, given how its keys and values are written. -/
def tableJson {κ ν : Type} [Ord κ] (key : κ → Text) (value : ν → Json) (t : Table κ ν) : Json :=
  .object (t.entries.map fun e => (Json.letters (key e.1), value e.2))

/-- A program as an object. -/
def programJson (p : Program) : Json := tableJson LineNumber.text textJson p

/-- The document of a snapshot. -/
def toJson (s : Snapshot) : Json :=
  .object [(Json.letters programField, programJson s.program),
    (Json.letters bindingsField, tableJson id textJson s.bindings),
    (Json.letters aliasesField, tableJson id programJson s.aliases)]

/-- The text of the document of a snapshot. -/
def render (s : Snapshot) : Text := s.toJson.render

/-! ## Reading -/

/-- The text that a value is. -/
def textOf? : Json → Option Text
  | .string ls => Json.textOf? ls
  | _ => none

/-- The table that an object is, given how its keys and values are read.  A key that is
written twice has the last of its values. -/
def tableOf? {κ ν : Type} [Ord κ] [Std.TransOrd κ] (key? : List Letter → Option κ)
    (value? : Json → Option ν) : Json → Option (Table κ ν)
  | .object members =>
    (members.mapM fun (m : List Letter × Json) => do
      let key ← key? m.1
      let value ← value? m.2
      pure (key, value)).map Table.ofList
  | _ => none

/-- The character that a letter is if it is written as itself. -/
def plain? : Letter → Option Char
  | .plain c => some c
  | _ => none

/-- The line number whose decimal digits the letters are. -/
def lineNumber? (ls : List Letter) : Option LineNumber := do
  let digits ← ls.mapM plain?
  let n ← Decimal.toNat? digits
  if Decimal.ofNat n = digits ∧ n < UInt64.size then pure (UInt64.ofNat n) else none

/-- The program that an object is. -/
def programOf? (j : Json) : Option Program := tableOf? lineNumber? textOf? j

/-- The variables that an object is. -/
def bindingsOf? (j : Json) : Option (Table Text Text) := tableOf? Json.textOf? textOf? j

/-- The aliases that an object is. -/
def aliasesOf? (j : Json) : Option (Table Text Program) := tableOf? Json.textOf? programOf? j

/-- The table that a field holds; a missing field holds an empty one. -/
def orEmpty {κ ν : Type} [Ord κ] (read : Json → Option (Table κ ν)) :
    Option Json → Option (Table κ ν)
  | none => some .empty
  | some j => read j

/-- The snapshot whose fields are given, as far as they are. -/
def ofFields? (program bindings aliases : Option Json) : Option Snapshot := do
  let program ← orEmpty programOf? program
  let bindings ← orEmpty bindingsOf? bindings
  let aliases ← orEmpty aliasesOf? aliases
  pure { program, bindings, aliases }

/-- The fields of a snapshot, in the order of a list that stands for one. -/
def fieldNames : List Text := [programField, bindingsField, aliasesField]

/-- The snapshot that a value is: an object, in which other fields are ignored and no
field of a snapshot stands twice, or a list of the fields. -/
def ofJson? : Json → Option Snapshot
  | .object members => do
    let fields ← members.mapM fun m => (Json.textOf? m.1).map fun name => (name, m.2)
    let field? := fun name => (fields.find? fun f => f.1 = name).map Prod.snd
    if fieldNames.all fun name => fields.countP (fun f => f.1 = name) ≤ 1 then
      ofFields? (field? programField) (field? bindingsField) (field? aliasesField)
    else none
  | .array items =>
    if items.length ≤ fieldNames.length then ofFields? items[0]? items[1]? items[2]? else none
  | _ => none

/-- The snapshot whose document a text is. -/
def read? (t : Text) : Option Snapshot := (Json.parse? t).bind ofJson?

end Snapshot

end Teletype
