/-
# Volumes

The files and folders below one outermost folder, and what texts name among them.  A text
names a path step by step, from the outermost folder or from the folder that a program
works in: one dot stays, two dots lead one step back, and every other step leads to what
has its name.  A step from what is no folder leads nowhere.  The main statement is that
steps may be taken one row after another.
-/
import Teletype.Store.Folder
import Teletype.Volume.Tree

namespace Teletype

/-- Files and folders below one outermost folder. -/
structure Volume where
  /-- The outermost folder. -/
  tree : Tree

namespace Volume

/-! ## Texts of paths -/

/-- The path of the folder that a program works in.  Its name is empty, so no text names
it. -/
def home : Path := [[]]

/-- A volume with nothing but the folder that a program works in. -/
def empty : Volume := ⟨Tree.empty.put home .empty⟩

/-- The largest number of bytes of a text that names a path. -/
def textLimit : Nat := 4095

/-- The text may name a path: it has no null character and is not too long. -/
def isPathText (t : Text) : Bool := !t.contains '\x00' && Text.byteSize t ≤ textLimit

/-- The steps that a text names.  Steps of no characters do not count. -/
def stepsOf (t : Text) : List Text := (Text.cut '/' t).filter (· ≠ [])

/-- The text ends in a slash, so that what it names has to be a folder. -/
def endsOpen (t : Text) : Bool := t.getLast? = some '/'

/-- The path that the steps of a text start from. -/
def startOf (t : Text) : Path := if t.head? = some '/' then [] else home

/-! ## Following steps -/

/-- What to do about a step to a name that nothing has. -/
inductive Missing
  /-- Go no further. -/
  | refuse
  /-- Make a folder with the name. -/
  | make
  deriving DecidableEq, Repr

/-- Take steps from a path on.  The result is the tree with the folders that were made, and
the path that the steps lead to. -/
def follow (missing : Missing) (tree : Tree) : Path → List Text → Except Refusal (Tree × Path)
  | here, [] => .ok (tree, here)
  | here, step :: rest =>
    match tree.find? here with
    | none => .error .missing
    | some (.file _) => .error .blocked
    | some (.folder members) =>
      if step = Place.ownName then follow missing tree here rest
      else if step = Place.outerName then follow missing tree here.dropLast rest
      else if nameLimit < Text.byteSize step then .error .badName
      else if (members.lookup step).isSome then follow missing tree (here ++ [step]) rest
      else match missing with
        | .refuse => .error .missing
        | .make => follow missing (tree.put (here ++ [step]) .empty) (here ++ [step]) rest

/-- **Steps in two rows lead where the second row leads from the end of the first**, so none
leads back from what is not there. -/
theorem follow_append (missing : Missing) (tree : Tree) (here : Path) (steps more : List Text) :
    follow missing tree here (steps ++ more)
      = (follow missing tree here steps).bind fun led => follow missing led.1 led.2 more := by
  induction steps generalizing tree here with
  | nil => rfl
  | cons step rest ih =>
    simp only [List.cons_append, follow]
    cases tree.find? here with
    | none => rfl
    | some there =>
      cases there with
      | file bytes => rfl
      | folder members =>
        -- a step is taken alike on both sides, whatever is behind it
        simp only [ih]
        repeat' split
        all_goals rfl

/-- Steps that make no folders leave the tree. -/
theorem follow_refuse {tree after : Tree} {here path : Path} {steps : List Text}
    (h : follow .refuse tree here steps = .ok (after, path)) : after = tree := by
  induction steps generalizing here with
  | nil =>
    cases h
    rfl
  | cons step rest ih =>
    simp only [follow] at h
    repeat' split at h
    all_goals first | exact ih h | cases h

/-- The path that a text names. -/
def locate (v : Volume) (t : Text) : Except Refusal Path :=
  if t = [] then .error .missing
  else if !isPathText t then .error .badName
  else
    let steps := stepsOf t ++ if endsOpen t then [Place.ownName] else []
    (follow .refuse v.tree (startOf t) steps).map (·.2)

/-- The path of the folder that a text names.  The empty text names the folder that a
program works in. -/
def locateFolder (v : Volume) (t : Text) : Except Refusal Path :=
  if t = [] then .ok home
  else do
    let path ← v.locate t
    match v.tree.find? path with
    | some (.folder _) => pure path
    | _ => .error .blocked

/-- Make the folders that are missing on the way to the folder that a text names, and that
folder unless the text ends in a dot.  It has to be there in the end. -/
def makeFolders (v : Volume) (t : Text) : Except Refusal Volume :=
  if !isPathText t then .error .badName
  else do
    let steps := (stepsOf t).filter (· ≠ Place.ownName)
    let made := if (stepsOf t).getLast? = some Place.ownName then steps.dropLast else steps
    let (tree, _) ← follow .make v.tree (startOf t) made
    let _ ← locateFolder ⟨tree⟩ t
    pure ⟨tree⟩

/-! ## What texts name -/

/-- What stands at the root of a tree. -/
def entryOf : Tree → Entry
  | .file bytes => .file bytes
  | .folder _ => .folder

/-- What stands at the path that a text names. -/
def find? (v : Volume) (t : Text) : Option Entry :=
  match v.locate t with
  | .error _ => none
  | .ok path => (v.tree.find? path).map entryOf

/-- The members of the folder at a path. -/
def membersAt (v : Volume) (path : Path) : List (Text × Tree) :=
  match v.tree.find? path with
  | some (.folder members) => members
  | _ => []

/-- The largest number of bytes of the name of a file in the folder that a text names: the
text, a slash and the name have to be a text that may name a path. -/
def roomIn (t : Text) : Nat :=
  min nameLimit (textLimit - Text.byteSize t - if t = [] ∨ endsOpen t then 0 else 1)

/-- The place that a text names, as it is found. -/
def place (v : Volume) (t : Text) : Place where
  site := match v.locateFolder t with
    | .ok path => .folder (.ofList ((v.membersAt path).map fun m => (m.1, entryOf m.2)))
    | .error .missing => .absent
    | .error _ => .blocked
  room := roomIn t

/-- The place that a text names, once the folders that are missing are made. -/
def madePlace (v : Volume) (t : Text) : Place :=
  match v.makeFolders t with
  | .ok made => made.place t
  | .error _ => { site := .blocked }

/-! ## Changes -/

/-- Put a file at the path that a text names, with the folders that lead there. -/
def putFile (v : Volume) (t : Text) (bytes : ByteArray) : Volume :=
  match (stepsOf t).getLast?, follow .make v.tree (startOf t) (stepsOf t).dropLast with
  | some name, .ok (tree, path) => ⟨tree.put (path ++ [name]) (.file bytes)⟩
  | _, _ => v

/-- The tree of an entry; a folder keeps what stood below it. -/
def treeOf (old : List (Text × Tree)) (name : Text) : Entry → Tree
  | .file bytes => .file bytes
  | .folder => (old.lookup name).getD .empty

/-- Put a place back where a text names it, with the folders that lead there. -/
def putPlace (v : Volume) (t : Text) (p : Place) : Volume :=
  match p.site, v.makeFolders t with
  | .folder entries, .ok made =>
    match made.locateFolder t with
    | .ok path =>
      let old := made.membersAt path
      let members := entries.entries.map fun e => (e.1, treeOf old e.1 e.2)
      ⟨made.tree.put path (.folder members)⟩
    | .error _ => v
  | _, _ => v

/-- The files below the folder that a program works in, with their paths from there. -/
def files (v : Volume) : List (Path × ByteArray) :=
  match v.tree.find? home with
  | some t => t.files
  | none => []

end Volume

end Teletype
