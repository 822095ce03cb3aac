/-
# Folders

A place in a file system where a folder may stand, and the steps by which files in it are
read and written.  A step that is refused changes nothing.  The main statements say what
is read after a file was written or put in the place of another.
-/
import Teletype.Table
import Teletype.Text.Encoding

namespace Teletype

/-- Arrays are equal if their bytes are. -/
instance decidableEqBytes : DecidableEq ByteArray := fun a b =>
  decidable_of_iff (a.data = b.data) ByteArray.ext_iff.symm

/-- What stands under a name in a folder. -/
inductive Entry
  /-- A file and its bytes. -/
  | file (bytes : ByteArray)
  /-- A folder. -/
  | folder
  deriving DecidableEq

/-- Why a step on files is refused. -/
inductive Refusal
  /-- Nothing stands under the name. -/
  | missing
  /-- A file stands where the folder should be. -/
  | blocked
  /-- A folder stands under the name of a file. -/
  | isFolder
  /-- The name cannot be the name of a file. -/
  | badName
  /-- The bytes of the file are no text. -/
  | notText
  deriving DecidableEq, Repr

/-- What is said of a refused step. -/
def Refusal.text : Refusal → Text
  | missing => "no such file or folder".toList
  | blocked => "not a folder".toList
  | isFolder => "is a folder".toList
  | badName => "not a file name".toList
  | notText => "not a text".toList

/-- What stands where a folder is wanted. -/
inductive Site
  /-- Nothing. -/
  | absent
  /-- What is no folder. -/
  | blocked
  /-- A folder with its entries. -/
  | folder (entries : Table Text Entry)
  deriving DecidableEq

/-- The largest number of bytes of a name. -/
def nameLimit : Nat := 255

/-- A place where a folder is wanted. -/
structure Place where
  /-- What stands there. -/
  site : Site
  /-- The largest number of bytes of the name of a file there. -/
  room : Nat := nameLimit
  deriving DecidableEq

namespace Place

/-- A place where nothing stands. -/
def absent : Place := { site := .absent }

/-- The name can be the name of a file: it has no null character and is not too long. -/
def allowsName (p : Place) (name : Text) : Bool :=
  !name.contains '\x00' && Text.byteSize name ≤ p.room

/-- The name of a folder in that folder. -/
def ownName : Text := ['.']

/-- The name that the folder around a folder has there. -/
def outerName : Text := ['.', '.']

/-- The name is no file's in any folder: the empty name and a dot are the folder itself,
and two dots are the folder around it. -/
def namesFolder (name : Text) : Bool := name = [] || name = ownName || name = outerName

/-- Why nothing can be done under a name at a place, if nothing can be. -/
def obstacle? (p : Place) (name : Text) : Option Refusal :=
  if name.contains '\x00' then some .badName
  else match p.site with
    | .absent => some .missing
    | .blocked => some .blocked
    | .folder _ =>
      if namesFolder name then some .isFolder
      else if p.allowsName name then none
      else some .badName

/-- What stands under a name. -/
def find? (p : Place) (name : Text) : Option Entry :=
  match p.site with
  | .folder entries => entries.get? name
  | _ => none

/-- The place with other entries, if there is a folder. -/
def change (p : Place) (f : Table Text Entry → Table Text Entry) : Place :=
  match p.site with
  | .folder entries => { p with site := .folder (f entries) }
  | _ => p

/-- Put an entry under a name. -/
def put (p : Place) (name : Text) (entry : Entry) : Place := p.change (·.insert name entry)

/-- Take away what stands under a name. -/
def drop (p : Place) (name : Text) : Place := p.change (·.erase name)

/-- Make the folder if nothing stands at the place. -/
def make (p : Place) : Except Refusal Place :=
  match p.site with
  | .absent => .ok { p with site := .folder .empty }
  | .blocked => .error .blocked
  | .folder _ => .ok p

/-- The bytes of a file. -/
def read (p : Place) (name : Text) : Except Refusal ByteArray :=
  match p.obstacle? name with
  | some r => .error r
  | none =>
    match p.find? name with
    | none => .error .missing
    | some .folder => .error .isFolder
    | some (.file bytes) => .ok bytes

/-- Write a file, over one with the same name. -/
def write (p : Place) (name : Text) (bytes : ByteArray) : Except Refusal Place :=
  match p.obstacle? name with
  | some r => .error r
  | none => if p.find? name = some .folder then .error .isFolder else .ok (p.put name (.file bytes))

/-- Give a file another name, in the place of a file that had it. -/
def rename (p : Place) (source target : Text) : Except Refusal Place := do
  let bytes ← p.read source
  (p.drop source).write target bytes

/-- Take a file away. -/
def remove (p : Place) (name : Text) : Except Refusal Place := do
  let _ ← p.read name
  pure (p.drop name)

/-- The names in the folder, in order. -/
def names (p : Place) : Except Refusal (List Text) :=
  match p.site with
  | .absent => .error .missing
  | .blocked => .error .blocked
  | .folder entries => .ok entries.keys

/-- Putting an entry under a name puts nothing in the way of any name. -/
theorem obstacle?_put (p : Place) (name other : Text) (entry : Entry) :
    (p.put name entry).obstacle? other = p.obstacle? other := by
  obtain ⟨site, room⟩ := p
  cases site <;> rfl

/-- Where nothing is in the way, an entry that was put under a name stands there. -/
theorem find?_put {p : Place} {name : Text} (free : p.obstacle? name = none) (entry : Entry)
    (other : Text) :
    (p.put name entry).find? other = if other = name then some entry else p.find? other := by
  obtain ⟨site, room⟩ := p
  cases site with
  | absent => simp only [obstacle?] at free; split at free <;> cases free
  | blocked => simp only [obstacle?] at free; split at free <;> cases free
  | folder entries => simp [put, change, find?, Table.get?_insert]

/-- **A file that was written is read back, and no other name is touched.** -/
theorem read_write {p q : Place} {name : Text} {bytes : ByteArray}
    (h : p.write name bytes = .ok q) (other : Text) :
    q.read other = if other = name then .ok bytes else p.read other := by
  unfold write at h
  split at h
  · cases h
  · next free =>
    split at h
    · cases h
    · cases h
      simp only [read, obstacle?_put, find?_put free]
      by_cases ho : other = name
      · simp [ho, free]
      · simp [ho]

end Place

end Teletype
