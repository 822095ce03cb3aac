/-
# Stores

A store keeps texts under keys, in memory or in a folder.  The folder holds one file for
each key, which is first written under another name and then put in place, so that no
file is ever half written.  Keys that could name a file elsewhere are refused by both;
in a folder nothing can be saved under a single dot either.
-/
import Teletype.Fault
import Teletype.Store.Folder

namespace Teletype

/-- Texts under keys. -/
inductive Store
  /-- They are held in memory. -/
  | memory (values : Table Text Text)
  /-- They are held in the files of a folder. -/
  | files (place : Place)
  deriving DecidableEq

namespace Store

/-! ## Keys -/

/-- Two dots stand side by side in the text. -/
def hasDotPair : Text → Bool
  | a :: b :: rest => (a = '.' && b = '.') || hasDotPair (b :: rest)
  | _ => false

/-- The key could lead out of a folder. -/
def leadsOut (key : Text) : Bool := key.contains '/' || key.contains '\\' || hasDotPair key

/-- Refuse a key that is empty or could lead out of a folder. -/
def checkKey (key : Text) : Except Fault Unit :=
  if key = [] then .error (.badKey "empty key".toList)
  else if leadsOut key then .error (.badKey ("invalid key: ".toList ++ key))
  else .ok ()

/-! ## Files -/

/-- The end of the name of a file that holds a value. -/
def extension : Text := ".json".toList

/-- The name of the file that holds the value of a key. -/
def fileName (key : Text) : Text := key ++ extension

/-- The name under which the value of a key is written first: the key with an ending of
its own.  The name of the folder around takes no ending, so that nothing can be saved
under the key that is a single dot. -/
def draftName (key : Text) : Text :=
  if key ++ ['.'] = Place.outerName then Place.outerName else key ++ ".tmp".toList

/-- The key whose value a file holds, going by its name. -/
def keyOfName? (name : Text) : Option Text :=
  if extension.isSuffixOf name ∧ extension.length < name.length then
    some (name.take (name.length - extension.length))
  else none

/-- The fault that a refused step on files is. -/
def refusal (r : Refusal) : Fault := .fileSystem r.text

/-- The text that the file of a key holds; a file that does not exist holds none. -/
def loadFile (p : Place) (key : Text) : Except Refusal (Option Text) :=
  match p.read (fileName key) with
  | .ok bytes =>
    match Text.ofBytes? bytes with
    | some t => .ok (some t)
    | none => .error .notText
  | .error .missing => .ok none
  | .error r => .error r

/-- Write the file of a key: make the folder, write a draft, and put it in place.  What
was done before a refused step stays done. -/
def saveFile (p : Place) (key value : Text) : Except Refusal Unit × Place :=
  match p.make with
  | .error r => (.error r, p)
  | .ok made =>
    match made.write (draftName key) (Text.bytes value) with
    | .error r => (.error r, made)
    | .ok drafted =>
      match drafted.rename (draftName key) (fileName key) with
      | .error r => (.error r, drafted)
      | .ok saved => (.ok (), saved)

/-- Take the file of a key away; there need not be one. -/
def removeFile (p : Place) (key : Text) : Except Refusal Unit × Place :=
  match p.remove (fileName key) with
  | .ok q => (.ok (), q)
  | .error .missing => (.ok (), p)
  | .error r => (.error r, p)

/-- The keys that have a file, in order. -/
def fileKeys (p : Place) : Except Refusal (List Text) :=
  match p.names with
  | .ok names => .ok (Table.ofList ((names.filterMap keyOfName?).map fun k => (k, ()))).keys
  | .error .missing => .ok []
  | .error r => .error r

/-! ## Reading and writing values -/

/-- The value of a key, if it has one. -/
def load (s : Store) (key : Text) : Except Fault (Option Text) :=
  match checkKey key with
  | .error e => .error e
  | .ok () =>
    match s with
    | memory values => .ok (values.get? key)
    | files place => (loadFile place key).mapError refusal

/-- Give a key a value. -/
def save (s : Store) (key value : Text) : Except Fault Unit × Store :=
  match checkKey key with
  | .error e => (.error e, s)
  | .ok () =>
    match s with
    | memory values => (.ok (), memory (values.insert key value))
    | files place =>
      let (result, place) := saveFile place key value
      (result.mapError refusal, files place)

/-- Take the value of a key away; it need not have one. -/
def remove (s : Store) (key : Text) : Except Fault Unit × Store :=
  match checkKey key with
  | .error e => (.error e, s)
  | .ok () =>
    match s with
    | memory values => (.ok (), memory (values.erase key))
    | files place =>
      let (result, place) := removeFile place key
      (result.mapError refusal, files place)

/-- The keys that have a value, in order. -/
def keys : Store → Except Fault (List Text)
  | memory values => .ok values.keys
  | files place => (fileKeys place).mapError refusal

/-- The key of a file's name is the key that the name was made from. -/
theorem keyOfName?_fileName {key : Text} (h : key ≠ []) : keyOfName? (fileName key) = some key := by
  have long : extension.length < (fileName key).length := by
    have := List.length_pos_iff.mpr h
    simp only [fileName, List.length_append]
    omega
  have ends : extension.isSuffixOf (fileName key) = true := by
    simp [fileName]
  rw [keyOfName?, if_pos ⟨ends, long⟩]
  simp [fileName]

/-- No key's draft has the name of a key's file. -/
theorem draftName_ne_fileName (key other : Text) : draftName key ≠ fileName other := by
  intro h
  have := congrArg List.getLast? h
  unfold draftName at this
  split at this <;> simp [Place.outerName, fileName, extension] at this

/-- Nothing is saved in a folder under a single dot, but the folder is made. -/
theorem saveFile_dot {p made : Place} (h : p.make = .ok made) (value : Text) :
    saveFile p ['.'] value = (.error .isFolder, made) := by
  have there : ∃ entries, made.site = .folder entries := by
    unfold Place.make at h
    split at h
    · cases h
      exact ⟨_, rfl⟩
    · cases h
    · next entries found =>
      cases h
      exact ⟨entries, found⟩
  obtain ⟨entries, found⟩ := there
  have refused : made.write (draftName ['.']) (Text.bytes value) = .error .isFolder := by
    simp [Place.write, Place.obstacle?, found, draftName, Place.outerName, Place.namesFolder]
  simp [saveFile, h, refused]

/-- A value that was saved in memory is loaded again. -/
theorem load_save_memory {values : Table Text Text} {key value : Text}
    (h : checkKey key = .ok ()) :
    ((memory values).save key value).2.load key = .ok (some value) := by
  simp [save, load, h]

end Store

end Teletype
