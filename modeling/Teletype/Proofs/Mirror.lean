/-
# A folder mirrors the memory

A store in a folder is asked for the same things as a store in memory.  Where the folder did
not stand before and nobody else writes to it, its files are the values of the memory under
the names that their keys are given: these names differ, none of them leads out of the
folder, and the name of a draft is never one of them.  The main statements are that **a
request is answered alike and leaves folder and memory alike** (`Store.Mirrors.ask`), if
nothing is taken under a single dot, and that **requests one after the other are answered
alike exactly if none of them saves under a single dot** (`Store.answers_files`).
-/
import Teletype.Proofs.Storage

namespace Teletype

namespace Store

/-! ## Requests -/

/-- What a store is asked for. -/
inductive Request
  /-- Give a key a value. -/
  | save (key value : Text)
  /-- Give the value of a key back. -/
  | load (key : Text)
  /-- Take the value of a key away. -/
  | remove (key : Text)
  /-- List the keys. -/
  | keys
  deriving DecidableEq, Repr

/-- What a store answers. -/
inductive Answer
  /-- Something was done or refused. -/
  | done (result : Except Fault Unit)
  /-- The value of a key, if it has one. -/
  | value (result : Except Fault (Option Text))
  /-- The keys. -/
  | keys (result : Except Fault (List Text))

/-- What a store answers to a request, and the store behind it. -/
def ask (s : Store) : Request → Answer × Store
  | .save key value => (.done (s.save key value).1, (s.save key value).2)
  | .load key => (.value (s.load key), s)
  | .remove key => (.done (s.remove key).1, (s.remove key).2)
  | .keys => (.keys s.keys, s)

/-- What is answered to requests one after the other, and the store behind them, given how one
request is answered. -/
def serve (step : Store → Request → Answer × Store) : Store → List Request → List Answer × Store
  | s, [] => ([], s)
  | s, r :: rest =>
    ((step s r).1 :: (serve step (step s r).2 rest).1, (serve step (step s r).2 rest).2)

/-- What a store answers to requests one after the other. -/
def answers (s : Store) (rs : List Request) : List Answer := (serve ask s rs).1

/-- Something is to be saved under a single dot. -/
def Request.SavesDot : Request → Prop
  | save key _ => key = ['.']
  | _ => False

instance : DecidablePred Request.SavesDot := fun r =>
  match r with
  | .save key _ => inferInstanceAs (Decidable (key = ['.']))
  | .load _ | .remove _ | .keys => .isFalse id

/-- What a store answers that takes nothing under a single dot. -/
def askDotless (s : Store) (r : Request) : Answer × Store :=
  if r.SavesDot then (.done (.error (refusal .isFolder)), s) else s.ask r

/-- What is saved under a single dot is refused. -/
theorem askDotless_dot {s : Store} {r : Request} (h : r.SavesDot) :
    askDotless s r = (.done (.error (refusal .isFolder)), s) := if_pos h

/-- Any other request is answered. -/
theorem askDotless_of_not {s : Store} {r : Request} (h : ¬ r.SavesDot) :
    askDotless s r = s.ask r := if_neg h

/-- The file of a key has a name that is short enough and has no null character. -/
def Fits (room : Nat) (key : Text) : Prop :=
  '\x00' ∉ key ∧ Text.byteSize (fileName key) ≤ room

/-- If the key of the request is not refused, its file has a name that a file can have. -/
def Request.Fits (room : Nat) : Request → Prop
  | save key _ | load key | remove key => checkKey key = .ok () → Store.Fits room key
  | keys => True

/-! ## Names -/

variable {room : Nat} {key name value : Text} {p : Place} {values : Table Text Text}

/-- A key that is not refused has characters, and no slash and no two dots side by side. -/
theorem checkKey_eq_ok_iff :
    checkKey key = .ok () ↔ key ≠ [] ∧ '/' ∉ key ∧ '\\' ∉ key ∧ hasDotPair key = false := by
  unfold checkKey
  by_cases nothing : key = []
  · simp [nothing]
  · rw [if_neg nothing]
    by_cases leads : leadsOut key = true
    · rw [if_pos leads]
      constructor
      · intro h
        cases h
      · rintro ⟨-, slash, backslash, pair⟩
        simp [leadsOut, slash, backslash, pair] at leads
    · rw [if_neg leads]
      simpa [leadsOut, nothing, and_assoc] using leads

instance : Decidable (checkKey key = .ok ()) := decidable_of_iff _ checkKey_eq_ok_iff.symm

instance : Decidable (Fits room key) := inferInstanceAs (Decidable (_ ∧ _))

instance : DecidablePred (Request.Fits room) := fun r =>
  match r with
  | .save key _ | .load key | .remove key =>
    inferInstanceAs (Decidable (checkKey key = .ok () → Store.Fits room key))
  | .keys => .isTrue trivial

/-- The key that a file name belongs to is the one that it was made from. -/
theorem keyOfName?_eq_some_iff : keyOfName? name = some key ↔ key ≠ [] ∧ name = fileName key := by
  constructor
  · intro h
    unfold keyOfName? at h
    split at h
    · next ends =>
      obtain ⟨front, rfl⟩ := List.isSuffixOf_iff_suffix.mp ends.1
      have whole : key = front := by simpa using h.symm
      subst whole
      refine ⟨fun nothing => ?_, rfl⟩
      have long := ends.2
      rw [nothing, List.nil_append] at long
      exact Nat.lt_irrefl _ long
    · cases h
  · rintro ⟨hk, rfl⟩
    exact keyOfName?_fileName hk

/-- Where a name is not that of a key's file, it belongs to another key. -/
theorem compare_ne_of_name {other : Text} (hn : name ≠ fileName key)
    (ho : keyOfName? name = some other) : compare other key ≠ .eq := by
  intro same
  apply hn
  rw [(keyOfName?_eq_some_iff.mp ho).2, Std.LawfulEqOrd.eq_of_compare same]

/-- The draft of a key is a file of the folder unless the key is a single dot. -/
theorem draftName_of_ne (h : key ≠ ['.']) : draftName key = key ++ ".tmp".toList := by
  refine if_neg fun outer => h ?_
  have same : key ++ ['.'] = ['.'] ++ ['.'] := outer
  exact List.append_cancel_right same

/-- **A draft is never taken for the file of a key.** -/
theorem keyOfName?_draftName (key : Text) : keyOfName? (draftName key) = none := by
  rw [Option.eq_none_iff_forall_ne_some]
  intro other h
  exact draftName_ne_fileName key other (keyOfName?_eq_some_iff.mp h).2

/-- A name that does not end in a dot is that of no folder. -/
theorem namesFolder_of_last {c : Char} (h : name.getLast? = some c) (hc : c ≠ '.') :
    Place.namesFolder name = false := by
  have other : ∀ folder : Text, folder.getLast? ≠ some c → name ≠ folder := by
    rintro folder last rfl
    exact last h
  have nothing : name ≠ [] := other [] nofun
  have own : name ≠ Place.ownName := other _ fun last => hc (Option.some.inj last).symm
  have outer : name ≠ Place.outerName := other _ fun last => hc (Option.some.inj last).symm
  simp only [Place.namesFolder, nothing, own, outer, decide_false, Bool.or_self]

/-- The name of a key's file is that of no folder. -/
theorem namesFolder_fileName (key : Text) : Place.namesFolder (fileName key) = false :=
  namesFolder_of_last (c := 'n') (by simp [fileName, extension]) (by decide)

/-- Neither is the name of a draft, unless the key is a single dot. -/
theorem namesFolder_draftName (h : key ≠ ['.']) : Place.namesFolder (draftName key) = false :=
  namesFolder_of_last (c := 'p') (by simp [draftName_of_ne h]) (by decide)

/-- The names of a key's file and of its draft can be names of files if the key fits. -/
theorem Fits.allowsName (h : Fits room key) (hr : p.room = room) :
    p.allowsName (fileName key) = true ∧ (key ≠ ['.'] → p.allowsName (draftName key) = true) := by
  obtain ⟨null, short⟩ := h
  have four : Text.byteSize ".tmp".toList = 4 := by decide
  have five : Text.byteSize extension = 5 := by decide
  constructor
  · simp only [Place.allowsName, fileName, extension, hr]
    simpa [null, fileName, extension] using short
  · intro hd
    rw [fileName, Text.byteSize_append, five] at short
    have shorter : Text.byteSize (key ++ ".tmp".toList) ≤ room := by
      rw [Text.byteSize_append, four]
      omega
    rw [draftName_of_ne hd]
    simpa [Place.allowsName, null, hr] using shorter

/-! ## Folders that mirror values -/

/-- What stands under a name where the files of values stand. -/
def fileOf (values : Table Text Text) (name : Text) : Option Entry :=
  (keyOfName? name).bind fun key => (values.get? key).map fun value => .file (Text.bytes value)

/-- The file of a key holds its value. -/
theorem fileOf_fileName (values : Table Text Text) (hk : key ≠ []) :
    fileOf values (fileName key)
      = (values.get? key).map fun value => .file (Text.bytes value) := by
  rw [fileOf, keyOfName?_fileName hk, Option.bind_some]

/-- What stands there is the file of a key with a value. -/
theorem fileOf_eq_some_iff {values : Table Text Text} {entry : Entry} :
    fileOf values name = some entry ↔ ∃ key value, key ≠ [] ∧ name = fileName key ∧
      values.get? key = some value ∧ entry = .file (Text.bytes value) := by
  simp only [fileOf, Option.bind_eq_some_iff, Option.map_eq_some_iff, keyOfName?_eq_some_iff]
  constructor
  · rintro ⟨key, ⟨hk, hn⟩, value, hv, rfl⟩
    exact ⟨key, value, hk, hn, hv, rfl⟩
  · rintro ⟨key, value, hk, hn, hv, rfl⟩
    exact ⟨key, ⟨hk, hn⟩, value, hv, rfl⟩

/-- No draft stands among the files of values. -/
theorem fileOf_draftName (values : Table Text Text) (key : Text) :
    fileOf values (draftName key) = none := by
  rw [fileOf, keyOfName?_draftName, Option.bind_none]

/-- **A value that a key is given changes its file and no other.** -/
theorem fileOf_insert (values : Table Text Text) (hk : key ≠ []) (value name : Text) :
    fileOf (values.insert key value) name
      = if name = fileName key then some (.file (Text.bytes value)) else fileOf values name := by
  by_cases hn : name = fileName key
  · rw [if_pos hn, hn, fileOf_fileName _ hk, Table.get?_insert_self, Option.map_some]
  · rw [if_neg hn, fileOf, fileOf]
    cases ho : keyOfName? name with
    | none => rfl
    | some other =>
      rw [Option.bind_some, Option.bind_some, Table.get?_insert, if_neg (compare_ne_of_name hn ho)]

/-- **A value that is taken away from a key takes its file away and no other.** -/
theorem fileOf_erase (values : Table Text Text) (hk : key ≠ []) (name : Text) :
    fileOf (values.erase key) name
      = if name = fileName key then none else fileOf values name := by
  by_cases hn : name = fileName key
  · rw [if_pos hn, hn, fileOf_fileName _ hk, Table.get?_erase_self, Option.map_none]
  · rw [if_neg hn, fileOf, fileOf]
    cases ho : keyOfName? name with
    | none => rfl
    | some other =>
      rw [Option.bind_some, Option.bind_some, Table.get?_erase, if_neg (compare_ne_of_name hn ho)]

/-- In the place stand the files of values and nothing else.  The folder need not stand there
if there are no values. -/
structure Mirrors (room : Nat) (p : Place) (values : Table Text Text) : Prop where
  /-- The room for names. -/
  room : p.room = room
  /-- Nothing but the folder stands at the place. -/
  free : p.site ≠ .blocked
  /-- The files are those of the values. -/
  found (name : Text) : p.find? name = fileOf values name
  /-- The keys of the values are not refused. -/
  accepted (key : Text) (value : Text) : values.get? key = some value → checkKey key = .ok ()

namespace Mirrors

/-- At first there is neither a folder nor a value. -/
theorem start (room : Nat) : Mirrors room { site := .absent, room } .empty where
  room := rfl
  free := nofun
  found name := by
    rw [fileOf]
    cases keyOfName? name <;> rfl
  accepted _ _ h := nomatch h

variable (h : Mirrors room p values)

include h

/-- What is read under the name of a key's file is the value of the key. -/
theorem read_fileName (hk : key ≠ []) (fits : Fits room key) :
    p.read (fileName key) = match values.get? key with
      | some value => .ok (Text.bytes value)
      | none => .error .missing := by
  have found := h.found (fileName key)
  rw [fileOf_fileName values hk] at found
  rcases hs : p.site with _ | _ | entries
  · -- where there is no folder, there is no value
    have nothing : p.find? (fileName key) = none := by rw [Place.find?, hs]
    have null : ¬ (fileName key).contains '\x00' = true := by
      simp [fileName, extension, fits.1]
    have missing : p.obstacle? (fileName key) = some .missing := by
      rw [Place.obstacle?, if_neg null, hs]
    rw [nothing] at found
    rw [Place.read, missing, Option.map_eq_none_iff.mp found.symm]
  · exact absurd hs h.free
  · rw [Place.read, Place.obstacle?_eq_none hs (namesFolder_fileName key)
      (fits.allowsName h.room).1, found]
    cases values.get? key <;> rfl

/-- **The value of a key is loaded from its file.** -/
theorem loadFile_eq (hk : key ≠ []) (fits : Fits room key) :
    loadFile p key = .ok (values.get? key) := by
  rw [loadFile, h.read_fileName hk fits]
  cases values.get? key with
  | none => rfl
  | some value => simp only [Text.ofBytes?_bytes]

/-- **A value is taken away with its file.** -/
theorem removeFile_eq (hk : key ≠ []) (fits : Fits room key) :
    ∃ q, removeFile p key = (.ok (), q) ∧ Mirrors room q (values.erase key) := by
  have gone : ∀ other value, (values.erase key).get? other = some value →
      checkKey other = .ok () := by
    intro other value found
    rw [Table.get?_erase] at found
    split at found
    · cases found
    · exact h.accepted other value found
  have read := h.read_fileName hk fits
  cases hv : values.get? key with
  | none =>
    rw [hv] at read
    have removed : removeFile p key = (.ok (), p) := by
      rw [removeFile, Place.remove, read]
      rfl
    refine ⟨p, removed, h.room, h.free, fun name => ?_, gone⟩
    rw [fileOf_erase values hk, h.found]
    split
    · next hn => rw [hn, fileOf_fileName values hk, hv, Option.map_none]
    · rfl
  | some value =>
    rw [hv] at read
    have removed : removeFile p key = (.ok (), p.drop (fileName key)) := by
      rw [removeFile, Place.remove, read]
      rfl
    obtain ⟨room, site⟩ := p.change_same fun entries => entries.erase (fileName key)
    refine ⟨p.drop (fileName key), removed, room.trans h.room, fun blocked => ?_, fun name => ?_,
      gone⟩
    · exact h.free (site.mp blocked)
    · rw [Place.find?_drop (Place.obstacle?_of_read read), fileOf_erase values hk, h.found]

/-- The folder is made if it does not stand there. -/
theorem make : ∃ made entries, p.make = .ok made ∧ made.site = .folder entries ∧
    Mirrors room made values := by
  rcases hs : p.site with _ | _ | entries
  · refine ⟨{ p with site := .folder .empty }, .empty, ?_, rfl, h.room, nofun, fun name => ?_,
      h.accepted⟩
    · rw [Place.make, hs]
    · rw [← h.found, Place.find?, Place.find?, hs]
      rfl
  · exact absurd hs h.free
  · exact ⟨p, entries, by rw [Place.make, hs], hs, h⟩

/-- **A value is saved in the file of its key**, and its draft is gone. -/
theorem saveFile_eq (hc : checkKey key = .ok ()) (fits : Fits room key) (hd : key ≠ ['.'])
    (value : Text) :
    ∃ q, saveFile p key value = (.ok (), q) ∧ Mirrors room q (values.insert key value) := by
  have hk : key ≠ [] := (checkKey_eq_ok_iff.mp hc).1
  obtain ⟨made, entries, hm, there, h⟩ := h.make
  obtain ⟨file, draft⟩ := fits.allowsName h.room
  -- no folder stands under either name, as none is a file of the values
  have noFolder : ∀ name, made.find? name ≠ some .folder := by
    intro name found
    obtain ⟨_, _, -, -, -, impossible⟩ := fileOf_eq_some_iff.mp ((h.found name).symm.trans found)
    cases impossible
  have takesDraft : made.Takes (draftName key) :=
    ⟨Place.obstacle?_eq_none there (namesFolder_draftName hd) (draft hd), noFolder _⟩
  have takesFile : made.Takes (fileName key) :=
    ⟨Place.obstacle?_eq_none there (namesFolder_fileName key) file, noFolder _⟩
  obtain ⟨room, site⟩ := replaced_same made key value
  refine ⟨replaced made key value,
    saveFile_eq_ok_iff.mpr ⟨made, hm, takesDraft, takesFile, rfl⟩, room.trans h.room,
    fun blocked => h.free (site.mp blocked), fun name => ?_, fun other text found => ?_⟩
  · have drafted := (takesDraft.put_iff (Text.bytes value) _).mpr takesDraft
    have free := (takes_draft_iff takesDraft value (fileName key)).mpr takesFile
    rw [replaced, Place.find?_put free.1, Place.find?_drop drafted.1,
      Place.find?_put takesDraft.1, fileOf_insert values hk, h.found]
    by_cases hn : name = draftName key
    · rw [if_pos hn, hn, fileOf_draftName]
    · rw [if_neg hn, if_neg hn]
  · rw [Table.get?_insert] at found
    split at found
    · next same => rwa [Std.LawfulEqOrd.eq_of_compare same]
    · exact h.accepted other text found

/-- **The keys of the files are the keys of the values.** -/
theorem fileKeys_eq : fileKeys p = .ok values.keys := by
  have file : ∀ key, (∃ value, values.get? key = some value) ↔
      key ≠ [] ∧ ∃ entry, p.find? (fileName key) = some entry := by
    intro key
    constructor
    · rintro ⟨value, hv⟩
      have hk := (checkKey_eq_ok_iff.mp (h.accepted key value hv)).1
      exact ⟨hk, _, by rw [h.found, fileOf_fileName values hk, hv, Option.map_some]⟩
    · rintro ⟨hk, entry, found⟩
      rw [h.found, fileOf_fileName values hk, Option.map_eq_some_iff] at found
      obtain ⟨value, hv, -⟩ := found
      exact ⟨value, hv⟩
  rcases hs : p.site with _ | _ | entries
  · -- where there is no folder, there are no values
    have nothing : values.keys = [] := by
      refine List.eq_nil_iff_forall_not_mem.mpr fun key mem => ?_
      obtain ⟨-, entry, found⟩ := (file key).mp ((values.mem_keys_iff key).mp mem)
      rw [Place.find?, hs] at found
      cases found
    rw [fileKeys, Place.names, hs, nothing]
  · exact absurd hs h.free
  · have listed : ∀ key, key ∈ entries.keys.filterMap keyOfName? ↔ key ∈ values.keys := by
      intro key
      rw [values.mem_keys_iff, file, List.mem_filterMap]
      have there : ∀ name, p.find? name = entries.get? name := by
        intro name
        rw [Place.find?, hs]
      simp only [entries.mem_keys_iff, there, keyOfName?_eq_some_iff]
      constructor
      · rintro ⟨name, found, hk, rfl⟩
        exact ⟨hk, found⟩
      · rintro ⟨hk, found⟩
        exact ⟨_, found, hk, rfl⟩
    rw [fileKeys, Place.names, hs]
    exact congrArg _ (Table.keys_ofList listed)

/-! ## One request -/

/-- A value is loaded alike. -/
theorem load_eq (fits : checkKey key = .ok () → Fits room key) :
    (files p).load key = (memory values).load key := by
  unfold load
  cases hc : checkKey key with
  | error e => rfl
  | ok _ =>
    have loaded := h.loadFile_eq (checkKey_eq_ok_iff.mp hc).1 (fits hc)
    exact congrArg (Except.mapError refusal) loaded

/-- A value is taken away alike. -/
theorem remove_eq (fits : checkKey key = .ok () → Fits room key) :
    ∃ q values', (files p).remove key = (((memory values).remove key).1, files q) ∧
      ((memory values).remove key).2 = memory values' ∧ Mirrors room q values' := by
  unfold remove
  cases hc : checkKey key with
  | error e => exact ⟨p, values, rfl, rfl, h⟩
  | ok _ =>
    obtain ⟨q, removed, hq⟩ := h.removeFile_eq (checkKey_eq_ok_iff.mp hc).1 (fits hc)
    refine ⟨q, values.erase key, ?_, rfl, hq⟩
    dsimp only
    rw [removed]
    rfl

/-- A value is saved alike, except under a single dot. -/
theorem save_eq (fits : checkKey key = .ok () → Fits room key) (hd : key ≠ ['.'])
    (value : Text) :
    ∃ q values', (files p).save key value = (((memory values).save key value).1, files q) ∧
      ((memory values).save key value).2 = memory values' ∧ Mirrors room q values' := by
  unfold save
  cases hc : checkKey key with
  | error e => exact ⟨p, values, rfl, rfl, h⟩
  | ok _ =>
    obtain ⟨q, saved, hq⟩ := h.saveFile_eq hc (fits hc) hd value
    refine ⟨q, values.insert key value, ?_, rfl, hq⟩
    dsimp only
    rw [saved]
    rfl

/-- Nothing is saved under a single dot. -/
theorem save_dot (value : Text) :
    ∃ q, (files p).save ['.'] value = (.error (refusal .isFolder), files q) ∧
      Mirrors room q values := by
  obtain ⟨made, -, hm, -, hq⟩ := h.make
  have accepted : checkKey ['.'] = .ok () := rfl
  exact ⟨made, save_files accepted (saveFile_dot hm value), hq⟩

/-- A request is answered alike, and leaves the place and the values alike, if it saves
nothing under a single dot. -/
theorem ask_of_not {r : Request} (fits : r.Fits room) (hd : ¬ r.SavesDot) :
    ∃ q values', (files p).ask r = (((memory values).ask r).1, files q) ∧
      ((memory values).ask r).2 = memory values' ∧ Mirrors room q values' := by
  cases r with
  | keys =>
    have listed : (files p).keys = (memory values).keys :=
      congrArg (Except.mapError refusal) h.fileKeys_eq
    exact ⟨p, values, by rw [Store.ask, listed]; rfl, rfl, h⟩
  | load key => exact ⟨p, values, by rw [Store.ask, h.load_eq fits]; rfl, rfl, h⟩
  | remove key =>
    obtain ⟨q, values', removed, rest, hq⟩ := h.remove_eq fits
    exact ⟨q, values', by rw [Store.ask, removed]; rfl, rest, hq⟩
  | save key value =>
    obtain ⟨q, values', saved, rest, hq⟩ := h.save_eq fits hd value
    exact ⟨q, values', by rw [Store.ask, saved]; rfl, rest, hq⟩

/-- **A request is answered alike, and leaves the place and the values alike**, where nothing
is taken under a single dot. -/
theorem ask {r : Request} (fits : r.Fits room) :
    ∃ q values', (files p).ask r = ((askDotless (memory values) r).1, files q) ∧
      (askDotless (memory values) r).2 = memory values' ∧ Mirrors room q values' := by
  by_cases hd : r.SavesDot
  · cases r with
    | save key value =>
      have dot : key = ['.'] := hd
      obtain ⟨q, refused, hq⟩ := h.save_dot value
      rw [askDotless_dot hd]
      refine ⟨q, values, ?_, rfl, hq⟩
      rw [Store.ask, dot, refused]
    | _ => exact absurd hd id
  · rw [askDotless_of_not hd]
    exact h.ask_of_not fits hd

/-! ## Requests one after the other -/

/-- **Requests one after the other are answered alike.** -/
theorem serve {rs : List Request} (fits : ∀ r ∈ rs, r.Fits room) :
    ∃ q values', serve Store.ask (files p) rs
        = ((serve askDotless (memory values) rs).1, files q) ∧
      (Store.serve askDotless (memory values) rs).2 = memory values' ∧ Mirrors room q values' := by
  induction rs generalizing p values with
  | nil => exact ⟨p, values, rfl, rfl, h⟩
  | cons r rest ih =>
    rw [List.forall_mem_cons] at fits
    obtain ⟨q, values', first, behind, hq⟩ := h.ask fits.1
    obtain ⟨q', values'', others, left, hq'⟩ := ih hq fits.2
    refine ⟨q', values'', ?_, ?_, hq'⟩
    · rw [Store.serve, Store.serve, first, behind, others]
    · rw [Store.serve, behind]
      exact left

end Mirrors

/-- What is saved under a single dot is taken in memory. -/
theorem ask_memory_dot {values : Table Text Text} {r : Request} (h : r.SavesDot) :
    ((memory values).ask r).1 = .done (.ok ()) := by
  cases r with
  | save key value =>
    cases (h : key = ['.'])
    rfl
  | _ => exact absurd h id

/-- A memory stays a memory. -/
theorem exists_memory (values : Table Text Text) (r : Request) :
    ∃ values', ((memory values).ask r).2 = memory values' := by
  cases r with
  | save key value =>
    rw [ask, save]
    cases checkKey key <;> exact ⟨_, rfl⟩
  | remove key =>
    rw [ask, remove]
    cases checkKey key <;> exact ⟨_, rfl⟩
  | load key => exact ⟨values, rfl⟩
  | keys => exact ⟨values, rfl⟩

/-- A memory that takes nothing under a single dot gives the answers of one that does exactly
if nothing is to be saved there. -/
theorem serve_askDotless_eq_iff (values : Table Text Text) (rs : List Request) :
    (serve askDotless (memory values) rs).1 = (memory values).answers rs ↔
      ∀ r ∈ rs, ¬ r.SavesDot := by
  induction rs generalizing values with
  | nil => exact iff_of_true rfl fun r hr => absurd hr List.not_mem_nil
  | cons r rest ih =>
    rw [List.forall_mem_cons, answers, serve, serve]
    by_cases hd : r.SavesDot
    · -- one memory refuses and the other does not
      rw [askDotless_dot hd, ask_memory_dot hd]
      exact iff_of_false nofun fun free => free.1 hd
    · obtain ⟨values', behind⟩ := exists_memory values r
      rw [askDotless_of_not hd, behind, List.cons_inj_right, ← answers, ih]
      exact (and_iff_right hd).symm

/-! ## The folder and the memory -/

/-- The names of a key's file and of its draft are its own, and lead to files of the folder
itself. -/
structure Apart (key : Text) : Prop where
  /-- No other key has the file. -/
  file (other : Text) : fileName key = fileName other ↔ key = other
  /-- The draft is the file of no key. -/
  draft (other : Text) : draftName key ≠ fileName other
  /-- The draft is not taken for the file of a key. -/
  hidden : keyOfName? (draftName key) = none
  /-- The file lies in the folder itself if the key is not refused. -/
  direct : checkKey key = .ok () → '/' ∉ fileName key ∧ Place.namesFolder (fileName key) = false
  /-- So does the draft, unless the key is a single dot. -/
  near : checkKey key = .ok () → key ≠ ['.'] →
    '/' ∉ draftName key ∧ Place.namesFolder (draftName key) = false

/-- **Every key has names of its own.** -/
theorem apart (key : Text) : Apart key where
  file other := fileName_inj
  draft := draftName_ne_fileName key
  hidden := keyOfName?_draftName key
  direct hc := by
    obtain ⟨-, slash, -, -⟩ := checkKey_eq_ok_iff.mp hc
    exact ⟨by simp [fileName, extension, slash], namesFolder_fileName key⟩
  near hc hd := by
    obtain ⟨-, slash, -, -⟩ := checkKey_eq_ok_iff.mp hc
    exact ⟨by simp [draftName_of_ne hd, slash], namesFolder_draftName hd⟩

/-- **A store in a folder mirrors a store in memory exactly as long as nothing is saved under
a single dot.**  From the time before the folder stands there, any requests for keys whose
files can have their names are answered alike by both exactly if none of them saves under a
single dot.  If one does, the answers are those of a memory that takes nothing there.  The
files of the folder are then those of the values in this memory, and no other; and every key
has names of its own in it. -/
theorem answers_files (rs : List Request) (fits : ∀ r ∈ rs, r.Fits room) :
    ((files { site := .absent, room }).answers rs = (memory .empty).answers rs ↔
      ∀ r ∈ rs, ¬ r.SavesDot) ∧
    (files { site := .absent, room }).answers rs = (serve askDotless (memory .empty) rs).1 ∧
    (∃ q values, (serve ask (files { site := .absent, room }) rs).2 = files q ∧
      (serve askDotless (memory .empty) rs).2 = memory values ∧
      ∀ name entry, q.find? name = some entry ↔ ∃ key value, checkKey key = .ok () ∧
        name = fileName key ∧ values.get? key = some value ∧
        entry = .file (Text.bytes value)) ∧
    ∀ key, Apart key := by
  obtain ⟨q, values, served, behind, h⟩ := (Mirrors.start room).serve fits
  have same : (files { site := .absent, room }).answers rs
      = (serve askDotless (memory .empty) rs).1 := by
    rw [answers, served]
  refine ⟨?_, same, ⟨q, values, by rw [served], behind, fun name entry => ?_⟩, apart⟩
  · rw [same]
    exact serve_askDotless_eq_iff .empty rs
  · rw [h.found, fileOf_eq_some_iff]
    constructor
    · rintro ⟨key, value, -, hn, hv, he⟩
      exact ⟨key, value, h.accepted key value hv, hn, hv, he⟩
    · rintro ⟨key, value, hc, hn, hv, he⟩
      exact ⟨key, value, (checkKey_eq_ok_iff.mp hc).1, hn, hv, he⟩

/-- Keys that look like the names of files and drafts, one that is refused, and in the end a
single dot, which is still loaded and taken away like any other key. -/
theorem answers_files_suffixes :
    let rs := [Request.save "a".toList "1".toList, .save "a.tmp".toList "2".toList,
      .save "a.json".toList "3".toList, .save "../a".toList [], .remove "a".toList,
      .load "a.tmp".toList, .load ['.'], .remove ['.'], .keys]
    (files .absent).answers rs = (memory .empty).answers rs ∧
      (files .absent).answers (rs ++ [.save ['.'] []])
        ≠ (memory .empty).answers (rs ++ [.save ['.'] []]) := by
  intro rs
  have fits : ∀ r ∈ rs ++ [.save ['.'] []], r.Fits nameLimit := by decide
  obtain ⟨alike, -⟩ := answers_files rs fun r hr => fits r (List.mem_append_left _ hr)
  obtain ⟨unlike, -⟩ := answers_files (rs ++ [.save ['.'] []]) fits
  refine ⟨alike.mpr (by decide), fun same => ?_⟩
  exact absurd (unlike.mp same) (by decide)

/-- **A value that is saved under a single dot is kept in memory and refused in a folder.** -/
theorem answers_files_dot :
    let rs := [Request.save ['.'] "x".toList]
    checkKey ['.'] = .ok () ∧ (memory .empty).answers rs = [.done (.ok ())] ∧
      (files .absent).answers rs = [.done (.error (refusal .isFolder))] :=
  ⟨rfl, rfl, rfl⟩

end Store

end Teletype
