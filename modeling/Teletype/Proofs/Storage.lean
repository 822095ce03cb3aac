/-
# What a store keeps

In memory a text is saved under every key that is not refused; in a folder two names have
to be free for it.  The main statements are that **what was saved under a key is loaded
from there** (`Store.load_save`), that **what is loaded under other keys stays the same**
(`Store.load_save_other`) and that **a key that a store accepts once it accepts again**
(`Store.Accepts.save`).
-/
import Teletype.Store

namespace Teletype

namespace Place

variable {p q : Place} {name : Text} {bytes : ByteArray}

/-- A file can be written under a name. -/
def Takes (p : Place) (name : Text) : Prop :=
  p.obstacle? name = none ∧ p.find? name ≠ some .folder

/-- When a file is written, and what it leaves behind. -/
theorem write_eq_ok_iff :
    p.write name bytes = .ok q ↔ p.Takes name ∧ q = p.put name (.file bytes) := by
  unfold write Takes
  cases ho : p.obstacle? name with
  | some r => simp
  | none =>
    by_cases hf : p.find? name = some .folder
    · simp [hf]
    · simp [hf, eq_comm]

/-- A file that was written is read. -/
theorem read_put (h : p.Takes name) : (p.put name (.file bytes)).read name = .ok bytes := by
  have written : p.write name bytes = .ok (p.put name (.file bytes)) :=
    write_eq_ok_iff.mpr ⟨h, rfl⟩
  rw [read_write written, if_pos rfl]

/-- Taking a file away puts nothing in the way of any name. -/
theorem obstacle?_drop (p : Place) (name other : Text) :
    (p.drop name).obstacle? other = p.obstacle? other := by
  obtain ⟨site, room⟩ := p
  cases site <;> rfl

/-- Where nothing is in the way there is a folder. -/
theorem make_of_obstacle? (h : p.obstacle? name = none) : p.make = .ok p := by
  obtain ⟨site, room⟩ := p
  cases site with
  | absent => simp only [obstacle?] at h; split at h <;> cases h
  | blocked => simp only [obstacle?] at h; split at h <;> cases h
  | folder entries => rfl

/-- Where nothing is in the way, nothing stands under a name that was taken away. -/
theorem find?_drop (free : p.obstacle? name = none) (other : Text) :
    (p.drop name).find? other = if other = name then none else p.find? other := by
  obtain ⟨site, room⟩ := p
  cases site with
  | absent => simp only [obstacle?] at free; split at free <;> cases free
  | blocked => simp only [obstacle?] at free; split at free <;> cases free
  | folder entries => simp [drop, change, find?, Table.get?_erase]

/-- A file takes the place of no folder, so the names that are taken stay the same. -/
theorem Takes.put_iff (h : p.Takes name) (bytes : ByteArray) (other : Text) :
    (p.put name (.file bytes)).Takes other ↔ p.Takes other := by
  unfold Takes
  rw [obstacle?_put, find?_put h.1]
  by_cases ho : other = name
  · subst ho
    simp [h.1, h.2]
  · simp [ho]

/-- They stay the same as well when a file is taken away. -/
theorem Takes.drop_iff (h : p.Takes name) (other : Text) :
    (p.drop name).Takes other ↔ p.Takes other := by
  unfold Takes
  rw [obstacle?_drop, find?_drop h.1]
  by_cases ho : other = name
  · subst ho
    simp [h.1, h.2]
  · simp [ho]

/-- In a folder nothing is in the way of a name that a file can have. -/
theorem obstacle?_eq_none {entries : Table Text Entry} (there : p.site = .folder entries)
    (file : namesFolder name = false) (allowed : p.allowsName name = true) :
    p.obstacle? name = none := by
  have null : ¬ name.contains '\x00' = true := by
    rw [allowsName, Bool.and_eq_true, Bool.not_eq_true'] at allowed
    rw [allowed.1]
    exact Bool.false_ne_true
  rw [obstacle?, if_neg null, there]
  simp only [file, allowed, Bool.false_eq_true, if_false, if_true]

/-- Nothing is in the way of what is read. -/
theorem obstacle?_of_read (h : p.read name = .ok bytes) : p.obstacle? name = none := by
  unfold read at h
  split at h
  · cases h
  · assumption

/-- Changing the entries leaves the room for names, and makes no folder and takes none away. -/
theorem change_same (p : Place) (f : Table Text Entry → Table Text Entry) :
    (p.change f).room = p.room ∧ ((p.change f).site = .blocked ↔ p.site = .blocked) := by
  obtain ⟨site, room⟩ := p
  cases site <;> simp [change]

/-- What is read under a name depends on what is in its way and on what stands there. -/
theorem read_congr (free : q.obstacle? name = p.obstacle? name)
    (found : q.find? name = p.find? name) : q.read name = p.read name := by
  rw [read, read, free, found]

/-- Writing a file leaves what is read under other names. -/
theorem Takes.read_put (h : p.Takes name) (bytes : ByteArray) {other : Text} (ho : other ≠ name) :
    (p.put name (.file bytes)).read other = p.read other := by
  apply read_congr (obstacle?_put _ _ _ _)
  rw [find?_put h.1, if_neg ho]

/-- Taking a file away leaves what is read under other names as well. -/
theorem Takes.read_drop (h : p.Takes name) {other : Text} (ho : other ≠ name) :
    (p.drop name).read other = p.read other := by
  apply read_congr (obstacle?_drop _ _ _)
  rw [find?_drop h.1, if_neg ho]

/-- Making the folder leaves what is read.  Where nothing was read before, another reason for
it may be given. -/
theorem read_make (h : p.make = .ok q) (name : Text) :
    q.read name = p.read name ∨ p.read name = .error .missing ∧ ∃ r, q.read name = .error r := by
  obtain ⟨site, room⟩ := p
  cases site with
  | blocked => cases h
  | folder entries =>
    cases h
    exact .inl rfl
  | absent =>
    cases h
    by_cases null : name.contains '\x00' = true
    · refine .inl ?_
      simp only [read, obstacle?, null, if_true]
    · refine .inr ⟨by simp only [read, obstacle?, if_neg null], ?_⟩
      unfold read
      split
      · exact ⟨_, rfl⟩
      · exact ⟨.missing, rfl⟩

end Place

namespace Store

variable {p q : Place} {s : Store} {key value : Text}

/-! ## Files -/

/-- The place after a file was written as a draft and put in place. -/
def replaced (p : Place) (key value : Text) : Place :=
  let file := Entry.file (Text.bytes value)
  ((p.put (draftName key) file).drop (draftName key)).put (fileName key) file

/-- Writing a file leaves the room for names, and makes no folder and takes none away. -/
theorem replaced_same (p : Place) (key value : Text) :
    (replaced p key value).room = p.room ∧
      ((replaced p key value).site = .blocked ↔ p.site = .blocked) := by
  let file := Entry.file (Text.bytes value)
  obtain ⟨first, first'⟩ := p.change_same (·.insert (draftName key) file)
  obtain ⟨second, second'⟩ := (p.put (draftName key) file).change_same (·.erase (draftName key))
  obtain ⟨third, third'⟩ := ((p.put (draftName key) file).drop (draftName key)).change_same
    (·.insert (fileName key) file)
  exact ⟨third.trans (second.trans first), third'.trans (second'.trans first')⟩

/-- The names for which there is room behind a draft are those for which there was room. -/
theorem takes_draft_iff (hd : p.Takes (draftName key)) (value other : Text) :
    ((p.put (draftName key) (.file (Text.bytes value))).drop (draftName key)).Takes other ↔
      p.Takes other := by
  have drafted := (hd.put_iff (Text.bytes value) _).mpr hd
  rw [drafted.drop_iff, hd.put_iff]

/-- When a draft is put in place, and what that leaves behind. -/
theorem rename_draft_iff (hd : p.Takes (draftName key)) :
    (p.put (draftName key) (.file (Text.bytes value))).rename (draftName key) (fileName key)
        = .ok q ↔
      p.Takes (fileName key) ∧ q = replaced p key value := by
  rw [Place.rename, Place.read_put hd]
  show Place.write _ _ _ = _ ↔ _
  rw [Place.write_eq_ok_iff, takes_draft_iff hd]
  rfl

/-- **When a file is saved, and what it leaves behind.** -/
theorem saveFile_eq_ok_iff : saveFile p key value = (.ok (), q) ↔
    ∃ made, p.make = .ok made ∧ made.Takes (draftName key) ∧ made.Takes (fileName key) ∧
      q = replaced made key value := by
  constructor
  · intro h
    unfold saveFile at h
    split at h
    · cases h
    · next made hm =>
      split at h
      · cases h
      · next drafted hw =>
        obtain ⟨hd, rfl⟩ := Place.write_eq_ok_iff.mp hw
        split at h
        · cases h
        · next saved hr =>
          cases h
          obtain ⟨hf, hq⟩ := (rename_draft_iff hd).mp hr
          exact ⟨made, hm, hd, hf, hq⟩
  · rintro ⟨made, hm, hd, hf, rfl⟩
    have hw : made.write (draftName key) (Text.bytes value) = .ok _ :=
      Place.write_eq_ok_iff.mpr ⟨hd, rfl⟩
    have hr := (rename_draft_iff hd).mpr ⟨hf, (rfl : replaced made key value = _)⟩
    simp only [saveFile, hm, hw, hr]

/-- The names for which there is room behind a file are those for which there was room. -/
theorem takes_replaced_iff (hd : p.Takes (draftName key)) (hf : p.Takes (fileName key))
    (value other : Text) : (replaced p key value).Takes other ↔ p.Takes other := by
  have room := (takes_draft_iff hd value (fileName key)).mpr hf
  rw [replaced, room.put_iff, takes_draft_iff hd]

/-- A file that was saved is loaded. -/
theorem loadFile_saveFile (h : saveFile p key value = (.ok (), q)) :
    loadFile q key = .ok (some value) := by
  obtain ⟨made, -, hd, hf, rfl⟩ := saveFile_eq_ok_iff.mp h
  have read : (replaced made key value).read (fileName key) = .ok (Text.bytes value) :=
    Place.read_put ((takes_draft_iff hd value _).mpr hf)
  rw [loadFile, read]
  simp only [Text.ofBytes?_bytes]

/-- A file that was saved can be saved again. -/
theorem saveFile_saveFile (h : saveFile p key value = (.ok (), q)) (other : Text) :
    saveFile q key other = (.ok (), replaced q key other) := by
  obtain ⟨made, -, hd, hf, rfl⟩ := saveFile_eq_ok_iff.mp h
  have draft := (takes_replaced_iff hd hf value _).mpr hd
  have file := (takes_replaced_iff hd hf value _).mpr hf
  exact saveFile_eq_ok_iff.mpr ⟨_, Place.make_of_obstacle? draft.1, draft, file, rfl⟩

/-! ## Other files -/

/-- Two keys have two files. -/
theorem fileName_inj {other : Text} : fileName key = fileName other ↔ key = other :=
  List.append_left_inj extension

/-- A file that was put in place leaves what is read under all names but its own and that of
the draft. -/
theorem read_replaced (hd : p.Takes (draftName key)) (hf : p.Takes (fileName key)) (value : Text)
    {other : Text} (draft : other ≠ draftName key) (file : other ≠ fileName key) :
    (replaced p key value).read other = p.read other := by
  have room := (takes_draft_iff hd value (fileName key)).mpr hf
  have drafted := (hd.put_iff (Text.bytes value) _).mpr hd
  rw [replaced, room.read_put _ file, drafted.read_drop draft, hd.read_put _ draft]

/-- What stands behind a file that is saved, whether it could be saved or not: the place in
which the folder was made, if it could be made, except under the names of the draft and of
the file. -/
theorem read_saveFile {result : Except Refusal Unit} (h : saveFile p key value = (result, q))
    {other : Text} (draft : other ≠ draftName key) (file : other ≠ fileName key) :
    q = p ∨ ∃ made, p.make = .ok made ∧ q.read other = made.read other := by
  unfold saveFile at h
  split at h
  · cases h
    exact .inl rfl
  · next made hm =>
    refine .inr ⟨made, hm, ?_⟩
    split at h
    · cases h
      rfl
    · next drafted hw =>
      obtain ⟨hd, rfl⟩ := Place.write_eq_ok_iff.mp hw
      split at h
      · cases h
        exact hd.read_put _ draft
      · next saved hr =>
        cases h
        obtain ⟨hf, rfl⟩ := (rename_draft_iff hd).mp hr
        exact read_replaced hd hf value draft file

/-- What is loaded depends on what is read from the file. -/
theorem loadFile_congr (h : q.read (fileName key) = p.read (fileName key)) :
    loadFile q key = loadFile p key := by
  rw [loadFile, loadFile, h]

/-- **Saving a file leaves the files of the other keys.**  Only of a key under which nothing
is loaded it may turn out, once the folder is there, that nothing can be. -/
theorem loadFile_saveFile_other {result : Except Refusal Unit}
    (h : saveFile p key value = (result, q)) {other : Text} (ho : other ≠ key) :
    loadFile q other = loadFile p other ∨
      loadFile p other = .ok none ∧ ∃ r, loadFile q other = .error r := by
  have draft := (draftName_ne_fileName key other).symm
  have file : fileName other ≠ fileName key := fun same => ho (fileName_inj.mp same)
  rcases read_saveFile h draft file with rfl | ⟨made, hm, same⟩
  · exact .inl rfl
  · rcases Place.read_make hm (fileName other) with read | ⟨missing, r, refused⟩
    · exact .inl (loadFile_congr (same.trans read))
    · rw [refused] at same
      -- nothing is read from there before, and a reason is given afterwards
      have before : loadFile p other = .ok none := by rw [loadFile, missing]
      cases r with
      | missing => exact .inl (loadFile_congr (same.trans missing.symm))
      | _ => exact .inr ⟨before, _, by rw [loadFile, same]⟩

/-! ## Keys that are accepted -/

/-- Every text can be saved under the key. -/
def Accepts (s : Store) (key : Text) : Prop := ∀ value, (s.save key value).1 = .ok ()

/-- Only under a key that is not refused anything is saved. -/
theorem checkKey_of_save (h : (s.save key value).1 = .ok ()) : checkKey key = .ok () := by
  unfold save at h
  split at h
  · cases h
  · assumption

/-- How a text is saved in a folder. -/
theorem save_files (hk : checkKey key = .ok ()) {result : Except Refusal Unit}
    (hs : saveFile p key value = (result, q)) :
    (files p).save key value = (result.mapError refusal, files q) := by
  simp only [save, hk, hs]

/-- A text that was saved under a key is loaded from there, and any other text can be saved
there next. -/
theorem save_again (h : (s.save key value).1 = .ok ()) :
    (s.save key value).2.load key = .ok (some value) ∧ (s.save key value).2.Accepts key := by
  have hk := checkKey_of_save h
  cases s with
  | memory values => exact ⟨load_save_memory hk, fun other => by simp [save, hk]⟩
  | files place =>
    rcases hs : saveFile place key value with ⟨result, q⟩
    rw [save_files hk hs] at h ⊢
    cases result with
    | error r => cases h
    | ok _ =>
      -- the file stands in its place, and the names are as free as they were
      constructor
      · show (files q).load key = _
        simp only [load, hk, loadFile_saveFile hs]
        rfl
      · intro other
        show ((files q).save key other).1 = _
        rw [save_files hk (saveFile_saveFile hs other)]
        rfl

/-- **What was saved under a key is loaded from there.** -/
theorem load_save (h : (s.save key value).1 = .ok ()) :
    (s.save key value).2.load key = .ok (some value) :=
  (save_again h).1

/-- **Saving under a key leaves what is loaded under the others**, whether it succeeds or
not.  Only under a key that nothing was saved under, an error may be found afterwards. -/
theorem load_save_other (s : Store) (value : Text) {other : Text} (ho : other ≠ key) :
    (s.save key value).2.load other = s.load other ∨
      s.load other = .ok none ∧ ∃ f, (s.save key value).2.load other = .error f := by
  unfold save
  split
  · exact .inl rfl
  · cases s with
    | memory values =>
      refine .inl ?_
      have differs : compare other key ≠ .eq := fun same => ho (Std.LawfulEqOrd.eq_of_compare same)
      simp only [load, Table.get?_insert, if_neg differs]
    | files place =>
      rcases hs : saveFile place key value with ⟨result, q⟩
      simp only [hs]
      unfold load
      cases checkKey other with
      | error f => exact .inl rfl
      | ok _ =>
        rcases loadFile_saveFile_other hs ho with same | ⟨before, r, refused⟩
        · exact .inl (congrArg (Except.mapError refusal) same)
        · exact .inr ⟨congrArg (Except.mapError refusal) before, refusal r,
            congrArg (Except.mapError refusal) refused⟩

/-- **A key that was accepted is accepted again.** -/
theorem Accepts.save (h : s.Accepts key) (value : Text) : (s.save key value).2.Accepts key :=
  (save_again (h value)).2

end Store

end Teletype
