/-
# Saves that are refused

A value is saved in three steps: the folder is made, a draft is written, and the draft is put
in the place of the file.  Each of them may be refused, and what was done before it stays done.
But a folder that was just made holds no values, and a draft is the file of no key.  The main
statement is that **a save that is refused leaves what is loaded under every key, and one that
succeeds changes what is loaded under its own key only** (`Store.save_unseen`).

Only the length of names can be told from the outside: a name that is too long for a file is
missing as long as the folder is, and refused once the folder stands.
-/
import Teletype.Proofs.Mirror

namespace Teletype

namespace Store

variable {p q made : Place} {key other value : Text}

/-! ## Behind a save -/

/-- A save that is refused once the folder was made leaves a draft at most. -/
theorem read_of_refused {r : Refusal} (hm : p.make = .ok made)
    (h : saveFile p key value = (.error r, q)) {name : Text} (draft : name ≠ draftName key) :
    q.read name = made.read name := by
  rw [saveFile, hm] at h
  dsimp only at h
  split at h
  · cases h
    rfl
  · next drafted hw =>
    obtain ⟨hd, rfl⟩ := Place.write_eq_ok_iff.mp hw
    split at h
    · cases h
      exact hd.read_put _ draft
    · cases h

/-- Where the folder was made, what is loaded behind a save is what was loaded from the folder,
except under the key of a save that succeeds. -/
theorem loadFile_behind {result : Except Refusal Unit} (hm : p.make = .ok made)
    (h : saveFile p key value = (result, q)) (apart : other ≠ key ∨ result ≠ .ok ()) :
    loadFile q other = loadFile made other := by
  have draft : fileName other ≠ draftName key := (draftName_ne_fileName key other).symm
  cases result with
  | error r => exact loadFile_congr (read_of_refused hm h draft)
  | ok _ =>
    have ho : other ≠ key := apart.resolve_right fun refused => refused rfl
    have file : fileName other ≠ fileName key := fun same => ho (fileName_inj.mp same)
    obtain ⟨there, ht, hd, hf, rfl⟩ := saveFile_eq_ok_iff.mp h
    obtain rfl : there = made := Except.ok.inj (ht.symm.trans hm)
    exact loadFile_congr (read_replaced hd hf value draft file)

/-! ## The folder -/

/-- The name of a key's file is known to be short enough for a file, or the folder stands. -/
def Nameable (p : Place) (key : Text) : Prop :=
  p.site = .absent → Text.byteSize (fileName key) ≤ p.room

/-- Where the folder is missing, the file of a key is as well. -/
theorem loadFile_of_absent (absent : p.site = .absent) (null : '\x00' ∉ key) :
    loadFile p key = .ok none := by
  have plain : ¬ (fileName key).contains '\x00' = true := by simp [fileName, extension, null]
  have missing : p.obstacle? (fileName key) = some .missing := by
    rw [Place.obstacle?, if_neg plain, absent]
  rw [loadFile, Place.read, missing]

/-- A name that nothing is in the way of is short enough for a file. -/
theorem byteSize_of_free {name : Text} (free : p.obstacle? name = none) :
    Text.byteSize name ≤ p.room := by
  obtain ⟨site, room⟩ := p
  cases site with
  | absent | blocked =>
    simp only [Place.obstacle?] at free
    split at free <;> cases free
  | folder entries =>
    refine Classical.byContradiction fun large => ?_
    simp only [Place.obstacle?, Place.allowsName, large, decide_false, Bool.and_false] at free
    split at free
    · cases free
    · split at free <;> cases free

/-- What is loaded from a folder that was just made: nothing, if the name is short enough. -/
theorem loadFile_of_made (absent : p.site = .absent) (hm : p.make = .ok made)
    (null : '\x00' ∉ key) :
    loadFile made key
      = if Text.byteSize (fileName key) ≤ p.room then .ok none else .error .badName := by
  obtain rfl : { p with site := .folder .empty } = made := by
    rw [Place.make, absent] at hm
    exact Except.ok.inj hm
  have plain : '\x00' ∉ fileName key := by simp [fileName, extension, null]
  have file := namesFolder_fileName key
  by_cases short : Text.byteSize (fileName key) ≤ p.room
  · simp [loadFile, Place.read, Place.obstacle?, Place.allowsName, Place.find?, Table.get?_empty,
      plain, file, short]
  · simp [loadFile, Place.read, Place.obstacle?, Place.allowsName, plain, file, short]

/-- **Making the folder leaves what is loaded** under a key whose file can have its name. -/
theorem loadFile_make (hm : p.make = .ok made) (named : Nameable p key) :
    loadFile made key = loadFile p key := by
  by_cases null : '\x00' ∈ key
  · -- such a name is refused whether or not the folder stands
    have refused : ∀ place : Place, loadFile place key = .error .badName := by
      intro place
      have contained : '\x00' ∈ fileName key := by simp [fileName, null]
      simp [loadFile, Place.read, Place.obstacle?, contained]
    rw [refused, refused]
  · rcases hs : p.site with _ | _ | entries
    · rw [loadFile_of_absent hs null, loadFile_of_made hs hm null, if_pos (named hs)]
    · simp [Place.make, hs] at hm
    · obtain rfl : p = made := by simpa [Place.make, hs] using hm
      rfl

/-! ## Saves -/

/-- When a value is saved in a folder: its key is not refused, the folder can be made, and a
file can be written under the names of the draft and of the file. -/
theorem save_files_eq_ok_iff : ((files p).save key value).1 = .ok () ↔
    checkKey key = .ok () ∧
      ∃ made, p.make = .ok made ∧ made.Takes (draftName key) ∧ made.Takes (fileName key) := by
  rcases hk : checkKey key with f | _
  · simp [save, hk]
  · rcases hs : saveFile p key value with ⟨result, q⟩
    rw [save_files hk hs]
    constructor
    · intro saved
      cases result with
      | error r => cases saved
      | ok _ =>
        obtain ⟨made, hm, draft, file, -⟩ := saveFile_eq_ok_iff.mp hs
        exact ⟨rfl, made, hm, draft, file⟩
    · rintro ⟨-, made, hm, draft, file⟩
      have saved := saveFile_eq_ok_iff.mpr ⟨made, hm, draft, file, (rfl : replaced made key value = _)⟩
      rw [hs] at saved
      cases saved
      rfl

/-- A save under a key that is refused, or where the folder cannot be made, leaves everything
as it was. -/
theorem save_unmade (h : checkKey key = .ok () → ∀ made, p.make ≠ .ok made) :
    ((files p).save key value).2 = files p := by
  rcases hk : checkKey key with f | _
  · simp only [save, hk]
  · rcases hm : p.make with r | made
    · have refused : saveFile p key value = (.error r, p) := by simp only [saveFile, hm]
      rw [save_files hk refused]
    · exact absurd hm (h hk made)

/-- What is loaded behind a save is what is loaded where the folder was only made, except under
the key of a save that succeeds. -/
theorem load_behind (hk : checkKey key = .ok ()) (hm : p.make = .ok made)
    (apart : other ≠ key ∨ ((files p).save key value).1 ≠ .ok ()) :
    ((files p).save key value).2.load other = (files made).load other := by
  rcases hs : saveFile p key value with ⟨result, q⟩
  rw [save_files hk hs] at apart ⊢
  have apart' : other ≠ key ∨ result ≠ .ok () := by
    refine apart.imp_right fun refused saved => refused ?_
    rw [saved]
    rfl
  unfold load
  cases checkKey other with
  | error f => rfl
  | ok _ => exact congrArg (Except.mapError refusal) (loadFile_behind hm hs apart')

/-- **A save leaves what is loaded under every key whose file can have its name**, except under
its own if it succeeds. -/
theorem load_save_of_nameable (named : Nameable p other)
    (apart : other ≠ key ∨ ((files p).save key value).1 ≠ .ok ()) :
    ((files p).save key value).2.load other = (files p).load other := by
  by_cases h : checkKey key = .ok () ∧ ∃ made, p.make = .ok made
  · obtain ⟨hk, made, hm⟩ := h
    rw [load_behind hk hm apart]
    unfold load
    cases checkKey other with
    | error f => rfl
    | ok _ => exact congrArg (Except.mapError refusal) (loadFile_make hm named)
  · rw [save_unmade fun hk made hm => h ⟨hk, made, hm⟩]

/-- Where the folder is missing, nothing is loaded under a name that is too long for a file,
and it is refused once the folder was made. -/
theorem load_of_not_nameable (long : ¬ Nameable p other) (hk : checkKey key = .ok ())
    (ho : checkKey other = .ok ()) (null : '\x00' ∉ other) :
    (files p).load other = .ok none ∧
      ((files p).save key value).2.load other = .error (refusal .badName) := by
  obtain ⟨absent, large⟩ := Classical.not_imp.mp long
  have hm : p.make = .ok { p with site := .folder .empty } := by rw [Place.make, absent]
  have made := loadFile_of_made absent hm null
  rw [if_neg large] at made
  -- a save that succeeds is under another key, as the name of this one is refused
  have apart : other ≠ key ∨ ((files p).save key value).1 ≠ .ok () := by
    refine Classical.or_iff_not_imp_right.mpr fun saved same => ?_
    obtain ⟨-, there, ht, -, free, -⟩ := save_files_eq_ok_iff.mp (Classical.not_not.mp saved)
    obtain rfl := Except.ok.inj (ht.symm.trans hm)
    rw [← same] at free
    have short := byteSize_of_free free
    exact large short
  constructor
  · simp only [load, ho, loadFile_of_absent absent null]
    rfl
  · rw [load_behind hk hm apart]
    simp only [load, ho, made]
    rfl

/-- **A save that is refused is not seen.**  Let any files and folders stand where values are to
be saved, or nothing, or a file in the place of the folder.  A value is saved exactly if its key
is not refused, the folder can be made, and no folder stands under the names of the draft and of
the file, which a file can have.  If a save is refused, what is loaded under every key is what
was loaded there before; if it succeeds, the value is loaded under its key, and under every other
key what was loaded before.  A folder is taken to be a map, in which a file can have any name; of
a name that is too long for one, nothing is loaded where the folder is missing, and the name is
refused once the folder was made. -/
theorem save_unseen (p : Place) (key value : Text) :
    let s := files p
    let saved := s.save key value
    (saved.1 = .ok () ↔ checkKey key = .ok () ∧
      ∃ made, p.make = .ok made ∧ made.Takes (draftName key) ∧ made.Takes (fileName key)) ∧
    (∀ f, saved.1 = .error f → ∀ other, Nameable p other →
      saved.2.load other = s.load other) ∧
    (saved.1 = .ok () → saved.2.load key = .ok (some value) ∧
      ∀ other, other ≠ key → Nameable p other → saved.2.load other = s.load other) ∧
    ∀ other, ¬ Nameable p other → checkKey key = .ok () → checkKey other = .ok () →
      '\x00' ∉ other → s.load other = .ok none ∧
        saved.2.load other = .error (refusal .badName) := by
  intro s saved
  refine ⟨save_files_eq_ok_iff, fun f refused other named => ?_, fun done => ?_, ?_⟩
  · refine load_save_of_nameable named (.inr fun done => ?_)
    cases refused.symm.trans done
  · exact ⟨load_save done, fun other ho named => load_save_of_nameable named (.inl ho)⟩
  · intro other long hk ho null
    exact load_of_not_nameable long hk ho null

/-- A folder stands under the name of a file, so that its draft is left behind, and what is
loaded under the other key and under the name of the draft stays the same. -/
theorem save_unseen_folder :
    let entries := Table.ofList [("a.json".toList, Entry.folder),
      ("b.json".toList, Entry.file (Text.bytes "1".toList))]
    let s := files { site := .folder entries }
    let saved := s.save "a".toList "2".toList
    saved.1 = .error (refusal .isFolder) ∧ saved.2 ≠ s ∧
      saved.2.load "b".toList = s.load "b".toList ∧
      s.load "b".toList = .ok (some "1".toList) ∧
      saved.2.load "a".toList = .error (refusal .isFolder) := by
  intro entries s saved
  obtain ⟨-, unseen, -, -⟩ := save_unseen { site := .folder entries } "a".toList "2".toList
  have refused : saved.1 = .error (refusal .isFolder) := by rfl
  refine ⟨refused, by decide +kernel, unseen _ refused _ nofun, by rfl, ?_⟩
  exact (unseen _ refused _ nofun).trans (by rfl)

end Store

end Teletype
