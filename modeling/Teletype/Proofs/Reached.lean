/-
# What every session holds

The lines of a stored program and the names of aliases come into a session in a few ways
only: a line that begins with a number stores what is behind the number, trimmed; lines are
moved and deleted; a program is saved under a name that no command has, and recalled; and a
session is saved as a document from which another terminal starts.  The main statement is
that **no session that is reached from a fresh start, also in the middle of a line, has a
line without a text or with a text that ends in a blank, or an alias with the name of a
command** (`Registry.reached_sound`).
-/
import Teletype.Proofs.Exclusion
import Teletype.Proofs.Listing

namespace Teletype

/-! ## Texts behind a number -/

namespace Text

/-- A trimmed line does not end in a blank. -/
theorem endsFull_strip (line : Text) : (strip line).EndsFull := by
  intro c hc
  rw [strip, trim, trimEnd, List.getLast?_reverse] at hc
  have first := List.head?_dropWhile_not isBlank (line.dropWhile isBlank).reverse
  rwa [hc] at first

/-- What stands behind the first word of a line ends as the line does. -/
theorem EndsFull.behind {line : Text} (h : line.EndsFull) :
    EndsFull (unwords ((words line).drop 1)) := by
  obtain ⟨w, ws, hw⟩ := List.exists_cons_of_ne_nil (cut_ne_nil ' ' line)
  have cut : words line = w :: ws := hw
  have whole := unwords_words line
  rw [cut] at whole ⊢
  cases ws with
  | nil =>
    intro c hc
    cases hc
  | cons next ws =>
    intro c hc
    have hc : (unwords (next :: ws)).getLast? = some c := hc
    have last : (w ++ ' ' :: unwords (next :: ws)).getLast? = some c := by
      rw [List.getLast?_append, List.getLast?_cons, hc]
      rfl
    exact h c (whole ▸ last)

end Text

/-! ## Sound snapshots -/

/-- What is saved of a session has tidy programs only, and no alias has the name of a
command. -/
structure Snapshot.Sound (s : Snapshot) : Prop where
  /-- The stored program is tidy. -/
  program : s.program.Tidy
  /-- So are the programs under aliases, -/
  saved {name : Text} {p : Program} (h : s.aliases.get? name = some p) : p.Tidy
  /-- and no command has the name of an alias, in any case. -/
  unnamed {name : Text} {p : Program} (h : s.aliases.get? name = some p) :
    Builtin.named? name = none

namespace Snapshot.Sound

variable {s : Snapshot} {p : Program} {name : Text}

/-- Nothing is saved. -/
theorem fresh (settings : Settings) : (Session.ofSettings settings).snapshot.Sound where
  program := .empty
  saved h := by cases h
  unnamed h := by cases h

/-- Another tidy program takes the place of the program. -/
theorem replace (h : s.Sound) (tidy : p.Tidy) : Sound { s with program := p } :=
  ⟨tidy, h.saved, h.unnamed⟩

/-- The program is saved under a name that no command has. -/
theorem store (h : s.Sound) (free : Builtin.named? name = none) :
    Sound { s with aliases := s.aliases.insert name s.program } := by
  have cases : ∀ {other p}, (s.aliases.insert name s.program).get? other = some p →
      other = name ∧ p = s.program ∨ s.aliases.get? other = some p := by
    intro other p found
    rw [Table.get?_insert] at found
    split at found
    · next same =>
      cases found
      exact .inl ⟨Std.LawfulEqOrd.compare_eq_iff_eq.mp same, rfl⟩
    · exact .inr found
  refine ⟨h.program, fun found => ?_, fun found => ?_⟩
  · rcases cases found with ⟨-, rfl⟩ | found
    · exact h.program
    · exact h.saved found
  · rcases cases found with ⟨rfl, -⟩ | found
    · exact free
    · exact h.unnamed found

/-- An alias is deleted. -/
theorem drop (h : s.Sound) (name : Text) : Sound { s with aliases := s.aliases.erase name } := by
  have cases : ∀ {other p}, (s.aliases.erase name).get? other = some p →
      s.aliases.get? other = some p := by
    intro other p found
    rw [Table.get?_erase] at found
    exact (Option.ite_none_left_eq_some.mp found).2
  exact ⟨h.program, fun found => h.saved (cases found), fun found => h.unnamed (cases found)⟩

end Snapshot.Sound

/-! ## What keeps snapshots sound -/

/-- What is saved of the session stays sound. -/
def sounding : Conduct := fun _ s u => s.session.snapshot.Sound → u.session.snapshot.Sound

namespace sounding

/-- Keeping what is saved sound is lawful. -/
theorem lawful : Conduct.Lawful sounding :=
  .of_snapshot (R := fun a b => a.Sound → b.Sound) (fun _ => id) fun h h' sound => h' (h sound)

/-- **The edits of commands keep what is saved sound.** -/
theorem bears (b : Builtin) : sounding.Bears Registry.builtin.manual b := by
  intro t u h sound
  match b, t, u, h with
  | _, _, _, .clear t text =>
    have said := (Terminal.Routine.print (t.update fun s => { s with program := .empty })
      (text ++ ['\n'])).same.1
    show (Terminal.printLine _ text).session.snapshot.Sound
    rw [Terminal.printLine, said]
    exact sound.replace .empty
  | _, _, _, .move t moved => exact sound.replace (sound.program.moveLine? moved)
  | _, _, _, .delete t _ => exact sound.replace (sound.program.erase _)
  | _, _, _, .store t free => exact sound.store (Registry.page?_eq_none_iff.mp free)
  | _, _, _, .drop t name => exact sound.drop name
  | _, _, _, .recall t found => exact sound.replace (sound.saved found)
  | _, _, _, .bind .. | _, _, _, .unbind .. | _, _, _, .color .. | _, _, _, .theme ..
  | _, _, _, .write .. => exact ⟨sound.program, sound.saved, sound.unnamed⟩

/-- What is guarded when what is saved stays sound. -/
theorem guards : sounding.Guards fun t => t.session.snapshot.Sound where
  lawful := lawful
  keeps h := h
  enter k s hs := by
    show (k.enter s.session).snapshot.Sound
    rwa [k.snapshot_enter]
  opened hs := hs
  entered _ _ hs := hs
  bound _ _ _ hs := ⟨hs.program, hs.saved, hs.unnamed⟩

end sounding

namespace Registry

/-- **A dispatched line keeps what is saved sound**: what it stores is trimmed. -/
theorem sounding_hosts (bound : Nat) : sounding.Hosts (builtin.dispatch bound) := by
  refine hosts_dispatch (fun _ => id) (fun bound line s output t H _ h => ?_) bound
  have tell : ∀ (t : Terminal) (status : Int) (text : Text), sounding .settled t
      ((t.update fun t => { t with status }).print text) := by
    intro t status text sound
    have same := (Terminal.Routine.print (t.update fun t => { t with status }) text).same.1
    exact same ▸ sound
  have carried : sounding .settled (entered s (Text.strip line)) t := by
    refine carryOut_ends_of (C := sounding)
      (fun b _ => b.goes_perform sounding.lawful H (sounding.bears b) _ _)
      (fun p _ => Host.goes_runAndSave sounding.lawful H p _)
      (fun f t ht sound => tell t f.status _ (ht sound)) (fun n t _ _ _ ht => ?_)
      (fun word t ht => ?_) h
    · cases ht
      exact fun sound => sound.replace
        (sound.program.setLine n (Text.endsFull_strip line).behind)
    · cases ht
      exact tell _ 1 _
  exact fun sound => carried sound

end Registry

/-! ## Sessions that are reached -/

/-- What is put back from the document of a snapshot is the snapshot. -/
theorem Terminal.snapshot_restore_of_load {t : Terminal} {saved : Snapshot}
    (h : t.store.load t.settings.storageKey = .ok (some saved.render)) :
    t.restore.2.session.snapshot = saved := by
  have found : t.saved? = .ok (some saved) := by
    rw [saved?, h]
    dsimp only
    rw [Snapshot.read?_render]
  rw [restore, found]
  rfl

namespace Registry

/-- A terminal is reached from one that was just set up, by lines and by restarts from what was
saved of terminals that are reached.  One is also reached in the middle of a line, where a line
inside it begins, since a document may be saved there. -/
inductive Reached : Terminal → Prop
  /-- A terminal was just set up. -/
  | fresh (settings : Settings) (console : Console) (store : Store) (dice : Dice) :
    Reached (.ofSettings settings console store dice)
  /-- A line was dispatched. -/
  | line {s u : Terminal} {bound : Nat} {line : Text} {output : Output} (h : Reached s)
    (dispatched : builtin.dispatch bound line s = some (output, u)) : Reached u
  /-- A line was dispatched that is about to carry out a line inside it. -/
  | inside {s u : Terminal} {bound : Nat} {line : Text} (h : Reached s)
    (meets : builtin.Meets (fun _ _ t => decide (t = u)) bound line s) : Reached u
  /-- What is not saved has changed: there is new input, or a stop is asked for. -/
  | meanwhile {s u : Terminal} (h : Reached s)
    (same : u.session.snapshot = s.session.snapshot) : Reached u
  /-- A terminal was set up and restored over a store that holds a document which was saved. -/
  | restart {s : Terminal} (h : Reached s) {settings : Settings} {console : Console}
    {store : Store} {dice : Dice}
    (saved : store.load settings.storageKey = .ok (some s.session.snapshot.render)) :
    Reached (Terminal.ofSettings settings console store dice).restore.2

/-- What is saved of a reached session is sound. -/
theorem Reached.sound {u : Terminal} (h : Reached u) : u.session.snapshot.Sound := by
  induction h with
  | fresh settings => exact .fresh settings
  | line _ dispatched ih => exact sounding_hosts _ _ _ _ _ dispatched ih
  | @inside s u bound line _ meets ih =>
    -- otherwise no line would be barred where what is saved is sound
    refine Classical.byContradiction fun unsound => meets ?_
    refine dispatchBarring_eq_of_guards sounding.guards sounding_hosts (fun _ _ t sound => ?_)
      _ _ ih
    refine decide_eq_false ?_
    rintro rfl
    exact unsound sound
  | meanwhile _ same ih => rwa [same]
  | restart _ saved ih =>
    rw [Terminal.snapshot_restore_of_load saved]
    exact ih

/-- **Lines and aliases of reached sessions.**  A session is reached from a fresh start by
lines and by restarts from documents that were saved.  Then every line of its program, and of
the programs under its aliases, has a text, which does not end in a blank; and no command has
the name of an alias, in any case, so that a line that begins with the name runs the program. -/
theorem reached_sound {u : Terminal} (h : Reached u) :
    (∀ n text, u.session.program.line? n = some text → text ≠ [] ∧ text.EndsFull) ∧
    ∀ name p, u.session.aliases.get? name = some p →
      (∀ n text, p.line? n = some text → text ≠ [] ∧ text.EndsFull) ∧
      (∀ b : Builtin, Text.upper b.command.page.name ≠ Text.upper name) ∧
      builtin.find? name = none ∧
      ∀ bound line, Text.strip line ≠ [] → Text.upper (Text.firstWord (Text.strip line)) = name →
        builtin.dispatch (bound + 1) line u
          = (Run.settle ((builtin.host bound).runAndSave p) (entered u (Text.strip line))).map
              leave := by
  have sound := h.sound
  refine ⟨sound.program, fun name p found => ?_⟩
  have unnamed : Builtin.named? name = none := sound.unnamed found
  refine ⟨sound.saved found, ?_, ?_, ?_⟩
  · intro b same
    exact List.find?_eq_none.mp unnamed b (List.mem_reverse.mpr b.mem_all) (decide_eq_true same)
  · rw [find?_builtin, unnamed]
    rfl
  · rintro bound line nonblank rfl
    exact dispatch_alias unnamed nonblank found

/-- A program is saved whose line is assembled in a sub-expression, and the terminal starts
anew. -/
theorem reached_sound_restarted :
    ∃ u, Reached u ∧ (u.session.aliases.get? "KEEP".toList).isSome ∧
      (∀ n text, u.session.program.line? n = some text → text ≠ [] ∧ text.EndsFull) ∧
      ∀ name p, u.session.aliases.get? name = some p →
        (∀ n text, p.line? n = some text → text ≠ [] ∧ text.EndsFull) ∧
        (∀ b : Builtin, Text.upper b.command.page.name ≠ Text.upper name) ∧
        builtin.find? name = none ∧
        ∀ bound line, Text.strip line ≠ [] →
          Text.upper (Text.firstWord (Text.strip line)) = name →
          builtin.dispatch (bound + 1) line u
            = (Run.settle ((builtin.host bound).runAndSave p) (entered u (Text.strip line))).map
                leave := by
  let console := Console.recorder { grid := ⟨60, 25⟩ }
  let start := Terminal.ofSettings {} console (.memory .empty) ⟨0⟩
  have ran : (builtin.dispatch 5 "PRINT (10 \"PRINT \")".toList start).any (fun r =>
      (builtin.dispatch 5 "SAVE keep".toList r.2).any fun r =>
        decide (r.2.store.load r.2.settings.storageKey
          = .ok (some r.2.session.snapshot.render)) &&
        decide (r.2.settings = {}) && (r.2.session.aliases.get? "KEEP".toList).isSome) = true := by
    decide +kernel
  obtain ⟨⟨output, t⟩, first, ran⟩ := (Option.any_eq_true _ _).mp ran
  obtain ⟨⟨output', s⟩, second, ran⟩ := (Option.any_eq_true _ _).mp ran
  simp only [Bool.and_eq_true, decide_eq_true_eq] at ran
  obtain ⟨⟨saved, settings⟩, kept⟩ := ran
  rw [settings] at saved
  let again := Terminal.ofSettings {} console s.store ⟨0⟩
  have reached : Reached again.restore.2 :=
    .restart (.line (.line (.fresh {} console (.memory .empty) ⟨0⟩) first) second) saved
  have restored : again.restore.2.session.snapshot = s.session.snapshot :=
    Terminal.snapshot_restore_of_load saved
  have aliases : again.restore.2.session.aliases = s.session.aliases :=
    congrArg Snapshot.aliases restored
  exact ⟨_, reached, aliases ▸ kept, reached_sound reached⟩

end Registry

end Teletype
