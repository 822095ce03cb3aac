/-
# What survives a restart

The session is saved behind every change of the program, the variables and the aliases.
The main statement is that **the document in the store is always that of the session**
(`Registry.carries_current`): at the end of every line, whatever was carried out inside it
and however it ended, a terminal that is set up anew over the store and restored has the
same program, variables and aliases.  Only the export of a listing may write something
else under the key of the session, so lines that export are left out.
-/
import Teletype.Proofs.Dispatch
import Teletype.Proofs.Document
import Teletype.Proofs.Storage

namespace Teletype

/-- A line was dispatched whose command writes a listing to the store. -/
def Event.Exports : Event → Prop
  | .entered line => Builtin.ofLine? line = some .download
  | _ => False

instance : DecidablePred Event.Exports := fun e =>
  match e with
  | .entered line => inferInstanceAs (Decidable (Builtin.ofLine? line = some .download))
  | .printed _ _ _ | .asked _ | .cleared | .moved _ | .themed _ | .stopSeen | .left _ | .blank _
  | .began _ | .reached _ | .ended | .saved _ => .isFalse id

namespace Terminal

variable {s t u : Terminal}

/-! ## What is saved -/

/-- What is saved depends on the store and the key alone. -/
theorem saved?_congr (key : u.settings.storageKey = t.settings.storageKey)
    (store : u.store = t.store) : u.saved? = t.saved? := by
  rw [saved?, saved?, key, store]

/-- Nothing is saved if nothing is stored under the key. -/
theorem saved?_eq_none_iff :
    t.saved? = .ok none ↔ t.store.load t.settings.storageKey = .ok none := by
  unfold saved?
  constructor
  · intro h
    split at h
    · cases h
    · assumption
    · split at h <;> cases h
  · intro h
    rw [h]

/-- What is saved is read from the document under the key. -/
theorem saved?_eq_some_iff {saved : Snapshot} : t.saved? = .ok (some saved) ↔
    ∃ document, t.store.load t.settings.storageKey = .ok (some document) ∧
      Snapshot.read? document = some saved := by
  unfold saved?
  constructor
  · intro h
    split at h
    · cases h
    · cases h
    · next document found =>
      split at h
      · cases h
      · next saved' read =>
        cases h
        exact ⟨document, found, read⟩
  · rintro ⟨document, found, read⟩
    simp only [found, read]

/-- What is saved in the store is what would be saved of the session.  Nothing is saved only
if there is nothing to save. -/
def Current (t : Terminal) : Prop :=
  t.saved? = .ok (some t.session.snapshot) ∨ t.saved? = .ok none ∧ t.session.snapshot = {}

/-- The saved session is current, and can be saved again. -/
structure Persists (t : Terminal) : Prop where
  /-- The store accepts the key of the session. -/
  accepts : t.store.Accepts t.settings.storageKey
  /-- What is saved is current. -/
  current : t.Current

/-- **A session that can be saved is current when it was saved.** -/
theorem persists_save (h : t.store.Accepts t.settings.storageKey) : t.save.Persists := by
  refine ⟨h.save _, .inl (saved?_eq_some_iff.mpr ?_)⟩
  have loaded : t.save.store.load t.settings.storageKey = .ok (some t.session.snapshot.render) :=
    Store.load_save (h _)
  exact ⟨t.session.snapshot.render, loaded, Snapshot.read?_render _⟩

/-- Nothing changes while the store and what is saved of the session stay the same. -/
theorem Persists.of_same (h : t.Persists) (settings : u.settings = t.settings)
    (store : u.store = t.store) (snapshot : u.session.snapshot = t.session.snapshot) :
    u.Persists := by
  refine ⟨by rw [settings, store]; exact h.accepts, ?_⟩
  rw [Current, saved?_congr (by rw [settings]) store, snapshot]
  exact h.current

/-- Printing leaves the store and what is saved of the session. -/
theorem print_same (t : Terminal) (text : Text) :
    (t.print text).settings = t.settings ∧ (t.print text).store = t.store ∧
      (t.print text).session.snapshot = t.session.snapshot := by
  unfold print
  split
  · exact ⟨rfl, rfl, rfl⟩
  · split
    · exact ⟨rfl, rfl, rfl⟩
    · exact ⟨rfl, rfl, rfl⟩

/-- A step that every command may take saves the session or leaves it as it is. -/
theorem Routine.persists (h : t.Routine u) (ht : t.Persists) : u.Persists := by
  cases h with
  | save => exact persists_save ht.accepts
  | print text =>
    obtain ⟨settings, store, snapshot⟩ := print_same t text
    exact ht.of_same settings store snapshot
  | stop =>
    unfold takeStop
    dsimp only
    split
    · exact ht.of_same rfl rfl rfl
    · exact ht.of_same rfl rfl rfl
  | _ => exact ht.of_same rfl rfl rfl

end Terminal

/-- An edit that exports nothing saves what it changes. -/
theorem Builtin.Edit.persists {manual : Manual} {b : Builtin} {t u : Terminal}
    (h : b.Edit manual t u) (hb : b ≠ .download) (ht : t.Persists) : u.Persists := by
  cases h with
  | write => exact absurd rfl hb
  | color => exact ht.of_same rfl rfl rfl
  | theme => exact ht.of_same rfl rfl rfl
  | clear _ text =>
    -- the message is printed between the change and the saving
    have cleared := Terminal.print_same (t.update fun s => { s with program := .empty })
      (text ++ ['\n'])
    refine Terminal.persists_save ?_
    rw [Terminal.printLine, cleared.1, cleared.2.1]
    exact ht.accepts
  | _ => exact Terminal.persists_save ht.accepts

/-! ## The conduct -/

/-- What commands do about the store.  The settings stay as they are, and unless a line
exports, a saved session that was current is current afterwards.  The second part is held
up by an assumption about the command itself. -/
def persisting (held : Prop) : Conduct := fun _ s u =>
  u.settings = s.settings ∧ ∃ new, u.trace = new ++ s.trace ∧
    (held → (∀ e ∈ new, ¬ e.Exports) → s.Persists → u.Persists)

namespace persisting

variable {held : Prop} {m m' : Manner} {s t u : Terminal}

/-- What is quiet and keeps the saved session current. -/
theorem quiet (h : s.Quiet u) (keeps : held → s.Persists → u.Persists) :
    persisting held m s u := by
  obtain ⟨new, hu, -⟩ := h.trace
  exact ⟨h.settings, new, hu, fun hh _ hs => keeps hh hs⟩

/-- One act can be done after another. -/
theorem trans (h : persisting held m s t) (h' : persisting held m' t u) :
    persisting held m' s u := by
  obtain ⟨hset, new, ht, keeps⟩ := h
  obtain ⟨hset', new', hu, keeps'⟩ := h'
  refine ⟨hset'.trans hset, new' ++ new, Terminal.trace_append ht hu, fun hh free hs => ?_⟩
  obtain ⟨free', free⟩ := List.forall_mem_append.mp free
  have first : t.Persists := keeps hh free hs
  exact keeps' hh free' first

/-- What commands do about the store is lawful. -/
theorem lawful (held : Prop) : Conduct.Lawful (persisting held) where
  refl s := quiet (.of_trace_eq rfl rfl rfl) fun _ h => h
  trans := trans
  settled h := h
  faulted h := h
  well h _ := h
  routine h h' := trans h' (quiet (m := .well) h.level.quiet fun _ => h.persists)
  scope {m s u} k h := by
    have entered : persisting held .well s (s.update k.enter) :=
      quiet (.of_trace_eq rfl (k.status_enter _) rfl) fun _ hs =>
        hs.of_same rfl rfl (k.snapshot_enter _)
    have left : persisting held m u (u.update (k.leave s.session)) :=
      quiet (.of_trace_eq rfl (k.status_leave _ _) rfl) fun _ hu =>
        hu.of_same rfl rfl (k.snapshot_leave _ _)
    exact trans (trans entered h) left
  run {m s u} _ h := by
    have opened : persisting held .well s (Runner.opened s) :=
      quiet (.of_trace_cons rfl rfl rfl id) fun _ hs => hs.of_same rfl rfl rfl
    have closed : persisting held m u (Runner.closed s.session u) :=
      quiet (.of_trace_cons rfl rfl rfl id) fun _ hu => hu.of_same rfl rfl rfl
    exact trans (trans opened h) closed

/-- The edits of a command that exports nothing save what they change. -/
theorem bears (manual : Manual) {b : Builtin} (hb : held → b ≠ .download) :
    (persisting held).Bears manual b :=
  fun _ _ h => quiet h.level.quiet fun hh => h.persists (hb hh)

/-- A status can be set and a text printed behind anything. -/
theorem tell (h : persisting held m s t) (status : Int) (text : Text) :
    persisting held m' s ((t.update fun t => { t with status }).print text) := by
  have marked : persisting held m' t (t.update fun t => { t with status }) :=
    ⟨rfl, [], rfl, fun _ _ ht => ht.of_same rfl rfl rfl⟩
  exact (lawful held).routine (.print _ text) (trans h marked)

end persisting

/-! ## Lines -/

namespace Registry

variable {bound : Nat} {line : Text} {s t u : Terminal} {output : Output}

/-- **What the words of a line do about the store**, unless the line exports. -/
theorem persisting_carryOut (H : (persisting True).Hosts (builtin.host bound).dispatch)
    (h : builtin.carryOut (builtin.host bound) (Text.words line) s = some (output, u)) :
    persisting (Builtin.ofLine? line ≠ some .download) output.manner s u := by
  have L := persisting.lawful (Builtin.ofLine? line ≠ some .download)
  refine carryOut_ends L (fun line s output u h => ?_) (fun b hb => ?_) (fun f t ht => ?_)
    (fun n text t ht => ?_) (fun word t ht => ?_) h
  · obtain ⟨settings, new, trace, keeps⟩ := H line s output u h
    exact ⟨settings, new, trace, fun _ => keeps trivial⟩
  · refine persisting.bears _ fun hline hdown => hline ?_
    rw [← hdown]
    exact hb
  · exact persisting.tell ht f.status _
  · cases ht
    exact ⟨rfl, [.saved s.settings.storageKey], rfl,
      fun _ _ hs => Terminal.persists_save hs.accepts⟩
  · cases ht
    exact persisting.tell (L.refl s) 1 _

/-- What a dispatched line does about the store. -/
theorem persisting_hosts (bound : Nat) : (persisting True).Hosts (builtin.dispatch bound) := by
  refine hosts_dispatch (fun s => ?_) (fun bound line s output t H _ h => ?_) bound
  · exact ⟨rfl, [.blank s.session.status], rfl, fun _ _ hs => hs.of_same rfl rfl rfl⟩
  · obtain ⟨settings, inner, ht, keeps⟩ := persisting_carryOut H h
    refine ⟨settings, .left t.session.status :: (inner ++ [.entered (Text.strip line)]), ?_, ?_⟩
    · rw [List.cons_append, List.append_assoc, List.singleton_append]
      exact congrArg _ ht
    · intro _ free hs
      -- the line was noted, so that it is known not to export
      have other : ¬ (Event.entered (Text.strip line)).Exports := free _ (by simp)
      have held : t.Persists := by
        refine keeps other (fun e he => free e (by simp [he])) ?_
        exact hs.of_same rfl rfl rfl
      exact held.of_same rfl rfl rfl

end Registry

/-! ## Restarts -/

namespace Terminal

/-- A terminal with settings was just set up over a store: nothing was saved in the store, or
what was saved has been put back. -/
inductive Started (settings : Settings) (store : Store) : Terminal → Prop
  /-- Nothing was saved. -/
  | fresh (console : Console) (dice : Dice) (h : store.load settings.storageKey = .ok none) :
      Started settings store (ofSettings settings console store dice)
  /-- What was saved has been put back. -/
  | restored {console : Console} {dice : Dice} {found : Bool} {s : Terminal}
      (h : (ofSettings settings console store dice).restore = (.ok found, s)) :
      Started settings store s

variable {settings : Settings} {store : Store} {s : Terminal}

/-- Restoring puts back what is saved, and changes nothing else. -/
theorem restore_cases {t u : Terminal} {found : Bool} (h : t.restore = (.ok found, u)) :
    (found = false ∧ t.saved? = .ok none ∧ u = t) ∨
      ∃ saved, found = true ∧ t.saved? = .ok (some saved) ∧ u = t.update fun s => s.restore saved := by
  unfold restore at h
  rcases hs : t.saved? with f | _ | saved
  · rw [hs] at h
    cases h
  · rw [hs] at h
    cases h
    exact .inl ⟨rfl, rfl, rfl⟩
  · rw [hs] at h
    cases h
    exact .inr ⟨saved, rfl, rfl, rfl⟩

/-- **A terminal starts with what is saved.** -/
theorem Started.current (h : Started settings store s) :
    s.settings = settings ∧ s.store = store ∧ s.trace = [] ∧ s.Current := by
  cases h with
  | fresh console dice h =>
    exact ⟨rfl, rfl, rfl, .inr ⟨saved?_eq_none_iff.mpr h, rfl⟩⟩
  | restored h =>
    rcases restore_cases h with ⟨-, hs, rfl⟩ | ⟨saved, -, hs, rfl⟩
    · exact ⟨rfl, rfl, rfl, .inr ⟨hs, rfl⟩⟩
    · exact ⟨rfl, rfl, rfl, .inl hs⟩

/-- Over a store in which the session of a terminal is saved, another terminal with the same
key is restored to what the session holds. -/
theorem restore_of_saved {u : Terminal} (h : u.saved? = .ok (some u.session.snapshot))
    {settings : Settings} (key : settings.storageKey = u.settings.storageKey) (console : Console)
    (dice : Dice) :
    (ofSettings settings console u.store dice).restore
      = (.ok true, (ofSettings settings console u.store dice).update fun s =>
          s.restore u.session.snapshot) := by
  have same : (ofSettings settings console u.store dice).saved? = u.saved? := saved?_congr key rfl
  rw [restore, same, h]

/-- The terminal that is set up over the store of a terminal and restored. -/
def restart (t : Terminal) (settings : Settings) (console : Console) (dice : Dice) : Terminal :=
  (ofSettings settings console t.store dice).restore.2

/-- What a terminal with the same key holds behind a restart: what is saved, and nothing where
nothing can be read. -/
theorem snapshot_restart {t : Terminal} {settings : Settings}
    (key : settings.storageKey = t.settings.storageKey) (console : Console) (dice : Dice) :
    (t.restart settings console dice).session.snapshot
      = match t.saved? with
        | .ok (some saved) => saved
        | _ => {} := by
  have same : (ofSettings settings console t.store dice).saved? = t.saved? := saved?_congr key rfl
  unfold restart restore
  rw [same]
  rcases t.saved? with f | _ | saved <;> rfl

/-- A restart leaves the store, and takes the settings. -/
theorem restart_same (t : Terminal) (settings : Settings) (console : Console) (dice : Dice) :
    (t.restart settings console dice).settings = settings ∧
      (t.restart settings console dice).store = t.store := by
  unfold restart restore
  split <;> exact ⟨rfl, rfl⟩

/-- Terminals with the same store are restarted alike. -/
theorem restart_congr {t u : Terminal} (store : u.store = t.store) (settings : Settings)
    (console : Console) (dice : Dice) :
    u.restart settings console dice = t.restart settings console dice := by
  rw [restart, restart, store]

/-- **A restart loses nothing of a session whose saved state is current**, and saves nothing
either. -/
theorem Persists.restart {t : Terminal} (h : t.Persists) {settings : Settings}
    (key : settings.storageKey = t.settings.storageKey) (console : Console) (dice : Dice) :
    (t.restart settings console dice).Persists ∧
      (t.restart settings console dice).session.snapshot = t.session.snapshot := by
  have snapshot : (t.restart settings console dice).session.snapshot = t.session.snapshot := by
    rw [snapshot_restart key]
    rcases h.current with saved | ⟨saved, empty⟩
    · rw [saved]
    · rw [saved, empty]
  obtain ⟨same, store⟩ := t.restart_same settings console dice
  refine ⟨⟨by rw [same, store, key]; exact h.accepts, ?_⟩, snapshot⟩
  have saved := saved?_congr (u := t.restart settings console dice) (t := t)
    (by rw [same, key]) store
  unfold Current
  rw [saved, snapshot]
  exact h.current

/-- **Saving and restoring lose nothing.**  A terminal that finds in its store the document of
a session, whatever texts and line numbers the session holds, is restored to the program, the
variables and the aliases of that session, and nothing else of the terminal changes.  This
document is what is found behind saving if the store accepts it. -/
theorem restore_save (t : Terminal) :
    (∀ v : Terminal, v.store.load v.settings.storageKey = .ok (some t.session.snapshot.render) →
      v.restore = (.ok true, v.update fun s => { s with
        program := t.session.program
        bindings := t.session.bindings
        aliases := t.session.aliases })) ∧
    ((t.store.save t.settings.storageKey t.session.snapshot.render).1 = .ok () →
      t.save.store.load t.settings.storageKey = .ok (some t.session.snapshot.render)) := by
  refine ⟨fun v stored => ?_, fun accepted => Store.load_save accepted⟩
  have saved : v.saved? = .ok (some t.session.snapshot) :=
    saved?_eq_some_iff.mpr ⟨_, stored, Snapshot.read?_render _⟩
  rw [restore, saved]
  rfl

/-- A session with the highest line number, an empty text, an empty name and characters that
are written as escapes, restored in a terminal that held something else. -/
theorem restore_save_escapes :
    let start := Terminal.ofSettings {} (.recorder { grid := ⟨60, 25⟩ }) (.memory .empty) ⟨0⟩
    let p := (Program.setLine .empty 18446744073709551615 "PRINT \"\\\"".toList).setLine 0 []
    let t := start.update fun s => { s with
      program := p
      bindings := s.bindings.insert [] "\x00\n\t\x7f😀".toList
      aliases := s.aliases.insert "\"É\"".toList p }
    let v := { start with store := t.save.store }.update fun s => { s with
      program := s.program.setLine 5 "PRINT A".toList }
    (t.store.save t.settings.storageKey t.session.snapshot.render).1 = .ok () ∧
      v.restore = (.ok true, { t with store := t.save.store }) := by
  intro start p t v
  have accepted : (t.store.save t.settings.storageKey t.session.snapshot.render).1 = .ok () := rfl
  obtain ⟨restores, loads⟩ := restore_save t
  exact ⟨accepted, restores v (loads accepted)⟩

end Terminal

namespace Registry

variable {settings : Settings} {store : Store} {s u : Terminal} {lines : List Text}

/-- **What is saved is always the current state.**  A terminal with the built-in commands was
set up over a store that accepts its key, and carried out lines of which none, and no line
inside them, writes a listing to the store.  Then either nothing is saved and the program,
the variables and the aliases are empty, or a document is saved from which every terminal
that is set up with the key is restored to the same program, variables and aliases. -/
theorem carries_current (accepts : store.Accepts settings.storageKey)
    (started : Terminal.Started settings store s) (h : builtin.Carries s lines u)
    (free : ∀ e ∈ u.trace, ¬ e.Exports) :
    (u.store.load settings.storageKey = .ok none ∧ u.session.program = .empty ∧
      u.session.bindings = .empty ∧ u.session.aliases = .empty) ∨
    ∃ document, u.store.load settings.storageKey = .ok (some document) ∧
      ∀ (settings' : Settings) (console : Console) (dice : Dice),
        settings'.storageKey = settings.storageKey →
        ∃ t, (Terminal.ofSettings settings' console u.store dice).restore = (.ok true, t) ∧
          t.session.program = u.session.program ∧ t.session.bindings = u.session.bindings ∧
          t.session.aliases = u.session.aliases := by
  obtain ⟨hset, rfl, hnil, hcurrent⟩ := started.current
  obtain ⟨kept, new, hnew, keeps⟩ :=
    h.keeps (persisting.lawful True) persisting_hosts fun _ _ h => h
  rw [hnil, List.append_nil] at hnew
  have persists : u.Persists := by
    refine keeps trivial (fun e he => free e (hnew ▸ he)) ⟨?_, hcurrent⟩
    rw [hset]
    exact accepts
  have key : u.settings = settings := kept.trans hset
  rcases persists.current with saved | ⟨saved, empty⟩
  · obtain ⟨document, stored, -⟩ := Terminal.saved?_eq_some_iff.mp saved
    rw [key] at stored
    refine .inr ⟨document, stored, fun settings' console dice same => ?_⟩
    have restored := Terminal.restore_of_saved saved (by rw [same, key]) console dice
    exact ⟨_, restored, rfl, rfl, rfl⟩
  · have stored := Terminal.saved?_eq_none_iff.mp saved
    rw [key] at stored
    refine .inl ⟨stored, ?_, ?_, ?_⟩
    · exact congrArg Snapshot.program empty
    · exact congrArg Snapshot.bindings empty
    · exact congrArg Snapshot.aliases empty

/-- A line is stored, and a variable is set while another line is expanded. -/
theorem carries_current_nested :
    let console := Console.recorder { grid := ⟨60, 25⟩ }
    let store := Store.memory .empty
    let s := Terminal.ofSettings {} console store ⟨0⟩
    store.Accepts s.settings.storageKey ∧ Terminal.Started {} store s ∧
      ∃ u, builtin.Carries s ["10 PRINT hi".toList, "PRINT (ASSIGN 1 TO x)".toList] u ∧
        (∀ e ∈ u.trace, ¬ e.Exports) ∧ u.session.bindings ≠ .empty ∧
        ∃ t, (Terminal.ofSettings {} console u.store ⟨0⟩).restore = (.ok true, t) ∧
          t.session.bindings = u.session.bindings := by
  intro console store s
  have accepts : store.Accepts s.settings.storageKey := fun _ => rfl
  have started : Terminal.Started {} store s := .fresh console ⟨0⟩ rfl
  have ends : ((builtin.dispatch 3 "10 PRINT hi".toList >>= fun _ =>
      builtin.dispatch 3 "PRINT (ASSIGN 1 TO x)".toList) s).any (fun r =>
        decide (∀ e ∈ r.2.trace, ¬ e.Exports) && decide (r.2.session.bindings ≠ .empty)) = true := by
    decide +kernel
  obtain ⟨⟨output, u⟩, h, checked⟩ := (Option.any_eq_true _ _).mp ends
  obtain ⟨free, set⟩ := Bool.and_eq_true_iff.mp checked
  have free : ∀ e ∈ u.trace, ¬ e.Exports := of_decide_eq_true free
  have set : u.session.bindings ≠ .empty := of_decide_eq_true set
  obtain ⟨_, t, first, second⟩ := Run.bind_eq_some.mp h
  have carried : builtin.Carries s ["10 PRINT hi".toList, "PRINT (ASSIGN 1 TO x)".toList] u :=
    .cons first (.cons second (.nil u))
  refine ⟨accepts, started, u, carried, free, set, ?_⟩
  rcases carries_current accepts started carried free with ⟨-, -, empty, -⟩ | ⟨_, -, restores⟩
  · exact absurd empty set
  · obtain ⟨t, restored, -, same, -⟩ := restores {} console ⟨0⟩ rfl
    exact ⟨t, restored, same⟩

end Registry

end Teletype
