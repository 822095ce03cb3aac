/-
# Exports

The listing of the stored program can be written to the store, under a key that the line
gives.  What is written is a string, and no session is read from a string.  The main
statement is that **an export leaves what a restart puts back, unless it is written under
the key of the session** (`Registry.dispatch_download`); then a restart finds nothing that
it could put back, and the session is lost (`Registry.dispatch_download_session`).
-/
import Teletype.Proofs.Address
import Teletype.Proofs.Persistence

namespace Teletype

/-! ## The store while nothing is saved -/

/-- The store was asked to save something. -/
def Event.Saves : Event → Prop
  | .saved _ => True
  | _ => False

/-- What commands do about the store: they leave it as it is unless they note that they save
something. -/
def sparing : Conduct := fun _ s u =>
  u.settings = s.settings ∧
    ∃ new, u.trace = new ++ s.trace ∧ ((∀ e ∈ new, ¬ e.Saves) → u.store = s.store)

namespace sparing

variable {m m' : Manner} {s t u : Terminal}

/-- What is level and leaves the store. -/
theorem of_level (h : s.Level u) (store : u.store = s.store) : sparing m s u := by
  obtain ⟨new, trace, -⟩ := h.trace
  exact ⟨congrArg (·.1) h.posture, new, trace, fun _ => store⟩

/-- What is noted as saving may do anything to the store. -/
theorem of_saved {key : Text} (settings : u.settings = s.settings)
    (trace : u.trace = .saved key :: s.trace) : sparing m s u :=
  ⟨settings, [.saved key], trace, fun free => absurd trivial (free _ List.mem_cons_self)⟩

/-- One act can be done after another. -/
theorem trans (h : sparing m s t) (h' : sparing m' t u) : sparing m' s u := by
  obtain ⟨settings, new, ht, keeps⟩ := h
  obtain ⟨settings', new', hu, keeps'⟩ := h'
  refine ⟨settings'.trans settings, new' ++ new, Terminal.trace_append ht hu, fun free => ?_⟩
  obtain ⟨free', free⟩ := List.forall_mem_append.mp free
  exact (keeps' free').trans (keeps free)

/-- The steps that every command may take leave the store or are noted as saving. -/
theorem routine (h : s.Routine u) : sparing m s u := by
  have level := h.level
  cases h with
  | save => exact of_saved rfl rfl
  | print text => exact of_level level (Terminal.print_same s text).2.1
  | stop =>
    have store : s.takeStop.2.store = s.store := by
      unfold Terminal.takeStop
      dsimp only
      split <;> rfl
    exact of_level level store
  | _ => exact of_level level rfl

/-- Leaving the store unless something is saved is lawful. -/
theorem lawful : Conduct.Lawful sparing where
  refl s := of_level (.of_trace_eq rfl rfl) rfl
  trans := trans
  settled h := h
  faulted h := h
  well h _ := h
  routine h h' := trans h' (routine (m := .well) h)
  scope {m s u} k h := by
    obtain ⟨settings, new, trace, keeps⟩ := h
    exact ⟨settings, new, trace, keeps⟩
  run {m s u} _ h := by
    obtain ⟨settings, new, trace, keeps⟩ := h
    refine ⟨settings, .ended :: (new ++ [.began (s.session.depth + 1)]), ?_, fun free => ?_⟩
    · rw [List.cons_append, List.append_assoc]
      exact congrArg _ trace
    · exact keeps fun e he => free e (by simp [he])

/-- The edits of commands are noted as saving, or leave the store. -/
theorem bears (manual : Manual) (b : Builtin) : sparing.Bears manual b := by
  intro t u h
  cases h with
  | clear _ text =>
    -- the message is printed between the change and the saving
    have said : sparing .well (t.update fun s => { s with program := .empty })
        ((t.update fun s => { s with program := .empty }).printLine text) :=
      routine (.print _ _)
    have cleared : sparing .well t (t.update fun s => { s with program := .empty }) :=
      of_level (.of_trace_eq rfl rfl) rfl
    exact trans (trans cleared said) (of_saved rfl rfl)
  | color => exact of_level (.of_trace_eq rfl rfl) rfl
  | theme => exact of_level (.of_trace_eq rfl rfl) rfl
  | _ => exact of_saved rfl rfl

end sparing

namespace Registry

/-- **Dispatched lines leave the store unless they note that something is saved.** -/
theorem sparing_hosts (bound : Nat) : sparing.Hosts (builtin.dispatch bound) := by
  refine hosts_of_bears sparing.lawful.toSteady sparing.bears (fun t n => ?_) (fun t e _ => ?_)
    (fun t n text => ?_) bound
  · exact ⟨rfl, [], rfl, fun _ => rfl⟩
  · exact ⟨rfl, [e], rfl, fun _ => rfl⟩
  · exact sparing.of_saved (m := .well) rfl rfl

end Registry

/-! ## Exporting -/

/-- What an export of the stored program writes. -/
def Terminal.exported (t : Terminal) : Text :=
  Json.quote (t.session.program.listing.flatMap fun line => line ++ ['\n'])

namespace Terminal

variable {t u : Terminal} {key : Text}

/-- **What is saved under another key leaves what a restart puts back.** -/
theorem restart_saveUnder_other (value : Text) (h : t.settings.storageKey ≠ key)
    (console : Console) (dice : Dice) :
    ((t.saveUnder key value).2.restart t.settings console dice).session.snapshot
      = (t.restart t.settings console dice).session.snapshot := by
  have same : (t.saveUnder key value).2.settings = t.settings := rfl
  have store : (t.saveUnder key value).2.store = (t.store.save key value).2 := rfl
  rw [snapshot_restart rfl, snapshot_restart (congrArg _ same.symm)]
  unfold saved?
  rw [same, store]
  -- an error that is found where nothing was saved puts nothing back either
  rcases t.store.load_save_other value h with same | ⟨before, f, refused⟩
  · rw [same]
  · rw [before, refused]

/-- **An export under the key of the session takes the session's place**, and nothing can be
put back from it. -/
theorem saved?_of_exported (h : t.saveUnder t.settings.storageKey t.exported = (.ok (), u)) :
    u.saved? = .error (.badSnapshot "not the document of a session".toList) := by
  have accepted : (t.store.save t.settings.storageKey t.exported).1 = .ok () :=
    congrArg Prod.fst h
  have terminal : (t.saveUnder t.settings.storageKey t.exported).2 = u := congrArg Prod.snd h
  have loaded : u.store.load u.settings.storageKey = .ok (some t.exported) := by
    rw [← terminal]
    exact Store.load_save accepted
  have unread : Snapshot.read? t.exported = none := Snapshot.read?_quote _
  unfold saved?
  rw [loaded]
  dsimp only
  rw [unread]

end Terminal

/-- How a listing is written to the store: the words are expanded, the listing is written
under the key that they give, and if the store takes it a message is printed. -/
theorem Command.download_cases {host : Host} {words : List Text} {s u : Terminal}
    {output : Output} (h : (download.perform host words).run s = some (.ok output, u)) :
    ∃ words' t v, (host.expand words).run s = some (.ok words', t) ∧
      t.saveUnder (words'.getD 1 listingKey) t.exported = (.ok (), v) ∧
      u = v.printLine ("Program saved to ".toList ++ words'.getD 1 listingKey ++ ['.']) := by
  rcases Act.bind_eq_some.mp h with ⟨f, -, impossible⟩ | ⟨words', t, expanded, h⟩
  · cases impossible
  · rw [Act.run_session_bind] at h
    rcases Act.bind_eq_some.mp h with ⟨f, -, impossible⟩ | ⟨_, v, written, h⟩
    · cases impossible
    · cases h
      exact ⟨words', t, v, expanded, Option.some.inj written, rfl⟩

namespace Registry

variable {bound : Nat} {line : Text} {s u : Terminal} {output : Output}

/-- **An export leaves the saved session unless it is written under its key.**  Where the line
of an export succeeds, whatever its words say, a restart puts back what it would have put
back once the words were expanded; this is what it would have put back before the line,
unless something was saved while they were expanded.  Only if the words give the key of the
session, a restart finds a document that it cannot read, and puts nothing back. -/
theorem dispatch_download (hb : Builtin.ofLine? (Text.strip line) = some .download)
    (h : builtin.dispatch (bound + 1) line s = some (output, u))
    (succeeded : u.session.status = 0) :
    ∃ words t new,
      ((builtin.host bound).expand (Text.words (Text.strip line))).run
        (entered s (Text.strip line)) = some (.ok words, t) ∧
      t.trace = new ++ (entered s (Text.strip line)).trace ∧
      ∀ (console : Console) (dice : Dice),
        (words.getD 1 Command.listingKey ≠ s.settings.storageKey →
          (u.restart s.settings console dice).session.snapshot = (t.restart s.settings console dice).session.snapshot ∧
          ((∀ e ∈ new, ¬ e.Saves) → (u.restart s.settings console dice).session.snapshot
            = (s.restart s.settings console dice).session.snapshot)) ∧
        (words.getD 1 Command.listingKey = s.settings.storageKey →
          u.saved? = .error (.badSnapshot "not the document of a session".toList) ∧
          (u.restart s.settings console dice).session.snapshot = {}) := by
  obtain ⟨v, performed, left⟩ := perform_of_status hb h succeeded
  obtain ⟨words, t, w, expanded, written, printed⟩ := Command.download_cases performed
  have H : sparing.Hosts (builtin.host bound).dispatch := sparing_hosts bound
  obtain ⟨settings, new, trace, keeps⟩ :=
    Host.goes_expand sparing.lawful H _ _ _ _ expanded
  have settings : t.settings = s.settings := settings
  -- behind the export only a message is printed
  have behind : u.settings = w.settings ∧ u.store = w.store := by
    obtain ⟨settings, store, -⟩ := Terminal.print_same w
      ("Program saved to ".toList ++ words.getD 1 Command.listingKey ++ ['.'] ++ ['\n'])
    rw [left, printed]
    exact ⟨settings, store⟩
  refine ⟨words, t, new, expanded, trace, fun console dice => ?_⟩
  rw [Terminal.restart_congr behind.2, ← settings]
  refine ⟨fun other => ?_, fun own => ?_⟩
  · have kept : (w.restart t.settings console dice).session.snapshot
        = (t.restart t.settings console dice).session.snapshot := by
      have exported := Terminal.restart_saveUnder_other t.exported (Ne.symm other) console dice
      rwa [written] at exported
    refine ⟨kept, fun free => ?_⟩
    have store : t.store = s.store := keeps free
    rw [kept, Terminal.restart_congr store]
  · rw [own] at written
    have lost := Terminal.saved?_of_exported written
    have same : w.settings = t.settings :=
      congrArg (fun r => r.2.settings) written.symm
    refine ⟨?_, ?_⟩
    · rw [← lost]
      exact Terminal.saved?_congr (congrArg _ behind.1) behind.2
    · rw [Terminal.snapshot_restart (congrArg _ same.symm), lost]

/-- A listing is written under a key of its own behind a session with a program and an alias,
and the session is still put back. -/
theorem dispatch_download_backup :
    let console := Console.recorder { grid := ⟨60, 25⟩ }
    let p := Program.setLine .empty 10 "PRINT A".toList
    let s := ((Terminal.ofSettings {} console (.memory .empty) ⟨0⟩).update fun t =>
      { t with program := p, aliases := t.aliases.insert "P".toList p }).save
    ∃ output u, builtin.dispatch 3 "DOWNLOAD backup".toList s = some (output, u) ∧
      u.session.status = 0 ∧ u.store.load "backup".toList = .ok (some s.exported) ∧
      (s.restart {} console ⟨0⟩).session.snapshot = s.session.snapshot ∧
      (u.restart {} console ⟨0⟩).session.snapshot = (s.restart {} console ⟨0⟩).session.snapshot := by
  intro console p s
  have ends : (builtin.dispatch 3 "DOWNLOAD backup".toList s).any (fun r =>
      decide (r.2.session.status = 0)
        && decide ((r.2.store.load "backup".toList).toOption = some (some s.exported))) = true := by
    decide +kernel
  have restored : (s.restart {} console ⟨0⟩).session.snapshot = s.session.snapshot := by
    decide +kernel
  obtain ⟨⟨output, u⟩, h, checked⟩ := (Option.any_eq_true _ _).mp ends
  obtain ⟨succeeded, written⟩ := Bool.and_eq_true_iff.mp checked
  have succeeded : u.session.status = 0 := of_decide_eq_true succeeded
  have written : u.store.load "backup".toList = .ok (some s.exported) := by
    have found := of_decide_eq_true written
    rcases hl : u.store.load "backup".toList with f | value
    · rw [hl] at found
      cases found
    · rw [hl] at found
      rw [Option.some.inj found]
  obtain ⟨words, t, new, expanded, trace, kept⟩ := dispatch_download (by decide) h succeeded
  -- the words stand for themselves, so nothing is carried out while they are expanded
  have literal : ∀ w ∈ ["DOWNLOAD".toList, "backup".toList], Text.Literal w := by
    intro w hw
    refine .of_isLiteral ?_
    revert w
    decide
  have itself : (builtin.host 2).expand ["DOWNLOAD".toList, "backup".toList] = pure _ :=
    expand_literal literal (List.cons_ne_nil _ _) (by decide)
  rw [show Text.words (Text.strip "DOWNLOAD backup".toList) = ["DOWNLOAD".toList, "backup".toList]
    from by decide, itself] at expanded
  cases expanded
  have nothing : new = [] := List.append_left_eq_self.mp trace.symm
  refine ⟨output, u, h, succeeded, written, restored, ?_⟩
  obtain ⟨other, -⟩ := kept console ⟨0⟩
  refine (other (by decide)).2 fun e he => ?_
  rw [nothing] at he
  cases he

/-- **An export under the key of the session loses the session.**  The export succeeds, and a
restart behind it does not put back the program that a restart before it puts back. -/
theorem dispatch_download_session :
    let console := Console.recorder { grid := ⟨60, 25⟩ }
    let start := Terminal.ofSettings {} console (.memory .empty) ⟨0⟩
    ∃ o s o' u, builtin.dispatch 3 "10 PRINT A".toList start = some (o, s) ∧
      builtin.dispatch 3 "DOWNLOAD cterm--programInput".toList s = some (o', u) ∧
      u.session.status = 0 ∧
      (s.restart {} console ⟨0⟩).session.program = Program.setLine .empty 10 "PRINT A".toList ∧
      (u.restart {} console ⟨0⟩).session.program = .empty := by
  intro console start
  have ends : (builtin.dispatch 3 "10 PRINT A".toList start).any (fun r =>
      decide ((r.2.restart {} console ⟨0⟩).session.program
        = Program.setLine .empty 10 "PRINT A".toList)
      && (builtin.dispatch 3 "DOWNLOAD cterm--programInput".toList r.2).any fun r' =>
        decide (r'.2.session.status = 0)
          && decide ((r'.2.restart {} console ⟨0⟩).session.program = .empty)) = true := by
    decide +kernel
  obtain ⟨⟨o, s⟩, first, checked⟩ := (Option.any_eq_true _ _).mp ends
  obtain ⟨before, checked⟩ := Bool.and_eq_true_iff.mp checked
  obtain ⟨⟨o', u⟩, second, checked⟩ := (Option.any_eq_true _ _).mp checked
  obtain ⟨succeeded, after⟩ := Bool.and_eq_true_iff.mp checked
  exact ⟨o, s, o', u, first, second, of_decide_eq_true succeeded, of_decide_eq_true before,
    of_decide_eq_true after⟩

end Registry

end Teletype
