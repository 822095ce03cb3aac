/-
# Commands that a program may not hold

RUN, MOVE, DELETE and SAVE change or run what a running program is made of.  A run ends at
a line that begins with one of them, and the commands themselves refuse while a program
runs, so that they are refused as well where a run does not look: behind blanks, in a
branch, in a repetition, in a parenthesis.  The main statement is that **these commands do
nothing while a program runs but report that they are refused** (`Registry.held_refused`),
and that a program runs wherever a line is dispatched inside a run or a repetition.
-/
import Teletype.Proofs.Exclusion

namespace Teletype

/-! ## The commands -/

/-- The command may not be used while a program runs. -/
def Builtin.IsHeld (b : Builtin) : Prop := b ∈ [run, move, delete, save]

instance (b : Builtin) : Decidable b.IsHeld :=
  inferInstanceAs (Decidable (b ∈ [Builtin.run, .move, .delete, .save]))

/-- A line that a program may not hold names a command that may not be used while a program
runs. -/
theorem Builtin.exists_held {line : Text} (h : Runner.isHeld line = true) :
    ∃ b, ofLine? line = some b ∧ b.IsHeld := by
  have named : Text.upper (Text.firstWord line) ∈ Runner.heldWords := of_decide_eq_true h
  unfold ofLine?
  generalize Text.upper (Text.firstWord line) = word at named
  unfold Runner.heldWords at named
  simp only [List.mem_cons, List.not_mem_nil, or_false] at named
  rcases named with rfl | rfl | rfl | rfl
  · exact ⟨.run, by decide +kernel, by decide⟩
  · exact ⟨.move, by decide +kernel, by decide⟩
  · exact ⟨.delete, by decide +kernel, by decide⟩
  · exact ⟨.save, by decide +kernel, by decide⟩

/-- While a program runs, what is behind the check is not done. -/
theorem Act.run_ensureIdle_bind {α : Type} {s : Terminal} (h : s.session.executing = true)
    (k : Unit → Act α) : (ensureIdle >>= k).run s = some (.error .heldByProgram, s) := by
  have refused : ensureIdle.run s = some (.error .heldByProgram, s) := by
    rw [ensureIdle, run_session_bind, if_pos h]
    rfl
  exact Act.run_bind_of_error refused

/-- While a program runs a command that may not be used then is refused before it looks at
its words. -/
theorem Builtin.IsHeld.perform {b : Builtin} (hb : b.IsHeld) (host : Host) (words : List Text)
    {s : Terminal} (h : s.session.executing = true) :
    (b.command.perform host words).run s = some (.error .heldByProgram, s) := by
  unfold IsHeld at hb
  simp only [List.mem_cons, List.not_mem_nil, or_false] at hb
  rcases hb with rfl | rfl | rfl | rfl <;> exact Act.run_ensureIdle_bind h _

/-! ## Refused lines -/

/-- Between two terminals a line was refused because a program runs. -/
structure Terminal.Refuses (s : Terminal) (line : Text) (u : Terminal) : Prop where
  /-- The line was entered, the fault reported, and the line left. -/
  reported : u = ((Registry.entered s line).report .heldByProgram).note (.left 1)
  /-- The settings are the same. -/
  settings : u.settings = s.settings
  /-- The store is the same. -/
  store : u.store = s.store
  /-- Of the session the status tells of a failure, and a stop may have been asked for; all
  else is the same. -/
  session : u.session = { s.session with status := 1, stopping := u.session.stopping }
  /-- While the line was carried out nothing was done but to print the message, unless
  nothing is printed. -/
  trace : ∃ said, u.trace = .left 1 :: (said ++ .entered line :: s.trace) ∧
    ∀ e ∈ said, e = .stopSeen ∨
      ∃ delay color, e = .printed (Fault.heldByProgram.message ++ ['\n']) delay color

/-- Reporting the fault changes nothing else. -/
theorem Terminal.refuses (s : Terminal) (line : Text) :
    s.Refuses line (((Registry.entered s line).report .heldByProgram).note (.left 1)) := by
  generalize hu : ((Registry.entered s line).report .heldByProgram).note (.left 1) = u
  have reported := hu.symm
  unfold Terminal.report Terminal.printLine Terminal.print at hu
  split at hu
  · subst hu
    exact ⟨reported, rfl, rfl, rfl, [], rfl, fun e he => absurd he List.not_mem_nil⟩
  · split at hu
    · subst hu
      exact ⟨reported, rfl, rfl, rfl, [.stopSeen], rfl, fun e he => .inl (List.mem_singleton.mp he)⟩
    · subst hu
      refine ⟨reported, rfl, rfl, rfl, [_], rfl, fun e he => .inr ?_⟩
      exact ⟨_, _, List.mem_singleton.mp he⟩

/-- A line that names a command which may not be used while a program runs is refused then. -/
theorem Registry.dispatch_held (bound : Nat) {s : Terminal} {line : Text} {b : Builtin}
    (h : s.session.executing = true) (named : Builtin.ofLine? (Text.strip line) = some b)
    (hb : b.IsHeld) :
    ∃ u, builtin.dispatch (bound + 1) line s = some (.failure, u) ∧
      s.Refuses (Text.strip line) u := by
  refine ⟨_, ?_, s.refuses (Text.strip line)⟩
  have failed : (b.command.perform (builtin.host bound) (Text.words (Text.strip line))).run
      (entered s (Text.strip line)) = some (.error .heldByProgram, entered s (Text.strip line)) :=
    hb.perform _ _ h
  have settled : Run.settle (b.command.perform (builtin.host bound) (Text.words (Text.strip line)))
      (entered s (Text.strip line))
      = some (.failure, (entered s (Text.strip line)).report .heldByProgram) :=
    Run.bind_eq_some.mpr ⟨_, _, failed, rfl⟩
  have status : ((entered s (Text.strip line)).report .heldByProgram).session.status = 1 :=
    (Terminal.Quiet.print _ _).status
  rw [dispatch_command named, settled, Option.map_some, leave, status]

/-! ## Aliases while a program runs -/

/-- Between two terminals no alias was added or replaced. -/
def Terminal.AddsNoAlias (s u : Terminal) : Prop :=
  ∀ name p, u.session.aliases.get? name = some p → s.session.aliases.get? name = some p

namespace Terminal.AddsNoAlias

variable {s t u : Terminal}

/-- The aliases stayed as they were. -/
theorem of_eq (h : u.session.aliases = s.session.aliases) : s.AddsNoAlias u := by
  intro name p hp
  rw [← h]
  exact hp

/-- One thing was done after another. -/
theorem trans (h : s.AddsNoAlias t) (h' : t.AddsNoAlias u) : s.AddsNoAlias u :=
  fun name p hp => h name p (h' name p hp)

end Terminal.AddsNoAlias

/-- The edits of commands that may be used while a program runs add and replace no alias. -/
theorem Builtin.Edit.addsNoAlias {manual : Manual} {b : Builtin} {t u : Terminal}
    (h : b.Edit manual t u) (hb : ¬ b.IsHeld) : t.AddsNoAlias u := by
  cases h with
  | store => exact absurd (by decide) hb
  | drop _ name =>
    intro other p hp
    have kept : (t.session.aliases.erase name).get? other = some p := hp
    rw [Table.get?_erase] at kept
    split at kept
    · cases kept
    · exact kept
  | clear _ text =>
    have same := (Terminal.Routine.print (t.update fun s => { s with program := .empty })
      (text ++ ['\n'])).same.1
    exact .of_eq (congrArg Snapshot.aliases same)
  | _ => exact .of_eq rfl

/-- What commands do about flags, and about aliases while a program runs. -/
def subdued : Conduct := fun _ s u =>
  s.Scoped u ∧ (s.session.executing = true → s.AddsNoAlias u)

namespace subdued

/-- What commands do about aliases while a program runs is lawful. -/
theorem lawful : Conduct.Lawful subdued where
  refl s := ⟨.refl s, fun _ => .of_eq rfl⟩
  trans h h' := ⟨h.1.trans h'.1, fun up => (h.2 up).trans (h'.2 (h.1.executing.trans up))⟩
  settled h := h
  faulted h := h
  well h _ := h
  routine step h := by
    have same : _ = _ := congrArg Snapshot.aliases step.same.1
    exact ⟨h.1.trans (.routine step), fun up => (h.2 up).trans (.of_eq same)⟩
  scope {m s u} k h := by
    refine ⟨.scope k h.1, fun up => ?_⟩
    cases k with
    | silently => exact h.2 up
    | asProgram => exact h.2 rfl
  run deep h := ⟨.run deep h.1, fun _ => h.2 rfl⟩

/-- The edits of commands that may be used while a program runs are fine. -/
theorem bears (manual : Manual) {b : Builtin} (hb : ¬ b.IsHeld) : subdued.Bears manual b :=
  fun _ _ h => ⟨.of_level h.level (.edit h), fun _ => h.addsNoAlias hb⟩

end subdued

namespace Registry

/-- What the words of a line do about aliases while a program runs, if they name no command
that may not be used then. -/
theorem subdued_carryOut {host : Host} {words : List Text} {s u : Terminal} {output : Output}
    (H : subdued.Hosts host.dispatch)
    (free : ∀ b, Builtin.named? (Text.upper (words.headD [])) = some b → ¬ b.IsHeld)
    (h : builtin.carryOut host words s = some (output, u)) : subdued output.manner s u := by
  have tell : ∀ {t : Terminal} (status : Int) (text : Text), subdued .well s t →
      subdued .well s ((t.update fun t => { t with status }).print text) := by
    intro t status text ht
    have marked : subdued .well t (t.update fun t => { t with status }) :=
      ⟨.status t status, fun _ => .of_eq rfl⟩
    exact subdued.lawful.routine (.print _ text) (subdued.lawful.trans ht marked)
  refine carryOut_ends subdued.lawful H (fun b hb => subdued.bears _ (free b hb))
    (fun f t ht => tell f.status _ ht) (fun n text t ht => ?_) (fun word t ht => ?_) h
  · cases ht
    exact ⟨.of_level (.of_trace_cons rfl rfl ⟨id, rfl, rfl⟩) (.line s n text), fun _ => .of_eq rfl⟩
  · cases ht
    exact tell 1 _ (subdued.lawful.refl s)

/-- **While a program runs dispatched lines add and replace no alias.** -/
theorem subdued_hosts (bound : Nat) : subdued.Hosts (builtin.dispatch bound) := by
  refine hosts_dispatch (fun s => ⟨.note s trivial, fun _ => .of_eq rfl⟩)
    (fun bound line s output t H hl h => ?_) bound
  have dispatched : builtin.dispatch (bound + 1) line s = some (leave (output, t)) := by
    rw [dispatch_eq_map hl, h]
    rfl
  refine ⟨scoping_hosts (bound + 1) line s _ _ dispatched, fun up => ?_⟩
  by_cases held : ∃ b, Builtin.ofLine? (Text.strip line) = some b ∧ b.IsHeld
  · -- the line was refused
    obtain ⟨b, named, hb⟩ := held
    obtain ⟨u, ran, refused⟩ := dispatch_held bound up named hb
    have same : leave (output, t) = (.failure, u) :=
      Option.some_inj.mp (dispatched.symm.trans ran)
    have behind : t.note (.left t.session.status) = u := congrArg Prod.snd same
    rw [behind]
    have kept := congrArg Session.aliases refused.session
    exact .of_eq kept
  · have free : ∀ b, Builtin.ofLine? (Text.strip line) = some b → ¬ b.IsHeld :=
      fun b named hb => held ⟨b, named, hb⟩
    exact (subdued_carryOut H free h).2 up

/-- A run adds and replaces no alias. -/
theorem run_addsNoAlias {bound : Nat} {p : Program} {s u : Terminal} {r : Except Fault Unit}
    (h : ((builtin.host bound).run p).run s = some (r, u)) : s.AddsNoAlias u := by
  rcases Runner.run_cases h with ⟨-, t, walked, rfl⟩ | ⟨-, -, rfl⟩
  · have ends := Runner.goes_walk subdued.lawful (subdued_hosts bound) _ _ _ _ _ walked
    -- once the run began a program runs, however its lines end
    cases r with
    | error e => exact ends.2 rfl
    | ok x => exact ends.2 rfl
  · exact .of_eq rfl

/-! ## What a running program may do -/

/-- Lines are barred where no program runs. -/
def idle : Bar := fun _ _ t => !t.session.executing

/-- Where a program runs no line is barred that is barred where none does. -/
theorem idle_of_executing (bound : Nat) (line : Text) (s : Terminal)
    (h : s.session.executing = true) : idle bound line s = false := by
  rw [idle, h]
  rfl

/-- **Commands that a program may not hold are inert while a program runs.**  A line that
names one of them, in any case and with any arguments, is refused where a program runs: it
ends with status one and the message, its arguments are not expanded, no run begins, and
nothing else changes.  A run ends at a line of the program that begins with one.  A program
runs wherever a line is dispatched inside a line that is dispatched then, inside a run, and
inside a repetition, at every depth: it makes no difference if all lines are barred that are
dispatched where none runs.  And no run adds or replaces an alias. -/
theorem held_refused (bound : Nat) :
    (∀ (s : Terminal) (line : Text), s.session.executing = true →
      Text.upper (Text.firstWord (Text.strip line))
        ∈ ["RUN".toList, "MOVE".toList, "DELETE".toList, "SAVE".toList] →
      ∃ u, builtin.dispatch (bound + 1) line s = some (.failure, u) ∧
        s.Refuses (Text.strip line) u) ∧
    (∀ (dispatch : Text → Run Output) (p : Program) (budget : Nat) (n : LineNumber)
      (text : Text) (s : Terminal),
      Text.upper (Text.firstWord text)
        ∈ ["RUN".toList, "MOVE".toList, "DELETE".toList, "SAVE".toList] →
      (Runner.step dispatch p budget n text).run s = some (.error .heldByProgram, s)) ∧
    (∀ (s : Terminal) (line : Text), s.session.executing = true →
      builtin.dispatchBarring idle bound line s = builtin.dispatch bound line s) ∧
    (∀ (s : Terminal) (p : Program),
      ((builtin.hostBarring idle bound).run p).run s = ((builtin.host bound).run p).run s) ∧
    (∀ (s : Terminal) (name body : Text) (items : List Text),
      (Act.asProgram (Command.repeatFor (builtin.hostBarring idle bound) name body [] items)).run s
        = (Act.asProgram (Command.repeatFor (builtin.host bound) name body [] items)).run s) ∧
    ∀ (s : Terminal) (p : Program) (r : Except Fault Unit) (u : Terminal),
      ((builtin.host bound).run p).run s = some (r, u) → s.AddsNoAlias u := by
  have lasting := Terminal.Lasting.executing
  have isHeld : ∀ {line : Text}, Text.upper (Text.firstWord line)
      ∈ ["RUN".toList, "MOVE".toList, "DELETE".toList, "SAVE".toList] →
      Runner.isHeld line = true := decide_eq_true
  refine ⟨fun s line up named => ?_, fun _ _ _ _ _ _ named => Runner.step_run_held (isHeld named),
    fun s line up => dispatchBarring_eq lasting idle_of_executing bound line up,
    fun s p => runBarring_eq lasting idle_of_executing bound p rfl,
    fun s name body items => repeatForBarring_eq lasting idle_of_executing bound name body items rfl,
    fun s p r u h => run_addsNoAlias h⟩
  obtain ⟨b, named, hb⟩ := Builtin.exists_held (isHeld named)
  exact dispatch_held bound up named hb

/-- A line in lower case, behind blanks and with a parenthesis, that is refused while a
program runs, a line of a program that ends a run, a branch, and a run that drops an alias. -/
theorem held_refused_save :
    let start := Terminal.ofSettings {} (.recorder { grid := ⟨60, 25⟩ }) (.memory .empty) ⟨0⟩
    let s := start.update fun t => { t with executing := true }
    let p : Program := Program.setLine .empty 10 "ALIAS b -d".toList
    let kept := start.update fun t => { t with aliases := t.aliases.insert "B".toList p }
    (∃ u, builtin.dispatch 4 "  sAVE a (NEW)".toList s = some (.failure, u) ∧
      s.Refuses "sAVE a (NEW)".toList u) ∧
    (Runner.step (builtin.dispatch 4) p 0 10 "run".toList).run s
      = some (.error .heldByProgram, s) ∧
    builtin.dispatchBarring idle 4 "IF 1 THEN (RUN)".toList s
      = builtin.dispatch 4 "IF 1 THEN (RUN)".toList s ∧
    ∃ r u, ((builtin.host 4).run p).run kept = some (r, u) ∧
      u.session.aliases.get? "B".toList = none ∧ kept.AddsNoAlias u := by
  intro start s p kept
  obtain ⟨-, ended, nested, -, -, adds⟩ := held_refused 4
  have ran : (((builtin.host 4).run p).run kept).any (fun r =>
      decide (r.2.session.aliases.get? "B".toList = none)) = true := by
    decide +kernel
  obtain ⟨⟨r, u⟩, h, dropped⟩ := (Option.any_eq_true _ _).mp ran
  refine ⟨(held_refused 3).1 s "  sAVE a (NEW)".toList rfl (by decide +kernel),
    ended _ _ _ _ _ _ (by decide +kernel), nested s _ rfl, r, u, h, of_decide_eq_true dropped, adds _ _ _ _ h⟩

end Registry

end Teletype
