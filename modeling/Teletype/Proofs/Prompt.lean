/-
# The prompt

The loop asks for each line with a prompt.  It forgets a request to stop that was noticed
before, and so the prompt is printed; but printing is also what notices a request that the
console still has, and such a request silences the prompt and the line behind it.  The main
statement is that **the loop prints a prompt and carries its line out without stopping
exactly if no request is pending on the console when the turn begins**, and that a pending
one is taken by the prompt, so that every later prompt is printed (`Registry.loop_prompts`).
-/
import Teletype.InputLoop
import Teletype.Proofs.Scopes
import Teletype.Proofs.Silence

namespace Teletype

/-! ## What becomes of a console -/

/-- What may become of a console while lines are carried out: lines are read from the head of
its queue, and a stop is not asked for anew. -/
inductive Console.Onward : Console → Console → Prop
  /-- A recorder stays one. -/
  | recorder {r r' : Recorder} (input : r'.input <:+ r.input)
      (stop : r'.stopAfter = r.stopAfter ∨ r'.stopAfter = none) :
      Onward (.recorder r) (.recorder r')
  /-- A pair of streams stays one. -/
  | stream {s s' : Stream} (input : s'.input <:+ s.input) : Onward (.stream s) (.stream s')

namespace Console

variable {c d e : Console}

namespace Onward

/-- Nothing was done with the console. -/
theorem refl (c : Console) : c.Onward c := by
  cases c with
  | recorder r => exact .recorder List.suffix_rfl (.inl rfl)
  | stream s => exact .stream List.suffix_rfl

/-- One thing was done after another. -/
theorem trans (h : c.Onward d) (h' : d.Onward e) : c.Onward e := by
  cases h with
  | recorder input stop =>
    cases h' with
    | recorder input' stop' =>
      refine .recorder (input'.trans input) ?_
      rcases stop' with same | spent
      · rwa [same]
      · exact .inr spent
  | stream input =>
    cases h' with
    | stream input' => exact .stream (input'.trans input)

/-- A text was printed. -/
theorem print (c : Console) (text : Text) : c.Onward (c.print text) := by
  cases c with
  | recorder r => exact .recorder List.suffix_rfl (.inl rfl)
  | stream s => exact .stream List.suffix_rfl

/-- A line was read. -/
theorem read (c : Console) : c.Onward c.read.2 := by
  cases c with
  | recorder r =>
    obtain ⟨grid, cursor, output, theme, input, prints, stopAfter⟩ := r
    cases input with
    | nil => exact refl _
    | cons line lines => exact .recorder (List.suffix_cons line lines) (.inl rfl)
  | stream s =>
    obtain ⟨grid, cursor, input, output⟩ := s
    cases input with
    | nil => exact refl _
    | cons line lines => cases line <;> exact .stream (List.suffix_cons _ lines)

/-- It was asked whether to stop. -/
theorem takeStop (c : Console) : c.Onward c.takeStop.2 := by
  cases c with
  | recorder r =>
    show Onward (.recorder r) (.recorder r.takeStop.2)
    unfold Recorder.takeStop
    split
    · exact .recorder List.suffix_rfl (.inr rfl)
    · exact refl _
  | stream s => exact refl _

/-- Something other than printing was done. -/
theorem other (h : c.Other d) : c.Onward d := by
  cases h with
  | read => exact read c
  | stop => exact takeStop c
  | _ =>
    cases c with
    | recorder r => exact .recorder List.suffix_rfl (.inl rfl)
    | stream s => exact .stream List.suffix_rfl

/-- No more reads are left than before. -/
theorem pending_le (h : c.Onward d) : d.pending ≤ c.pending := by
  cases h with
  | recorder input => exact input.length_le
  | stream input => exact input.length_le

/-- A recorder stays one, and asks for no stop if it did not. -/
theorem of_recorder {r : Recorder} (h : Onward (.recorder r) d) :
    ∃ r', d = .recorder r' ∧ (r.stopAfter = none → r'.stopAfter = none) := by
  cases h with
  | recorder _ stop =>
    refine ⟨_, rfl, fun never => ?_⟩
    rcases stop with same | spent
    · exact same.trans never
    · exact spent

end Onward

/-- Fewer reads are left behind one that gave a line. -/
theorem pending_read {line : Text} (h : c.read.1 = some line) : c.read.2.pending < c.pending := by
  cases c with
  | recorder r =>
    obtain ⟨grid, cursor, output, theme, input, prints, stopAfter⟩ := r
    cases input with
    | nil => cases h
    | cons line lines => exact Nat.lt_succ_self lines.length
  | stream s =>
    obtain ⟨grid, cursor, input, output⟩ := s
    cases input with
    | nil => cases h
    | cons first lines =>
      cases first with
      | none => cases h
      | some line => exact Nat.lt_succ_self lines.length

end Console

namespace Terminal

variable {s u : Terminal}

/-- Printing carries the console on. -/
theorem onward_print (s : Terminal) (text : Text) : s.console.Onward (s.print text).console := by
  unfold print
  split
  · exact .refl _
  · have asked := Console.Onward.takeStop s.console
    split
    · next hc =>
      rw [hc] at asked
      exact asked
    · next hc =>
      rw [hc] at asked
      exact asked.trans (.print _ text)

/-- So does every step that every command may take. -/
theorem Routine.onward (h : s.Routine u) : s.console.Onward u.console := by
  cases h with
  | print => exact onward_print s _
  | read => exact .read _
  | clear => exact .other (.clear _)
  | move => exact .other (.move _ _)
  | theme => exact .other (.theme _ _)
  | stop =>
    have asked := Console.Onward.takeStop s.console
    unfold takeStop
    dsimp only
    split <;> exact asked
  | _ => exact .refl _

end Terminal

/-- The edits of commands carry the console on. -/
theorem Builtin.Edit.onward {manual : Manual} {b : Builtin} {s u : Terminal}
    (h : b.Edit manual s u) : s.console.Onward u.console := by
  cases h with
  | clear => exact Terminal.onward_print (s.update fun s => { s with program := .empty }) _
  | _ => exact .refl _

/-- What commands do about the console. -/
def carrying : Conduct := fun _ s u => s.console.Onward u.console

/-- What commands do about the console is lawful. -/
theorem carrying.lawful : Conduct.Lawful carrying where
  refl s := .refl s.console
  trans h h' := Console.Onward.trans h h'
  settled h := h
  faulted h := h
  well h _ := h
  routine h h' := Console.Onward.trans h' h.onward
  scope _ h := h
  run _ h := h

/-- **Dispatched lines carry the console on.** -/
theorem Registry.carrying_hosts (bound : Nat) : carrying.Hosts (builtin.dispatch bound) :=
  hosts_of_bears carrying.lawful.toSteady (fun _ _ _ _ h => h.onward) (fun t _ => .refl t.console)
    (fun t _ _ => .refl t.console) (fun t _ _ => .refl t.console) bound

/-! ## Turns of the loop -/

namespace InputLoop

variable {dispatch : Text → Run Output} {s t u : Terminal}

/-- The terminal that has asked for a line. -/
def prompted (t : Terminal) : Terminal :=
  (t.update fun s => { s with stopping := false }).printPrompt

/-- What a turn gives behind its line: whether to go on, and a terminal on which a status
other than zero was told. -/
def answered (r : Output × Terminal) : Bool × Terminal :=
  let status := r.2.session.status
  (r.1 ≠ .exit, if status ≠ 0 then r.2.printLine (statusText status) else r.2)

/-- A turn carries out the line that the prompted terminal reads, if it reads one. -/
theorem turn_eq (dispatch : Text → Run Output) (t : Terminal) :
    turn dispatch t = match (prompted t).readLine with
      | (none, u) => some (false, u)
      | (some line, u) => (dispatch line u).map answered := by
  have began : (Run.update fun s => { s with stopping := false }) t
      = some ((), t.update fun s => { s with stopping := false }) := rfl
  have asked : (modify fun t => t.printPrompt : Run Unit)
      (t.update fun s => { s with stopping := false }) = some ((), prompted t) := rfl
  have read : Run.readLine (prompted t) = some (prompted t).readLine := rfl
  rw [turn, Run.bind_of_some began, Run.bind_of_some asked]
  rcases h : (prompted t).readLine with ⟨_ | line, u⟩
  · rw [h] at read
    rw [Run.bind_of_some read]
    rfl
  · rw [h] at read
    rw [Run.bind_of_some read]
    dsimp only
    rcases ho : dispatch line u with _ | ⟨output, v⟩
    · exact Run.bind_of_none ho
    · have status : Run.status v = some (v.session.status, v) := rfl
      rw [Run.bind_of_some ho, Run.bind_of_some status, Option.map_some, answered]
      split <;> rfl

/-- The loop comes to a terminal before one of its turns. -/
inductive Visits (dispatch : Text → Run Output) (s : Terminal) : Terminal → Prop
  /-- Its first turn begins where the loop begins. -/
  | start : Visits dispatch s s
  /-- Its next turn begins where a turn behind which the loop goes on has ended. -/
  | next {t u : Terminal} (before : Visits dispatch s t)
      (turned : turn dispatch t = some (true, u)) : Visits dispatch s u

/-- What is told of a status carries the console on. -/
theorem onward_answered (r : Output × Terminal) : r.2.console.Onward (answered r).2.console := by
  show Console.Onward _ (ite _ _ _ : Terminal).console
  split
  · exact Terminal.onward_print r.2 _
  · exact .refl _

/-- A prompt carries the console on. -/
theorem onward_prompted (s : Terminal) : s.console.Onward (prompted s).console :=
  Terminal.onward_print (s.update fun s => { s with stopping := false }) _

/-- A turn ends behind its reading, or behind the line that it read. -/
theorem turn_cases {go : Bool} (h : turn dispatch s = some (go, u)) :
    (go = false ∧ (prompted s).readLine = (none, u)) ∨
      ∃ line output v, (prompted s).readLine.1 = some line ∧
        dispatch line (prompted s).readLine.2 = some (output, v) ∧
        answered (output, v) = (go, u) := by
  rw [turn_eq] at h
  rcases hr : (prompted s).readLine with ⟨_ | line, w⟩
  · rw [hr] at h
    cases h
    exact .inl ⟨rfl, rfl⟩
  · rw [hr] at h
    obtain ⟨⟨output, v⟩, hv, hu⟩ := Option.map_eq_some_iff.mp h
    exact .inr ⟨line, output, v, rfl, hv, hu⟩

/-- **What printing, reading and dispatched lines keep is kept by a turn** from its prompt on. -/
theorem turn_keeps {R : Terminal → Terminal → Prop} (trans : ∀ {a b c}, R a b → R b c → R a c)
    (print : ∀ t text, R t (t.print text)) (read : ∀ t, R t t.readLine.2)
    (H : ∀ line t output u, dispatch line t = some (output, u) → R t u) {go : Bool}
    (h : turn dispatch s = some (go, u)) : R (prompted s) u := by
  have asked : R (prompted s) (prompted s).readLine.2 := read _
  rcases turn_cases h with ⟨-, closed⟩ | ⟨line, output, v, -, hv, answer⟩
  · rwa [closed] at asked
  · have carried : R (prompted s) v := trans asked (H _ _ _ _ hv)
    cases answer
    show R _ (ite _ _ _ : Terminal)
    split
    · exact trans carried (print v _)
    · exact carried

/-- **A turn carries the console on from its prompt if dispatched lines do, and fewer reads are
left behind a turn after which the loop goes on.** -/
theorem onward_turn (H : carrying.Hosts dispatch) {go : Bool} (h : turn dispatch s = some (go, u)) :
    (prompted s).console.Onward u.console ∧
      (go = true → u.console.pending < s.console.pending) := by
  refine ⟨turn_keeps (R := fun a b => a.console.Onward b.console) (fun h h' => h.trans h')
    Terminal.onward_print (fun t => .read t.console) H h, fun on => ?_⟩
  rcases turn_cases h with ⟨off, -⟩ | ⟨line, output, v, reads, hv, answer⟩
  · cases on.symm.trans off
  · have carried : (prompted s).readLine.2.console.Onward v.console := H _ _ _ _ hv
    have told : v.console.Onward u.console := by
      have answers := onward_answered (output, v)
      rwa [answer] at answers
    calc u.console.pending ≤ (prompted s).readLine.2.console.pending :=
          (carried.trans told).pending_le
      _ < (prompted s).console.pending := Console.pending_read reads
      _ ≤ s.console.pending := (onward_prompted s).pending_le

/-- The number of turns makes no difference once it is above the number of reads left. -/
theorem turns_congr (H : carrying.Hosts dispatch) {n m : Nat} (hn : s.console.pending < n)
    (hm : s.console.pending < m) : turns dispatch n s = turns dispatch m s := by
  induction n generalizing m s with
  | zero => exact absurd hn (Nat.not_lt_zero _)
  | succ n ih =>
    obtain ⟨m, rfl⟩ : ∃ k, m = k + 1 := Nat.exists_eq_succ_of_ne_zero (by omega)
    rcases ht : turn dispatch s with _ | ⟨go, u⟩
    · exact (Run.bind_of_none ht).trans (Run.bind_of_none ht).symm
    · rw [turns, turns, Run.bind_of_some ht, Run.bind_of_some ht]
      cases go with
      | false => rfl
      | true =>
        have fewer := (onward_turn H ht).2 rfl
        exact ih (by omega) (by omega)

/-- The loop goes on behind a turn as it would if it began there. -/
theorem run_of_turn (H : carrying.Hosts dispatch) (h : turn dispatch s = some (true, t)) :
    run dispatch s = run dispatch t := by
  have fewer := (onward_turn H h).2 rfl
  have taken : turns dispatch (s.console.pending + 1) s
      = turns dispatch (t.console.pending + 1) t := by
    rw [turns, Run.bind_of_some h, if_pos rfl]
    exact turns_congr H fewer (Nat.lt_succ_self _)
  show (turns dispatch (s.console.pending + 1) s).bind _
    = (turns dispatch (t.console.pending + 1) t).bind _
  rw [taken]

/-- The loop goes on as it would if it began where it comes to. -/
theorem run_of_visits (H : carrying.Hosts dispatch) (h : Visits dispatch s t) :
    run dispatch s = run dispatch t := by
  induction h with
  | start => rfl
  | next _ turned ih => rw [ih, run_of_turn H turned]

/-! ## Prompts -/

/-- What a turn of the loop does on a recorder: it prints its prompt and carries out its line
without stopping if no request is pending when the turn begins, and otherwise the prompt takes
the request and the line is carried out without printing. -/
structure Prompts (dispatch : Text → Run Output) (t : Terminal) (r : Recorder) : Prop where
  /-- The turn begins with a recorder. -/
  console : t.console = .recorder r
  /-- If no request is pending the prompt is printed. -/
  printed : r.wantsStop = false →
    prompted t = { t with
      console := .recorder (r.print t.session.display.promptText)
      session := { t.session with stopping := false }
      trace := .printed t.session.display.promptText t.session.display.delay
        t.session.display.textColor :: t.trace }
  /-- A pending request is taken in place of printing the prompt. -/
  taken : r.wantsStop = true →
    prompted t = { t with
      console := .recorder { r with stopAfter := none }
      session := { t.session with stopping := true }
      trace := .stopSeen :: t.trace }
  /-- The line is carried out under the flag that the prompt left. -/
  line {line : Text} {rest : List Text} : r.input = line :: rest →
    ∃ u, (prompted t).readLine = (some line, u) ∧ u.session.stopping = r.wantsStop ∧
      turn dispatch t = (dispatch line u).map answered

/-- What a turn does on a recorder as long as the terminal is not silent. -/
theorem prompts_of_recorder (dispatch : Text → Run Output) {t : Terminal} {r : Recorder}
    (sounds : t.session.silent = false) (console : t.console = .recorder r) :
    Prompts dispatch t r := by
  obtain ⟨settings, session, console', store, dice, trace⟩ := t
  obtain rfl : console' = .recorder r := console
  have quiet : session.silent = false := sounds
  let t : Terminal := ⟨settings, session, .recorder r, store, dice, trace⟩
  have printed : r.wantsStop = false → prompted t = { t with
      console := .recorder (r.print session.display.promptText)
      session := { session with stopping := false }
      trace := .printed session.display.promptText session.display.delay
        session.display.textColor :: trace } := by
    intro calm
    simp [t, prompted, Terminal.printPrompt, Terminal.print, Terminal.update, Terminal.note, quiet,
      Console.takeStop, Recorder.takeStop, calm, Console.print]
  have taken : r.wantsStop = true → prompted t = { t with
      console := .recorder { r with stopAfter := none }
      session := { session with stopping := true }
      trace := .stopSeen :: trace } := by
    intro pending
    simp [t, prompted, Terminal.printPrompt, Terminal.print, Terminal.update, Terminal.note, quiet,
      Console.takeStop, Recorder.takeStop, pending]
  have read : ∀ {u : Terminal} {r' : Recorder} {line : Text} {rest : List Text},
      u.console = .recorder r' → r'.input = line :: rest → u.readLine
        = (some line, { u with console := .recorder { r' with input := rest } }.note
            (.asked (some line))) := by
    intro u r' line rest hu input
    simp [Terminal.readLine, hu, Console.read, Recorder.read, input]
  refine ⟨rfl, printed, taken, fun {line rest} input => ?_⟩
  have reads : ∃ u, (prompted t).readLine = (some line, u) ∧ u.session.stopping = r.wantsStop := by
    cases pending : r.wantsStop with
    | false =>
      rw [printed pending]
      exact ⟨_, read rfl input, rfl⟩
    | true =>
      rw [taken pending]
      exact ⟨_, read rfl input, rfl⟩
  obtain ⟨u, hu, stopping⟩ := reads
  refine ⟨u, hu, stopping, ?_⟩
  rw [turn_eq, hu]

/-- A turn leaves a terminal as silent as it was if dispatched lines do. -/
theorem silent_turn (H : scoping.Hosts dispatch) {go : Bool} (h : turn dispatch s = some (go, u)) :
    u.session.silent = s.session.silent := by
  have printed : ∀ (v : Terminal) (text : Text), (v.print text).session.silent = v.session.silent :=
    fun v text => (Terminal.Scoped.routine (.print v text)).silent
  have kept : u.session.silent = (prompted s).session.silent :=
    turn_keeps (R := fun a b => b.session.silent = a.session.silent) (fun h h' => h'.trans h)
      printed (fun _ => rfl) (fun _ _ _ _ hv => (H _ _ _ _ hv).silent) h
  exact kept.trans (printed _ _)

/-- Wherever the loop comes to, the console was carried on and the terminal is as silent. -/
theorem Visits.keeps (H : carrying.Hosts dispatch) (S : scoping.Hosts dispatch)
    (h : Visits dispatch s t) :
    s.console.Onward t.console ∧ t.session.silent = s.session.silent := by
  induction h with
  | start => exact ⟨.refl _, rfl⟩
  | next _ turned ih =>
    obtain ⟨onward, silent⟩ := ih
    have carried := (onward_prompted _).trans (onward_turn H turned).1
    exact ⟨onward.trans carried, (silent_turn S turned).trans silent⟩

end InputLoop

namespace Registry

open InputLoop (Visits Prompts turn)

/-- **The prompt takes a pending request to stop, and any other turn prints its prompt.**  Let
the loop begin on a recorder, on a terminal that is not silent.  Wherever it comes to, it goes
on as if it began there.  A turn that begins while no request is pending on the console prints
its prompt and carries its line out without stopping, also if a request was noticed while the
line before it was carried out.  A turn that begins while one is pending takes it in place of
printing the prompt, and carries its line out stopping; no request is pending at any turn
behind it. -/
theorem loop_prompts (bound : Nat) {s t : Terminal} {r : Recorder}
    (sounds : s.session.silent = false) (console : s.console = .recorder r)
    (h : Visits (builtin.dispatch bound) s t) :
    InputLoop.run (builtin.dispatch bound) s = InputLoop.run (builtin.dispatch bound) t ∧
    ∃ r', Prompts (builtin.dispatch bound) t r' ∧
      (r'.wantsStop = true → ∀ u v, turn (builtin.dispatch bound) t = some (true, u) →
        Visits (builtin.dispatch bound) u v →
        ∃ r'', Prompts (builtin.dispatch bound) v r'' ∧ r''.wantsStop = false) := by
  have H := carrying_hosts bound
  have S := scoping_hosts bound
  obtain ⟨onward, silent⟩ := h.keeps H S
  rw [console] at onward
  obtain ⟨r', ht, -⟩ := onward.of_recorder
  have sounds' : t.session.silent = false := silent.trans sounds
  have prompts := InputLoop.prompts_of_recorder (builtin.dispatch bound) sounds' ht
  refine ⟨InputLoop.run_of_visits H h, r', prompts, fun pending u v turned later => ?_⟩
  -- the request is over behind the prompt, and nothing asks for a stop anew
  obtain ⟨carried, -⟩ := InputLoop.onward_turn H turned
  obtain ⟨behind, still⟩ := later.keeps H S
  have spent : (Console.recorder { r' with stopAfter := none }).Onward v.console := by
    rw [prompts.taken pending] at carried
    exact carried.trans behind
  obtain ⟨r'', hv, never⟩ := spent.of_recorder
  have quiet : v.session.silent = false :=
    (still.trans (InputLoop.silent_turn S turned)).trans sounds'
  refine ⟨r'', InputLoop.prompts_of_recorder (builtin.dispatch bound) quiet hv, ?_⟩
  rw [Recorder.wantsStop, never rfl]
  rfl

/-- A request that is noticed while the program is listed is over at the next prompt, which is
printed, and the line behind it is carried out without stopping. -/
theorem loop_prompts_noticed :
    let lines := ["LIST".toList, "PRINT b".toList]
    let r : Recorder := { grid := ⟨60, 25⟩, input := lines, stopAfter := some 2 }
    let s := (Terminal.ofSettings {} (.recorder r) (.memory .empty) ⟨0⟩).update fun t =>
      { t with program := t.program.setLine 10 "PRINT a".toList }
    s.session.silent = false ∧ s.console = .recorder r ∧
    ∃ t, Visits (builtin.dispatch 3) s t ∧ t.session.stopping = true ∧
      ∃ r', Prompts (builtin.dispatch 3) t r' ∧ r'.wantsStop = false := by
  intro lines r s
  have ran : (turn (builtin.dispatch 3) s).any (fun p =>
      p.1 && p.2.session.stopping && !p.2.console.takeStop.1) = true := by
    decide +kernel
  obtain ⟨⟨go, t⟩, h, checked⟩ := (Option.any_eq_true _ _).mp ran
  simp only [Bool.and_eq_true, Bool.not_eq_true'] at checked
  obtain ⟨⟨rfl, stopping⟩, calm⟩ := checked
  have visited : Visits (builtin.dispatch 3) s t := .next .start h
  obtain ⟨-, r', prompts, -⟩ := loop_prompts 3 rfl rfl visited
  have still : r'.takeStop.1 = false := by rwa [prompts.console] at calm
  refine ⟨rfl, rfl, t, visited, stopping, r', prompts, ?_⟩
  rw [Recorder.takeStop] at still
  cases wants : r'.wantsStop with
  | false => rfl
  | true =>
    rw [if_pos wants] at still
    cases still

/-- A request that becomes pending while a line prints for the last time silences the next
prompt and all that the line behind it prints. -/
theorem loop_prompts_pending :
    let lines := ["PRINT a".toList, "PRINT b".toList]
    let r : Recorder := { grid := ⟨60, 25⟩, input := lines, stopAfter := some 2 }
    let s := Terminal.ofSettings {} (.recorder r) (.memory .empty) ⟨0⟩
    ∃ t u, Visits (builtin.dispatch 3) s t ∧ turn (builtin.dispatch 3) t = some (true, u) ∧
      t.session.stopping = false ∧ (InputLoop.prompted t).session.stopping = true ∧
      u.trace = [.left 0, .entered "PRINT b".toList, .asked (some "PRINT b".toList), .stopSeen]
        ++ t.trace := by
  intro lines r s
  have ran : (turn (builtin.dispatch 3) s).any (fun p =>
      p.1 && !p.2.session.stopping && (InputLoop.prompted p.2).session.stopping
        && (turn (builtin.dispatch 3) p.2).any fun q => q.1 && decide (q.2.trace
          = [.left 0, .entered "PRINT b".toList, .asked (some "PRINT b".toList), .stopSeen]
            ++ p.2.trace)) = true := by
    decide +kernel
  obtain ⟨⟨go, t⟩, h, checked⟩ := (Option.any_eq_true _ _).mp ran
  simp only [Bool.and_eq_true, Bool.not_eq_true'] at checked
  obtain ⟨⟨⟨rfl, calm⟩, silenced⟩, checked⟩ := checked
  obtain ⟨⟨go, u⟩, h', checked⟩ := (Option.any_eq_true _ _).mp checked
  obtain ⟨rfl, trace⟩ := Bool.and_eq_true_iff.mp checked
  exact ⟨t, u, .next .start h, h', calm, silenced, of_decide_eq_true trace⟩

end Registry

end Teletype
