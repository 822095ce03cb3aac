/-
# Conducts

What the commands of a terminal have in common.  A conduct relates the terminal before an
act to the one after it, by the manner in which the act ended.  It is orderly if it bears
acts done one after the other, the steps that commands take, and the flags under which some
acts are done, and steady if it bears the runs of programs as well.  The main statements are
that **an orderly conduct that dispatched lines keep is kept by the expansion of lines**
(`Host.goes_expand`) **and a steady one by the runs of programs** (`Host.goes_run`).
-/
import Teletype.Command
import Teletype.Proofs.Trail

namespace Teletype

/-! ## Steps that every command may take -/

namespace Terminal

/-- A step that leaves alone what is saved of a session, and how text is shown. -/
inductive Routine : Terminal → Terminal → Prop
  /-- Print a text. -/
  | print (t : Terminal) (text : Text) : Routine t (t.print text)
  /-- Read a line. -/
  | read (t : Terminal) : Routine t t.readLine.2
  /-- Clear the screen. -/
  | clear (t : Terminal) : Routine t t.clear
  /-- Move the cursor. -/
  | move (t : Terminal) (c : Cursor) : Routine t (t.moveTo c)
  /-- Give the screen a theme. -/
  | theme (t : Terminal) (theme : Theme) : Routine t (t.setTheme theme)
  /-- Notice a request to stop. -/
  | stop (t : Terminal) : Routine t t.takeStop.2
  /-- Draw a number. -/
  | draw (t : Terminal) (bound : Nat) : Routine t { t with dice := (t.dice.draw bound).2 }
  /-- Save the session. -/
  | save (t : Terminal) : Routine t t.save
  /-- Note that a run came to a line. -/
  | reached (t : Terminal) (n : LineNumber) : Routine t (t.note (.reached n))

/-- A step that leaves a pending request to stop alone as well, and moves the cursor to a place
on the screen only. -/
inductive Simple : Terminal → Terminal → Prop
  /-- Print a text. -/
  | print (t : Terminal) (text : Text) : Simple t (t.print text)
  /-- Read a line. -/
  | read (t : Terminal) : Simple t t.readLine.2
  /-- Clear the screen. -/
  | clear (t : Terminal) : Simple t t.clear
  /-- Move the cursor to the corner or to another place on the screen. -/
  | move (t : Terminal) {c : Cursor} (place : c = .home ∨ t.console.grid.Holds c) :
      Simple t (t.moveTo c)
  /-- Give the screen a theme. -/
  | theme (t : Terminal) (theme : Theme) : Simple t (t.setTheme theme)
  /-- Draw a number. -/
  | draw (t : Terminal) (bound : Nat) : Simple t { t with dice := (t.dice.draw bound).2 }
  /-- Save the session. -/
  | save (t : Terminal) : Simple t t.save
  /-- Note that a run came to a line. -/
  | reached (t : Terminal) (n : LineNumber) : Simple t (t.note (.reached n))

/-- A step that leaves a pending request alone is one that every command may take. -/
theorem Simple.routine {s u : Terminal} (h : s.Simple u) : s.Routine u := by
  cases h with
  | print => exact .print s _
  | read => exact .read s
  | clear => exact .clear s
  | move => exact .move s _
  | theme => exact .theme s _
  | draw => exact .draw s _
  | save => exact .save s
  | reached => exact .reached s _

end Terminal

namespace Event

/-- A line was dispatched, or its dispatch ended. -/
def IsDispatch : Event → Prop
  | .entered _ | .left _ | .blank _ => True
  | _ => False

/-- A run began. -/
def begins : Event → Bool
  | .began _ => true
  | _ => false

/-- A run ended. -/
def ends : Event → Bool
  | .ended => true
  | _ => false

/-- Neither the dispatch of a line nor a run began or ended. -/
def IsPlain (e : Event) : Prop := ¬ e.IsDispatch ∧ e.begins = false ∧ e.ends = false

end Event

namespace Terminal

/-- What was done at first and what was done then was done in all. -/
theorem trace_append {s t u : Terminal} {new new' : List Event} (h : t.trace = new ++ s.trace)
    (h' : u.trace = new' ++ t.trace) : u.trace = (new' ++ new) ++ s.trace := by
  rw [h', h, List.append_assoc]

/-- Between two terminals no line was dispatched, and the status stayed as it was. -/
structure Quiet (s u : Terminal) : Prop where
  /-- The settings are the same. -/
  settings : u.settings = s.settings
  /-- The status is the same. -/
  status : u.session.status = s.session.status
  /-- What was done is no dispatch of a line. -/
  trace : ∃ new, u.trace = new ++ s.trace ∧ ∀ e ∈ new, ¬ e.IsDispatch

/-- The settings, the status, the flags and the depth. -/
def posture (t : Terminal) : Settings × Int × Bool × Bool × Nat :=
  (t.settings, t.session.status, t.session.silent, t.session.executing, t.session.depth)

/-- Between two terminals only plain things were done, and the posture stayed as it was. -/
structure Level (s u : Terminal) : Prop where
  /-- The posture is the same. -/
  posture : u.posture = s.posture
  /-- What was done is plain. -/
  trace : ∃ new, u.trace = new ++ s.trace ∧ ∀ e ∈ new, e.IsPlain

namespace Level

variable {s t u : Terminal}

/-- Nothing was noted. -/
theorem of_trace_eq (posture : u.posture = s.posture) (trace : u.trace = s.trace) : s.Level u :=
  ⟨posture, [], trace, fun _ h => absurd h List.not_mem_nil⟩

/-- One thing was noted. -/
theorem of_trace_cons {e : Event} (posture : u.posture = s.posture)
    (trace : u.trace = e :: s.trace) (he : e.IsPlain) : s.Level u :=
  ⟨posture, [e], trace, fun _ h => List.mem_singleton.mp h ▸ he⟩

/-- One thing happened after another. -/
theorem trans (h : s.Level t) (h' : t.Level u) : s.Level u := by
  obtain ⟨new, ht, hn⟩ := h.trace
  obtain ⟨new', hu, hn'⟩ := h'.trace
  exact ⟨h'.posture.trans h.posture, new' ++ new, trace_append ht hu,
    List.forall_mem_append.mpr ⟨hn', hn⟩⟩

/-- A text was printed. -/
theorem print (s : Terminal) (text : Text) : s.Level (s.print text) := by
  unfold Terminal.print
  split
  · exact .of_trace_eq rfl rfl
  · split
    · exact .of_trace_cons rfl rfl ⟨id, rfl, rfl⟩
    · exact .of_trace_cons rfl rfl ⟨id, rfl, rfl⟩

/-- The session was saved. -/
theorem save (s : Terminal) : s.Level s.save := .of_trace_cons rfl rfl ⟨id, rfl, rfl⟩

/-- What is level is quiet. -/
theorem quiet (h : s.Level u) : s.Quiet u := by
  obtain ⟨new, trace, plain⟩ := h.trace
  exact ⟨congrArg (·.1) h.posture, congrArg (·.2.1) h.posture, new, trace,
    fun e he => (plain e he).1⟩

end Level

/-- The steps that every command may take are level. -/
theorem Routine.level {s u : Terminal} (h : s.Routine u) : s.Level u := by
  cases h with
  | print => exact .print s _
  | save => exact .save s
  | draw =>
    -- the numbers drawn must not be compared, so that the posture is opened first
    exact .of_trace_eq (by unfold posture; rfl) rfl
  | stop =>
    unfold Terminal.takeStop
    dsimp only
    split
    · exact .of_trace_cons rfl rfl ⟨id, rfl, rfl⟩
    · exact .of_trace_eq rfl rfl
  | _ => exact .of_trace_cons rfl rfl ⟨id, rfl, rfl⟩

/-- The steps that every command may take leave what is saved of the session, and how text is
shown. -/
theorem Routine.same {s u : Terminal} (h : s.Routine u) :
    u.session.snapshot = s.session.snapshot ∧ u.session.display = s.session.display := by
  cases h with
  | print =>
    unfold Terminal.print
    split
    · exact ⟨rfl, rfl⟩
    · split <;> exact ⟨rfl, rfl⟩
  | stop =>
    unfold Terminal.takeStop
    dsimp only
    split <;> exact ⟨rfl, rfl⟩
  | _ => exact ⟨rfl, rfl⟩

namespace Quiet

variable {s t u : Terminal}

/-- Nothing was noted. -/
theorem of_trace_eq (settings : u.settings = s.settings)
    (status : u.session.status = s.session.status) (trace : u.trace = s.trace) : s.Quiet u :=
  ⟨settings, status, [], trace, fun _ h => absurd h List.not_mem_nil⟩

/-- One thing was noted. -/
theorem of_trace_cons {e : Event} (settings : u.settings = s.settings)
    (status : u.session.status = s.session.status) (trace : u.trace = e :: s.trace)
    (he : ¬ e.IsDispatch) : s.Quiet u :=
  ⟨settings, status, [e], trace, fun _ h => List.mem_singleton.mp h ▸ he⟩

/-- A text was printed. -/
theorem print (s : Terminal) (text : Text) : s.Quiet (s.print text) := (Level.print s text).quiet

end Quiet

end Terminal

/-- A flag of the session under which an act is done. -/
inductive Scope
  | silently | asProgram

namespace Scope

/-- Raise the flag. -/
def enter : Scope → Session → Session
  | silently, s => { s with silent := true }
  | asProgram, s => { s with executing := true }

/-- Put the flag back to what it was before. -/
def leave : Scope → Session → Session → Session
  | silently, before, s => { s with silent := before.silent }
  | asProgram, before, s => { s with executing := before.executing }

/-- Raising a flag leaves the status. -/
theorem status_enter (k : Scope) (s : Session) : (k.enter s).status = s.status := by
  cases k <;> rfl

/-- Putting a flag back leaves the status. -/
theorem status_leave (k : Scope) (before s : Session) : (k.leave before s).status = s.status := by
  cases k <;> rfl

/-- Raising a flag leaves what is saved of the session. -/
theorem snapshot_enter (k : Scope) (s : Session) : (k.enter s).snapshot = s.snapshot := by
  cases k <;> rfl

/-- Putting a flag back leaves what is saved of the session. -/
theorem snapshot_leave (k : Scope) (before s : Session) :
    (k.leave before s).snapshot = s.snapshot := by
  cases k <;> rfl

end Scope

/-! ## Conducts -/

/-- The manner in which an act ended. -/
inductive Manner
  /-- It succeeded. -/
  | well
  /-- It gave something back, and the status tells whether it succeeded. -/
  | settled
  /-- It ended in a fault. -/
  | faulted

/-- What an act may do to a terminal, by the manner in which it ended. -/
abbrev Conduct := Manner → Terminal → Terminal → Prop

/-- A conduct bears what the commands have in common that neither run programs nor notice
requests to stop. -/
structure Conduct.Orderly (C : Conduct) : Prop where
  /-- Doing nothing is fine. -/
  refl (s : Terminal) : C .well s s
  /-- So is doing one thing after another. -/
  trans {m : Manner} {s t u : Terminal} : C .well s t → C m t u → C m s u
  /-- What succeeded has settled. -/
  settled {s u : Terminal} : C .well s u → C .settled s u
  /-- What has settled may go on to a fault. -/
  faulted {s u : Terminal} : C .settled s u → C .faulted s u
  /-- What has settled with status zero succeeded. -/
  well {s u : Terminal} : C .settled s u → u.session.status = 0 → C .well s u
  /-- The steps that leave requests to stop alone are fine. -/
  simple {m : Manner} {s t u : Terminal} : t.Simple u → C m s t → C m s u
  /-- Flags can be raised for a while. -/
  scope {m : Manner} {s u : Terminal} (k : Scope) :
    C m (s.update k.enter) u → C m s (u.update (k.leave s.session))

/-- A conduct bears the runs of programs and the noticing of requests to stop as well. -/
structure Conduct.Steady (C : Conduct) : Prop extends Conduct.Orderly C where
  /-- A request to stop can be noticed. -/
  stop {m : Manner} {s t : Terminal} : C m s t → C m s t.takeStop.2
  /-- A program can be run that is not nested too deep. -/
  run {m : Manner} {s u : Terminal} : s.session.depth < Runner.depthLimit →
    C m (Runner.opened s) u → C m s (Runner.closed s.session u)

/-- A conduct bears whatever commands have in common, and moves of the cursor to any place. -/
structure Conduct.Lawful (C : Conduct) : Prop extends Conduct.Steady C where
  /-- The steps that every command may take are fine. -/
  routine {m : Manner} {s t u : Terminal} : t.Routine u → C m s t → C m s u
  simple step h := routine step.routine h
  stop {_ _ t} h := routine (.stop t) h

/-- A conduct that bears runs bears what comes without them. -/
instance {C : Conduct} : Coe C.Steady C.Orderly := ⟨Conduct.Steady.toOrderly⟩

/-- A conduct that bears all that commands have in common bears less. -/
instance {C : Conduct} : Coe C.Lawful C.Steady := ⟨Conduct.Lawful.toSteady⟩

/-- Dispatched lines keep a conduct. -/
def Conduct.Hosts (C : Conduct) (dispatch : Text → Run Output) : Prop :=
  ∀ line s output u, dispatch line s = some (output, u) → C .settled s u

/-- What an act gave keeps a conduct.  The manner of its end may depend on the value. -/
def Conduct.Ends {α : Type} (C : Conduct) (manner : α → Manner) (s : Terminal) :
    Except Fault α → Terminal → Prop
  | .ok x => C (manner x) s
  | .error _ => C .faulted s

/-- From a terminal an act keeps a conduct. -/
def Act.Goes {α : Type} (C : Conduct) (manner : α → Manner) (s : Terminal) (a : Act α) : Prop :=
  ∀ r u, a.run s = some (r, u) → C.Ends manner s r u

/-- The manner in which a command that gives an output back ended.  Only a text may come
from a command in which a line failed. -/
def Output.manner : Output → Manner
  | text _ => .settled
  | _ => .well

variable {C : Conduct}

namespace Conduct.Orderly

variable {α : Type} {manner : α → Manner} {s t u : Terminal} {r : Except Fault α}

/-- What succeeded ended in any manner. -/
theorem any (L : C.Orderly) (h : C .well s u) (m : Manner) : C m s u := by
  cases m with
  | well => exact h
  | settled => exact L.settled h
  | faulted => exact L.faulted (L.settled h)

/-- What succeeded may give anything. -/
theorem any_ends (L : C.Orderly) (h : C .well s u) (r : Except Fault α) : C.Ends manner s r u := by
  cases r with
  | error e => exact L.any h .faulted
  | ok x => exact L.any h _

/-- A step that leaves requests to stop alone is fine by itself. -/
theorem step (L : C.Orderly) (h : s.Simple u) : C .well s u :=
  L.simple h (L.refl s)

/-- An act can be done behind what succeeded. -/
theorem trans_ends (L : C.Orderly) (h : C .well s t) (ht : C.Ends manner t r u) :
    C.Ends manner s r u := by
  cases r with
  | error e => exact L.trans h ht
  | ok x => exact L.trans h ht

end Conduct.Orderly

/-- A step that every command may take is fine by itself. -/
theorem Conduct.Lawful.step {s u : Terminal} (L : C.Lawful) (h : s.Routine u) : C .well s u :=
  L.routine h (L.refl s)

/-- What is told of what is saved of the session alone is lawful if it is reflexive and
transitive. -/
theorem Conduct.Lawful.of_snapshot {R : Snapshot → Snapshot → Prop} (refl : ∀ a, R a a)
    (trans : ∀ {a b c}, R a b → R b c → R a c) :
    Conduct.Lawful fun _ s u => R s.session.snapshot u.session.snapshot where
  refl s := refl _
  trans := trans
  settled h := h
  faulted h := h
  well h _ := h
  routine step h := step.same.1.symm ▸ h
  scope {m s u} k h := by
    have h : R (k.enter s.session).snapshot u.session.snapshot := h
    show R s.session.snapshot (k.leave s.session u.session).snapshot
    rwa [k.snapshot_enter, ← k.snapshot_leave s.session u.session] at h
  run _ h := h

/-! ## Acts one after the other -/

namespace Act.Goes

variable {α β : Type} {manner : α → Manner} {late : β → Manner} {s u : Terminal} {a : Act α}
  {f : α → Act β}

/-- An act that succeeds ends in any manner. -/
theorem of_well (L : C.Orderly) (h : Goes C (fun _ => .well) s a) : Goes C manner s a := by
  intro r u hr
  have ends := h r u hr
  cases r with
  | error e => exact ends
  | ok x => exact L.any ends _

/-- A value can be given back. -/
theorem pure (L : C.Orderly) (x : α) : Goes C manner s (Pure.pure x) := by
  intro r u hr
  cases hr
  exact L.any_ends (L.refl s) _

/-- A fault can be thrown. -/
theorem throw (L : C.Orderly) (e : Fault) : Goes C manner s (MonadExcept.throw e : Act α) := by
  intro r u hr
  cases hr
  exact L.any_ends (L.refl s) _

/-- A value or a fault can be given back. -/
theorem ofExcept (L : C.Orderly) (r : Except Fault α) : Goes C manner s (Act.ofExcept r) := by
  cases r with
  | error e => exact throw L e
  | ok x => exact pure L x

/-- One act can be done after another that succeeds. -/
theorem bind (L : C.Orderly) (h : Goes C (fun _ => .well) s a)
    (hf : ∀ x t, a.run s = some (.ok x, t) → Goes C late t (f x)) : Goes C late s (a >>= f) := by
  intro r u hr
  rw [Act.bind_eq_some] at hr
  rcases hr with ⟨e, he, rfl⟩ | ⟨x, t, hx, hr⟩
  · exact h _ _ he
  · have first : C .well s t := h _ _ hx
    exact L.trans_ends first (hf x t hx r u hr)

/-- One act can be done after a step that is fine. -/
theorem next (L : C.Orderly) {x : α} (ha : a.run s = some (.ok x, u)) (h : C .well s u)
    (hf : Goes C late u (f x)) : Goes C late s (a >>= f) := by
  refine bind L (fun r t hr => ?_) fun y t hy => ?_
  · cases ha.symm.trans hr
    exact h
  · cases ha.symm.trans hy
    exact hf

/-- One act can be done after looking at the terminal. -/
theorem look (L : C.Orderly) {x : α} (ha : a.run s = some (.ok x, s))
    (hf : Goes C late s (f x)) : Goes C late s (a >>= f) :=
  next L ha (L.refl s) hf

/-- One act can be done after looking at the session. -/
theorem session (L : C.Orderly) {f : Session → Act β} (hf : Goes C late s (f s.session)) :
    Goes C late s (liftM Run.session >>= f) :=
  look L rfl hf

/-- One act can be done after printing. -/
theorem print (L : C.Orderly) {text : Text} {f : Unit → Act β}
    (hf : Goes C late (s.print text) (f ())) : Goes C late s (liftM (Run.print text) >>= f) :=
  next L rfl (L.step (.print s text)) hf

/-- One act can be done after printing a line. -/
theorem printLine (L : C.Orderly) {text : Text} {f : Unit → Act β}
    (hf : Goes C late (s.printLine text) (f ())) :
    Goes C late s (liftM (Run.printLine text) >>= f) :=
  next L rfl (L.step (.print s _)) hf

/-- One act can be done after a change of the session that is saved. -/
theorem edit (L : C.Orderly) {g : Session → Session} (h : C .well s (s.update g).save)
    {f : Unit → Act β} (hf : Goes C late (s.update g).save (f ())) :
    Goes C late s (liftM (Run.update g) >>= fun _ => liftM Run.save >>= f) := by
  intro r u hr
  have updated : (liftM (Run.update g) : Act Unit).run s = some (.ok (), s.update g) := rfl
  have saved : (liftM Run.save : Act Unit).run (s.update g) = some (.ok (), (s.update g).save) :=
    rfl
  rw [Act.run_bind_of_ok updated, Act.run_bind_of_ok saved] at hr
  exact L.trans_ends h (hf r u hr)

/-- An act can be done under a flag. -/
theorem within (L : C.Orderly) (k : Scope)
    (h : Goes C manner (s.update k.enter) a) : Goes C manner s (Act.within k.enter k.leave a) := by
  intro r u hr
  rw [Act.run_within, Option.map_eq_some_iff] at hr
  obtain ⟨⟨r', t⟩, ht, hru⟩ := hr
  cases hru
  have inner := h _ _ ht
  cases r' with
  | error e => exact L.scope k inner
  | ok x => exact L.scope k inner

/-- Acts on the items of a list can be done one after the other. -/
theorem mapM (L : C.Orderly) {g : α → Act β} (hg : ∀ x s, Goes C (fun _ => .well) s (g x))
    (l : List α) : Goes C (fun _ => .well) s (l.mapM g) := by
  induction l generalizing s with
  | nil => exact pure L _
  | cons x l ih =>
    rw [List.mapM_cons]
    refine bind L (hg x s) fun y t _ => ?_
    exact bind L ih fun ys t _ => pure L _

/-- So can acts that give nothing back. -/
theorem forM (L : C.Orderly) {g : α → Act PUnit} (hg : ∀ x s, Goes C (fun _ => .well) s (g x))
    (l : List α) : Goes C (fun _ => .well) s (l.forM g) := by
  induction l generalizing s with
  | nil => exact pure L _
  | cons x l ih =>
    show Goes C _ s (g x >>= fun _ => l.forM g)
    exact bind L (hg x s) fun _ t _ => ih

end Act.Goes

/-! ## Lines inside lines -/

variable {dispatch : Text → Run Output}

/-- Something can be done behind a dispatched line, if a failure of the line ends the act in
a fault. -/
theorem Act.goes_after (L : C.Orderly) (H : C.Hosts dispatch) {β : Type} {late : β → Manner}
    (line : Text) (fault : Int → Fault) {k : Output → Act β} {s : Terminal}
    (hk : ∀ output t, Act.Goes C late t (k output)) :
    Act.Goes C late s (do
      let output ← dispatch line
      let status ← Run.status
      if status ≠ 0 then throw (fault status) else k output) := by
  intro r u hr
  rw [Act.bind_eq_some] at hr
  rcases hr with ⟨e, he, rfl⟩ | ⟨output, t, ho, hr⟩
  · obtain ⟨y, -, hy⟩ := Act.run_lift_eq_some.mp he
    cases hy
  · obtain ⟨y, hy, ho⟩ := Act.run_lift_eq_some.mp ho
    have settled : C .settled s t := H line s y t hy
    have status : (liftM Run.status : Act Int).run t = some (.ok t.session.status, t) := rfl
    rw [Act.run_bind_of_ok status] at hr
    -- the status tells whether the line that has settled succeeded
    by_cases hs : t.session.status = 0
    · rw [if_neg (not_not_intro hs)] at hr
      exact L.trans_ends (L.well settled hs) (hk output t r u hr)
    · rw [if_pos hs] at hr
      cases hr
      exact L.faulted settled

/-- A line can be dispatched if a failure ends the act in a fault. -/
theorem Act.goes_checked (L : C.Orderly) (H : C.Hosts dispatch) (line : Text) (f : Fault)
    (s : Terminal) :
    Act.Goes C (fun _ => .well) s (do
      let output ← dispatch line
      if (← Run.status) ≠ 0 then throw f else pure output) :=
  Act.goes_after L H line (fun _ => f) fun _ _ => .pure L _

namespace Expansion

/-- A line can be carried out for its value. -/
theorem goes_valueOf (L : C.Orderly) (H : C.Hosts dispatch) (line : Text) (s : Terminal) :
    Act.Goes C (fun _ => .well) s (valueOf dispatch line) :=
  .within L .silently (Act.goes_checked L H line _ _)

/-- A variable can be looked up. -/
theorem goes_lookUp (L : C.Orderly) (name : Text) (s : Terminal) :
    Act.Goes C (fun _ => .well) s (lookUp name) := by
  refine .session L ?_
  split
  · exact .pure L _
  · exact .throw L _

/-- Tokens can be filled in. -/
theorem goes_fill (L : C.Orderly) {replace : Token → Act Text}
    (h : ∀ token s, Act.Goes C (fun _ => .well) s (replace token)) (pieces : List (Piece Token))
    (s : Terminal) : Act.Goes C (fun _ => .well) s (fill replace pieces) := by
  induction pieces generalizing s with
  | nil => exact .pure L _
  | cons p pieces ih =>
    cases p with
    | plain c => exact .bind L (ih s) fun rest t _ => .pure L _
    | item token => exact .bind L (h token s) fun value t _ => .bind L (ih t) fun rest u _ => .pure L _

/-- A text can be expanded. -/
theorem goes_expand (L : C.Orderly) (H : C.Hosts dispatch) (tokens : List Token) (bound : Nat)
    (text : Text) (s : Terminal) :
    Act.Goes C (fun _ => .well) s (expand dispatch tokens bound text) := by
  induction bound generalizing text s with
  | zero =>
    intro r u hr
    cases hr
  | succ bound ih =>
    refine goes_fill L (fun token s => ?_) _ s
    split
    · exact goes_lookUp L _ _
    · exact ih _ _
    · exact .bind L (ih _ _) fun line t _ => .bind L (goes_valueOf L H line t) fun o u _ => .pure L _

end Expansion

variable {host : Host}

/-- **The words of a line can be expanded.** -/
theorem Host.goes_expand (L : C.Orderly) (H : C.Hosts host.dispatch) (words : List Text)
    (s : Terminal) : Act.Goes C (fun _ => .well) s (host.expand words) := by
  unfold Host.expand Expansion.expandLine
  split
  · exact .throw L _
  · exact .mapM L (fun text s => Expansion.goes_expand L H _ _ text s) _

/-- The words of a line can be sorted by a grammar of flags. -/
theorem Host.goes_parse (L : C.Orderly) (H : C.Hosts host.dispatch) (g : Flags.Grammar)
    (o : Flags.Options) (words : List Text) (s : Terminal) :
    Act.Goes C (fun _ => .well) s (host.parse g o words) := by
  unfold Host.parse
  split
  · exact .bind L (goes_expand L H _ s) fun words t _ => .pure L _
  · exact .pure L _

/-! ## Runs -/

namespace Runner

variable {p : Program}

/-- Where a run goes on behind a line the line succeeded; where it ends without a fault the
status tells. -/
def Next.manner : Next → Manner
  | finished => .settled
  | _ => .well

/-- A run can go on by what a line gave back. -/
theorem goes_follow (L : C.Steady) {budget : Nat} {output : Output} {s t u : Terminal}
    (settled : C .settled s t) {r : Except Fault Next}
    (hr : (Act.ofExcept (follow p budget output) >>= settle).run t = some (r, u)) :
    C.Ends Next.manner s r u := by
  rcases hf : follow p budget output with f | next
  · rw [hf] at hr
    cases hr
    exact L.faulted settled
  · have found : (Act.ofExcept (.ok next : Except Fault Next)).run t = some (.ok next, t) := rfl
    rw [hf, Act.run_bind_of_ok found] at hr
    -- a run that is over looks neither for a stop nor at the status
    by_cases hn : next = .finished
    · subst hn
      cases hr
      exact settled
    · rcases hstop : t.takeStop with ⟨stop, w⟩
      have noticed : C .settled s w := by
        have step := L.stop settled
        rwa [hstop] at step
      rw [settle_run hn hstop] at hr
      cases stop with
      | true =>
        cases hr
        exact noticed
      | false =>
        rw [if_neg Bool.false_ne_true] at hr
        by_cases hs : w.session.status = 0
        · rw [if_neg (not_not_intro hs)] at hr
          cases hr
          exact L.any (L.well noticed hs) _
        · rw [if_pos hs] at hr
          cases hr
          exact L.faulted noticed

/-- A line of a program can be carried out. -/
theorem goes_step (L : C.Steady) (H : C.Hosts dispatch) (budget : Nat) (n : LineNumber)
    (text : Text) (s : Terminal) :
    Act.Goes C Next.manner s (step dispatch p budget n text) := by
  intro r u hr
  cases free : isHeld text with
  | true =>
    rw [step_run_held free] at hr
    cases hr
    exact L.any (L.refl s) .faulted
  | false =>
    rcases ho : dispatch text (s.note (.reached n)) with _ | ⟨output, t⟩
    · rw [step_run_endless free ho] at hr
      cases hr
    · rw [step_run free ho] at hr
      have arrived := L.step (.reached s n)
      exact goes_follow L (L.trans arrived (H _ _ _ _ ho)) hr

/-- Lines of a program can be carried out if jumps can. -/
theorem goes_walkLines (L : C.Steady) (H : C.Hosts dispatch) (budget : Nat)
    {jump : List (LineNumber × Text) → Act Unit}
    (hj : ∀ lines s, Act.Goes C (fun _ => .settled) s (jump lines))
    (lines : List (LineNumber × Text)) (s : Terminal) :
    Act.Goes C (fun _ => .settled) s (walkLines dispatch p budget jump lines) := by
  induction lines generalizing s with
  | nil => exact .pure L _
  | cons line rest ih =>
    obtain ⟨n, text⟩ := line
    intro r u hr
    rw [walkLines, Act.bind_eq_some] at hr
    rcases hr with ⟨e, he, rfl⟩ | ⟨next, t, hn, hr⟩
    · exact goes_step L H _ _ _ _ _ _ he
    · have first := goes_step L H _ _ _ _ _ _ hn
      cases next with
      | finished =>
        cases hr
        exact first
      | onward => exact L.trans_ends first (ih t r u hr)
      | jumped target => exact L.trans_ends first (hj _ t r u hr)

/-- A program can be walked through. -/
theorem goes_walk (L : C.Steady) (H : C.Hosts dispatch) (budget : Nat)
    (lines : List (LineNumber × Text)) (s : Terminal) :
    Act.Goes C (fun _ => .settled) s (walk dispatch p budget lines) := by
  induction budget generalizing lines s with
  | zero => exact goes_walkLines L H 0 (fun _ _ => .pure L _) lines s
  | succ budget ih => exact goes_walkLines L H (budget + 1) (fun lines s => ih lines s) lines s

end Runner

/-- **A program can be run.** -/
theorem Host.goes_run (L : C.Steady) (H : C.Hosts host.dispatch) (p : Program) (s : Terminal) :
    Act.Goes C (fun _ => .settled) s (host.run p) := by
  intro r u hr
  rcases Runner.run_cases hr with ⟨shallow, t, ht, rfl⟩ | ⟨-, rfl, rfl⟩
  · have walked := Runner.goes_walk L H _ _ _ _ _ ht
    cases r with
    | error e => exact L.run shallow walked
    | ok x => exact L.run shallow walked
  · exact L.any (L.refl u) .faulted

/-- A program can be run and the session saved. -/
theorem Host.goes_runAndSave (L : C.Steady) (H : C.Hosts host.dispatch) (p : Program)
    (s : Terminal) : Act.Goes C Output.manner s (host.runAndSave p) := by
  intro r u hr
  obtain ⟨r', t, ht, hr⟩ := Run.bind_eq_some.mp hr
  cases hr
  have ran := goes_run L H p s r' t ht
  cases r' with
  | error e => exact L.simple (.save t) ran
  | ok x => exact L.simple (.save t) ran

end Teletype
