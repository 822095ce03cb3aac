/-
# Flags and depth

Some acts are done under a flag, and a program is run one level deeper than what runs it.
What a line does is a course of shifts, each of which does one thing to the terminal; at
every moment of the course the depth is counted against the runs that have begun and not
ended.  The main statement is that **every line leaves the flags and the depth as they
were, and at every moment the depth is as many above the depth at the start as programs
run** (`Registry.dispatch_scoped`), whatever is carried out and however it ends.
-/
import Mathlib.Logic.Relation
import Teletype.Proofs.Dispatch

namespace Teletype

open Relation (ReflTransGen)

/-! ## Shifts -/

namespace Terminal

/-- One thing that a terminal does while lines are carried out. -/
inductive Shift : Terminal → Terminal → Prop
  /-- A step that every command may take. -/
  | routine {s u : Terminal} (h : s.Routine u) : Shift s u
  /-- An edit of a command. -/
  | edit {s u : Terminal} {manual : Manual} {b : Builtin} (h : b.Edit manual s u) : Shift s u
  /-- Store a text in a line of the program and save the session. -/
  | line (s : Terminal) (n : LineNumber) (text : Text) :
      Shift s (s.update fun t => { t with program := t.program.setLine n text }).save
  /-- Set the status. -/
  | status (s : Terminal) (status : Int) : Shift s (s.update fun t => { t with status })
  /-- Note that the dispatch of a line began or ended. -/
  | note (s : Terminal) {e : Event} (h : e.IsDispatch) : Shift s (s.note e)
  /-- Raise a flag. -/
  | enter (s : Terminal) (k : Scope) : Shift s (s.update k.enter)
  /-- Put a flag back to what it was in a session. -/
  | leave (s : Terminal) (k : Scope) (before : Session) : Shift s (s.update (k.leave before))
  /-- Begin to run a program. -/
  | opened (s : Terminal) : Shift s (Runner.opened s)
  /-- End the run of a program that began in a session. -/
  | closed (s : Terminal) (before : Session) : Shift s (Runner.closed before s)

end Terminal

/-- Raising a flag leaves the depth. -/
theorem Scope.depth_enter (k : Scope) (s : Session) : (k.enter s).depth = s.depth := by
  cases k <;> rfl

/-- Putting a flag back leaves the depth. -/
theorem Scope.depth_leave (k : Scope) (before s : Session) :
    (k.leave before s).depth = s.depth := by
  cases k <;> rfl

/-! ## Courses -/

namespace Terminal

variable {s t u : Terminal}

/-- Since one terminal the depth rose by as many as runs began and have not ended, and not
above the limit. -/
structure Tracks (s t : Terminal) : Prop where
  /-- The runs that began have ended but for some that are active. -/
  active : ∃ new active, t.trace = new ++ s.trace ∧
    new.countP Event.begins = new.countP Event.ends + active ∧
    t.session.depth = s.session.depth + active
  /-- The depth is within the limit, unless it was above before. -/
  limit : t.session.depth ≤ max Runner.depthLimit s.session.depth

/-- What leaves the depth tracks, if no run began or ended. -/
theorem Tracks.of_trace {new : List Event} (trace : t.trace = new ++ s.trace)
    (calm : ∀ e ∈ new, e.begins = false ∧ e.ends = false)
    (depth : t.session.depth = s.session.depth) : s.Tracks t := by
  have begun : new.countP Event.begins = 0 :=
    List.countP_eq_zero.mpr fun e he => by simp [(calm e he).1]
  have ended : new.countP Event.ends = 0 :=
    List.countP_eq_zero.mpr fun e he => by simp [(calm e he).2]
  refine ⟨⟨new, 0, trace, by rw [begun, ended], depth⟩, ?_⟩
  rw [depth]
  exact Nat.le_max_right _ _

/-- What notes nothing and leaves the depth tracks. -/
theorem Tracks.of_eq (trace : t.trace = s.trace) (depth : t.session.depth = s.session.depth) :
    s.Tracks t := by
  have nothing : t.trace = [] ++ s.trace := trace
  exact of_trace nothing (fun _ h => absurd h List.not_mem_nil) depth

/-- At the start no run is active. -/
theorem Tracks.refl (s : Terminal) : s.Tracks s := .of_eq rfl rfl

/-- What was active at first and what is active since then are active in all. -/
theorem Tracks.trans (h : s.Tracks t) (h' : t.Tracks u) : s.Tracks u := by
  obtain ⟨new, active, ht, counted, depth⟩ := h.active
  obtain ⟨new', active', hu, counted', depth'⟩ := h'.active
  refine ⟨⟨new' ++ new, active + active', trace_append ht hu, ?_, ?_⟩, ?_⟩
  · rw [List.countP_append, List.countP_append]
    omega
  · omega
  · have first := h.limit
    have second := h'.limit
    omega

/-- From one terminal to another there is a course of shifts, and at every moment of it the
depth tracks the runs that are active since the start. -/
def Course (s u : Terminal) : Prop := ReflTransGen (fun a b => a.Shift b ∧ s.Tracks b) s u

namespace Course

/-- The depth tracks the runs at the end. -/
theorem tracks (h : s.Course u) : s.Tracks u := by
  rcases h.cases_tail with rfl | ⟨_, _, _, tracks⟩
  · exact .refl u
  · exact tracks

/-- There is a course of one shift. -/
theorem single (h : s.Shift u) (tracks : s.Tracks u) : s.Course u :=
  ReflTransGen.single ⟨h, tracks⟩

/-- One course goes on where another ends. -/
theorem trans (h : s.Course t) (h' : t.Course u) : s.Course u := by
  have first := h.tracks
  have rest : ReflTransGen (fun a b => a.Shift b ∧ s.Tracks b) t u :=
    ReflTransGen.mono (fun a b hab => ⟨hab.1, first.trans hab.2⟩) _ _ h'
  exact ReflTransGen.trans h rest

end Course

/-- Between two terminals there is a course, and at its end the flags and the depth are what
they were at the start. -/
structure Scoped (s u : Terminal) : Prop where
  /-- The terminal is as silent. -/
  silent : u.session.silent = s.session.silent
  /-- A program runs or not as before. -/
  executing : u.session.executing = s.session.executing
  /-- The depth is the same. -/
  depth : u.session.depth = s.session.depth
  /-- There is a course from the one to the other. -/
  course : s.Course u

namespace Scoped

/-- Nothing was done. -/
theorem refl (s : Terminal) : s.Scoped s := ⟨rfl, rfl, rfl, .refl⟩

/-- One thing was done after another. -/
theorem trans (h : s.Scoped t) (h' : t.Scoped u) : s.Scoped u :=
  ⟨h'.silent.trans h.silent, h'.executing.trans h.executing, h'.depth.trans h.depth,
    h.course.trans h'.course⟩

/-- A shift was made that is level. -/
theorem of_level (h : s.Level u) (shift : s.Shift u) : s.Scoped u := by
  obtain ⟨new, trace, plain⟩ := h.trace
  have depth : u.session.depth = s.session.depth := congrArg (·.2.2.2.2) h.posture
  exact ⟨congrArg (·.2.2.1) h.posture, congrArg (·.2.2.2.1) h.posture, depth,
    .single shift (.of_trace trace (fun e he => (plain e he).2) depth)⟩

/-- A step was taken that every command may take. -/
theorem routine (h : s.Routine u) : s.Scoped u := of_level h.level (.routine h)

/-- A status was set. -/
theorem status (s : Terminal) (status : Int) : s.Scoped (s.update fun t => { t with status }) :=
  ⟨rfl, rfl, rfl, .single (.status s status) (.of_eq rfl rfl)⟩

/-- The dispatch of a line began or ended. -/
theorem note (s : Terminal) {e : Event} (h : e.IsDispatch) : s.Scoped (s.note e) := by
  have calm : e.begins = false ∧ e.ends = false := by
    cases e <;> first | exact ⟨rfl, rfl⟩ | exact absurd h id
  have noted : (s.note e).trace = [e] ++ s.trace := rfl
  have tracks : s.Tracks (s.note e) :=
    .of_trace noted (fun _ he => List.mem_singleton.mp he ▸ calm) rfl
  exact ⟨rfl, rfl, rfl, .single (.note s h) tracks⟩

/-- **A flag was raised for a while.** -/
theorem scope (k : Scope) (h : (s.update k.enter).Scoped u) :
    s.Scoped (u.update (k.leave s.session)) := by
  have raised : s.Course (s.update k.enter) :=
    .single (.enter s k) (.of_eq rfl (k.depth_enter _))
  have lowered : u.Course (u.update (k.leave s.session)) :=
    .single (.leave u k s.session) (.of_eq rfl (k.depth_leave _ _))
  have course := (raised.trans h.course).trans lowered
  cases k with
  | silently => exact ⟨rfl, h.executing, h.depth, course⟩
  | asProgram => exact ⟨h.silent, rfl, h.depth, course⟩

/-- **A program was run**, one level deeper. -/
theorem run (deep : s.session.depth < Runner.depthLimit) (h : (Runner.opened s).Scoped u) :
    s.Scoped (Runner.closed s.session u) := by
  have began : s.Course (Runner.opened s) := by
    refine .single (.opened s) ⟨⟨[.began (s.session.depth + 1)], 1, rfl, rfl, rfl⟩, ?_⟩
    exact Nat.le_trans (Nat.succ_le_of_lt deep) (Nat.le_max_left _ _)
  have depth : u.session.depth - 1 = s.session.depth := by
    rw [h.depth]
    rfl
  -- the runs inside have ended, and then this one ends
  have ended : s.Tracks (Runner.closed s.session u) := by
    obtain ⟨new, active, trace, counted, risen⟩ := h.course.tracks.active
    have none_active : active = 0 := Nat.left_eq_add.mp (h.depth.symm.trans risen)
    refine ⟨⟨.ended :: (new ++ [.began (s.session.depth + 1)]), 0, ?_, ?_, depth⟩, ?_⟩
    · show Event.ended :: u.trace = _
      rw [trace, List.cons_append, List.append_assoc]
      rfl
    · rw [List.countP_cons, List.countP_cons, List.countP_append, List.countP_append, counted,
        none_active]
      rfl
    · exact Nat.le_trans (Nat.le_of_eq depth) (Nat.le_max_right _ _)
  exact ⟨h.silent, rfl, depth, (began.trans h.course).tail ⟨.closed u s.session, ended⟩⟩

end Scoped

end Terminal

/-! ## The conduct -/

/-- What commands do about flags and the depth. -/
def scoping : Conduct := fun _ s u => s.Scoped u

namespace scoping

/-- What commands do about flags and the depth is lawful. -/
theorem lawful : Conduct.Lawful scoping where
  refl := .refl
  trans h h' := Terminal.Scoped.trans h h'
  settled h := h
  faulted h := h
  well h _ := h
  routine h h' := Terminal.Scoped.trans h' (.routine h)
  scope k h := Terminal.Scoped.scope k h
  run deep h := Terminal.Scoped.run deep h

/-- The edits of commands leave flags and the depth alone. -/
theorem bears (manual : Manual) (b : Builtin) : scoping.Bears manual b :=
  fun _ _ h => .of_level h.level (.edit h)

end scoping

namespace Registry

/-- What the words of a line do about flags and the depth. -/
theorem scoping_carryOut {host : Host} {words : List Text} {s u : Terminal} {output : Output}
    (H : scoping.Hosts host.dispatch)
    (h : builtin.carryOut host words s = some (output, u)) : s.Scoped u := by
  refine carryOut_ends scoping.lawful H (fun b _ => scoping.bears _ b) (fun f t ht => ?_)
    (fun n text t ht => ?_) (fun word t ht => ?_) h
  · exact (Terminal.Scoped.trans ht (.status t f.status)).trans (.routine (.print _ _))
  · cases ht
    exact .of_level (.of_trace_cons rfl rfl ⟨id, rfl, rfl⟩) (.line s n text)
  · cases ht
    exact (Terminal.Scoped.status s 1).trans (.routine (.print _ _))

/-- **Dispatched lines leave flags and the depth as they were.** -/
theorem scoping_hosts (bound : Nat) : scoping.Hosts (builtin.dispatch bound) := by
  refine hosts_dispatch (fun s => .note s trivial) (fun bound line s output t H _ h => ?_) bound
  have noted : s.Scoped (s.note (.entered (Text.strip line))) := .note s trivial
  have entered := noted.trans (.status _ 0)
  exact (entered.trans (scoping_carryOut H h)).trans (.note t trivial)

/-- **Flags and the depth are restored on every path.**  Whatever a line, the run of a
program, a line carried out for its value or the expansion of words does, and however it
ends, the flags and the depth are as they were before; and there is a course of shifts from
the start to the end at every moment of which the depth is as many above the depth at the
start as programs run, and within the limit unless it was above at the start.  A run at the
limit is refused and does nothing. -/
theorem dispatch_scoped (bound : Nat) (s : Terminal) :
    (∀ line output u, builtin.dispatch bound line s = some (output, u) → s.Scoped u) ∧
    (∀ p r u, ((builtin.host bound).run p).run s = some (r, u) → s.Scoped u) ∧
    (∀ line r u, ((builtin.host bound).valueOf line).run s = some (r, u) → s.Scoped u) ∧
    (∀ words r u, ((builtin.host bound).expand words).run s = some (r, u) → s.Scoped u) ∧
    ∀ p, Runner.depthLimit ≤ s.session.depth →
      ((builtin.host bound).run p).run s = some (.error .stackLimit, s) := by
  have L := scoping.lawful
  have H : scoping.Hosts (builtin.host bound).dispatch := scoping_hosts bound
  have ends : ∀ {α : Type} {manner : α → Manner} {a : Act α} {r u},
      Act.Goes scoping manner s a → a.run s = some (r, u) → s.Scoped u := by
    intro α manner a r u goes hr
    have kept := goes r u hr
    cases r <;> exact kept
  refine ⟨fun line output u h => H line s output u h, fun p r u h => ?_, fun line r u h => ?_,
    fun words r u h => ?_, fun p deep => Runner.run_refused _ p deep⟩
  · exact ends (Host.goes_run L H p s) h
  · exact ends (Expansion.goes_valueOf L H line s) h
  · exact ends (Host.goes_expand L H words s) h

/-- A run that carries out a line in another one and then fails, and a run at the limit. -/
theorem dispatch_scoped_run :
    let p : Program :=
      (Program.setLine .empty 10 "PRINT (ADD 1 2)".toList).setLine 20 "GOTO x".toList
    let start := Terminal.ofSettings {} (.recorder { grid := ⟨60, 25⟩ }) (.memory .empty) ⟨0⟩
    let s := start.update fun t => { t with program := p }
    let deep := start.update fun t => { t with depth := 32 }
    (∃ output u, builtin.dispatch 4 "RUN".toList s = some (output, u) ∧
      .began 1 ∈ u.trace ∧ u.session.status ≠ 0 ∧ s.Scoped u) ∧
    ((builtin.host 4).run p).run deep = some (.error .stackLimit, deep) := by
  intro p start s deep
  have ran : (builtin.dispatch 4 "RUN".toList s).any (fun r =>
      decide (.began 1 ∈ r.2.trace) && decide (r.2.session.status ≠ 0)) = true := by
    decide +kernel
  obtain ⟨⟨output, u⟩, h, checked⟩ := (Option.any_eq_true _ _).mp ran
  obtain ⟨began, failed⟩ := Bool.and_eq_true_iff.mp checked
  refine ⟨⟨output, u, h, of_decide_eq_true began, of_decide_eq_true failed, ?_⟩, ?_⟩
  · exact (dispatch_scoped 4 s).1 _ _ _ h
  · exact (dispatch_scoped 4 deep).2.2.2.2 p (Nat.le_refl 32)

end Registry

end Teletype
