/-
# Acts

What a command does to a terminal.  A run is a computation on a terminal that may go on
for ever; an act is a run that may also end in a fault, and then the terminal is left as
it was when the fault arose.  Some acts are done under a flag of the session, which is
put back to what it was however the act ends.
-/
import Teletype.Terminal

namespace Teletype

/-- A computation on a terminal; there is no result if it goes on too long. -/
abbrev Run := StateT Terminal Option

/-- A computation on a terminal that may end in a fault. -/
abbrev Act := ExceptT Fault Run

namespace Run

/-- The run that goes on too long. -/
def endless {α : Type} : Run α := fun _ => none

/-- The session. -/
def session : Run Session := return (← get).session

/-- The status of the last command. -/
def status : Run Int := return (← session).status

/-- Change the session. -/
def update (f : Session → Session) : Run Unit := modify fun t => t.update f

/-- Note a thing that was done. -/
def note (e : Event) : Run Unit := modify fun t => t.note e

/-- Print a text. -/
def print (text : Text) : Run Unit := modify fun t => t.print text

/-- Print a text and a line feed. -/
def printLine (text : Text) : Run Unit := modify fun t => t.printLine text

/-- Read a line. -/
def readLine : Run (Option Text) := modifyGet Terminal.readLine

/-- Whether a stop was asked for. -/
def takeStop : Run Bool := modifyGet Terminal.takeStop

/-- Save the session. -/
def save : Run Unit := modify Terminal.save

/-- Draw a number from zero up to a bound, the bound included. -/
def draw (bound : Nat) : Run Nat := modifyGet fun t =>
  let (n, dice) := t.dice.draw bound
  (n, { t with dice })

/-- Report a fault as the output of a command that failed. -/
def fail (f : Fault) : Run Output := do
  modify fun t => t.report f
  pure .failure

/-- Give back what an act gives back, or report its fault. -/
def settle (a : Act Output) : Run Output := do
  match ← a.run with
  | .ok output => pure output
  | .error f => fail f

/-- A run of two runs is a run of the first and then one of the second. -/
theorem bind_eq_some {α β : Type} {a : Run α} {f : α → Run β} {s u : Terminal} {y : β} :
    (a >>= f) s = some (y, u) ↔ ∃ x t, a s = some (x, t) ∧ f x t = some (y, u) := by
  show (a s).bind (fun p => f p.1 p.2) = some (y, u) ↔ _
  simp only [Option.bind_eq_some_iff, Prod.exists]

/-- What goes on from a run goes on from what the run gives. -/
theorem bind_of_some {α β : Type} {a : Run α} {f : α → Run β} {s t : Terminal} {x : α}
    (h : a s = some (x, t)) : (a >>= f) s = f x t := by
  show (a s).bind _ = _
  rw [h]
  rfl

/-- What goes on from a run that goes on for ever does so as well. -/
theorem bind_of_none {α β : Type} {a : Run α} {f : α → Run β} {s : Terminal}
    (h : a s = none) : (a >>= f) s = none := by
  show (a s).bind _ = _
  rw [h]
  rfl

end Run

namespace Act

/-- Do an act on a changed session and set part of the session back when it ends, however
it ends. -/
def within {α : Type} (enter : Session → Session) (leave : Session → Session → Session)
    (a : Act α) : Act α := ExceptT.mk do
  let before ← Run.session
  Run.update enter
  let result ← a.run
  Run.update (leave before)
  pure result

/-- Do an act without printing. -/
def silently {α : Type} (a : Act α) : Act α :=
  within (fun s => { s with silent := true }) (fun before s => { s with silent := before.silent }) a

/-- Do an act as part of a program. -/
def asProgram {α : Type} (a : Act α) : Act α :=
  within (fun s => { s with executing := true })
    (fun before s => { s with executing := before.executing }) a

/-- Do an act as a program inside the programs that run. -/
def deeper {α : Type} (a : Act α) : Act α :=
  within (fun s => { s with depth := s.depth + 1 }) (fun _ s => { s with depth := s.depth - 1 }) a

/-- Give back a value or end in a fault. -/
def ofExcept {α : Type} (r : Except Fault α) : Act α := ExceptT.mk (pure r)

/-- Save a text under a key. -/
def saveUnder (key value : Text) : Act Unit :=
  ExceptT.mk (modifyGet fun t => t.saveUnder key value)

/-- Put back what was saved, and tell whether anything was. -/
def restore : Act Bool := ExceptT.mk (modifyGet Terminal.restore)

/-- Refuse what may not be done while a program runs. -/
def ensureIdle : Act Unit := do
  if (← Run.session).executing then throw .heldByProgram

/-- An act done on a changed session gives what it gives there, with part of the session set
back. -/
theorem run_within {α : Type} (enter : Session → Session) (leave : Session → Session → Session)
    (a : Act α) (s : Terminal) :
    (within enter leave a).run s
      = (a.run (s.update enter)).map fun r => (r.1, r.2.update (leave s.session)) := by
  show (a.run (s.update enter)).bind _ = _
  cases a.run (s.update enter) <;> rfl

/-- An act that goes on from an act ends as the first one does in a fault, or as the
second does. -/
theorem bind_eq_some {α β : Type} {a : Act α} {f : α → Act β} {s u : Terminal}
    {r : Except Fault β} :
    (a >>= f).run s = some (r, u) ↔
      (∃ e, a.run s = some (.error e, u) ∧ r = .error e) ∨
        ∃ x t, a.run s = some (.ok x, t) ∧ (f x).run t = some (r, u) := by
  rw [ExceptT.run_bind, Run.bind_eq_some]
  constructor
  · rintro ⟨x, t, hx, hr⟩
    cases x with
    | error e =>
      cases hr
      exact .inl ⟨e, hx, rfl⟩
    | ok x => exact .inr ⟨x, t, hx, hr⟩
  · rintro (⟨e, he, rfl⟩ | ⟨x, t, hx, hr⟩)
    · exact ⟨.error e, u, he, rfl⟩
    · exact ⟨.ok x, t, hx, hr⟩

variable {α β : Type} {a : Act α} {f : α → Act β} {s t : Terminal}

/-- What goes on from an act goes on from the value that the act gives. -/
theorem run_bind_of_ok {x : α} (h : a.run s = some (.ok x, t)) :
    (a >>= f).run s = (f x).run t := by
  show (a.run s).bind _ = _
  rw [h]
  rfl

/-- A fault ends what goes on from an act. -/
theorem run_bind_of_error {e : Fault} (h : a.run s = some (.error e, t)) :
    (a >>= f).run s = some (.error e, t) := by
  show (a.run s).bind _ = _
  rw [h]
  rfl

/-- What goes on from an act that goes on for ever does so as well. -/
theorem run_bind_of_none (h : a.run s = none) : (a >>= f).run s = none := by
  show (a.run s).bind _ = _
  rw [h]
  rfl

/-- A run gives no fault. -/
theorem run_lift_of_some {r : Run α} {x : α} (h : r s = some (x, t)) :
    (liftM r : Act α).run s = some (.ok x, t) := by
  show (r s).bind _ = _
  rw [h]
  rfl

/-- What goes on from a look at the session goes on from the session. -/
theorem run_session_bind (k : Session → Act β) :
    ((liftM Run.session : Act Session) >>= k).run s = (k s.session).run s :=
  run_bind_of_ok (run_lift_of_some rfl)

/-- What a run gives as an act. -/
theorem run_lift_eq_some {r : Run α} {x : Except Fault α} :
    (liftM r : Act α).run s = some (x, t) ↔ ∃ y, r s = some (y, t) ∧ x = .ok y := by
  constructor
  · intro h
    change (r s).bind (fun y => some (.ok y.1, y.2)) = some (x, t) at h
    obtain ⟨y, hy, hx⟩ := Option.bind_eq_some_iff.mp h
    cases hx
    exact ⟨y.1, hy, rfl⟩
  · rintro ⟨y, hy, rfl⟩
    exact run_lift_of_some hy

/-- A run that goes on for ever is an act that does. -/
theorem run_lift_of_none {r : Run α} (h : r s = none) : (liftM r : Act α).run s = none := by
  show (r s).bind _ = _
  rw [h]
  rfl

end Act

end Teletype
