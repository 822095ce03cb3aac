/-
# Runs that succeed

Behind each line of a running program it is asked first whether to stop, and then whether the
line failed.  A line that fails ends the run in any case, and the status that it left stays;
but if a request to stop is pending behind it as well, which its own message may have brought
about, then the run ends as if it had succeeded.  The main statement is that **a run
leaves status zero exactly if no line failed in it, and ends in a fault behind a line that fails
exactly if no request to stop is pending there** (`Registry.run_succeeds`); so where no stop can
be asked for, a run that succeeds leaves status zero.
-/
import Teletype.Proofs.Failure
import Teletype.Proofs.Itinerary
import Teletype.Proofs.Prompt

namespace Teletype

/-! ## Where no stop can be asked for -/

/-- The console will not ask for a stop. -/
def Console.Patient : Console → Prop
  | recorder r => r.stopAfter = none
  | stream _ => True

/-- No request to stop is pending, and none can come. -/
structure Terminal.Unhindered (t : Terminal) : Prop where
  /-- No request was noticed. -/
  stopping : t.session.stopping = false
  /-- None can be noticed. -/
  patient : t.console.Patient

namespace Console

variable {c d : Console}

/-- A console that will not ask for a stop asks for none. -/
theorem Patient.takeStop (h : c.Patient) : c.takeStop = (false, c) := by
  cases c with
  | recorder r =>
    have never : r.stopAfter = none := h
    simp [Console.takeStop, Recorder.takeStop, Recorder.wantsStop, never]
  | stream s => rfl

/-- A console does not become impatient. -/
theorem Patient.onward (h : c.Patient) (step : c.Onward d) : d.Patient := by
  cases step with
  | recorder _ stop => exact stop.elim (fun same => same.trans h) id
  | stream => exact h

end Console

namespace Terminal

variable {s u : Terminal}

/-- No stop is taken where none can be asked for. -/
theorem Unhindered.takeStop (h : s.Unhindered) : s.takeStop.1 = false := by
  show (s.console.takeStop.1 || s.session.stopping) = false
  rw [h.patient.takeStop, h.stopping]
  rfl

/-- Printing brings no request about where none can come. -/
theorem Unhindered.print (h : s.Unhindered) (text : Text) : (s.print text).Unhindered := by
  refine ⟨?_, h.patient.onward (onward_print s text)⟩
  unfold Terminal.print
  rw [h.patient.takeStop]
  split <;> exact h.stopping

/-- Nor does any step that every command may take. -/
theorem Unhindered.routine (h : s.Unhindered) (step : s.Routine u) : u.Unhindered := by
  refine ⟨?_, h.patient.onward step.onward⟩
  cases step with
  | print => exact (h.print _).stopping
  | stop =>
    unfold Terminal.takeStop
    dsimp only
    split <;> rfl
  | _ => exact h.stopping

/-- Nor does an edit of a command. -/
theorem Unhindered.edit {manual : Manual} {b : Builtin} (h : s.Unhindered)
    (edit : b.Edit manual s u) : u.Unhindered := by
  refine ⟨?_, h.patient.onward edit.onward⟩
  cases edit with
  | clear =>
    have cleared : (s.update fun t => { t with program := .empty }).Unhindered :=
      ⟨h.stopping, h.patient⟩
    exact (cleared.print _).stopping
  | _ => exact h.stopping

end Terminal

/-- What commands do where no stop can be asked for: they leave it so. -/
def unhindering : Conduct := fun _ s u => s.Unhindered → u.Unhindered

/-- What commands do where no stop can be asked for is lawful. -/
theorem unhindering.lawful : Conduct.Lawful unhindering where
  refl _ := id
  trans h h' hs := h' (h hs)
  settled h := h
  faulted h := h
  well h _ := h
  routine step h hs := (h hs).routine step
  scope {m s u} k h hs := by
    have raised : (s.update k.enter).Unhindered := by
      cases k <;> exact ⟨hs.stopping, hs.patient⟩
    have done := h raised
    cases k <;> exact ⟨done.stopping, done.patient⟩
  run {m s u} _ h hs := by
    have done := h ⟨hs.stopping, hs.patient⟩
    exact ⟨done.stopping, done.patient⟩

namespace Registry

variable {bound : Nat} {line : Text} {s u : Terminal} {output : Output}

/-- **Dispatched lines bring no request to stop about where none can come.** -/
theorem unhindering_hosts (bound : Nat) : unhindering.Hosts (builtin.dispatch bound) :=
  hosts_of_bears unhindering.lawful.toSteady (fun _ _ _ _ edit hs => hs.edit edit)
    (fun _ _ hs => ⟨hs.stopping, hs.patient⟩) (fun _ _ _ hs => ⟨hs.stopping, hs.patient⟩)
    (fun _ _ _ hs => ⟨hs.stopping, hs.patient⟩) bound

/-- A line that failed gives back a text. -/
theorem exists_text_of_status (h : builtin.dispatch bound line s = some (output, u))
    (failed : u.session.status ≠ 0) : ∃ t, output = .text t := by
  by_contra none
  rcases dispatch_cases h with ⟨-, rfl, -⟩ | ⟨-, bound', t, rfl, ht, rfl⟩
  · exact none ⟨[], rfl⟩
  · obtain ⟨-, -, -, zero⟩ := failing_entered (failing_hosts bound') ht
    exact failed (zero fun x hx => none ⟨x, hx⟩)

end Registry

/-! ## How a run ends behind a line that fails -/

namespace Runner

variable {dispatch : Text → Run Output} {p : Program} {left : Nat}
  {lines : List (LineNumber × Text)} {s u after : Terminal} {earlier later visits : List Visit}
  {v : Visit} {output : Output} {text : Text} {result : Option (Except Fault Unit)}

/-- A line does not pass that fails. -/
theorem Visit.not_passes_of_status (h : v.outcome dispatch = some (output, after))
    (failed : after.session.status ≠ 0) (o : Output) (w : Terminal) :
    ¬ v.Passes dispatch o w := by
  rintro ⟨after', ho, passed, zero⟩
  cases h.symm.trans ho
  have same := status_takeStop after
  rw [passed] at same
  exact failed (same.symm.trans zero)

/-- Where a run ends behind a line that gave a text back, it ends well if a request to stop is
pending, and in a fault if none is. -/
theorem Ending.of_text (h : Ending dispatch p left v result)
    (ho : v.outcome dispatch = some (.text text, after)) :
    result = some (if after.takeStop.1 then .ok ()
      else .error (.lineFailed after.session.status)) := by
  cases h with
  | endless h | exit h | missing h | exhausted h => cases ho.symm.trans h
  | stopped h _ stop =>
    cases ho.symm.trans h
    rw [stop]
    rfl
  | failed h _ stop =>
    cases ho.symm.trans h
    have same := status_takeStop after
    rw [stop] at same
    rw [stop, ← same]
    rfl

/-- **A run ends behind a line that fails**, well if a request to stop is pending and in a fault
if none is. -/
theorem Trail.failed (h : Trail dispatch p left lines s visits result)
    (hv : visits = earlier ++ v :: later) (ho : v.outcome dispatch = some (.text text, after))
    (failed : after.session.status ≠ 0) :
    later = [] ∧ result = some (if after.takeStop.1 then .ok ()
      else .error (.lineFailed after.session.status)) := by
  -- a line behind which others were dispatched passed, and so did not fail
  induction h generalizing earlier with
  | finished | held => simp at hv
  | last _ ending =>
    rcases earlier with _ | ⟨e, earlier⟩
    · obtain ⟨rfl, rfl⟩ := List.cons.inj hv
      exact ⟨rfl, ending.of_text ho⟩
    · simp at hv
  | onward _ passes _ ih =>
    rcases earlier with _ | ⟨e, earlier⟩
    · obtain ⟨rfl, -⟩ := List.cons.inj hv
      exact absurd passes (Visit.not_passes_of_status ho failed _ _)
    · exact ih (List.cons.inj hv).2
  | jumped _ passes _ _ ih =>
    rcases earlier with _ | ⟨e, earlier⟩
    · obtain ⟨rfl, -⟩ := List.cons.inj hv
      exact absurd passes (Visit.not_passes_of_status ho failed _ _)
    · exact ih (List.cons.inj hv).2

/-- Where no stop can be asked for when a run begins, none can be where it dispatches a line. -/
theorem Trail.unhindered (H : unhindering.Hosts dispatch)
    (h : Trail dispatch p left lines s visits result) (hs : s.Unhindered) :
    ∀ v ∈ visits, v.before.Unhindered := by
  have passed : ∀ {w u : Terminal} {n : LineNumber} {text : Text} {o : Output},
      Visit.Passes dispatch ⟨n, text, w.note (.reached n)⟩ o u → w.Unhindered →
      u.Unhindered := by
    rintro w u n text o ⟨after, ho, stop, -⟩ hw
    have left : after.Unhindered := H _ _ _ _ ho ⟨hw.stopping, hw.patient⟩
    have taken := left.routine (.stop after)
    rwa [stop] at taken
  induction h with
  | finished | held => exact fun v hv => absurd hv List.not_mem_nil
  | last =>
    intro v hv
    rw [List.mem_singleton.mp hv]
    exact ⟨hs.stopping, hs.patient⟩
  | onward _ passes _ ih =>
    exact List.forall_mem_cons.mpr ⟨⟨hs.stopping, hs.patient⟩, ih (passed passes hs)⟩
  | jumped _ passes _ _ ih =>
    exact List.forall_mem_cons.mpr ⟨⟨hs.stopping, hs.patient⟩, ih (passed passes hs)⟩

end Runner

namespace Registry

open Runner

/-- **A run leaves status zero exactly if no line failed in it.**  From a status of zero, a run
that is not refused for its depth dispatches lines as its itinerary says, and the status behind
it is zero exactly if each of them left status zero.  A line that failed is the last one and its
status stays; the run succeeds if a request to stop is pending behind the line, and ends in a
fault with the status if none is.  If no stop can be asked for, none is pending behind any line,
and a run that succeeds leaves status zero. -/
theorem run_succeeds (bound : Nat) (p : Program) {s u : Terminal} {result : Except Fault Unit}
    (zero : s.session.status = 0) (ran : ((builtin.host bound).run p).run s = some (result, u)) :
    (depthLimit ≤ s.session.depth ∧ result = .error .stackLimit ∧ u = s) ∨
    (∃ visits, Itinerary (builtin.dispatch bound) p s.settings.jumpBudget (opened s) visits
        (some result) ∧
      (u.session.status = 0 ↔ ∀ v ∈ visits, ∀ output after,
        v.outcome (builtin.dispatch bound) = some (output, after) → after.session.status = 0) ∧
      (∀ v ∈ visits, ∀ output after,
        v.outcome (builtin.dispatch bound) = some (output, after) → after.session.status ≠ 0 →
        visits.getLast? = some v ∧ u.session.status = after.session.status ∧
        result = if after.takeStop.1 then .ok ()
          else .error (.lineFailed after.session.status)) ∧
      (s.Unhindered → result = .ok () → u.session.status = 0)) := by
  rcases run_cases ran with ⟨-, t, walked, rfl⟩ | refused
  swap
  · exact .inl refused
  obtain ⟨visits, trail, keeps⟩ := exists_trail_status (builtin.dispatch bound) p
    s.settings.jumpBudget p.entries (opened s)
  have ended : (walk (builtin.dispatch bound) p s.settings.jumpBudget p.entries).run (opened s)
      = some (result, t) := walked
  have kept := keeps result t ended
  rw [ended] at trail
  -- the last line decides, and no line before it failed
  have failure : ∀ v ∈ visits, ∀ output after,
      v.outcome (builtin.dispatch bound) = some (output, after) → after.session.status ≠ 0 →
      visits.getLast? = some v ∧ t.session.status = after.session.status ∧
      result = if after.takeStop.1 then .ok () else .error (.lineFailed after.session.status) := by
    intro v hv output after ho failed
    obtain ⟨text, rfl⟩ := exists_text_of_status ho failed
    obtain ⟨earlier, later, whole⟩ := List.append_of_mem hv
    obtain ⟨rfl, ends⟩ := trail.failed whole ho failed
    have last : visits.getLast? = some v := by rw [whole, List.getLast?_concat]
    rw [KeepsStatus, last] at kept
    obtain ⟨output', after', ho', same⟩ := kept
    cases ho.symm.trans ho'
    exact ⟨last, same, Option.some_inj.mp ends⟩
  have status : t.session.status = 0 ↔ ∀ v ∈ visits, ∀ output after,
      v.outcome (builtin.dispatch bound) = some (output, after) → after.session.status = 0 := by
    constructor
    · intro ended v hv output after ho
      by_contra failed
      exact failed ((failure v hv output after ho failed).2.1.symm.trans ended)
    · intro none
      unfold KeepsStatus at kept
      split at kept
      · exact kept.trans zero
      · next v last =>
        obtain ⟨output, after, ho, same⟩ := kept
        exact same.trans (none v (List.mem_of_getLast? last) output after ho)
  refine .inr ⟨visits, trail.itinerary, status, failure, fun calm well => ?_⟩
  refine status.mpr fun v hv output after ho => ?_
  by_contra failed
  have before := trail.unhindered (unhindering_hosts bound) ⟨calm.stopping, calm.patient⟩ v hv
  have behind : after.Unhindered := unhindering_hosts bound _ _ _ _ ho before
  obtain ⟨-, -, ends⟩ := failure v hv output after ho failed
  rw [behind.takeStop, well] at ends
  cases ends

/-- A program with a jump and a repetition that succeeds on a console that asks for no stop. -/
theorem run_succeeds_unhindered :
    let p : Program := Program.setLine (Program.setLine (Program.setLine .empty 10
      "FOR X IN a DO PRINT $X".toList) 20 "GOTO 40".toList) 40 "PRINT (ADD 1 2)".toList
    let console := Console.recorder { grid := ⟨60, 25⟩ }
    let s := Terminal.ofSettings {} console (.memory .empty) ⟨0⟩
    s.session.status = 0 ∧ s.Unhindered ∧
      ∃ u, ((builtin.host 5).run p).run s = some (.ok (), u) ∧ u.session.status = 0 := by
  intro p console s
  have calm : s.Unhindered := ⟨rfl, rfl⟩
  have succeeds : (((builtin.host 5).run p).run s).map Prod.fst = some (.ok ()) := by
    decide +kernel
  obtain ⟨⟨result, u⟩, ran, rfl⟩ := Option.map_eq_some_iff.mp succeeds
  refine ⟨rfl, calm, u, ran, ?_⟩
  rcases run_succeeds 5 p rfl ran with ⟨deep, -⟩ | ⟨visits, -, -, -, well⟩
  · exact absurd deep (by decide)
  · exact well calm rfl

/-- A line that fails, and whose message is the last text before a stop is asked for: the run
ends as if it had succeeded.  Without the request it ends in a fault, and with the request a
repetition of the same line still does. -/
theorem run_succeeds_stopped :
    let terminal := fun stopAfter : Option Nat => Terminal.ofSettings {}
      (.recorder { grid := ⟨60, 25⟩, stopAfter }) (.memory .empty) ⟨0⟩
    let p : Program := Program.setLine .empty 10 "NOPE".toList
    let summary := fun r : Except Fault Unit × Terminal => (r.1, r.2.session.status)
    (terminal (some 1)).session.status = 0 ∧
    (((builtin.host 4).run p).run (terminal (some 1))).map summary = some (.ok (), 1) ∧
    (((builtin.host 4).run p).run (terminal none)).map summary
      = some (.error (.lineFailed 1), 1) ∧
    ((Command.repeatFor (builtin.host 4) "X".toList "NOPE".toList [] ["a".toList]).run
        (terminal (some 1))).map (fun r => (r.1, r.2.session.status))
      = some (.error (.lineFailed 1), 1) := by
  intro terminal p summary
  exact ⟨rfl, by decide +kernel, by decide +kernel, by decide +kernel⟩

end Registry

end Teletype
