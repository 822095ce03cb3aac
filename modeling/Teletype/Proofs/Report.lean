/-
# Reports of failures

Behind each line that the loop carried out it looks at the status, and reports one other than
zero.  A line that is not blank sets the status, so that its report tells of the line itself.
But a blank line leaves the status as it was, and so the report of a failure is printed once
more behind each blank line that follows it.  The main statement is that **where no stop can be
asked for, the reports are those of the lines that failed, each right behind what the line
did, and those behind blank lines that are read while the status is not zero; so there is one
for each failure exactly if there are no such blank lines** (`Registry.loop_reports`).
-/
import Teletype.Proofs.Success

namespace Teletype

namespace Terminal

variable {s t u : Terminal} {new : List Event}

/-- What was done between two terminals, the last thing first. -/
def since (s u : Terminal) : List Event := u.trace.take (u.trace.length - s.trace.length)

/-- What was done since is what was noted. -/
theorem since_eq (h : u.trace = new ++ s.trace) : s.since u = new := by
  rw [since, h, List.length_append, Nat.add_sub_cancel, List.take_left]

/-- What is printed on the terminal as it is. -/
def printing (t : Terminal) (text : Text) : Event :=
  .printed text t.session.display.delay t.session.display.textColor

/-- The terminal is not silent, and no stop can be asked for on it. -/
structure Loud (t : Terminal) : Prop where
  /-- It is not silent. -/
  sounds : t.session.silent = false
  /-- No stop can be asked for. -/
  patient : t.console.Patient

/-- Where nothing keeps a terminal from printing, what it is to print is printed, and nothing
else is done. -/
theorem Unhindered.print_eq (h : t.Unhindered) (sounds : t.session.silent = false) (text : Text) :
    t.print text = { t with console := t.console.print text }.note (t.printing text) := by
  rw [Terminal.print, sounds, h.stopping, h.patient.takeStop]
  rfl

end Terminal

namespace InputLoop

/-! ## Replies -/

/-- A line that the loop carried out. -/
structure Reply where
  /-- The terminal at which its turn began. -/
  start : Terminal
  /-- The line as it was read. -/
  line : Text
  /-- What its dispatch gave. -/
  output : Output
  /-- The terminal behind its dispatch. -/
  behind : Terminal

namespace Reply

variable (r : Reply)

/-- The status behind the line. -/
def status : Int := r.behind.session.status

/-- Nothing stands on the line. -/
def Blank : Prop := Text.strip r.line = []

/-- Something stands on the line, and its own dispatch failed. -/
def Fails : Prop := ¬ r.Blank ∧ r.status ≠ 0

instance : Decidable r.Blank := inferInstanceAs (Decidable (_ = _))

instance : Decidable r.Fails := inferInstanceAs (Decidable (_ ∧ _))

/-- What was done from the prompt to the end of the dispatch, the last thing first. -/
def events : List Event := r.start.since r.behind

/-- What is printed behind the dispatch. -/
def report : List Event :=
  if r.status = 0 then [] else [r.behind.printing (statusText r.status ++ ['\n'])]

/-- The terminal at which the next turn begins. -/
def told : Terminal := (answered (r.output, r.behind)).2

/-- How a line is asked for, carried out and reported, given the status before it. -/
structure Reported (before : Int) : Prop where
  /-- A blank line leaves the status, and nothing is done but asking for it. -/
  blank : r.Blank → r.status = before ∧ r.events = [.blank before, .asked (some r.line),
    r.start.printing r.start.session.display.promptText]
  /-- Any other line is dispatched behind its prompt, and the status is that of its own
  dispatch. -/
  full : ¬ r.Blank → ∃ inner, r.events = .left r.status :: (inner ++ [.entered (Text.strip r.line),
    .asked (some r.line), r.start.printing r.start.session.display.promptText])
  /-- Its report follows right behind. -/
  trace : r.told.trace = r.report ++ r.events ++ r.start.trace

end Reply

/-- From a terminal the loop took turns one after the other and came to another. -/
inductive Takes (dispatch : Text → Run Output) : Terminal → List Reply → Terminal → Prop
  /-- It took no turn. -/
  | nil (s : Terminal) : Takes dispatch s [] s
  /-- It read a line and carried it out, and went on unless the line asked to exit. -/
  | cons {r : Reply} {rs : List Reply} {u : Terminal}
      (read : (prompted r.start).readLine.1 = some r.line)
      (dispatched : dispatch r.line (prompted r.start).readLine.2 = some (r.output, r.behind))
      (goes : r.output = .exit → rs = []) (rest : Takes dispatch r.told rs u) :
      Takes dispatch r.start (r :: rs) u

/-- The status behind lines that were carried out. -/
def statusBehind (status : Int) (rs : List Reply) : Int := rs.foldl (fun _ r => r.status) status

/-! ## One turn -/

variable {bound : Nat} {s u : Terminal} {r : Reply} {rs : List Reply}

/-- A loud terminal asks for a line with its prompt, and nothing keeps it from printing. -/
theorem prompted_of_loud (h : s.Loud) :
    (prompted s).trace = s.printing s.session.display.promptText :: s.trace ∧
      (prompted s).session = { s.session with stopping := false } ∧ (prompted s).Unhindered := by
  have calm : (s.update fun t => { t with stopping := false }).Unhindered := ⟨rfl, h.patient⟩
  have same := calm.print_eq h.sounds s.session.display.promptText
  refine ⟨?_, ?_, calm.print _⟩
  · exact congrArg Terminal.trace same
  · exact congrArg Terminal.session same

/-- A loud terminal that has read a line is one on which nothing keeps it from printing. -/
theorem read_of_loud (h : s.Loud) :
    (prompted s).readLine.2.trace = .asked (prompted s).readLine.1
        :: s.printing s.session.display.promptText :: s.trace ∧
      (prompted s).readLine.2.session = { s.session with stopping := false } ∧
      (prompted s).readLine.2.Unhindered := by
  obtain ⟨trace, session, calm⟩ := prompted_of_loud h
  refine ⟨?_, session, ⟨calm.stopping, calm.patient.onward (.read _)⟩⟩
  rw [← trace]
  rfl

/-- What is told behind a line on which nothing keeps the terminal from printing. -/
theorem told_eq (calm : r.behind.Unhindered) (sounds : r.behind.session.silent = false) :
    r.told.trace = r.report ++ r.behind.trace ∧ r.told.session = r.behind.session ∧
      r.told.Unhindered := by
  have printed := calm.print_eq sounds (statusText r.status ++ ['\n'])
  by_cases succeeded : r.status = 0
  · have same : r.told = r.behind := if_neg (not_not_intro succeeded)
    rw [same, Reply.report, if_pos succeeded]
    exact ⟨rfl, rfl, calm⟩
  · have same : r.told = r.behind.print (statusText r.status ++ ['\n']) := if_pos succeeded
    rw [same, Reply.report, if_neg succeeded, printed]
    exact ⟨rfl, rfl, printed ▸ calm.print _⟩

/-- **A line on a loud terminal is reported right behind what it did**, and the terminal stays
loud. -/
theorem reported_of_loud (h : r.start.Loud)
    (read : (prompted r.start).readLine.1 = some r.line)
    (dispatched : Registry.builtin.dispatch bound r.line (prompted r.start).readLine.2
      = some (r.output, r.behind)) :
    r.Reported r.start.session.status ∧ r.told.Loud ∧ r.told.session.status = r.status := by
  obtain ⟨trace, session, ready⟩ := read_of_loud h
  rw [read] at trace
  have sounds : r.behind.session.silent = false := by
    have same := (Registry.scoping_hosts bound _ _ _ _ dispatched).silent
    rw [session] at same
    exact same.trans h.sounds
  have calm : r.behind.Unhindered := Registry.unhindering_hosts bound _ _ _ _ dispatched ready
  obtain ⟨behind, same, still⟩ := told_eq calm sounds
  -- what was done since the turn began is put together from the prompt, the line and its dispatch
  have since : ∀ {new : List Event}, r.behind.trace = new ++ r.start.trace →
      r.events = new ∧ r.told.trace = r.report ++ r.events ++ r.start.trace := by
    intro new hnew
    have events : r.events = new := Terminal.since_eq hnew
    refine ⟨events, ?_⟩
    rw [behind, events, hnew, List.append_assoc]
  have loud : r.told.Loud := ⟨by rw [same]; exact sounds, still.patient⟩
  refine ⟨?_, loud, congrArg Session.status same⟩
  by_cases blank : r.Blank
  · rcases Registry.dispatch_cases dispatched with ⟨-, -, left⟩ | ⟨full, -⟩
    · have status : (prompted r.start).readLine.2.session.status = r.start.session.status := by
        rw [session]
      rw [status] at left
      have done : r.behind.trace = [.blank r.start.session.status, .asked (some r.line),
          r.start.printing r.start.session.display.promptText] ++ r.start.trace := by
        rw [left]
        exact congrArg _ trace
      obtain ⟨events, told⟩ := since done
      refine ⟨fun _ => ⟨?_, events⟩, fun full => absurd blank full, told⟩
      rw [Reply.status, left]
      exact status
    · exact absurd blank full
  · obtain ⟨inner, left, -, -⟩ := Registry.dispatch_fails dispatched blank
    have done : r.behind.trace = .left r.status :: (inner ++ [.entered (Text.strip r.line),
        .asked (some r.line), r.start.printing r.start.session.display.promptText])
          ++ r.start.trace := by
      rw [left, trace]
      simp [Reply.status]
    obtain ⟨events, told⟩ := since done
    exact ⟨fun h => absurd h blank, fun _ => ⟨inner, events⟩, told⟩

/-! ## Turns one after the other -/

/-- **Turns that begin on a loud terminal are reported one after the other.**  What was done is
what was done for each line with its report behind it, and the status is that of the line read
last. -/
theorem Takes.reported (h : Takes (Registry.builtin.dispatch bound) s rs u) (loud : s.Loud) :
    u.trace = (rs.reverse.flatMap fun r => r.report ++ r.events) ++ s.trace ∧
      (∀ earlier r later, rs = earlier ++ r :: later →
        r.Reported (statusBehind s.session.status earlier)) ∧
      u.Loud ∧ u.session.status = statusBehind s.session.status rs := by
  induction h with
  | nil s => exact ⟨rfl, fun earlier r later none => by simp at none, loud, rfl⟩
  | @cons first rs u read dispatched goes _ ih =>
    obtain ⟨reported, loud', status⟩ := reported_of_loud loud read dispatched
    obtain ⟨trace, rest, last, behind⟩ := ih loud'
    rw [status] at rest behind
    refine ⟨?_, fun earlier r later cut => ?_, last, behind⟩
    · rw [trace, reported.trace]
      simp [List.append_assoc]
    · rcases earlier with _ | ⟨e, earlier⟩
      · obtain ⟨rfl, -⟩ := List.cons.inj cut
        exact reported
      · obtain ⟨rfl, tail⟩ := List.cons.inj cut
        exact rest earlier r later tail

/-- A report is printed behind a line that failed, and behind a blank line if the status is not
zero. -/
theorem length_report (r : Reply) : r.report.length
    = (if r.Fails then 1 else 0) + if r.Blank ∧ r.status ≠ 0 then 1 else 0 := by
  by_cases succeeded : r.status = 0
  · simp [Reply.report, Reply.Fails, succeeded]
  · by_cases blank : r.Blank <;> simp [Reply.report, Reply.Fails, succeeded, blank]

/-- So many reports are printed behind lines. -/
theorem length_reports (rs : List Reply) : (rs.flatMap Reply.report).length
    = rs.countP (fun r => r.Fails) + rs.countP (fun r => r.Blank ∧ r.status ≠ 0) := by
  induction rs with
  | nil => rfl
  | cons r rs ih =>
    rw [List.flatMap_cons, List.length_append, ih, List.countP_cons, List.countP_cons,
      length_report]
    simp only [decide_eq_true_eq]
    omega

/-- How the loop ends behind the turns that it took: the last line asked to exit, or the input
is closed where the next one is asked for. -/
inductive Closes : List Reply → Terminal → Terminal → Prop
  /-- The last line asked to exit. -/
  | exit (earlier : List Reply) {r : Reply} (last : r.output = .exit) :
      Closes (earlier ++ [r]) r.told r.told
  /-- None did, and no line was read. -/
  | closed {rs : List Reply} {u v : Terminal} (none : ∀ r ∈ rs, r.output ≠ .exit)
      (read : (prompted u).readLine = (.none, v)) : Closes rs u v

/-- A turn in front of those of a loop is one of its turns. -/
theorem Closes.cons {v : Terminal} (h : Closes rs u v) (goes : r.output ≠ .exit) :
    Closes (r :: rs) u v := by
  cases h with
  | exit earlier last => exact .exit (r :: earlier) last
  | closed none read => exact .closed (List.forall_mem_cons.mpr ⟨goes, none⟩) read

variable {dispatch : Text → Run Output}

/-- **A loop that ends took turns one after the other**, if it may take one more than there are
lines. -/
theorem exists_takes (H : carrying.Hosts dispatch) {n : Nat} {v : Terminal}
    (enough : s.console.pending < n) (h : turns dispatch n s = some ((), v)) :
    ∃ rs u, Takes dispatch s rs u ∧ Closes rs u v := by
  induction n generalizing s with
  | zero => exact absurd enough (Nat.not_lt_zero _)
  | succ n ih =>
    obtain ⟨go, t, turned, h⟩ := Run.bind_eq_some.mp h
    rcases turn_cases turned with ⟨rfl, closed⟩ | ⟨line, output, w, read, dispatched, answer⟩
    · cases h
      exact ⟨[], s, .nil s, .closed (fun r mem => absurd mem List.not_mem_nil) closed⟩
    · let r : Reply := ⟨s, line, output, w⟩
      have told : r.told = t := congrArg Prod.snd answer
      have goes : decide (output ≠ .exit) = go := congrArg Prod.fst answer
      cases go with
      | false =>
        cases h
        have last : output = .exit := by simpa using goes
        have turn : Takes dispatch s [r] r.told :=
          .cons (r := r) read dispatched (fun _ => rfl) (.nil _)
        rw [← told]
        exact ⟨[r], r.told, turn, .exit [] last⟩
      | true =>
        have onward : output ≠ .exit := of_decide_eq_true goes
        have fewer := (onward_turn H turned).2 rfl
        obtain ⟨rs, u, takes, closes⟩ := ih (by omega) h
        rw [← told] at takes
        exact ⟨r :: rs, u, .cons (r := r) read dispatched (fun exit => absurd exit onward) takes,
          closes.cons (r := r) onward⟩

/-- A loop gives back the status behind its last turn. -/
theorem Closes.status {v : Terminal} (h : Closes rs u v) (loud : u.Loud) :
    v.session.status = u.session.status := by
  cases h with
  | exit => rfl
  | closed none read =>
    have session : v.session = { u.session with stopping := false } := by
      obtain ⟨-, same, -⟩ := read_of_loud loud
      rwa [read] at same
    rw [session]

end InputLoop

namespace Registry

open InputLoop (Reply Takes Closes statusBehind)

/-- **The loop reports each failure once, and once more behind each blank line that follows.**
Let the loop begin on a terminal that is not silent, where no stop can be asked for.  However
many turns it has taken, what was done is what was done for each line and then its report, if it
has one.  A line has one exactly if the status behind it is not zero.  If something stands on
the line, this is the status with which its own dispatch ended; if nothing does, it is the
status before it.  So there are as many reports as lines that failed exactly if no blank line is
read while the status is not zero.  A loop that ends gives back the status behind the turns that
it took, and prints no report behind the last of them. -/
theorem loop_reports (bound : Nat) {s : Terminal} (loud : s.Loud) :
    (∀ rs u, Takes (builtin.dispatch bound) s rs u →
      u.trace = (rs.reverse.flatMap fun r => r.report ++ r.events) ++ s.trace ∧
      (∀ earlier r later, rs = earlier ++ r :: later →
        r.Reported (statusBehind s.session.status earlier)) ∧
      (rs.flatMap Reply.report).length
        = rs.countP (fun r => r.Fails) + rs.countP (fun r => r.Blank ∧ r.status ≠ 0) ∧
      ((rs.flatMap Reply.report).length = rs.countP (fun r => r.Fails) ↔
        ∀ earlier r later, rs = earlier ++ r :: later → r.Blank →
          statusBehind s.session.status earlier = 0)) ∧
    ∀ code v, InputLoop.run (builtin.dispatch bound) s = some (code, v) →
      ∃ rs u, Takes (builtin.dispatch bound) s rs u ∧ Closes rs u v ∧
        code = statusBehind s.session.status rs := by
  constructor
  · intro rs u takes
    obtain ⟨trace, reported, -, -⟩ := takes.reported loud
    have count := InputLoop.length_reports rs
    refine ⟨trace, reported, count, ?_⟩
    rw [count, Nat.add_eq_left, List.countP_eq_zero]
    constructor
    · intro none earlier r later cut blank
      have mem : r ∈ rs := cut ▸ List.mem_append_right _ List.mem_cons_self
      rw [← ((reported earlier r later cut).blank blank).1]
      simpa [blank] using none r mem
    · intro settled r mem
      obtain ⟨earlier, later, cut⟩ := List.append_of_mem mem
      rw [decide_eq_true_eq]
      rintro ⟨blank, failed⟩
      have before := settled earlier r later cut blank
      exact failed (((reported earlier r later cut).blank blank).1.trans before)
  · intro code v h
    obtain ⟨_, _, got, h⟩ := Run.bind_eq_some.mp h
    cases got
    obtain ⟨_, w, taken, gave⟩ := Run.bind_eq_some.mp h
    cases gave
    obtain ⟨rs, u, takes, closes⟩ :=
      InputLoop.exists_takes (carrying_hosts bound) (Nat.lt_succ_self _) taken
    obtain ⟨-, -, last, status⟩ := takes.reported loud
    exact ⟨rs, u, takes, closes, (closes.status last).trans status⟩

/-- A line that fails, a line that succeeds and a blank line, behind which nothing is reported. -/
theorem loop_reports_succeeded :
    let lines := ["NOPE".toList, "PRINT a".toList, []]
    let s := Terminal.ofSettings {} (.recorder { grid := ⟨60, 25⟩, input := lines })
      (.memory .empty) ⟨0⟩
    s.Loud ∧ ∃ v, InputLoop.run (builtin.dispatch 3) s = some (0, v) ∧
      ∃ rs u, Takes (builtin.dispatch 3) s rs u ∧ Closes rs u v ∧
        u.trace = (rs.reverse.flatMap fun r => r.report ++ r.events) ++ s.trace ∧
        statusBehind 0 rs = 0 := by
  intro lines s
  have loud : s.Loud := ⟨rfl, rfl⟩
  have ran : (InputLoop.run (builtin.dispatch 3) s).any (fun p => decide (p.1 = 0)) = true := by
    decide +kernel
  obtain ⟨⟨code, v⟩, h, succeeded⟩ := (Option.any_eq_true _ _).mp ran
  obtain rfl : code = 0 := of_decide_eq_true succeeded
  obtain ⟨reports, closes⟩ := loop_reports 3 loud
  obtain ⟨rs, u, takes, closed, status⟩ := closes 0 v h
  exact ⟨loud, v, h, rs, u, takes, closed, (reports rs u takes).1, status.symm⟩

/-- **A blank line behind a line that failed is reported as if it had failed.** -/
theorem loop_reports_blank :
    let lines := ["NOPE".toList, []]
    let s := Terminal.ofSettings {} (.recorder { grid := ⟨60, 25⟩, input := lines })
      (.memory .empty) ⟨0⟩
    ∃ rs u, Takes (builtin.dispatch 3) s rs u ∧ rs.map Reply.line = lines ∧
      rs.countP (fun r => r.Fails) = 1 ∧ (rs.flatMap Reply.report).length = 2 ∧
      u.session.status = 1 := by
  intro lines s
  let first (p : Output × Terminal) : Reply := ⟨s, "NOPE".toList, p.1, p.2⟩
  let second (p q : Output × Terminal) : Reply := ⟨(first p).told, [], q.1, q.2⟩
  have ran : (builtin.dispatch 3 "NOPE".toList (InputLoop.prompted s).readLine.2).any (fun p =>
      decide (p.1 ≠ .exit) && decide ((InputLoop.prompted (first p).told).readLine.1 = some [])
        && (builtin.dispatch 3 [] (InputLoop.prompted (first p).told).readLine.2).any fun q =>
          decide ([first p, second p q].countP (fun r => r.Fails) = 1)
            && decide (([first p, second p q].flatMap Reply.report).length = 2)
            && decide ((second p q).told.session.status = 1)) = true := by
    decide +kernel
  obtain ⟨p, hp, checked⟩ := (Option.any_eq_true _ _).mp ran
  simp only [Bool.and_eq_true, decide_eq_true_eq] at checked
  obtain ⟨⟨onward, read⟩, checked⟩ := checked
  obtain ⟨q, hq, checked⟩ := (Option.any_eq_true _ _).mp checked
  simp only [Bool.and_eq_true, decide_eq_true_eq] at checked
  obtain ⟨⟨failures, reports⟩, status⟩ := checked
  have blank : Takes (builtin.dispatch 3) (first p).told [second p q] (second p q).told :=
    .cons (r := second p q) read hq (fun _ => rfl) (.nil _)
  have takes : Takes (builtin.dispatch 3) s [first p, second p q] (second p q).told :=
    .cons (r := first p) rfl hp (fun exit => absurd exit onward) blank
  exact ⟨_, _, takes, rfl, failures, reports, status⟩

end Registry

end Teletype
