/-
# The trail of a run

A run of a program leaves a trail: the lines that it dispatched, each with the terminal it
was dispatched in.  From a dispatched line the trail goes on with the lines that follow
it, or with those from the target of a jump, as long as jumps are left.  The main statement
is that **every walk through a program leaves a trail** (`exists_trail_walk`), whether it
ends or not, and if it ends the status of the last line (`exists_trail_status`).
-/
import Mathlib.Data.Set.Basic
import Mathlib.Order.Bounds.Defs
import Teletype.Runner

namespace Teletype

/-! ## The order of lines -/

namespace Program

/-- The program has the line. -/
def Has (p : Program) (n : LineNumber) : Prop := (p.line? n).isSome

variable {p : Program} {l rest : List (LineNumber × Text)} {n m : LineNumber} {text : Text}

/-- Lines behind which no others of the program are left out are in order. -/
theorem ascending_of_suffix (h : l <:+ p.entries) : l.Pairwise fun a b => a.1 < b.1 :=
  (p.ascending.sublist h.sublist).imp fun h => Std.compare_eq_lt.mp h

/-- The lines behind a line are those above it. -/
theorem mem_rest_iff (h : (n, text) :: rest <:+ p.entries) :
    (∃ t, (m, t) ∈ rest) ↔ n < m ∧ p.Has m := by
  obtain ⟨before, hp⟩ := h
  have sorted := ascending_of_suffix (List.suffix_refl p.entries)
  rw [← hp, List.pairwise_append, List.pairwise_cons] at sorted
  -- what is listed before the line is below it, and what is listed behind it is above it
  obtain ⟨-, ⟨hrest, -⟩, hbefore⟩ := sorted
  constructor
  · rintro ⟨t, ht⟩
    refine ⟨hrest _ ht, ?_⟩
    have entry : (m, t) ∈ p.entries := by
      rw [← hp]
      exact List.mem_append_right _ (List.mem_cons_of_mem _ ht)
    rw [Has, line?, (p.mem_entries_iff m t).mp entry]
    rfl
  · rintro ⟨hlt, hm⟩
    obtain ⟨t, ht⟩ := Option.isSome_iff_exists.mp hm
    have entry := (p.mem_entries_iff m t).mpr ht
    rw [← hp] at entry
    rcases List.mem_append.mp entry with entry | entry
    · have := hbefore _ entry _ List.mem_cons_self
      exact absurd hlt (UInt64.lt_asymm this)
    · rcases List.mem_cons.mp entry with entry | entry
      · cases entry
        exact absurd hlt (UInt64.lt_irrefl _)
      · exact ⟨t, entry⟩

/-- The first of some lines in order is the least of them. -/
theorem isLeast_iff_head? {S : Set LineNumber} (h : l <:+ p.entries)
    (hS : ∀ k, (∃ t, (k, t) ∈ l) ↔ k ∈ S) : IsLeast S m ↔ ∃ t, l.head? = some (m, t) := by
  have sorted := ascending_of_suffix h
  cases l with
  | nil =>
    constructor
    · rintro ⟨hm, -⟩
      obtain ⟨t, ht⟩ := (hS m).mpr hm
      exact absurd ht List.not_mem_nil
    · rintro ⟨t, ht⟩
      cases ht
  | cons e l =>
    have least : IsLeast S e.1 := by
      refine ⟨(hS e.1).mp ⟨e.2, List.mem_cons_self⟩, fun k hk => ?_⟩
      obtain ⟨t, ht⟩ := (hS k).mpr hk
      rcases List.mem_cons.mp ht with ht | ht
      · rw [← ht]
        exact UInt64.le_refl _
      · exact UInt64.le_of_lt ((List.pairwise_cons.mp sorted).1 _ ht)
    constructor
    · intro hm
      have same : m = e.1 := UInt64.le_antisymm (hm.2 least.1) (least.2 hm.1)
      exact ⟨e.2, by rw [same]; rfl⟩
    · rintro ⟨t, ht⟩
      cases ht
      exact least

/-- A line that is listed is a line of the program. -/
theorem line?_of_suffix (h : (n, text) :: rest <:+ p.entries) : p.line? n = some text :=
  (p.mem_entries_iff n text).mp (h.mem List.mem_cons_self)

/-- The lines from a line on are listed last. -/
theorem linesFrom_suffix (p : Program) (n : LineNumber) : p.linesFrom n <:+ p.entries := by
  have drop : ∀ l : List (LineNumber × Text), l.Pairwise (fun a b => a.1 < b.1) →
      (l.filter fun e => compare e.1 n != .lt) <:+ l := by
    intro l
    induction l with
    | nil => exact fun _ => List.suffix_refl _
    | cons e l ih =>
      intro h
      rw [List.pairwise_cons] at h
      by_cases he : compare e.1 n = .lt
      · rw [List.filter_cons_of_neg (by simp [he])]
        exact (ih h.2).trans (List.suffix_cons _ _)
      · -- what is not below the bound has nothing below the bound behind it
        have all : (e :: l).filter (fun e => compare e.1 n != .lt) = e :: l := by
          refine List.filter_eq_self.mpr fun x hx => ?_
          rw [Std.compare_eq_lt, UInt64.not_lt] at he
          have hn : n ≤ x.1 := by
            rcases List.mem_cons.mp hx with rfl | hx
            · exact he
            · exact UInt64.le_of_lt (UInt64.lt_of_le_of_lt he (h.1 x hx))
          simpa [Std.compare_eq_lt] using hn
        simp only [all, List.suffix_rfl]
  exact drop _ (ascending_of_suffix (List.suffix_refl _))

/-- The lines from a number on are those whose numbers are not below it. -/
theorem mem_linesFrom : (m, text) ∈ p.linesFrom n ↔ p.line? m = some text ∧ n ≤ m := by
  rw [linesFrom, Table.entriesFrom, List.mem_filter, p.mem_entries_iff, ← UInt64.not_lt,
    ← Std.compare_eq_lt]
  simp only [bne_iff_ne, line?]

/-- A number is listed from another one on if the program has it and it is not below. -/
theorem exists_mem_linesFrom : (∃ t, (m, t) ∈ p.linesFrom n) ↔ m ∈ {k | p.Has k ∧ n ≤ k} := by
  simp only [mem_linesFrom, Set.mem_ofPred_eq, Has, Option.isSome_iff_exists, exists_and_right]

/-- The lines from a line of the program on begin with it. -/
theorem head?_linesFrom (h : p.line? n = some text) :
    (p.linesFrom n).head? = some (n, text) := by
  have least : IsLeast {k | p.Has k ∧ n ≤ k} n :=
    ⟨⟨by rw [Has, h]; rfl, UInt64.le_refl n⟩, fun _ hk => hk.2⟩
  obtain ⟨t, ht⟩ :=
    (isLeast_iff_head? (p.linesFrom_suffix n) fun _ => exists_mem_linesFrom).mp least
  have entry := (mem_linesFrom.mp (List.mem_of_head? ht)).1
  rw [ht, Option.some_inj.mp (entry.symm.trans h)]

end Program

namespace Runner

/-! ## Visits -/

/-- A line that a run dispatched, and the terminal in which it did. -/
structure Visit where
  /-- The number of the line. -/
  line : LineNumber
  /-- What the line holds. -/
  text : Text
  /-- The terminal before the line was dispatched. -/
  before : Terminal

variable (dispatch : Text → Run Output) (p : Program)

namespace Visit

/-- What the line gave back, and the terminal it left; nothing if it goes on for ever. -/
def outcome (v : Visit) : Option (Output × Terminal) := dispatch v.text v.before

/-- The line gave an output back, succeeded, and no stop was asked for meanwhile. -/
def Passes (v : Visit) (output : Output) (u : Terminal) : Prop :=
  ∃ after, v.outcome dispatch = some (output, after) ∧ after.takeStop = (false, u) ∧
    u.session.status = 0

/-- The line asked for a jump to a line of the program. -/
def jumps (v : Visit) : Bool :=
  match v.outcome dispatch with
  | some (.jump target, _) => (p.line? target).isSome
  | _ => false

end Visit

/-- How a run with some jumps left ends right behind a line. -/
inductive Ending (left : Nat) (v : Visit) : Option (Except Fault Unit) → Prop
  /-- The line goes on for ever. -/
  | endless (h : v.outcome dispatch = none) : Ending left v none
  /-- The line asked for the end. -/
  | exit {u} (h : v.outcome dispatch = some (.exit, u)) : Ending left v (some (.ok ()))
  /-- The line jumped to a line that the program does not have. -/
  | missing {target u} (h : v.outcome dispatch = some (.jump target, u))
      (hp : p.line? target = none) : Ending left v (some (.error (.missingLine target.text)))
  /-- The line jumped though no jump was left. -/
  | exhausted {target u} (h : v.outcome dispatch = some (.jump target, u)) (hp : p.Has target)
      (hl : left = 0) : Ending left v (some (.error .stackLimit))
  /-- A stop was asked for. -/
  | stopped {output after u} (h : v.outcome dispatch = some (output, after))
      (hn : ∀ target, output = .jump target → p.Has target ∧ 0 < left)
      (stop : after.takeStop = (true, u)) : Ending left v (some (.ok ()))
  /-- The line failed. -/
  | failed {output after u} (h : v.outcome dispatch = some (output, after))
      (hn : ∀ target, output = .jump target → p.Has target ∧ 0 < left)
      (stop : after.takeStop = (false, u)) (hs : u.session.status ≠ 0) :
      Ending left v (some (.error (.lineFailed u.session.status)))

/-- The trail of a run from some lines on, with some jumps left: the lines that were
dispatched, and how the run ended. -/
inductive Trail : Nat → List (LineNumber × Text) → Terminal → List Visit →
    Option (Except Fault Unit) → Prop
  /-- There are no more lines. -/
  | finished (left : Nat) (s : Terminal) : Trail left [] s [] (some (.ok ()))
  /-- A program may not hold the line. -/
  | held {left : Nat} {n : LineNumber} {text : Text} {rest s} (h : isHeld text = true) :
      Trail left ((n, text) :: rest) s [] (some (.error .heldByProgram))
  /-- The run ends behind the line. -/
  | last {left : Nat} {n : LineNumber} {text : Text} {rest s result} (free : isHeld text = false)
      (h : Ending dispatch p left ⟨n, text, s.note (.reached n)⟩ result) :
      Trail left ((n, text) :: rest) s [⟨n, text, s.note (.reached n)⟩] result
  /-- The run goes on with the next line. -/
  | onward {left : Nat} {n : LineNumber} {text t : Text} {rest s u visits result}
      (free : isHeld text = false)
      (h : Visit.Passes dispatch ⟨n, text, s.note (.reached n)⟩ (.text t) u)
      (more : Trail left rest u visits result) :
      Trail left ((n, text) :: rest) s (⟨n, text, s.note (.reached n)⟩ :: visits) result
  /-- The run goes on at the target of a jump. -/
  | jumped {left : Nat} {n target : LineNumber} {text : Text} {rest s u visits result}
      (free : isHeld text = false)
      (h : Visit.Passes dispatch ⟨n, text, s.note (.reached n)⟩ (.jump target) u)
      (hp : p.Has target) (more : Trail left (p.linesFrom target) u visits result) :
      Trail (left + 1) ((n, text) :: rest) s (⟨n, text, s.note (.reached n)⟩ :: visits) result

/-- Behind a run the status is the one that the last line left, or the one that the run began
with if it dispatched none. -/
def KeepsStatus (s : Terminal) (visits : List Visit) (u : Terminal) : Prop :=
  match visits.getLast? with
  | none => u.session.status = s.session.status
  | some v => ∃ output after, v.outcome dispatch = some (output, after) ∧
      u.session.status = after.session.status

/-! ## Walks leave trails -/

variable {dispatch p} {budget : Nat} {n : LineNumber} {text : Text} {s u w : Terminal}

/-- Noticing a request to stop leaves the status. -/
theorem status_takeStop (t : Terminal) : t.takeStop.2.session.status = t.session.status := by
  unfold Terminal.takeStop
  dsimp only
  split <;> rfl

/-- The status that a line leaves is kept by the lines behind it. -/
theorem KeepsStatus.cons {v : Visit} {visits : List Visit} {output : Output} {after : Terminal}
    (h : v.outcome dispatch = some (output, after)) (hw : w.session.status = after.session.status)
    (more : KeepsStatus dispatch w visits u) : KeepsStatus dispatch s (v :: visits) u := by
  unfold KeepsStatus at more ⊢
  rw [List.getLast?_cons]
  cases hl : visits.getLast? with
  | none =>
    rw [hl] at more
    exact ⟨output, after, h, Eq.trans more hw⟩
  | some last =>
    rw [hl] at more
    exact more

/-- A line that a program may not hold ends a run. -/
theorem step_run_held (h : isHeld text = true) :
    (step dispatch p budget n text).run s = some (.error .heldByProgram, s) := by
  rw [step, if_pos h]
  rfl

/-- A line that goes on for ever makes the run go on for ever. -/
theorem step_run_endless (free : isHeld text = false)
    (h : dispatch text (s.note (.reached n)) = none) :
    (step dispatch p budget n text).run s = none := by
  have noted : (Run.note (.reached n)) s = some ((), s.note (.reached n)) := rfl
  rw [step, if_neg (by simp [free]), Act.run_bind_of_ok (Act.run_lift_of_some noted),
    Act.run_bind_of_none (Act.run_lift_of_none h)]

/-- Behind a line that gives an output back the run goes on by the output. -/
theorem step_run {output : Output} (free : isHeld text = false)
    (h : dispatch text (s.note (.reached n)) = some (output, u)) :
    (step dispatch p budget n text).run s
      = (Act.ofExcept (follow p budget output) >>= settle).run u := by
  have noted : (Run.note (.reached n)) s = some ((), s.note (.reached n)) := rfl
  rw [step, if_neg (by simp [free]), Act.run_bind_of_ok (Act.run_lift_of_some noted),
    Act.run_bind_of_ok (Act.run_lift_of_some h)]

/-- A run goes on behind a line unless a stop was asked for or the line failed. -/
theorem settle_run {next : Next} (hn : next ≠ .finished) {stop : Bool}
    (h : u.takeStop = (stop, w)) :
    (settle next).run u = some (if stop then (.ok .finished, w)
      else if w.session.status ≠ 0 then (.error (.lineFailed w.session.status), w)
      else (.ok next, w)) := by
  have stops : Run.takeStop u = some (stop, w) := congrArg some h
  have status : Run.status w = some (w.session.status, w) := rfl
  cases next with
  | finished => exact absurd rfl hn
  | _ =>
    rw [settle, Act.run_bind_of_ok (Act.run_lift_of_some stops)]
    · cases stop with
      | true => rfl
      | false =>
        rw [if_neg Bool.false_ne_true, Act.run_bind_of_ok (Act.run_lift_of_some status)]
        split <;> rfl
    · exact hn

/-- Behind a line from which a run may go on there is a failure, a stop, or a passage. -/
theorem settle_cases {v : Visit} {output : Output} {next : Next} {left : Nat}
    (hne : next ≠ .finished) (h : v.outcome dispatch = some (output, u))
    (hn : ∀ target, output = .jump target → p.Has target ∧ 0 < left) :
    let ran := (settle next).run u
    (∃ f w, ran = some (.error f, w) ∧ Ending dispatch p left v (some (.error f))) ∨
    (∃ w, ran = some (.ok .finished, w) ∧ Ending dispatch p left v (some (.ok ()))) ∨
    (∃ w, ran = some (.ok next, w) ∧ v.Passes dispatch output w) := by
  intro ran
  rcases hstop : u.takeStop with ⟨stop, w⟩
  have hran : ran = _ := settle_run hne hstop
  cases stop with
  | true => exact .inr (.inl ⟨w, hran, .stopped h hn hstop⟩)
  | false =>
    rw [if_neg Bool.false_ne_true] at hran
    by_cases hs : w.session.status = 0
    · rw [if_neg (not_not_intro hs)] at hran
      exact .inr (.inr ⟨w, hran, u, h, hstop, hs⟩)
    · rw [if_pos hs] at hran
      exact .inl ⟨_, w, hran, .failed h hn hstop hs⟩

/-- What a line that is not held makes of a run: it goes on for ever, the run ends behind
it, or the run goes on with the next line or at the target of a jump. -/
theorem step_cases (free : isHeld text = false) :
    let v : Visit := ⟨n, text, s.note (.reached n)⟩
    let ran := (step dispatch p budget n text).run s
    (ran = none ∧ Ending dispatch p (budget - 1) v none) ∨
    (∃ f u, ran = some (.error f, u) ∧ Ending dispatch p (budget - 1) v (some (.error f))) ∨
    (∃ u, ran = some (.ok .finished, u) ∧ Ending dispatch p (budget - 1) v (some (.ok ()))) ∨
    (∃ t u, ran = some (.ok .onward, u) ∧ v.Passes dispatch (.text t) u) ∨
    (∃ target u, ran = some (.ok (.jumped target), u) ∧ v.Passes dispatch (.jump target) u ∧
      p.Has target ∧ 1 < budget) := by
  intro v ran
  rcases h : dispatch text (s.note (.reached n)) with _ | ⟨output, after⟩
  · exact .inl ⟨step_run_endless free h, .endless h⟩
  have hran : ran = (Act.ofExcept (follow p budget output) >>= settle).run after :=
    step_run free h
  have gave : v.outcome dispatch = some (output, after) := h
  have found : ∀ next, (Act.ofExcept (.ok next : Except Fault Next)).run after
      = some (.ok next, after) := fun _ => rfl
  -- the output tells where the run may go on
  cases output with
  | exit => exact .inr (.inr (.inl ⟨after, hran, .exit h⟩))
  | text t =>
    have hn : ∀ target, Output.text t = .jump target → p.Has target ∧ 0 < budget - 1 := by
      intro target ht
      cases ht
    rw [follow, Act.run_bind_of_ok (found _)] at hran
    rw [hran]
    have other : Next.onward ≠ .finished := by decide
    rcases settle_cases other gave hn with failed | stopped | ⟨u, passed⟩
    · exact .inr (.inl failed)
    · exact .inr (.inr (.inl stopped))
    · exact .inr (.inr (.inr (.inl ⟨t, u, passed⟩)))
  | jump target =>
    by_cases hp : p.Has target
    · have there : ¬ (p.line? target).isNone := by
        rw [Option.isNone_iff_eq_none, ← Option.not_isSome_iff_eq_none]
        exact not_not_intro hp
      rw [follow, if_neg there] at hran
      by_cases hb : budget ≤ 1
      · rw [if_pos hb] at hran
        exact .inr (.inl ⟨_, after, hran, .exhausted h hp (by omega)⟩)
      · have hn : ∀ t, Output.jump target = .jump t → p.Has t ∧ 0 < budget - 1 := by
          intro t ht
          cases ht
          exact ⟨hp, by omega⟩
        rw [if_neg hb, Act.run_bind_of_ok (found _)] at hran
        rw [hran]
        have other : Next.jumped target ≠ .finished := by
          intro he
          cases he
        rcases settle_cases other gave hn with failed | stopped | ⟨u, ran, passed⟩
        · exact .inr (.inl failed)
        · exact .inr (.inr (.inl stopped))
        · exact .inr (.inr (.inr (.inr ⟨target, u, ran, passed, hp, by omega⟩)))
    · have missing : p.line? target = none := Option.not_isSome_iff_eq_none.mp hp
      rw [follow_missing missing] at hran
      exact .inr (.inl ⟨_, after, hran, .missing h missing⟩)

/-- Behind a line that was carried out the status is the one that its dispatch left. -/
theorem step_status {r : Except Fault Next} (free : isHeld text = false)
    (h : (step dispatch p budget n text).run s = some (r, u)) :
    ∃ output after, dispatch text (s.note (.reached n)) = some (output, after) ∧
      u.session.status = after.session.status := by
  rcases ho : dispatch text (s.note (.reached n)) with _ | ⟨output, after⟩
  · rw [step_run_endless free ho] at h
    cases h
  refine ⟨output, after, rfl, ?_⟩
  rw [step_run free ho] at h
  rcases hf : follow p budget output with f | next
  · rw [hf] at h
    cases h
    rfl
  · have found : (Act.ofExcept (.ok next : Except Fault Next)).run after = some (.ok next, after) :=
      rfl
    rw [hf, Act.run_bind_of_ok found] at h
    by_cases hn : next = .finished
    · subst hn
      cases h
      rfl
    · -- whether a stop is asked for or not, the status is looked at behind the request
      rw [settle_run hn (Prod.eta _).symm] at h
      have left : u = after.takeStop.2 := by
        split at h
        · cases h
          rfl
        · split at h <;> cases h <;> rfl
      rw [left, status_takeStop]

/-- Carrying out lines leaves a trail if jumping does. -/
theorem exists_trail_walkLines {jump : List (LineNumber × Text) → Act Unit}
    (hjump : 1 < budget → ∀ lines s, ∃ visits,
      Trail dispatch p (budget - 2) lines s visits (((jump lines).run s).map Prod.fst) ∧
      ∀ r u, (jump lines).run s = some (r, u) → KeepsStatus dispatch s visits u)
    (lines : List (LineNumber × Text)) (s : Terminal) :
    ∃ visits, Trail dispatch p (budget - 1) lines s visits
        (((walkLines dispatch p budget jump lines).run s).map Prod.fst) ∧
      ∀ r u, (walkLines dispatch p budget jump lines).run s = some (r, u) →
        KeepsStatus dispatch s visits u := by
  induction lines generalizing s with
  | nil =>
    refine ⟨[], .finished _ s, fun r u h => ?_⟩
    cases h
    rfl
  | cons line rest ih =>
    obtain ⟨n, text⟩ := line
    rw [walkLines]
    cases free : isHeld text with
    | true =>
      rw [Act.run_bind_of_error (step_run_held free)]
      refine ⟨[], .held free, fun r u h => ?_⟩
      cases h
      rfl
    | false =>
      rcases step_cases free with ⟨hr, he⟩ | ⟨f, u, hr, he⟩ | ⟨u, hr, he⟩ | ⟨t, u, hr, hv⟩ |
        ⟨target, u, hr, hv, hp, hb⟩
      · rw [Act.run_bind_of_none hr]
        exact ⟨_, .last free he, fun r u h => by cases h⟩
      · rw [Act.run_bind_of_error hr]
        refine ⟨_, .last free he, fun r u h => ?_⟩
        cases h
        exact step_status free hr
      · rw [Act.run_bind_of_ok hr]
        refine ⟨_, .last free he, fun r u h => ?_⟩
        cases h
        exact step_status free hr
      · rw [Act.run_bind_of_ok hr]
        obtain ⟨visits, more, keeps⟩ := ih u
        obtain ⟨output, after, ho, same⟩ := step_status free hr
        exact ⟨_, .onward free hv more, fun r w h => .cons ho same (keeps r w h)⟩
      · rw [Act.run_bind_of_ok hr]
        obtain ⟨visits, more, keeps⟩ := hjump hb (p.linesFrom target) u
        obtain ⟨output, after, ho, same⟩ := step_status free hr
        have left : budget - 1 = budget - 2 + 1 := by omega
        rw [left]
        exact ⟨_, .jumped free hv hp more, fun r w h => .cons ho same (keeps r w h)⟩

/-- **A walk through a program leaves a trail**, and the status of the last line. -/
theorem exists_trail_status (dispatch : Text → Run Output) (p : Program) (budget : Nat)
    (lines : List (LineNumber × Text)) (s : Terminal) :
    ∃ visits, Trail dispatch p (budget - 1) lines s visits
        (((walk dispatch p budget lines).run s).map Prod.fst) ∧
      ∀ r u, (walk dispatch p budget lines).run s = some (r, u) →
        KeepsStatus dispatch s visits u := by
  induction budget generalizing lines s with
  | zero => exact exists_trail_walkLines (fun h => absurd h (by decide)) lines s
  | succ budget ih => exact exists_trail_walkLines (fun _ lines s => ih lines s) lines s

/-- Every walk through a program leaves a trail. -/
theorem exists_trail_walk (dispatch : Text → Run Output) (p : Program) (budget : Nat)
    (lines : List (LineNumber × Text)) (s : Terminal) :
    ∃ visits, Trail dispatch p (budget - 1) lines s visits
      (((walk dispatch p budget lines).run s).map Prod.fst) :=
  (exists_trail_status dispatch p budget lines s).imp fun _ h => h.1

/-- A run that is noted gives what it gives. -/
theorem noted_run (a : Act Unit) (s : Terminal) :
    (noted a).run s
      = (a.run (s.note (.began s.session.depth))).map fun r => (r.1, r.2.note .ended) := by
  show (a.run (s.note (.began s.session.depth))).bind _ = _
  cases a.run (s.note (.began s.session.depth)) <;> rfl

/-! ## Whole runs -/

/-- The terminal in which a run dispatches its first line. -/
def opened (s : Terminal) : Terminal :=
  (s.update fun t => { t with depth := t.depth + 1, executing := true }).note
    (.began (s.session.depth + 1))

/-- The terminal behind a run that began in a session. -/
def closed (before : Session) (t : Terminal) : Terminal :=
  (t.note .ended).update fun s => { s with depth := s.depth - 1, executing := before.executing }

/-- A run that is not nested too deep walks through its program. -/
theorem run_eq_map (dispatch : Text → Run Output) (p : Program) {s : Terminal}
    (h : s.session.depth < depthLimit) :
    (run dispatch p).run s
      = ((walk dispatch p s.settings.jumpBudget p.entries).run (opened s)).map fun r =>
          (r.1, closed s.session r.2) := by
  have state : (get : Act Terminal).run s = some (.ok s, s) := rfl
  rw [run, Act.run_session_bind, if_neg (Nat.not_le_of_lt h), Act.run_bind_of_ok state,
    Act.deeper, Act.run_within, Act.asProgram, Act.run_within, noted_run, Option.map_map,
    Option.map_map]
  rfl

/-- A run that is nested too deep is refused, and changes nothing. -/
theorem run_refused (dispatch : Text → Run Output) (p : Program) {s : Terminal}
    (h : depthLimit ≤ s.session.depth) :
    (run dispatch p).run s = some (.error .stackLimit, s) := by
  rw [run, Act.run_session_bind, if_pos h]
  rfl

/-- How a run ends. -/
theorem run_cases {dispatch : Text → Run Output} {p : Program} {s u : Terminal}
    {r : Except Fault Unit} (h : (run dispatch p).run s = some (r, u)) :
    (s.session.depth < depthLimit ∧ ∃ t,
      (walk dispatch p s.settings.jumpBudget p.entries).run (opened s) = some (r, t) ∧
      u = closed s.session t) ∨
    (depthLimit ≤ s.session.depth ∧ r = .error .stackLimit ∧ u = s) := by
  rcases Nat.lt_or_ge s.session.depth depthLimit with shallow | deep
  · rw [run_eq_map dispatch p shallow, Option.map_eq_some_iff] at h
    obtain ⟨⟨r', t⟩, walked, hu⟩ := h
    cases hu
    exact .inl ⟨shallow, t, walked, rfl⟩
  · rw [run_refused dispatch p deep] at h
    cases h
    exact .inr ⟨deep, rfl, rfl⟩

end Runner

end Teletype
