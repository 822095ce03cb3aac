/-
# Rounds of a repetition

A repetition takes the items of its list in order.  A round sets the variable to the item,
saves the session, and carries out the line of the repetition; the text that the line gives
back is kept.  The main statement is that **behind rounds that came to a text and left the
status zero either no item is left, and the texts are joined, or one more round decides how
the repetition ends, and the items behind it are never bound**
(`Command.exists_rounds_repeatFor`).
-/
import Teletype.Proofs.Printing
import Teletype.Proofs.Stop

namespace Teletype

/-- The terminal with a variable set and saved. -/
def Terminal.setVariable (t : Terminal) (name value : Text) : Terminal :=
  (t.update fun s => { s with bindings := s.bindings.insert name value }).save

/-- Setting a variable gives the terminal with the variable set and saved. -/
theorem Command.run_setVariable (name value : Text) (t : Terminal) :
    (liftM (setVariable name value) : Act Unit).run t
      = some (.ok (), t.setVariable name value) := rfl

namespace Command

/-! ## Rounds -/

/-- A round begins: the variable was just set to the item and saved, and a program runs. -/
structure Begins (name item : Text) (s t : Terminal) : Prop where
  /-- Nothing else was done. -/
  set : t = s.setVariable name item
  /-- The variable has the item as its value. -/
  value : t.session.bindings.get? name = some item
  /-- A program runs. -/
  executing : t.session.executing = true
  /-- What is saved is current, if the store accepts the key of the session. -/
  saved : s.store.Accepts s.settings.storageKey → t.Persists

/-- A round begins where a program runs. -/
theorem Begins.of_executing {s : Terminal} (h : s.session.executing = true) (name item : Text) :
    Begins name item s (s.setVariable name item) :=
  ⟨rfl, Table.get?_insert_self _ _ _, h, fun accepts => Terminal.persists_save accepts⟩

section Rounds

variable (dispatch : Text → Run Output) (name body : Text)

/-- From one terminal to another some rounds passed: for each item in order the line gave back
a text and left the status zero, and no stop was asked for. -/
inductive Rounds : Terminal → List (Text × Text) → Terminal → Prop
  /-- No round passed. -/
  | none (s : Terminal) : Rounds s [] s
  /-- A round passed, and others behind it. -/
  | next {s t u v w : Terminal} {item text : Text} {rest : List (Text × Text)}
      (begins : Begins name item s t) (ran : dispatch body t = some (.text text, u))
      (well : u.session.status = 0) (onward : u.takeStop = (false, v))
      (more : Rounds v rest w) : Rounds s ((item, text) :: rest) w

/-- How a repetition ends with some texts gathered and some items left. -/
inductive Ends (texts : List Text) :
    Terminal → List Text → Option (Except Fault Output × Terminal) → Prop
  /-- No item is left. -/
  | done (s : Terminal) : Ends texts s [] (some (.ok (.text (Text.unlines texts)), s))
  /-- The line goes on for ever. -/
  | endless {s t : Terminal} {item : Text} {items : List Text} (begins : Begins name item s t)
      (ran : dispatch body t = Option.none) : Ends texts s (item :: items) Option.none
  /-- The line ends with a status other than zero. -/
  | failed {s t u : Terminal} {item : Text} {items : List Text} {output : Output}
      (begins : Begins name item s t) (ran : dispatch body t = some (output, u))
      (ill : u.session.status ≠ 0) :
      Ends texts s (item :: items) (some (.error (.lineFailed u.session.status), u))
  /-- The line jumps or ends the program. -/
  | control {s t u : Terminal} {item : Text} {items : List Text} {output : Output}
      (begins : Begins name item s t) (ran : dispatch body t = some (output, u))
      (well : u.session.status = 0) (other : ∀ text, output ≠ .text text) :
      Ends texts s (item :: items) (some (.ok output, u))
  /-- A stop was asked for. -/
  | stopped {s t u v : Terminal} {item text : Text} {items : List Text}
      (begins : Begins name item s t) (ran : dispatch body t = some (.text text, u))
      (well : u.session.status = 0) (stop : u.takeStop = (true, v)) :
      Ends texts s (item :: items) (some (.ok (.text (Text.unlines (texts ++ [text]))), v))

end Rounds

variable {host : Host} {name body item : Text} {items done : List Text} {s t u v : Terminal}

/-- What a repetition does behind the line of a round. -/
theorem run_repeatFor_cons (done items : List Text) {output : Output}
    (ran : host.dispatch body (s.setVariable name item) = some (output, u)) :
    (repeatFor host name body done (item :: items)).run s
      = if u.session.status ≠ 0 then some (.error (.lineFailed u.session.status), u)
        else match output with
          | .text text =>
            if u.takeStop.1 then
              some (.ok (.text (Text.unlines (text :: done).reverse)), u.takeStop.2)
            else (repeatFor host name body (text :: done) items).run u.takeStop.2
          | control => some (.ok control, u) := by
  have looked : (liftM Run.status : Act Int).run u = some (.ok u.session.status, u) := rfl
  have taken : (liftM Run.takeStop : Act Bool).run u = some (.ok u.takeStop.1, u.takeStop.2) := rfl
  rw [repeatFor, Act.run_bind_of_ok (run_setVariable name item s),
    Act.run_bind_of_ok (Act.run_lift_of_some ran), Act.run_bind_of_ok looked]
  split
  · rfl
  · cases output with
    | text text =>
      dsimp only
      rw [Act.run_bind_of_ok taken]
      split <;> rfl
    | jump line => rfl
    | exit => rfl

/-- **A repetition is some rounds that pass and an end.** -/
theorem exists_rounds_repeatFor (host : Host) (H : scoping.Hosts host.dispatch) (name body : Text)
    (items done : List Text) {s : Terminal} (executing : s.session.executing = true) :
    ∃ passed rest u, items = passed.map Prod.fst ++ rest ∧
      Rounds host.dispatch name body s passed u ∧
      Ends host.dispatch name body (done.reverse ++ passed.map Prod.snd) u rest
        ((repeatFor host name body done items).run s) := by
  induction items generalizing done s with
  | nil =>
    refine ⟨[], [], s, rfl, .none s, ?_⟩
    rw [List.map_nil, List.append_nil]
    exact .done s
  | cons item items ih =>
    have begins := Begins.of_executing executing name item
    -- an end in this round leaves all items
    have ends : ∀ result, Ends host.dispatch name body done.reverse s (item :: items) result →
        (repeatFor host name body done (item :: items)).run s = result →
        ∃ passed rest u, item :: items = passed.map Prod.fst ++ rest ∧
          Rounds host.dispatch name body s passed u ∧
          Ends host.dispatch name body (done.reverse ++ passed.map Prod.snd) u rest
            ((repeatFor host name body done (item :: items)).run s) := by
      intro result ends ran
      refine ⟨[], item :: items, s, rfl, .none s, ?_⟩
      rw [ran, List.map_nil, List.append_nil]
      exact ends
    rcases ran : host.dispatch body (s.setVariable name item) with _ | ⟨output, u⟩
    · refine ends none (.endless begins ran) ?_
      rw [repeatFor, Act.run_bind_of_ok (run_setVariable name item s),
        Act.run_bind_of_none (Act.run_lift_of_none ran)]
    · have whole := run_repeatFor_cons done items ran
      by_cases status : u.session.status = 0
      · rw [if_neg (not_not_intro status)] at whole
        cases output with
        | jump line => exact ends _ (.control begins ran status fun _ => Output.noConfusion) whole
        | exit => exact ends _ (.control begins ran status fun _ => Output.noConfusion) whole
        | text text =>
          dsimp only at whole
          rcases stop : u.takeStop with ⟨asked, v⟩
          rw [stop] at whole
          cases asked with
          | true =>
            refine ends _ (.stopped begins ran status stop) ?_
            rw [whole, if_pos rfl, List.reverse_cons]
          | false =>
            rw [if_neg Bool.false_ne_true] at whole
            have kept : v.session.executing = true := by
              have level := (Terminal.Routine.stop u).level
              rw [stop] at level
              have taken : v.session.executing = u.session.executing :=
                congrArg (·.2.2.2.1) level.posture
              rw [taken, (H _ _ _ _ ran).executing]
              exact executing
            obtain ⟨passed, rest, w, split, rounds, ended⟩ := ih (text :: done) kept
            refine ⟨(item, text) :: passed, rest, w, ?_, .next begins ran status stop rounds, ?_⟩
            · rw [split]
              rfl
            · rw [whole]
              simpa using ended
      · rw [if_pos status] at whole
        exact ends _ (.failed begins ran status) whole

end Command

/-! ## Printing every item -/

namespace Terminal

variable {s t u : Terminal}

/-- Between two terminals a request to stop was noticed. -/
def SeesStop (s u : Terminal) : Prop := ∃ new, u.trace = new ++ s.trace ∧ .stopSeen ∈ new

/-- Between two terminals things were noted. -/
def Notes (s u : Terminal) : Prop := ∃ new, u.trace = new ++ s.trace

/-- What is level notes things. -/
theorem Level.notes (h : s.Level u) : s.Notes u := by
  obtain ⟨new, trace, -⟩ := h.trace
  exact ⟨new, trace⟩

/-- Things are noted behind others. -/
theorem Notes.trans (h : s.Notes t) (h' : t.Notes u) : s.Notes u := by
  obtain ⟨new, ht⟩ := h
  obtain ⟨new', hu⟩ := h'
  exact ⟨new' ++ new, trace_append ht hu⟩

/-- A request was noticed, and things were noted before it. -/
theorem SeesStop.after (h : t.SeesStop u) (before : s.Notes t) : s.SeesStop u := by
  obtain ⟨new, ht⟩ := before
  obtain ⟨new', hu, mem⟩ := h
  exact ⟨new' ++ new, trace_append ht hu, List.mem_append_left _ mem⟩

/-- A request was noticed, and things were noted behind it. -/
theorem SeesStop.before (h : s.SeesStop t) (behind : t.Notes u) : s.SeesStop u := by
  obtain ⟨new, ht, mem⟩ := h
  obtain ⟨new', hu⟩ := behind
  exact ⟨new' ++ new, trace_append ht hu, List.mem_append_right _ mem⟩

/-- A terminal begins to stop when it notices a request while it prints. -/
theorem seesStop_print (calm : s.session.stopping = false) (text : Text)
    (stops : (s.print text).session.stopping = true) : s.SeesStop (s.print text) := by
  revert stops
  unfold print
  split
  · exact fun stops => absurd (calm.symm.trans stops) Bool.false_ne_true
  · split
    · exact fun _ => ⟨[.stopSeen], rfl, List.mem_cons_self⟩
    · exact fun stops => absurd (calm.symm.trans stops) Bool.false_ne_true

/-- What is asked to stop was so before, or notices the request. -/
theorem seesStop_takeStop (asked : s.takeStop.1 = true) :
    s.session.stopping = true ∨ s.SeesStop s.takeStop.2 := by
  revert asked
  unfold takeStop
  dsimp only
  rcases s.console.takeStop with ⟨_ | _, console⟩
  · exact fun stopping => .inl stopping
  · exact fun _ => .inr ⟨[.stopSeen], rfl, List.mem_cons_self⟩

end Terminal

namespace Registry

open Command (repeatFor run_repeatFor_cons)

variable {name v : Text} {s : Terminal}

/-- **A line that prints a variable** says its value. -/
theorem dispatch_print_reference (bound : Nat) (hn : Phrase.IsName name)
    (found : s.session.bindings.get? name = some v) :
    builtin.dispatch (bound + 2) ("PRINT $".toList ++ name) s
      = some (leave (.text v, (entered s ("PRINT $".toList ++ name)).printLine v)) := by
  have gives : (Phrase.reference name .done).Gives s.session v := .bound hn found
  have written : "PRINT ".toList ++ (Phrase.reference name .done).text = "PRINT $".toList ++ name := by
    rw [Phrase.text, Phrase.text, List.append_nil]
    rfl
  have evaluated := gives.run_evaluate (builtin.dispatch (bound + 1))
    (t := entered s ("PRINT $".toList ++ name)) rfl
  rw [← written, dispatch_printing gives.solid (Nat.succ_pos bound), written,
    Run.settle_congr (Act.run_bind_of_ok evaluated), Run.settle_say]
  rfl

/-- **A repetition that prints its items joins them**, unless a request to stop is noticed. -/
theorem run_repeatFor_print (bound : Nat) (hn : Phrase.IsName name) (items done : List Text)
    (calm : s.session.stopping = false) (well : s.session.status = 0) :
    ∃ output u, (repeatFor (builtin.host (bound + 2)) name ("PRINT $".toList ++ name) done items).run s
        = some (.ok output, u) ∧ s.Notes u ∧ u.session.status = 0 ∧
      (output = .text (Text.unlines (done.reverse ++ items)) ∨ s.SeesStop u) := by
  induction items generalizing done s with
  | nil =>
    refine ⟨_, s, rfl, ⟨[], rfl⟩, well, .inl ?_⟩
    rw [List.append_nil]
  | cons item items ih =>
    let t := s.setVariable name item
    have begun : s.Notes t := ⟨[.saved s.settings.storageKey], rfl⟩
    have value : t.session.bindings.get? name = some item := Table.get?_insert_self _ _ _
    have said := dispatch_print_reference bound hn value
    generalize "PRINT $".toList ++ name = line at said ih ⊢
    let p := (entered t line).printLine item
    let u := p.note (.left p.session.status)
    have ran : (builtin.host (bound + 2)).dispatch line (s.setVariable name item)
        = some (.text item, u) := said
    have printed : (entered t line).Level p := .print _ _
    have status : u.session.status = 0 := printed.quiet.status
    have noted : s.Notes (entered t line) := begun.trans ⟨[.entered line], rfl⟩
    have left : p.Notes u := ⟨[.left p.session.status], rfl⟩
    have through : s.Notes u := (noted.trans printed.notes).trans left
    have taken := (Terminal.Routine.stop u).level
    have whole := run_repeatFor_cons done items ran
    rw [if_neg (not_not_intro status)] at whole
    dsimp only at whole
    cases asked : u.takeStop.1 with
    | true =>
      refine ⟨_, u.takeStop.2, whole.trans (if_pos asked), through.trans taken.notes, ?_, .inr ?_⟩
      · exact taken.quiet.status.trans status
      · rcases Terminal.seesStop_takeStop asked with stopping | seen
        · have still : (entered t line).session.stopping = false := calm
          have seen : (entered t line).SeesStop p := Terminal.seesStop_print still _ stopping
          exact ((seen.after noted).before left).before taken.notes
        · exact seen.after through
    | false =>
      obtain ⟨output, w, rest, notes, settled, result⟩ := ih (item :: done)
        (s := u.takeStop.2) u.stopping_takeStop (taken.quiet.status.trans status)
      refine ⟨output, w, ?_, (through.trans taken.notes).trans notes, settled, ?_⟩
      · exact whole.trans ((if_neg (by rw [asked]; exact Bool.false_ne_true)).trans rest)
      · refine result.imp (fun same => ?_) fun seen => seen.after (through.trans taken.notes)
        rw [same, List.reverse_cons, List.append_assoc, List.singleton_append]

end Registry

end Teletype
