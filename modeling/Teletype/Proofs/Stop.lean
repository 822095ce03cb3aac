/-
# Requests to stop

A request to stop is noticed where text is printed, and is pending until it is taken: by the
run that is asked behind each line, or by a repetition that is asked behind each item.  So a
request that was noticed while a line of a program was carried out ends the run behind the
line, as long as neither a repetition nor another run inside the line takes it first.  The
main statement is that **a run ends behind a line that leaves a request pending, and a line
in which nothing takes requests leaves every one pending that is noticed in it**
(`Registry.run_stops`).  A repetition takes a request for itself alone, and the run goes on
(`Registry.run_stops_repetition`).
-/
import Teletype.Proofs.Itinerary
import Teletype.Proofs.Scopes

namespace Teletype

/-! ## Pending requests -/

/-- What takes requests to stop began: a run, or the dispatch of a repetition. -/
def Event.Takes : Event → Prop
  | .began _ => True
  | .entered line => Builtin.ofLine? line = some .repeatEach
  | _ => False

instance : DecidablePred Event.Takes
  | .began _ => inferInstanceAs (Decidable True)
  | .entered line => inferInstanceAs (Decidable (Builtin.ofLine? line = some .repeatEach))
  | .printed .. | .asked _ | .cleared | .moved _ | .themed _ | .stopSeen | .left _ | .blank _
  | .reached _ | .ended | .saved _ => inferInstanceAs (Decidable False)

/-- Between two terminals a request to stop that was pending, or was noticed, is pending at
the end, unless something began that takes requests. -/
def Terminal.Heeds (s u : Terminal) : Prop :=
  ∃ new, u.trace = new ++ s.trace ∧ ((∀ e ∈ new, ¬ e.Takes) →
    s.session.stopping = true ∨ .stopSeen ∈ new → u.session.stopping = true)

namespace Terminal.Heeds

variable {s t u : Terminal}

/-- Nothing was noted, and what was pending is. -/
theorem of_eq (trace : u.trace = s.trace)
    (stopping : u.session.stopping = s.session.stopping) : s.Heeds u :=
  ⟨[], trace, fun _ pending => stopping.trans (pending.resolve_right List.not_mem_nil)⟩

/-- One thing was noted other than a request, and what was pending is. -/
theorem of_cons {e : Event} (trace : u.trace = e :: s.trace)
    (stopping : u.session.stopping = s.session.stopping) (he : e ≠ .stopSeen) : s.Heeds u :=
  ⟨[e], trace, fun _ pending => stopping.trans
    (pending.resolve_right fun mem => he (List.mem_singleton.mp mem).symm)⟩

/-- A request is pending at the end. -/
theorem of_stopping (new : List Event) (trace : u.trace = new ++ s.trace)
    (stopping : u.session.stopping = true) : s.Heeds u :=
  ⟨new, trace, fun _ _ => stopping⟩

/-- Something began that takes requests. -/
theorem of_takes {new : List Event} {e : Event} (trace : u.trace = new ++ s.trace)
    (mem : e ∈ new) (takes : e.Takes) : s.Heeds u :=
  ⟨new, trace, fun none => absurd takes (none e mem)⟩

/-- One thing was done after another. -/
theorem trans (h : s.Heeds t) (h' : t.Heeds u) : s.Heeds u := by
  obtain ⟨new, ht, hn⟩ := h
  obtain ⟨new', hu, hn'⟩ := h'
  refine ⟨new' ++ new, trace_append ht hu, fun none pending => ?_⟩
  obtain ⟨none', none⟩ := List.forall_mem_append.mp none
  refine hn' none' ?_
  rcases pending with pending | seen
  · exact .inl (hn none (.inl pending))
  · rcases List.mem_append.mp seen with seen | seen
    · exact .inr seen
    · exact .inl (hn none (.inr seen))

/-- A text was printed, or was not because a request is pending. -/
theorem print (s : Terminal) (text : Text) : s.Heeds (s.print text) := by
  unfold Terminal.print
  split
  · exact .of_eq rfl rfl
  · split
    · exact .of_stopping [.stopSeen] rfl rfl
    · exact .of_cons rfl rfl (by simp)

/-- The session was saved. -/
theorem save (s : Terminal) : s.Heeds s.save := .of_cons rfl rfl (by simp)

/-- A step was taken that leaves requests alone. -/
theorem simple (h : s.Simple u) : s.Heeds u := by
  cases h with
  | print => exact .print s _
  | save => exact .save s
  | draw => exact .of_eq rfl rfl
  | _ => exact .of_cons rfl rfl (by simp)

/-- A built-in command made a change. -/
theorem edit {manual : Manual} {b : Builtin} (h : b.Edit manual s u) : s.Heeds u := by
  cases h with
  | clear =>
    have cleared : s.Heeds (s.update fun t => { t with program := .empty }) := .of_eq rfl rfl
    exact cleared.trans ((print _ _).trans (.save _))
  | color => exact .of_eq rfl rfl
  | theme => exact .of_eq rfl rfl
  | _ => exact .of_cons rfl rfl (by simp)

end Terminal.Heeds

/-- What commands do about requests to stop. -/
def heeding : Conduct := fun _ s u => s.Heeds u

namespace heeding

/-- What commands do about requests to stop is orderly. -/
theorem orderly : Conduct.Orderly heeding where
  refl s := .of_eq rfl rfl
  trans h h' := h.trans h'
  settled h := h
  faulted h := h
  well h _ := h
  simple step h := h.trans (.simple step)
  scope {m s u} k h := by
    have entered : s.Heeds (s.update k.enter) := .of_eq rfl (by cases k <;> rfl)
    have left : u.Heeds (u.update (k.leave s.session)) := .of_eq rfl (by cases k <;> rfl)
    exact (entered.trans h).trans left

/-- A run that is not refused takes requests. -/
theorem runAndSave {host : Host} (H : scoping.Hosts host.dispatch) (p : Program) (s : Terminal) :
    Act.Goes heeding Output.manner s (host.runAndSave p) := by
  have ran : ∀ r u, (host.run p).run s = some (r, u) → s.Heeds u := by
    intro r u hr
    rcases Runner.run_cases hr with ⟨-, t, walked, rfl⟩ | ⟨-, -, rfl⟩
    · have walkScoped : (Runner.opened s).Scoped t := by
        have ends := Runner.goes_walk scoping.lawful H _ _ _ _ _ walked
        cases r <;> exact ends
      obtain ⟨new, -, trace, -⟩ := walkScoped.course.tracks.active
      have whole : (Runner.closed s.session t).trace
          = (.ended :: (new ++ [.began (s.session.depth + 1)])) ++ s.trace := by
        show .ended :: t.trace = _
        rw [trace, List.cons_append, List.append_assoc]
        rfl
      exact .of_takes whole (e := .began (s.session.depth + 1)) (by simp) trivial
    · exact .of_eq rfl rfl
  intro r u hr
  obtain ⟨r', t, ht, hr⟩ := Run.bind_eq_some.mp hr
  cases hr
  have saved : s.Heeds t.save := (ran r' t ht).trans (.save t)
  cases r' <;> exact saved

end heeding

namespace Registry

/-- What the words of a line do about requests to stop if they name no repetition. -/
theorem heeding_carryOut {host : Host} {words : List Text} {s u : Terminal} {output : Output}
    (H : heeding.Hosts host.dispatch) (level : scoping.Hosts host.dispatch)
    (free : Builtin.named? (Text.upper (words.headD [])) ≠ some .repeatEach)
    (h : builtin.carryOut host words s = some (output, u)) : s.Heeds u := by
  have tell : ∀ {t : Terminal} (status : Int) (text : Text), s.Heeds t →
      s.Heeds ((t.update fun t => { t with status }).print text) := by
    intro t status text ht
    have marked : t.Heeds (t.update fun t => { t with status }) := .of_eq rfl rfl
    exact (ht.trans marked).trans (.print _ text)
  refine carryOut_ends_of (C := heeding) (fun b hb => ?_)
    (fun p _ => heeding.runAndSave level p s) (fun f t ht => tell f.status _ ht)
    (fun n t _ _ _ ht => ?_) (fun word t ht => ?_) h
  · refine b.goes_perform_of heeding.orderly H (fun t u edit => .edit edit)
      (heeding.runAndSave level) ?_
    rintro rfl
    exact absurd hb free
  · cases ht
    exact .of_cons rfl rfl (by simp)
  · cases ht
    exact tell 1 _ (.of_eq rfl rfl)

/-- **A request to stop that a dispatched line notices is pending behind the line**, unless
something takes requests in it. -/
theorem heeding_hosts (bound : Nat) : heeding.Hosts (builtin.dispatch bound) := by
  refine hosts_dispatch (fun s => .of_cons rfl rfl (by simp))
    (fun bound line s output t H _ h => ?_) bound
  have left : t.Heeds (t.note (.left t.session.status)) := .of_cons rfl rfl (by simp)
  refine Terminal.Heeds.trans ?_ left
  by_cases named : Builtin.ofLine? (Text.strip line) = some .repeatEach
  · -- the repetition itself takes requests
    obtain ⟨new, -, trace, -⟩ := (scoping_carryOut (scoping_hosts bound) h).course.tracks.active
    have whole : t.trace = (new ++ [.entered (Text.strip line)]) ++ s.trace := by
      rw [trace, List.append_assoc]
      rfl
    exact .of_takes whole (List.mem_append_right _ List.mem_cons_self) named
  · have entered : s.Heeds (entered s (Text.strip line)) := .of_cons rfl rfl (by simp)
    exact entered.trans (heeding_carryOut H (scoping_hosts bound) named h)

end Registry

/-! ## The last line of a run -/

namespace Runner

variable {dispatch : Text → Run Output} {p : Program} {left : Nat}
  {lines : List (LineNumber × Text)} {s u : Terminal} {earlier later visits : List Visit}
  {v : Visit} {output : Output} {result : Option (Except Fault Unit)}

/-- A line does not pass that leaves a request to stop. -/
theorem Visit.not_passes (h : v.outcome dispatch = some (output, u))
    (stop : u.takeStop.1 = true) (o : Output) (w : Terminal) : ¬ v.Passes dispatch o w := by
  rintro ⟨after, ho, passed, -⟩
  cases h.symm.trans ho
  rw [passed] at stop
  cases stop

/-- **A run ends behind a line that leaves a request to stop**, and ends well if the line
neither jumped nor asked for the end. -/
theorem Trail.stopped (h : Trail dispatch p left lines s visits result)
    (hv : visits = earlier ++ v :: later) (ho : v.outcome dispatch = some (output, u))
    (stop : u.takeStop.1 = true) :
    later = [] ∧ ∀ t, output = .text t → result = some (.ok ()) := by
  induction h generalizing earlier with
  | finished | held => simp at hv
  | last _ ending =>
    rcases earlier with _ | ⟨e, earlier⟩
    · obtain ⟨rfl, rfl⟩ := List.cons.inj hv
      refine ⟨rfl, fun t text => ?_⟩
      subst text
      cases ending with
      | stopped => rfl
      | endless h | exit h | missing h | exhausted h => cases ho.symm.trans h
      | failed h _ passed =>
        cases ho.symm.trans h
        rw [passed] at stop
        cases stop
    · simp at hv
  | onward _ passes _ ih =>
    rcases earlier with _ | ⟨e, earlier⟩
    · obtain ⟨rfl, -⟩ := List.cons.inj hv
      exact absurd passes (Visit.not_passes ho stop _ _)
    · exact ih (List.cons.inj hv).2
  | jumped _ passes _ _ ih =>
    rcases earlier with _ | ⟨e, earlier⟩
    · obtain ⟨rfl, -⟩ := List.cons.inj hv
      exact absurd passes (Visit.not_passes ho stop _ _)
    · exact ih (List.cons.inj hv).2

end Runner

namespace Terminal

/-- Between two terminals a request to stop was noticed, and nothing began that takes
requests. -/
def NoticesStop (s u : Terminal) : Prop :=
  ∃ new, u.trace = new ++ s.trace ∧ .stopSeen ∈ new ∧ ∀ e ∈ new, ¬ e.Takes

/-- Behind a request that was taken none is pending. -/
theorem stopping_takeStop (t : Terminal) : t.takeStop.2.session.stopping = false := by
  unfold takeStop
  dsimp only
  split <;> rfl

/-- A request that was noticed and not taken can be taken at the end. -/
theorem Heeds.takeStop {s u : Terminal} (h : s.Heeds u) (noticed : s.NoticesStop u) :
    u.takeStop.1 = true := by
  obtain ⟨new, trace, pending⟩ := h
  obtain ⟨new', trace', seen, none⟩ := noticed
  obtain rfl : new = new' := List.append_cancel_right (trace.symm.trans trace')
  show (u.console.takeStop.1 || u.session.stopping) = true
  rw [pending none (.inr seen), Bool.or_true]

end Terminal

/-- A repetition ends behind an item for which its body leaves a request to stop, and takes
the request. -/
theorem Command.run_repeatFor_stopped {host : Host} {name body item t : Text}
    {done items : List Text} {start u : Terminal}
    (h : host.dispatch body
      (start.update fun s => { s with bindings := s.bindings.insert name item }).save
      = some (.text t, u))
    (status : u.session.status = 0) (stop : u.takeStop.1 = true) :
    (repeatFor host name body done (item :: items)).run start
      = some (.ok (.text (Text.unlines (t :: done).reverse)), u.takeStop.2) := by
  have set : (liftM (setVariable name item) : Act Unit).run start
      = some (.ok (), (start.update fun s =>
          { s with bindings := s.bindings.insert name item }).save) := rfl
  have looked : (liftM Run.status : Act Int).run u = some (.ok u.session.status, u) := rfl
  have taken : (liftM Run.takeStop : Act Bool).run u = some (.ok true, u.takeStop.2) := by
    rw [← stop]
    rfl
  rw [repeatFor, Act.run_bind_of_ok set, Act.run_bind_of_ok (Act.run_lift_of_some h),
    Act.run_bind_of_ok looked, if_neg (not_not_intro status)]
  dsimp only
  rw [Act.run_bind_of_ok taken]
  rfl

namespace Registry

open Runner

/-- **A request to stop ends the run that notices it, if nothing in the line takes it.**  A run
dispatches no line behind one that leaves a request to stop, and such a request is left by
every line in which one is noticed, unless a repetition or another run began in the line:
these take requests for themselves.  A repetition that is left a request by its body ends,
and no request is pending behind it. -/
theorem run_stops (bound : Nat) (p : Program) (s : Terminal)
    (h : s.session.depth < depthLimit) :
    (∃ visits, Itinerary (builtin.dispatch bound) p s.settings.jumpBudget (opened s) visits
        ((((builtin.host bound).run p).run s).map Prod.fst) ∧
      ∀ earlier v later output u, visits = earlier ++ v :: later →
        v.outcome (builtin.dispatch bound) = some (output, u) →
        (u.takeStop.1 = true ∨ v.before.NoticesStop u) →
        later = [] ∧ ∀ t, output = .text t →
          (((builtin.host bound).run p).run s).map Prod.fst = some (.ok ())) ∧
    ∀ (name body item t : Text) (done items : List Text) (start u : Terminal),
      builtin.dispatch bound body
        (start.update fun s => { s with bindings := s.bindings.insert name item }).save
        = some (.text t, u) →
      u.session.status = 0 → u.takeStop.1 = true →
      (Command.repeatFor (builtin.host bound) name body done (item :: items)).run start
        = some (.ok (.text (Text.unlines (t :: done).reverse)), u.takeStop.2) ∧
      u.takeStop.2.session.stopping = false := by
  constructor
  · rw [Host.run, run_fst _ p h]
    obtain ⟨visits, trail⟩ := exists_trail_walk (builtin.dispatch bound) p s.settings.jumpBudget
      p.entries (opened s)
    refine ⟨visits, trail.itinerary, fun earlier v later output u hv ho stops => ?_⟩
    refine trail.stopped hv ho (stops.elim id fun noticed => ?_)
    exact (heeding_hosts bound _ _ _ _ ho).takeStop noticed
  · intro name body item t done items start u hd status stop
    exact ⟨Command.run_repeatFor_stopped hd status stop, u.stopping_takeStop⟩

/-- A program whose first line notices a request to stop while it prints, which is the only
line dispatched, and a repetition that takes one. -/
theorem run_stops_list :
    let p : Program := Program.setLine (Program.setLine .empty 10 "LIST".toList) 20 "VARS".toList
    let console := Console.recorder { grid := ⟨60, 25⟩, stopAfter := some 1 }
    let s := (Terminal.ofSettings {} console (.memory .empty) ⟨0⟩).update fun t =>
      { t with program := p }
    (∃ v : Visit, v.line = 10 ∧ Itinerary (builtin.dispatch 4) p s.settings.jumpBudget (opened s)
        [v] (some (.ok ()))) ∧
    ∃ u, (Command.repeatFor (builtin.host 4) "X".toList "PRINT $X".toList []
        ["a".toList, "b".toList]).run s = some (.ok (.text "a".toList), u) ∧
      u.session.stopping = false := by
  intro p console s
  obtain ⟨⟨visits, itinerary, ends⟩, takes⟩ := run_stops 4 p s (by decide)
  constructor
  · have entries : p.entries = [(10, "LIST".toList), (20, "VARS".toList)] := by decide +kernel
    have found : p.line? 10 = some "LIST".toList :=
      (p.mem_entries_iff 10 _).mp (entries ▸ List.mem_cons_self)
    have least : IsLeast {k | p.Has k} 10 := by
      refine ⟨Option.isSome_of_eq_some found, fun k hk => ?_⟩
      obtain ⟨t, ht⟩ := Option.isSome_iff_exists.mp hk
      have entry := (p.mem_entries_iff k t).mpr ht
      rw [entries, List.mem_cons, List.mem_singleton] at entry
      rcases entry with entry | entry <;> cases entry <;> decide
    cases visits with
    | nil => exact absurd (itinerary.complete 10 _ least found) (by decide +kernel)
    | cons v later =>
      obtain ⟨n, text, before⟩ := v
      obtain ⟨first, reached⟩ := itinerary.first _ rfl
      obtain rfl : before = (opened s).note (.reached n) := reached
      obtain rfl : n = 10 := UInt64.le_antisymm (first.2 least.1) (least.2 first.1)
      obtain rfl : "LIST".toList = text :=
        Option.some_inj.mp (found.symm.trans (itinerary.stored _ List.mem_cons_self).1)
      let new : List Event := [.left 0, .stopSeen, .printed "10 LIST\n".toList 0 .white,
        .entered "LIST".toList]
      have ran : (builtin.dispatch 4 "LIST".toList ((opened s).note (.reached 10))).any (fun r =>
          decide (r.2.trace = new ++ ((opened s).note (.reached 10)).trace)) = true := by
        decide +kernel
      obtain ⟨⟨output, u⟩, h, trace⟩ := (Option.any_eq_true _ _).mp ran
      have noticed : ((opened s).note (.reached 10)).NoticesStop u :=
        ⟨new, of_decide_eq_true trace, by decide, by decide +kernel⟩
      obtain ⟨rfl, -⟩ := ends [] _ later output u rfl h (.inr noticed)
      have result : (((builtin.host 4).run p).run s).map Prod.fst = some (.ok ()) := by
        decide +kernel
      exact ⟨_, rfl, result ▸ itinerary⟩
  · have ran : (builtin.dispatch 4 "PRINT $X".toList (s.update fun s =>
        { s with bindings := s.bindings.insert "X".toList "a".toList }).save).any (fun r =>
        decide (r.1 = .text "a".toList) && decide (r.2.session.status = 0)
          && r.2.takeStop.1) = true := by
      decide +kernel
    obtain ⟨⟨output, u⟩, h, checked⟩ := (Option.any_eq_true _ _).mp ran
    simp only [Bool.and_eq_true, decide_eq_true_eq] at checked
    obtain ⟨⟨rfl, status⟩, stop⟩ := checked
    exact ⟨_, takes _ _ _ _ _ _ _ _ h status stop⟩

/-- Where a repetition or the run of an alias takes the request that a line of the program
noticed, the program goes on with the next line. -/
theorem run_stops_repetition :
    let console := Console.recorder { grid := ⟨60, 25⟩, stopAfter := some 1 }
    let start := Terminal.ofSettings {} console (.memory .empty) ⟨0⟩
    let inner : Program := Program.setLine .empty 10 "PRINT a".toList
    let s := start.update fun t => { t with aliases := t.aliases.insert "INNER".toList inner }
    let program := fun first : Text =>
      (Program.setLine (Program.setLine .empty 1 first) 2 "PRINT b".toList : Program)
    let noted := fun r : Except Fault Unit × Terminal => r.2.trace.reverse.filter fun e =>
      e ∈ [.reached 1, .reached 2, .stopSeen, .printed "a\n".toList 0 .white,
        .printed "b\n".toList 0 .white]
    let course : List Event := [.reached 1, .printed "a\n".toList 0 .white, .stopSeen,
      .reached 2, .printed "b\n".toList 0 .white]
    (((builtin.host 5).run (program "FOR X IN a DO PRINT $X".toList)).run s).map noted
        = some course ∧
      (((builtin.host 5).run (program "INNER".toList)).run s).map noted = some course := by
  intro console start inner s program noted course
  exact ⟨by decide +kernel, by decide +kernel⟩

end Registry

end Teletype
