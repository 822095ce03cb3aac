/-
# The itinerary of a run

What the lines that a run dispatches have to do with the program and the budget of jumps.
The run begins at the least line of the program; from a line it goes on with the least
line above it, or with the target of a jump; it never dispatches a line that a program may
not hold, and the budget bounds how often it jumps and how many lines it dispatches.  The
main statement is that **every run has an itinerary** (`exists_itinerary`), for every way
to carry out lines, whether the run ends or not.
-/
import Mathlib.Data.List.Chain
import Teletype.Proofs.Placeholder
import Teletype.Proofs.Trail

namespace Teletype

/-- Line numbers are told by their texts. -/
theorem LineNumber.text_injective {n m : LineNumber} (h : n.text = m.text) : n = m :=
  UInt64.toNat_inj.mp (Decimal.ofNat_injective h)

namespace Runner

variable (dispatch : Text → Run Output) (p : Program)

/-! ## Itineraries -/

/-- Behind a line a run comes to another line: to the least line above it, or to where it
jumps to. -/
def Visit.LeadsTo (v : Visit) (m : LineNumber) (u : Terminal) : Prop :=
  (∃ t, v.Passes dispatch (.text t) u ∧ IsLeast {k | v.line < k ∧ p.Has k} m) ∨
    v.Passes dispatch (.jump m) u ∧ p.Has m

/-- How many jumps to lines of the program were asked for. -/
def jumpCount (visits : List Visit) : Nat := visits.countP (Visit.jumps dispatch p)

/-- A run that dispatched some lines comes to a line next: to one of the first lines if it
dispatched none, and else to where the last of them leads if the jumps were within a limit. -/
def Due (first : LineNumber → Prop) (limit : Nat) (visits : List Visit) (m : LineNumber) : Prop :=
  match visits.getLast? with
  | none => first m
  | some v => jumpCount dispatch p visits < limit ∧ ∃ u, v.LeadsTo dispatch p m u

/-- The itinerary of a run of a program within a budget of jumps: the lines that it
dispatched in order, and how it ended, if it did. -/
structure Itinerary (budget : Nat) (s : Terminal) (visits : List Visit)
    (result : Option (Except Fault Unit)) : Prop where
  /-- The first line is the least of the program. -/
  first : ∀ v ∈ visits.head?, IsLeast {k | p.Has k} v.line ∧ v.before = s.note (.reached v.line)
  /-- Each line leads to the next. -/
  next : visits.IsChain fun v w =>
    ∃ u, v.LeadsTo dispatch p w.line u ∧ w.before = u.note (.reached w.line)
  /-- Each line is one of the program that it may hold. -/
  stored : ∀ v ∈ visits, p.line? v.line = some v.text ∧ isHeld v.text = false
  /-- The run comes to no other line that the program may hold. -/
  complete : ∀ m text, Due dispatch p (IsLeast {k | p.Has k}) (max budget 1) visits m →
    p.line? m = some text → isHeld text = true
  /-- The run is refused where it comes to a line that the program may not hold. -/
  held : result = some (.error .heldByProgram) ↔
    ∃ m, Due dispatch p (IsLeast {k | p.Has k}) (max budget 1) visits m
  /-- The jumps that the run goes on from are fewer than the budget. -/
  taken : jumpCount dispatch p visits.dropLast < max budget 1
  /-- No more jumps are asked for than the budget. -/
  asked : jumpCount dispatch p visits ≤ max budget 1
  /-- The last jump of the budget is refused. -/
  exhausted : result = some (.error .stackLimit) ↔ jumpCount dispatch p visits = max budget 1
  /-- A jump is refused if the program does not have the line. -/
  missing : ∀ target, result = some (.error (.missingLine target.text)) ↔
    ∃ v ∈ visits, ∃ u, v.outcome dispatch = some (.jump target, u) ∧ p.line? target = none
  /-- The budget and the size of the program bound the number of lines. -/
  bounded : visits.length ≤ max budget 1 * p.size
  /-- The run ends if each line does. -/
  endless : result = none ↔ ∃ v ∈ visits, v.outcome dispatch = none

variable {dispatch p} {left : Nat} {lines rest : List (LineNumber × Text)} {s u : Terminal}
  {visits : List Visit} {result : Option (Except Fault Unit)}

/-! ## Visits -/

namespace Visit

variable {v : Visit} {m target : LineNumber} {t : Text}

/-- A line gives one output back and leaves one terminal. -/
theorem Passes.unique {o o' : Output} {u' : Terminal} (h : v.Passes dispatch o u)
    (h' : v.Passes dispatch o' u') : o = o' ∧ u = u' := by
  obtain ⟨after, hv, hs, -⟩ := h
  obtain ⟨after', hv', hs', -⟩ := h'
  cases hv.symm.trans hv'
  cases hs.symm.trans hs'
  exact ⟨rfl, rfl⟩

/-- A text leads to the first of the lines behind the line. -/
theorem leadsTo_of_text {n : LineNumber} {text : Text} {before : Terminal}
    (hl : (n, text) :: rest <:+ p.entries) (h : Passes dispatch ⟨n, text, before⟩ (.text t) u)
    {u' : Terminal} :
    LeadsTo dispatch p ⟨n, text, before⟩ m u' ↔ u' = u ∧ ∃ t, rest.head? = some (m, t) := by
  rw [← Program.isLeast_iff_head? ((List.suffix_cons _ _).trans hl)
    fun k => Program.mem_rest_iff hl]
  constructor
  · rintro (⟨t', h', least⟩ | ⟨h', -⟩)
    · exact ⟨(h.unique h').2.symm, least⟩
    · cases (h.unique h').1
  · rintro ⟨rfl, least⟩
    exact .inl ⟨t, h, least⟩

/-- A jump leads to the first of the lines from its target on. -/
theorem leadsTo_of_jump (h : v.Passes dispatch (.jump target) u) (hp : p.Has target)
    {u' : Terminal} :
    v.LeadsTo dispatch p m u' ↔ u' = u ∧ ∃ t, (p.linesFrom target).head? = some (m, t) := by
  obtain ⟨text, ht⟩ := Option.isSome_iff_exists.mp hp
  rw [Program.head?_linesFrom ht]
  constructor
  · rintro (⟨t', h', -⟩ | ⟨h', -⟩)
    · cases (h.unique h').1
    · obtain ⟨ho, rfl⟩ := h.unique h'
      cases ho
      exact ⟨rfl, text, rfl⟩
  · rintro ⟨rfl, t, hm⟩
    cases hm
    exact .inr ⟨h, hp⟩

/-- A line that asks for a jump to a line of the program jumps. -/
theorem jumps_of_outcome (h : v.outcome dispatch = some (.jump target, u)) (hp : p.Has target) :
    v.jumps dispatch p = true := by
  rw [jumps, h]
  exact hp

/-- A line that gives a text back does not jump. -/
theorem Passes.jumps_text (h : v.Passes dispatch (.text t) u) : v.jumps dispatch p = false := by
  obtain ⟨after, hv, -⟩ := h
  rw [jumps, hv]

/-- A line from which a run goes on at the target of a jump jumps. -/
theorem Passes.jumps_jump (h : v.Passes dispatch (.jump target) u) (hp : p.Has target) :
    v.jumps dispatch p = true := by
  obtain ⟨after, hv, -⟩ := h
  exact jumps_of_outcome hv hp

end Visit

/-- A line in front of others that does not jump leaves the number of jumps. -/
theorem jumpCount_cons_of_false {v : Visit} (h : v.jumps dispatch p = false) :
    jumpCount dispatch p (v :: visits) = jumpCount dispatch p visits :=
  List.countP_cons_of_neg (by simp [h])

/-- A line in front of others that jumps is counted. -/
theorem jumpCount_cons_of_true {v : Visit} (h : v.jumps dispatch p = true) :
    jumpCount dispatch p (v :: visits) = jumpCount dispatch p visits + 1 :=
  List.countP_cons_of_pos h

/-- A single line jumps at most once. -/
theorem jumpCount_one (v : Visit) :
    jumpCount dispatch p [v] = if v.jumps dispatch p then 1 else 0 := by
  rw [jumpCount, List.countP_singleton]

/-- What is due behind a line and others is due behind the others, from where the line
leads to. -/
theorem due_cons {first behind : LineNumber → Prop} {limit limit' : Nat} {v : Visit}
    {m : LineNumber} (hv : ∀ m, (∃ u, v.LeadsTo dispatch p m u) ↔ behind m) (pos : 0 < limit')
    (hc : jumpCount dispatch p (v :: visits) < limit ↔ jumpCount dispatch p visits < limit') :
    Due dispatch p first limit (v :: visits) m ↔ Due dispatch p behind limit' visits m := by
  cases visits with
  | nil =>
    have enough : jumpCount dispatch p [v] < limit := hc.mpr pos
    show jumpCount dispatch p [v] < limit ∧ (∃ u, v.LeadsTo dispatch p m u) ↔ behind m
    rw [hv]
    exact and_iff_right enough
  | cons w visits =>
    rw [Due, Due, List.getLast?_cons_cons, List.getLast?_cons]
    exact and_congr_left' hc

namespace Ending

variable {v : Visit}

/-- Where a run ends behind a line, the line leads nowhere within the limit. -/
theorem not_due {first : LineNumber → Prop} {m : LineNumber}
    (h : Ending dispatch p left v result) : ¬ Due dispatch p first (left + 1) [v] m := by
  rintro ⟨hc, u, hu⟩
  have passes : ∃ o, v.Passes dispatch o u ∧ ∀ k, o ≠ .exit ∧ (o = .jump k → p.Has k) := by
    rcases hu with ⟨t, hu, -⟩ | ⟨hu, hp⟩
    · exact ⟨_, hu, fun k => ⟨by simp, fun hk => by cases hk⟩⟩
    · exact ⟨_, hu, fun k => ⟨by simp, fun hk => by cases hk; exact hp⟩⟩
  -- each way to end contradicts that the line passed
  obtain ⟨o, ⟨after, hv, hs, hst⟩, ho⟩ := passes
  cases h with
  | endless h => cases hv.symm.trans h
  | exit h =>
    cases hv.symm.trans h
    exact (ho 0).1 rfl
  | missing h hp =>
    cases hv.symm.trans h
    have found := (ho _).2 rfl
    rw [Program.Has, hp] at found
    cases found
  | exhausted h hp hl =>
    rw [jumpCount_cons_of_true (Visit.jumps_of_outcome h hp), hl] at hc
    exact absurd hc (by omega)
  | stopped h _ stop =>
    cases hv.symm.trans h
    cases hs.symm.trans stop
  | failed h _ stop hf =>
    cases hv.symm.trans h
    cases hs.symm.trans stop
    exact hf hst

/-- A run is not refused behind a line for what a program may not hold. -/
theorem ne_held (h : Ending dispatch p left v result) :
    result ≠ some (.error .heldByProgram) := by
  intro hr
  subst hr
  cases h

/-- A line that jumps only while jumps are left does not ask for the last one. -/
theorem jumpCount_ne_of_left {output : Output} (h : v.outcome dispatch = some (output, u))
    (hn : ∀ target, output = .jump target → p.Has target ∧ 0 < left) :
    jumpCount dispatch p [v] ≠ left + 1 := by
  rw [jumpCount_one]
  cases output with
  | jump target =>
    obtain ⟨-, pos⟩ := hn target rfl
    split <;> omega
  | _ => simp [Visit.jumps, h]

/-- A run is refused behind a line for the last jump exactly if no jump is left for it. -/
theorem exhausted_iff (h : Ending dispatch p left v result) :
    result = some (.error .stackLimit) ↔ jumpCount dispatch p [v] = left + 1 := by
  cases h with
  | exhausted h hp hl =>
    rw [jumpCount_one, if_pos (Visit.jumps_of_outcome h hp), hl]
    exact iff_of_true rfl rfl
  | endless h => simp [jumpCount_one, Visit.jumps, h]
  | exit h => simp [jumpCount_one, Visit.jumps, h]
  | missing h hp => simp [jumpCount_one, Visit.jumps, h, hp]
  | stopped h hn => exact iff_of_false (by simp) (jumpCount_ne_of_left h hn)
  | failed h hn => exact iff_of_false (by simp) (jumpCount_ne_of_left h hn)

/-- A run is refused behind a line for a missing line exactly if the line jumps there. -/
theorem missing_iff (h : Ending dispatch p left v result) (target : LineNumber) :
    result = some (.error (.missingLine target.text)) ↔
      ∃ u, v.outcome dispatch = some (.jump target, u) ∧ p.line? target = none := by
  have present : ∀ {o after}, v.outcome dispatch = some (o, after) →
      (∀ t, o = .jump t → p.Has t) →
      ¬ ∃ u, v.outcome dispatch = some (.jump target, u) ∧ p.line? target = none := by
    rintro o after hv ho ⟨u, hu, hp⟩
    cases hv.symm.trans hu
    have found := ho target rfl
    rw [Program.Has, hp] at found
    cases found
  cases h with
  | endless h =>
    refine iff_of_false (by simp) ?_
    rintro ⟨u, hu, -⟩
    cases h.symm.trans hu
  | exit h => exact iff_of_false (by simp) (present h fun t ht => by cases ht)
  | @missing t u h hp =>
    constructor
    · intro hr
      have same : t.text = target.text := by simpa using hr
      obtain rfl := LineNumber.text_injective same
      exact ⟨u, h, hp⟩
    · rintro ⟨u', hu, -⟩
      cases h.symm.trans hu
      rfl
  | exhausted h hp => exact iff_of_false (by simp) (present h fun t ht => by cases ht; exact hp)
  | stopped h hn => exact iff_of_false (by simp) (present h fun t ht => (hn t ht).1)
  | failed h hn => exact iff_of_false (by simp) (present h fun t ht => (hn t ht).1)

/-- A run goes on for ever behind a line exactly if the line does. -/
theorem endless_iff (h : Ending dispatch p left v result) :
    result = none ↔ v.outcome dispatch = none := by
  cases h with
  | endless h => exact iff_of_true rfl h
  | exit h => simp [h]
  | missing h => simp [h]
  | exhausted h => simp [h]
  | stopped h => simp [h]
  | failed h => simp [h]

end Ending

/-! ## Trails -/

namespace Trail

/-- The first line that is dispatched is the first one. -/
theorem first (h : Trail dispatch p left lines s visits result) :
    ∀ v ∈ visits.head?, lines.head? = some (v.line, v.text) ∧
      v.before = s.note (.reached v.line) := by
  intro v hv
  cases h with
  | finished => cases hv
  | held => cases hv
  | _ =>
    cases hv
    exact ⟨rfl, rfl⟩

/-- Each line leads to the next. -/
theorem next (h : Trail dispatch p left lines s visits result) (hl : lines <:+ p.entries) :
    visits.IsChain fun v w =>
      ∃ u, v.LeadsTo dispatch p w.line u ∧ w.before = u.note (.reached w.line) := by
  induction h with
  | finished => exact .nil
  | held => exact .nil
  | last => exact .singleton _
  | @onward _ n text t rest s u visits result _ hv more ih =>
    refine List.isChain_cons.mpr ⟨fun w hw => ?_, ih ((List.suffix_cons _ _).trans hl)⟩
    obtain ⟨hw, hb⟩ := more.first w hw
    exact ⟨u, (Visit.leadsTo_of_text hl hv).mpr ⟨rfl, _, hw⟩, hb⟩
  | @jumped _ n target text rest s u visits result _ hv hp more ih =>
    refine List.isChain_cons.mpr ⟨fun w hw => ?_, ih (p.linesFrom_suffix target)⟩
    obtain ⟨hw, hb⟩ := more.first w hw
    exact ⟨u, (Visit.leadsTo_of_jump hv hp).mpr ⟨rfl, _, hw⟩, hb⟩

/-- Each line is one of the program that it may hold. -/
theorem stored (h : Trail dispatch p left lines s visits result) (hl : lines <:+ p.entries) :
    ∀ v ∈ visits, p.line? v.line = some v.text ∧ isHeld v.text = false := by
  induction h with
  | finished => exact fun v hv => absurd hv List.not_mem_nil
  | held => exact fun v hv => absurd hv List.not_mem_nil
  | last free =>
    intro v hv
    rw [List.mem_singleton.mp hv]
    exact ⟨Program.line?_of_suffix hl, free⟩
  | onward free _ _ ih =>
    refine List.forall_mem_cons.mpr ⟨⟨Program.line?_of_suffix hl, free⟩, ?_⟩
    exact ih ((List.suffix_cons _ _).trans hl)
  | jumped free _ _ _ ih =>
    refine List.forall_mem_cons.mpr ⟨⟨Program.line?_of_suffix hl, free⟩, ?_⟩
    exact ih (p.linesFrom_suffix _)

/-- What is due next a program may not hold, and the run is refused exactly if something is
due. -/
theorem due (h : Trail dispatch p left lines s visits result) (hl : lines <:+ p.entries) :
    let due := Due dispatch p (fun m => ∃ t, lines.head? = some (m, t)) (left + 1) visits
    (∀ m text, due m → p.line? m = some text → isHeld text = true) ∧
      (result = some (.error .heldByProgram) ↔ ∃ m, due m) := by
  induction h with
  | finished =>
    refine ⟨?_, iff_of_false (by simp) ?_⟩
    · rintro m text ⟨t, ht⟩
      cases ht
    · rintro ⟨m, t, ht⟩
      cases ht
  | @held _ n text _ _ h =>
    have line := Program.line?_of_suffix hl
    refine ⟨?_, iff_of_true rfl ⟨n, text, rfl⟩⟩
    rintro m text' ⟨t, ht⟩ hm
    cases ht
    cases line.symm.trans hm
    exact h
  | last _ he =>
    refine ⟨fun m text hd => absurd hd he.not_due, iff_of_false he.ne_held ?_⟩
    rintro ⟨m, hd⟩
    exact he.not_due hd
  | @onward left n text t rest s u visits result _ hv more ih =>
    -- where the line leads to is where the others begin
    have leads : ∀ m, (∃ u', Visit.LeadsTo dispatch p ⟨n, text, s.note (.reached n)⟩ m u') ↔
        ∃ t, rest.head? = some (m, t) := by
      intro m
      simp only [Visit.leadsTo_of_text hl hv, exists_and_right, exists_eq, true_and]
    have count : jumpCount dispatch p (_ :: visits) = jumpCount dispatch p visits :=
      jumpCount_cons_of_false hv.jumps_text
    have same : ∀ m, Due dispatch p (fun m => ∃ t, ((n, text) :: rest).head? = some (m, t))
        (left + 1) (_ :: visits) m ↔ Due dispatch p _ (left + 1) visits m := fun _ =>
      due_cons leads (Nat.succ_pos left) (by rw [count])
    simp only [same]
    exact ih ((List.suffix_cons _ _).trans hl)
  | @jumped left n target text rest s u visits result _ hv hp more ih =>
    have leads : ∀ m, (∃ u', Visit.LeadsTo dispatch p ⟨n, text, s.note (.reached n)⟩ m u') ↔
        ∃ t, (p.linesFrom target).head? = some (m, t) := by
      intro m
      simp only [Visit.leadsTo_of_jump hv hp, exists_and_right, exists_eq, true_and]
    have count : jumpCount dispatch p (_ :: visits) = jumpCount dispatch p visits + 1 :=
      jumpCount_cons_of_true (hv.jumps_jump hp)
    have same : ∀ m, Due dispatch p (fun m => ∃ t, ((n, text) :: rest).head? = some (m, t))
        (left + 1 + 1) (_ :: visits) m ↔ Due dispatch p _ (left + 1) visits m := fun _ =>
      due_cons leads (Nat.succ_pos left) (by rw [count]; omega)
    simp only [same]
    exact ih (p.linesFrom_suffix target)

/-- The jumps asked for are bounded, and the run is refused for the last one. -/
theorem asked (h : Trail dispatch p left lines s visits result) :
    jumpCount dispatch p visits ≤ left + 1 ∧
      (result = some (.error .stackLimit) ↔ jumpCount dispatch p visits = left + 1) := by
  induction h with
  | finished => exact ⟨Nat.zero_le _, iff_of_false (by simp) (Nat.succ_ne_zero _).symm⟩
  | held => exact ⟨Nat.zero_le _, iff_of_false (by simp) (Nat.succ_ne_zero _).symm⟩
  | last _ he =>
    refine ⟨?_, he.exhausted_iff⟩
    exact Nat.le_trans List.countP_le_length (Nat.succ_le_succ (Nat.zero_le _))
  | onward _ hv _ ih =>
    rw [jumpCount_cons_of_false hv.jumps_text]
    exact ih
  | jumped _ hv hp _ ih =>
    rw [jumpCount_cons_of_true (hv.jumps_jump hp)]
    exact ⟨Nat.succ_le_succ ih.1, ih.2.trans Nat.succ_inj.symm⟩

/-- The jumps that the run goes on from are bounded. -/
theorem taken (h : Trail dispatch p left lines s visits result) :
    jumpCount dispatch p visits.dropLast ≤ left := by
  induction h with
  | finished => exact Nat.zero_le _
  | held => exact Nat.zero_le _
  | last => exact Nat.zero_le _
  | @onward _ _ _ _ _ _ _ visits _ _ hv _ ih =>
    cases visits with
    | nil => exact Nat.zero_le _
    | cons w visits =>
      rw [List.dropLast_cons_cons, jumpCount_cons_of_false hv.jumps_text]
      exact ih
  | @jumped _ _ _ _ _ _ _ visits _ _ hv hp _ ih =>
    cases visits with
    | nil => exact Nat.zero_le _
    | cons w visits =>
      rw [List.dropLast_cons_cons, jumpCount_cons_of_true (hv.jumps_jump hp)]
      exact Nat.succ_le_succ ih

/-- A run is refused for a missing line exactly if a line jumps there. -/
theorem missing (h : Trail dispatch p left lines s visits result) (target : LineNumber) :
    result = some (.error (.missingLine target.text)) ↔
      ∃ v ∈ visits, ∃ u, v.outcome dispatch = some (.jump target, u) ∧ p.line? target = none := by
  induction h with
  | finished => simp
  | held => simp
  | last _ he => simpa using he.missing_iff target
  | onward _ hv _ ih =>
    obtain ⟨after, hv, -⟩ := hv
    simpa [hv] using ih
  | jumped _ hv hp _ ih =>
    obtain ⟨after, hv, -⟩ := hv
    rw [ih]
    simp only [List.exists_mem_cons_iff, hv]
    refine (or_iff_right ?_).symm
    rintro ⟨u, hu, hn⟩
    cases hu
    rw [Program.Has, hn] at hp
    cases hp

/-- The lines and the jumps left bound the number of lines that are dispatched. -/
theorem bounded (h : Trail dispatch p left lines s visits result) :
    visits.length ≤ left * p.size + lines.length := by
  induction h with
  | finished => exact Nat.zero_le _
  | held => exact Nat.zero_le _
  | last =>
    rw [List.length_singleton, List.length_cons]
    omega
  | onward _ _ _ ih =>
    rw [List.length_cons, List.length_cons]
    omega
  | @jumped left _ target _ _ _ _ _ _ _ _ _ _ ih =>
    have shorter : (p.linesFrom target).length ≤ p.size := (p.linesFrom_suffix target).length_le
    rw [List.length_cons, List.length_cons, Nat.succ_mul]
    omega

/-- A run goes on for ever exactly if a line does. -/
theorem endless (h : Trail dispatch p left lines s visits result) :
    result = none ↔ ∃ v ∈ visits, v.outcome dispatch = none := by
  induction h with
  | finished => simp
  | held => simp
  | last _ he => simpa using he.endless_iff
  | onward _ hv _ ih =>
    obtain ⟨after, hv, -⟩ := hv
    simpa [hv] using ih
  | jumped _ hv _ _ ih =>
    obtain ⟨after, hv, -⟩ := hv
    simpa [hv] using ih

end Trail

/-! ## Runs -/

/-- A walk through all lines of a program has an itinerary. -/
theorem Trail.itinerary {budget : Nat}
    (h : Trail dispatch p (budget - 1) p.entries s visits result) :
    Itinerary dispatch p budget s visits result := by
  have limit : max budget 1 = budget - 1 + 1 := by omega
  have all := List.suffix_refl p.entries
  have entries : ∀ k, (∃ t, (k, t) ∈ p.entries) ↔ k ∈ {k | p.Has k} := by
    intro k
    simp only [p.mem_entries_iff, Set.mem_ofPred_eq, Program.Has, Program.line?,
      Option.isSome_iff_exists]
  have least : IsLeast {k | p.Has k} = fun m => ∃ t, p.entries.head? = some (m, t) := by
    funext m
    exact propext (Program.isLeast_iff_head? all entries)
  refine ⟨fun v hv => ?_, h.next all, h.stored all, ?_, ?_, ?_, ?_, ?_, h.missing, ?_, h.endless⟩
  · obtain ⟨hv, hb⟩ := h.first v hv
    rw [least]
    exact ⟨⟨_, hv⟩, hb⟩
  · rw [limit, least]
    exact (h.due all).1
  · rw [limit, least]
    exact (h.due all).2
  · rw [limit]
    exact Nat.lt_succ_of_le h.taken
  · rw [limit]
    exact h.asked.1
  · rw [limit]
    exact h.asked.2
  · rw [limit, Nat.succ_mul]
    exact h.bounded

/-- What a run gives is what the walk through its program gives. -/
theorem run_fst (dispatch : Text → Run Output) (p : Program) {s : Terminal}
    (h : s.session.depth < depthLimit) :
    ((run dispatch p).run s).map Prod.fst
      = ((walk dispatch p s.settings.jumpBudget p.entries).run (opened s)).map Prod.fst := by
  rw [run_eq_map dispatch p h, Option.map_map]
  rfl

/-- **Every run has an itinerary.**  Whatever the lines do, a run that is not nested too
deep dispatches lines as its itinerary says, and ends as it says. -/
theorem exists_itinerary (dispatch : Text → Run Output) (p : Program) (s : Terminal)
    (h : s.session.depth < depthLimit) :
    ∃ visits, Itinerary dispatch p s.settings.jumpBudget (opened s) visits
      (((run dispatch p).run s).map Prod.fst) := by
  rw [run_fst dispatch p h]
  obtain ⟨visits, trail⟩ := exists_trail_walk dispatch p s.settings.jumpBudget p.entries (opened s)
  exact ⟨visits, trail.itinerary⟩

/-- The itinerary of a line that jumps to itself until no jump is left. -/
theorem exists_itinerary_loop :
    let dispatch : Text → Run Output := fun _ => pure (.jump 10)
    let p : Program := Program.setLine .empty 10 "GOTO 10".toList
    let console := Console.recorder { grid := ⟨60, 25⟩ }
    let s := Terminal.ofSettings { jumpBudget := 3 } console (.memory .empty) ⟨0⟩
    s.session.depth < depthLimit ∧
      ((run dispatch p).run s).map Prod.fst = some (.error .stackLimit) ∧
      ∃ visits, Itinerary dispatch p s.settings.jumpBudget (opened s) visits
        (((run dispatch p).run s).map Prod.fst) :=
  ⟨by decide, rfl, exists_itinerary _ _ _ (by decide)⟩

end Runner

end Teletype
