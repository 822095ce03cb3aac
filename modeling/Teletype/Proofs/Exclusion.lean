/-
# Dispatching without some lines

A dispatch can be held against one in which lines of a kind are barred: where such a line
is dispatched, at whatever depth, there is no result.  What a dispatch gives with lines
barred it gives without (`Registry.dispatchBarring_below`), so that the two differ exactly
if a barred line is met.  The main statements are that **a dispatch that ends gives the
same within every larger bound** (`Registry.dispatch_mono`), and that **no line is met that
is barred only where a property does not hold that a conduct guards, if it holds at the
start** (`Registry.dispatchBarring_eq_of_guards`), as a flag that is up is guarded by putting
flags back (`Registry.dispatchBarring_eq`).
-/
import Teletype.Proofs.Below
import Teletype.Proofs.Scopes

namespace Teletype

/-! ## Properties that last -/

/-- A property of terminals that lasts as long as no flag is put down. -/
def Terminal.Lasting (P : Terminal → Prop) : Prop :=
  ∀ s u : Terminal, (s.session.silent = true → u.session.silent = true) →
    (s.session.executing = true → u.session.executing = true) → P s → P u

namespace Terminal.Lasting

variable {P : Terminal → Prop} {s u : Terminal}

/-- What holds of every terminal lasts. -/
theorem always : Lasting fun _ => True := fun _ _ _ _ _ => trivial

/-- That a program runs lasts. -/
theorem executing : Lasting fun t => t.session.executing = true := fun _ _ _ h hs => h hs

end Terminal.Lasting

variable {P : Terminal → Prop}

/-- A conduct guards a property of terminals: what keeps the conduct keeps the property, and so
do the beginnings of what is done inside a line. -/
structure Conduct.Guards (C : Conduct) (P : Terminal → Prop) : Prop where
  /-- The conduct bears whatever commands have in common. -/
  lawful : C.Lawful
  /-- What keeps the conduct keeps the property. -/
  keeps {m : Manner} {s u : Terminal} : C m s u → P s → P u
  /-- The property holds on when a flag is raised, -/
  enter (k : Scope) {s : Terminal} : P s → P (s.update k.enter)
  /-- when a run begins, -/
  opened {s : Terminal} : P s → P (Runner.opened s)
  /-- when the dispatch of a line begins, -/
  entered (line : Text) {s : Terminal} : P s → P (Registry.entered s line)
  /-- and when a repetition gives its variable a value. -/
  bound (name value : Text) {s : Terminal} : P s →
    P (s.update fun t => { t with bindings := t.bindings.insert name value }).save

namespace Conduct.Guards

variable {C : Conduct}

/-- A step that every command may take keeps what is guarded. -/
theorem routine (G : C.Guards P) {s u : Terminal} (h : s.Routine u) (hs : P s) : P u :=
  G.keeps (G.lawful.routine (m := .well) h (G.lawful.refl s)) hs

/-- An act that keeps the conduct keeps what is guarded. -/
theorem act (G : C.Guards P) {α : Type} {manner : α → Manner} {a : Act α}
    (h : ∀ s, Act.Goes C manner s a) : a.Keeps P :=
  fun s x t hs hx => G.keeps (h s (.ok x) t hx) hs

end Conduct.Guards

/-- What lasts is guarded by putting the flags back. -/
theorem Terminal.Lasting.guards (lasting : Lasting P) : scoping.Guards P where
  lawful := scoping.lawful
  keeps h hs := lasting _ _ (fun up => h.silent.trans up) (fun up => h.executing.trans up) hs
  enter k s hs := by
    cases k with
    | silently => exact lasting s _ (fun _ => rfl) id hs
    | asProgram => exact lasting s _ id (fun _ => rfl) hs
  opened {s} hs := lasting s _ id (fun _ => rfl) hs
  entered _ {s} hs := lasting s _ id id hs
  bound _ _ {s} hs := lasting s _ id id hs

/-- What holds of every terminal is guarded. -/
theorem Conduct.Guards.always : scoping.Guards fun _ => True := Terminal.Lasting.always.guards

/-! ## Hosts that give less -/

/-- On terminals with a property a host gives what another gives, with the same manual. -/
structure Host.BelowOn (P : Terminal → Prop) (host host' : Host) : Prop where
  /-- The manual is the same. -/
  manual : host.manual = host'.manual
  /-- Tokens may stand as deep inside one another. -/
  bound : host.bound ≤ host'.bound
  /-- A line gives what it gives. -/
  dispatch (line : Text) : Run.BelowOn P (host.dispatch line) (host'.dispatch line)

section

variable {C : Conduct} {host host' : Host} (G : C.Guards P) (H : C.Hosts host.dispatch)
  (le : host.BelowOn P host')

include le in
/-- A line that is dispatched and then checked. -/
theorem Act.below_checked {β : Type} (line : Text) (k : Output → Act β) :
    BelowOn P (liftM (host.dispatch line) >>= k) (liftM (host'.dispatch line) >>= k) :=
  .bind_left (.lift (le.dispatch line)) k

namespace Expansion

include G le in
/-- A line that is carried out for its value. -/
theorem valueOf_below (line : Text) :
    (valueOf host.dispatch line).BelowOn P (valueOf host'.dispatch line) :=
  (Act.BelowOn.within (Act.below_checked le line _)).weaken fun _ => G.enter .silently

include G H le

/-- A text that is expanded. -/
theorem expand_below_host (tokens : List Token) {m n : Nat} (hmn : m ≤ n) (text : Text) :
    (expand host.dispatch tokens m text).BelowOn P (expand host'.dispatch tokens n text) :=
  expand_belowOn (valueOf_below G le)
    (fun line => G.act (goes_valueOf G.lawful H line))
    (fun bound text => G.act (goes_expand G.lawful H tokens bound text)) hmn text

end Expansion

namespace Host

include G H le

/-- The words of a line that are expanded. -/
theorem expand_below (words : List Text) :
    (host.expand words).BelowOn P (host'.expand words) := by
  unfold Host.expand Expansion.expandLine
  split
  · exact .refl _
  · refine .mapM (fun text => ?_) (fun text => ?_) _
    · exact Expansion.expand_below_host G H le _ le.bound text
    · exact G.act (Expansion.goes_expand G.lawful H _ _ text)

/-- What goes on alike from the words of a line. -/
theorem expand_bind_below {β : Type} (words : List Text) (k : List Text → Act β) :
    (host.expand words >>= k).BelowOn P (host'.expand words >>= k) :=
  .bind_left (expand_below G H le words) k

/-- The words of a line that are sorted by a grammar of flags. -/
theorem parse_below (g : Flags.Grammar) (o : Flags.Options) (words : List Text) :
    (host.parse g o words).BelowOn P (host'.parse g o words) := by
  unfold Host.parse
  split
  · exact expand_bind_below G H le words _
  · exact .refl _

end Host

/-! ## Runs -/

namespace Runner

variable {p : Program}

include G le in
/-- A line of a program that is carried out. -/
theorem step_below (budget : Nat) (n : LineNumber) (text : Text) :
    (step host.dispatch p budget n text).BelowOn P (step host'.dispatch p budget n text) := by
  unfold step
  split
  · exact .refl _
  · refine .next (fun s x t hs hx => ?_) fun _ => Act.below_checked le text _
    cases hx
    exact G.routine (.reached s n) hs

include G H le

/-- Lines of a program that are carried out. -/
theorem walkLines_below (budget : Nat) {jump jump' : List (LineNumber × Text) → Act Unit}
    (hj : ∀ lines, (jump lines).BelowOn P (jump' lines)) (lines : List (LineNumber × Text)) :
    (walkLines host.dispatch p budget jump lines).BelowOn P
      (walkLines host'.dispatch p budget jump' lines) := by
  induction lines with
  | nil => exact .refl _
  | cons line rest ih =>
    obtain ⟨n, text⟩ := line
    refine .bind (step_below G le budget n text) ?_ fun next => ?_
    · exact G.act (goes_step G.lawful H budget n text)
    · cases next with
      | finished => exact .refl _
      | onward => exact ih
      | jumped target => exact hj _

/-- A program that is walked through. -/
theorem walk_below (budget : Nat) (lines : List (LineNumber × Text)) :
    (walk host.dispatch p budget lines).BelowOn P (walk host'.dispatch p budget lines) := by
  induction budget generalizing lines with
  | zero => exact walkLines_below G H le 0 (fun _ => .refl _) lines
  | succ budget ih => exact walkLines_below G H le (budget + 1) ih lines

end Runner

namespace Host

include G H le

/-- A program that is run on terminals that have the property once the run began. -/
theorem run_below_opened (p : Program) :
    (host.run p).BelowOn (fun s => P (Runner.opened s)) (host'.run p) := by
  intro s r u hs hr
  unfold Host.run at hr ⊢
  by_cases deep : s.session.depth < Runner.depthLimit
  · rw [Runner.run_eq_map _ p deep, Option.map_eq_some_iff] at hr ⊢
    obtain ⟨⟨r', t⟩, ht, hru⟩ := hr
    exact ⟨(r', t), Runner.walk_below G H le _ _ _ _ _ hs ht, hru⟩
  · rw [Runner.run_refused _ p (Nat.le_of_not_lt deep)] at hr ⊢
    exact hr

/-- A program that is run. -/
theorem run_below (p : Program) : (host.run p).BelowOn P (host'.run p) :=
  (run_below_opened G H le p).weaken fun _ => G.opened

/-- A program that is run before the session is saved. -/
theorem runAndSave_below (p : Program) : (host.runAndSave p).BelowOn P (host'.runAndSave p) := by
  intro s r u hs hr
  obtain ⟨r', t, ht, hr⟩ := Run.bind_eq_some.mp hr
  exact Run.bind_eq_some.mpr ⟨r', t, run_below G H le p _ _ _ hs ht, hr⟩

end Host

/-! ## Commands -/

namespace Command

include G le in
/-- The value of an operand. -/
theorem value_below (o : Operand) : (o.value host).BelowOn P (o.value host') := by
  cases o with
  | text t => exact .refl _
  | line t => exact Expansion.valueOf_below G le t

include le in
/-- An operand that is carried out. -/
theorem performWords_below (words : List Text) :
    (performWords host words).BelowOn P (performWords host' words) := by
  refine .next .session fun session => .next (.ofExcept _) fun o => ?_
  cases o with
  | text t => exact .refl _
  | line t => exact Act.below_checked le t _

include G H le

/-- A choice between branches. -/
theorem choose_below (words : List Text) :
    (choose.perform host words).BelowOn P (choose.perform host' words) := by
  refine .next (.ofExcept _) fun choice => .next .session fun session =>
    .next (.ofExcept _) fun condition => ?_
  refine .bind (value_below G le condition) ?_ fun result => ?_
  · exact G.act fun s => goes_value G.lawful H condition
  · split
    · exact performWords_below le _
    · split
      · exact performWords_below le _
      · exact .refl _

/-- A line that is carried out for each item. -/
theorem repeatFor_below (name body : Text) (done items : List Text) :
    (repeatFor host name body done items).BelowOn P (repeatFor host' name body done items) := by
  induction items generalizing done with
  | nil => exact .refl _
  | cons item items ih =>
    refine .next (fun s x t hs hx => ?_) fun _ => ?_
    · cases hx
      exact G.bound name item hs
    · refine .bind (.lift (le.dispatch body)) (fun s x t hs hx => ?_) fun output => ?_
      · obtain ⟨y, hy, -⟩ := Act.run_lift_eq_some.mp hx
        exact G.keeps (H body s y t hy) hs
      · refine .next .status fun status => ?_
        split
        · exact .refl _
        · cases output with
          | text x =>
            refine .next (fun s x t hs hx => ?_) fun stop => ?_
            · cases hx
              exact G.routine (.stop s) hs
            · split
              · exact .refl _
              · exact ih _
          | _ => exact .refl _

/-- A line that is carried out for each line of a list. -/
theorem repeatEach_below (words : List Text) :
    (repeatEach.perform host words).BelowOn P (repeatEach.perform host' words) := by
  refine .next (.ofExcept _) fun repetition => ?_
  refine .bind (Host.expand_below G H le _) ?_ fun head => .next (.ofExcept _) fun _ => ?_
  · exact G.act (Host.goes_expand G.lawful H _)
  · dsimp only
    split
    · exact .refl _
    · exact (Act.BelowOn.within (repeatFor_below G H le _ _ _ _)).weaken
        fun _ => G.enter .asProgram

omit H le in
/-- What goes on behind the check that no program runs. -/
theorem ensureIdle_below {a b : Act Output} (h : a.BelowOn P b) :
    (Act.ensureIdle >>= fun _ => a).BelowOn P (Act.ensureIdle >>= fun _ => b) :=
  .next (G.act fun _ => goes_ensureIdle G.lawful) fun _ => h

/-- The program that is run. -/
theorem run_below (words : List Text) :
    (run.perform host words).BelowOn P (run.perform host' words) :=
  ensureIdle_below G (.next .session fun _ => Host.runAndSave_below G H le _)

/-- The program that is saved under an alias. -/
theorem save_below (words : List Text) :
    (save.perform host words).BelowOn P (save.perform host' words) := by
  refine ensureIdle_below G ?_
  rw [le.manual]
  exact Host.expand_bind_below G H le words _

/-- The manual that is shown. -/
theorem help_below (words : List Text) :
    (help.perform host words).BelowOn P (help.perform host' words) := by
  -- what is listed depends on the manual alone
  obtain ⟨manual, _, _⟩ := host
  obtain ⟨manual', _, _⟩ := host'
  obtain rfl : manual = manual' := le.manual
  exact Host.expand_bind_below G H le words _

/-- An alias that is listed, used or run. -/
theorem aliases_below (words : List Text) :
    (aliases.perform host words).BelowOn P (aliases.perform host' words) := by
  show Act.BelowOn P (if words.length < 2 then _ else _) (if words.length < 2 then _ else _)
  split
  · exact .refl _
  · refine .bind (Host.parse_below G H le _ _ words) ?_ fun parsed => .next .session
      fun session => ?_
    · exact G.act (Host.goes_parse G.lawful H _ _ words)
    · dsimp only
      split
      · split
        · exact Host.runAndSave_below G H le _
        · exact .refl _
      · exact .refl _

/-- A line that is moved. -/
theorem move_below (words : List Text) :
    (move.perform host words).BelowOn P (move.perform host' words) :=
  ensureIdle_below G (Host.expand_bind_below G H le words _)

/-- A line that is deleted. -/
theorem delete_below (words : List Text) :
    (delete.perform host words).BelowOn P (delete.perform host' words) :=
  ensureIdle_below G (Host.expand_bind_below G H le words _)

end Command

include G H le

/-- **A built-in command gives no less in a host that gives no less.** -/
theorem Builtin.perform_below (b : Builtin) (words : List Text) :
    (b.command.perform host words).BelowOn P (b.command.perform host' words) := by
  have expanded : ∀ k : List Text → Act Output,
      (host.expand words >>= k).BelowOn P (host'.expand words >>= k) :=
    Host.expand_bind_below G H le words
  cases b with
  | help => exact Command.help_below G H le words
  | choose => exact Command.choose_below G H le words
  | repeatEach => exact Command.repeatEach_below G H le words
  | run => exact Command.run_below G H le words
  | save => exact Command.save_below G H le words
  | aliases => exact Command.aliases_below G H le words
  | move => exact Command.move_below G H le words
  | delete => exact Command.delete_below G H le words
  | input => exact .bind_left (Host.parse_below G H le _ _ words) _
  | clear | clr | cls | vars | exit | new => exact .refl _
  | _ => exact expanded _

end

/-! ## Lines -/

namespace Registry

section

variable {C : Conduct} {host host' : Host} (G : C.Guards P) (H : C.Hosts host.dispatch)
  (le : host.BelowOn P host')

include G H le

/-- The words of a line give no less in a host that gives no less. -/
theorem carryOut_below (words : List Text) :
    Run.BelowOn P (builtin.carryOut host words) (builtin.carryOut host' words) := by
  intro s x u hs h
  rw [carryOut, find?_builtin] at h ⊢
  cases hb : Builtin.named? (Text.upper (words.headD [])) with
  | some b =>
    rw [hb] at h
    exact Run.settle_below (b.perform_below G H le words) _ _ _ hs h
  | none =>
    rw [hb] at h
    obtain ⟨session, t, ht, h⟩ := Run.bind_eq_some.mp h
    cases ht
    refine Run.bind_eq_some.mpr ⟨s.session, s, rfl, ?_⟩
    cases ha : s.session.aliases.get? (Text.upper (words.headD [])) with
    | some p =>
      rw [ha] at h
      exact Run.settle_below (Host.runAndSave_below G H le p) _ _ _ hs h
    | none =>
      rw [ha] at h
      exact h

/-- A line gives no less in a host that gives no less. -/
theorem carryOutLine_below (line : Text) :
    Run.BelowOn P (builtin.carryOutLine host line) (builtin.carryOutLine host' line) := by
  intro s x u hs h
  by_cases blank : Text.strip line = []
  · rw [carryOutLine, if_pos blank] at h ⊢
    exact h
  · rw [carryOutLine_eq_map blank, Option.map_eq_some_iff] at h ⊢
    obtain ⟨⟨output, t⟩, ht, hu⟩ := h
    exact ⟨(output, t), carryOut_below G H le _ _ _ _ (G.entered _ hs) ht, hu⟩

end

/-- **A line that ends gives the same within every larger bound.** -/
theorem dispatch_mono {m n : Nat} (hmn : m ≤ n) (line : Text) :
    Run.BelowOn (fun _ => True) (builtin.dispatch m line) (builtin.dispatch n line) := by
  induction m generalizing n line with
  | zero =>
    intro s x u _ h
    cases h
  | succ m ih =>
    obtain ⟨n, rfl⟩ : ∃ k, n = k + 1 := ⟨n - 1, by omega⟩
    have hmn : m ≤ n := Nat.le_of_succ_le_succ hmn
    have le : (builtin.host m).BelowOn (fun _ => True) (builtin.host n) := ⟨rfl, hmn, ih hmn⟩
    exact carryOutLine_below .always (scoping_hosts m) le line

/-! ## Barred lines -/

/-- Which lines are barred: a line within a bound, in the terminal in which it is dispatched. -/
abbrev Bar := Nat → Text → Terminal → Bool

/-- Carry out a line in which lines stand inside one another at most so deep, unless it or a
line inside it is barred where it is dispatched: then there is no result. -/
def dispatchBarring (r : Registry) (barred : Bar) : Nat → Text → Run Output
  | 0, _ => Run.endless
  | bound + 1, line => fun s =>
    if barred bound line s then none
    else r.carryOutLine ⟨r.manual, bound, dispatchBarring r barred bound⟩ line s

/-- What the commands of lines are carried out in when lines are barred. -/
def hostBarring (r : Registry) (barred : Bar) (bound : Nat) : Host :=
  ⟨r.manual, bound, r.dispatchBarring barred bound⟩

/-- A line that is not barred itself is carried out in a host in which lines are barred. -/
theorem dispatchBarring_succ (r : Registry) (barred : Bar) (bound : Nat) (line : Text)
    (s : Terminal) :
    r.dispatchBarring barred (bound + 1) line s
      = if barred bound line s then none
        else r.carryOutLine (r.hostBarring barred bound) line s := rfl

/-- A line is dispatched, perhaps inside others, that is barred: with it barred the line that
is carried out no longer gives what it gives. -/
def Meets (r : Registry) (barred : Bar) (bound : Nat) (line : Text) (s : Terminal) : Prop :=
  r.dispatchBarring barred bound line s ≠ r.dispatch bound line s

variable {barred : Bar}

/-- **What a line gives with lines barred it gives without.** -/
theorem dispatchBarring_below (bound : Nat) (line : Text) :
    Run.BelowOn P (builtin.dispatchBarring barred bound line) (builtin.dispatch bound line) := by
  suffices h : Run.BelowOn (fun _ => True) (builtin.dispatchBarring barred bound line)
      (builtin.dispatch bound line) from fun s x u _ hx => h s x u trivial hx
  induction bound generalizing line with
  | zero =>
    intro s x u _ h
    cases h
  | succ bound ih =>
    have H : scoping.Hosts (builtin.hostBarring barred bound).dispatch :=
      fun line s output u h => scoping_hosts bound line s output u (ih line s output u trivial h)
    have le : (builtin.hostBarring barred bound).BelowOn (fun _ => True) (builtin.host bound) :=
      ⟨rfl, Nat.le_refl _, ih⟩
    intro s x u _ h
    rw [dispatchBarring_succ] at h
    split at h
    · cases h
    · exact carryOutLine_below .always H le line s x u trivial h

/-- A host in which lines are barred gives no more. -/
theorem hostBarring_below (bound : Nat) :
    (builtin.hostBarring barred bound).BelowOn P (builtin.host bound) :=
  ⟨rfl, Nat.le_refl _, dispatchBarring_below bound⟩

/-- Lines leave flags and the depth as they were when lines are barred as well. -/
theorem scoping_hostsBarring (bound : Nat) :
    scoping.Hosts (builtin.hostBarring barred bound).dispatch :=
  fun line s output u h => scoping_hosts bound line s output u
    (dispatchBarring_below (P := fun _ => True) bound line s output u trivial h)

/-- **A conduct is kept where lines are barred if it bears blank lines, and other lines that are
not barred as long as the lines inside them keep it.** -/
theorem hosts_dispatchBarring {C : Conduct}
    (blank : ∀ s : Terminal, C .settled s (s.note (.blank s.session.status)))
    (full : ∀ bound line s output t, C.Hosts (builtin.dispatchBarring barred bound) →
      barred bound line s = false →
      builtin.carryOut (builtin.hostBarring barred bound) (Text.words (Text.strip line))
        (entered s (Text.strip line)) = some (output, t) →
      C .settled s (t.note (.left t.session.status))) (bound : Nat) :
    C.Hosts (builtin.dispatchBarring barred bound) := by
  induction bound with
  | zero =>
    intro line s output u h
    cases h
  | succ bound ih =>
    intro line s output u h
    rw [dispatchBarring_succ] at h
    cases free : barred bound line s with
    | true =>
      rw [free, if_pos rfl] at h
      cases h
    | false =>
      rw [free, if_neg Bool.false_ne_true] at h
      by_cases empty : Text.strip line = []
      · rw [carryOutLine, if_pos empty] at h
        cases h
        exact blank s
      · rw [carryOutLine_eq_map empty, Option.map_eq_some_iff] at h
        obtain ⟨⟨x, t⟩, ht, hu⟩ := h
        cases hu
        exact full bound line s _ t ih free ht

section

variable {C : Conduct} (G : C.Guards P) (hosts : ∀ bound, C.Hosts (builtin.dispatch bound))
  (free : ∀ bound line s, P s → barred bound line s = false)

include G hosts free

/-- A host in which lines are barred gives no less if lines are barred only where a property
does not hold that is guarded. -/
theorem host_below_barring (bound : Nat) :
    (builtin.host bound).BelowOn P (builtin.hostBarring barred bound) := by
  refine ⟨rfl, Nat.le_refl _, fun line => ?_⟩
  induction bound generalizing line with
  | zero =>
    intro s x u _ h
    cases h
  | succ bound ih =>
    intro s x u hs h
    show builtin.dispatchBarring barred (bound + 1) line s = some (x, u)
    rw [dispatchBarring_succ, free bound line s hs, if_neg Bool.false_ne_true]
    have le : (builtin.host bound).BelowOn P (builtin.hostBarring barred bound) :=
      ⟨rfl, Nat.le_refl _, ih⟩
    exact carryOutLine_below G (hosts bound) le line s x u hs h

/-- **A line meets none that is barred** if lines are barred only where a property does not
hold that is guarded, and holds at the start. -/
theorem dispatchBarring_eq_of_guards (bound : Nat) {s : Terminal} (line : Text) (hs : P s) :
    builtin.dispatchBarring barred bound line s = builtin.dispatch bound line s :=
  (dispatchBarring_below bound line).antisymm
    ((host_below_barring G hosts free bound).dispatch line) hs

end

section

variable (lasting : Terminal.Lasting P)
  (free : ∀ bound line s, P s → barred bound line s = false) (bound : Nat) {s : Terminal}

include lasting free

/-- **A line meets none that is barred** if lines are barred only where a property does not
hold that lasts, and holds at the start. -/
theorem dispatchBarring_eq (line : Text) (hs : P s) :
    builtin.dispatchBarring barred bound line s = builtin.dispatch bound line s :=
  dispatchBarring_eq_of_guards lasting.guards scoping_hosts free bound line hs

/-- **A run meets no line that is barred** if the property holds once it began. -/
theorem runBarring_eq (p : Program) (hs : P (Runner.opened s)) :
    ((builtin.hostBarring barred bound).run p).run s = ((builtin.host bound).run p).run s :=
  Run.BelowOn.antisymm
    (Host.run_below_opened lasting.guards (scoping_hostsBarring bound) (hostBarring_below bound) p)
    (Host.run_below_opened lasting.guards (scoping_hosts bound)
      (host_below_barring lasting.guards scoping_hosts free bound) p) hs

/-- **A repetition meets no line that is barred** if the property holds where a program runs. -/
theorem repeatForBarring_eq (name body : Text) (items : List Text)
    (hs : P (s.update Scope.asProgram.enter)) :
    (Act.asProgram (Command.repeatFor (builtin.hostBarring barred bound) name body [] items)).run s
      = (Act.asProgram (Command.repeatFor (builtin.host bound) name body [] items)).run s :=
  Run.BelowOn.antisymm
    (Act.BelowOn.within
      (Command.repeatFor_below lasting.guards (scoping_hostsBarring bound)
        (hostBarring_below bound) name body [] items))
    (Act.BelowOn.within
      (Command.repeatFor_below lasting.guards (scoping_hosts bound)
        (host_below_barring lasting.guards scoping_hosts free bound) name body [] items)) hs

end

end Registry

end Teletype
