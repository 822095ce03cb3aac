/-
# Silence

A terminal is silent while a command runs for its value: a text that would be printed is
then dropped, and the console is not even asked for a stop.  Since every line leaves this
flag as it was, the silence lasts for all that is carried out inside.  The main statement
is that **nothing is printed while a terminal is silent, and nothing while parentheses are
replaced or a condition is decided, silent or not** (`Registry.dispatch_unprinted`).
-/
import Mathlib.Logic.Relation
import Teletype.Proofs.Dispatch

namespace Teletype

open Relation (ReflTransGen)

/-! ## Without printing -/

/-- A text was printed on the console. -/
def Event.IsPrint : Event → Prop
  | .printed _ _ _ => True
  | _ => False

/-- One thing that is done with a console other than printing on it. -/
inductive Console.Other : Console → Console → Prop
  /-- A line is read. -/
  | read (c : Console) : Other c c.read.2
  /-- The screen is cleared. -/
  | clear (c : Console) : Other c c.clear
  /-- The cursor is moved. -/
  | move (c : Console) (place : Cursor) : Other c (c.moveTo place)
  /-- The screen is given a theme. -/
  | theme (c : Console) (theme : Theme) : Other c (c.setTheme theme)
  /-- It is asked whether to stop. -/
  | stop (c : Console) : Other c c.takeStop.2

namespace Terminal

/-- Between two terminals nothing was printed. -/
structure Unprinted (s u : Terminal) : Prop where
  /-- None of the things that were done is the printing of a text. -/
  trace : ∃ new, u.trace = new ++ s.trace ∧ ∀ e ∈ new, ¬ e.IsPrint
  /-- Whatever was done with the console was none of it printing. -/
  console : ReflTransGen Console.Other s.console u.console

namespace Unprinted

variable {s t u : Terminal}

/-- Nothing was noted, and the console was left alone. -/
theorem of_eq (trace : u.trace = s.trace) (console : u.console = s.console) : s.Unprinted u := by
  refine ⟨⟨[], trace, fun e he => absurd he List.not_mem_nil⟩, ?_⟩
  rw [console]

/-- One thing was noted, and the console was left alone. -/
theorem of_cons {e : Event} (trace : u.trace = e :: s.trace) (he : ¬ e.IsPrint)
    (console : u.console = s.console) : s.Unprinted u := by
  refine ⟨⟨[e], trace, fun e' h => List.mem_singleton.mp h ▸ he⟩, ?_⟩
  rw [console]

/-- One thing was noted that was done with the console. -/
theorem of_other {e : Event} (trace : u.trace = e :: s.trace) (he : ¬ e.IsPrint)
    (console : s.console.Other u.console) : s.Unprinted u :=
  ⟨⟨[e], trace, fun _ h => List.mem_singleton.mp h ▸ he⟩, .single console⟩

/-- Nothing was done. -/
theorem refl (s : Terminal) : s.Unprinted s := of_eq rfl rfl

/-- Nothing was printed at first, and nothing then. -/
theorem trans (h : s.Unprinted t) (h' : t.Unprinted u) : s.Unprinted u := by
  obtain ⟨new, ht, hn⟩ := h.trace
  obtain ⟨new', hu, hn'⟩ := h'.trace
  exact ⟨⟨new' ++ new, trace_append ht hu, List.forall_mem_append.mpr ⟨hn', hn⟩⟩,
    h.console.trans h'.console⟩

/-- The session was changed. -/
theorem update (s : Terminal) (f : Session → Session) : s.Unprinted (s.update f) := of_eq rfl rfl

/-- What is printed is dropped while the terminal is silent. -/
theorem print (silent : s.session.silent = true) (text : Text) : s.Unprinted (s.print text) := by
  rw [print_of_silent silent]
  exact refl s

/-- The terminal looked whether to stop. -/
theorem takeStop (s : Terminal) : s.Unprinted s.takeStop.2 := by
  have asked : s.console.Other s.console.takeStop.2 := .stop s.console
  unfold Terminal.takeStop
  dsimp only
  split
  · exact of_other rfl id asked
  · exact ⟨⟨[], rfl, fun e he => absurd he List.not_mem_nil⟩, .single asked⟩

/-- No step that every command may take prints while the terminal is silent. -/
theorem routine (h : s.Routine u) (silent : s.session.silent = true) : s.Unprinted u := by
  cases h with
  | print text => exact print silent text
  | read => exact of_other rfl id (.read s.console)
  | clear => exact of_other rfl id (.clear s.console)
  | move c => exact of_other rfl id (.move s.console c)
  | theme theme => exact of_other rfl id (.theme s.console theme)
  | stop => exact takeStop s
  | draw => exact of_eq rfl rfl
  | save => exact of_cons rfl id rfl
  | reached => exact of_cons rfl id rfl

/-- No edit of a command prints while the terminal is silent. -/
theorem edit {manual : Manual} {b : Builtin} (h : b.Edit manual s u)
    (silent : s.session.silent = true) : s.Unprinted u := by
  cases h with
  | clear _ text =>
    -- the message is printed between the change and the saving
    have quiet : (s.update fun t => { t with program := .empty }).session.silent = true := silent
    have cleared := update s fun t => { t with program := .empty }
    have said := cleared.trans (print quiet (text ++ ['\n']))
    exact said.trans (of_cons rfl id rfl)
  | color => exact update s _
  | theme => exact update s _
  | _ => exact of_cons rfl id rfl

end Unprinted

end Terminal

/-! ## While the terminal is silent -/

/-- What commands do about printing: they leave the terminal as silent as it was, and if it
was silent they print nothing. -/
def muted : Conduct := fun _ s u =>
  u.session.silent = s.session.silent ∧ (s.session.silent = true → s.Unprinted u)

namespace muted

/-- A level act that prints nothing while the terminal is silent is fine. -/
theorem of_level {m : Manner} {s u : Terminal} (h : s.Level u)
    (free : s.session.silent = true → s.Unprinted u) : muted m s u :=
  ⟨congrArg (·.2.2.1) h.posture, free⟩

/-- One act can be done after another. -/
theorem trans {m m' : Manner} {s t u : Terminal} (h : muted m s t) (h' : muted m' t u) :
    muted m' s u := by
  refine ⟨h'.1.trans h.1, fun silent => ?_⟩
  have first := h.2 silent
  exact first.trans (h'.2 (h.1.trans silent))

/-- Printing nothing while the terminal is silent is lawful. -/
theorem lawful : Conduct.Lawful muted where
  refl s := ⟨rfl, fun _ => .refl s⟩
  trans := trans
  settled h := h
  faulted h := h
  well h _ := h
  routine step h := trans h (of_level (m := .well) step.level (.routine step))
  scope {m s u} k h := by
    have entered := Terminal.Unprinted.update s k.enter
    have left := Terminal.Unprinted.update u (k.leave s.session)
    have free : (s.update k.enter).session.silent = true → s.Unprinted (u.update (k.leave s.session)) :=
      fun silent => (entered.trans (h.2 silent)).trans left
    cases k with
    | silently => exact ⟨rfl, fun _ => free rfl⟩
    | asProgram => exact ⟨h.1, free⟩
  run {m s u} _ h := by
    refine ⟨h.1, fun silent => ?_⟩
    have opened : s.Unprinted (Runner.opened s) := .of_cons rfl id rfl
    have closed : u.Unprinted (Runner.closed s.session u) := .of_cons rfl id rfl
    exact (opened.trans (h.2 silent)).trans closed

/-- The edits of commands are fine. -/
theorem bears (manual : Manual) (b : Builtin) : muted.Bears manual b :=
  fun _ _ h => of_level h.level (.edit h)

end muted

namespace Registry

/-- **Dispatched lines print nothing while the terminal is silent.** -/
theorem muted_hosts (bound : Nat) : muted.Hosts (builtin.dispatch bound) := by
  refine hosts_of_bears muted.lawful.toSteady muted.bears (fun t n => ?_) (fun t e he => ?_)
    (fun t n text => ?_) bound
  · exact ⟨rfl, fun _ => .update t _⟩
  · -- what is noted of a dispatch is no printing
    have other : ¬ e.IsPrint := by
      intro print
      cases e with
      | printed => exact he
      | _ => exact print
    exact ⟨rfl, fun _ => .of_cons rfl other rfl⟩
  · exact ⟨rfl, fun _ => .of_cons rfl id rfl⟩

end Registry

/-! ## While spans are replaced -/

/-- Wherever the act comes to an end, it has printed nothing. -/
def Act.Mute {α : Type} (a : Act α) : Prop :=
  ∀ s r u, a.run s = some (r, u) → s.Unprinted u

namespace Act.Mute

variable {α β : Type} {a : Act α} {f : α → Act β}

/-- A value or a fault is given without printing. -/
theorem ofExcept (r : Except Fault α) : Mute (Act.ofExcept r) := by
  intro s r' u h
  cases h
  exact .refl s

/-- A value is given without printing. -/
theorem pure (x : α) : Mute (Pure.pure x : Act α) := ofExcept (.ok x)

/-- One act is done after another. -/
theorem bind (h : Mute a) (hf : ∀ x, Mute (f x)) : Mute (a >>= f) := by
  intro s r u hr
  rcases Act.bind_eq_some.mp hr with ⟨e, he, -⟩ | ⟨x, t, hx, hr⟩
  · exact h s _ u he
  · have first := h s _ t hx
    exact first.trans (hf x t r u hr)

/-- Acts are done on the items of a list. -/
theorem mapM {g : α → Act β} (h : ∀ x, Mute (g x)) (l : List α) : Mute (l.mapM g) := by
  induction l with
  | nil => exact pure _
  | cons x l ih =>
    rw [List.mapM_cons]
    exact bind (h x) fun y => bind ih fun ys => pure _

/-- A variable is looked up. -/
theorem lookUp (name : Text) : Mute (Expansion.lookUp name) := by
  intro s r u h
  rw [Expansion.lookUp, Act.run_session_bind] at h
  split at h
  · cases h
    exact .refl s
  · cases h
    exact .refl s

end Act.Mute

/-- An act that is done silently prints nothing if it prints nothing while the terminal is
silent. -/
theorem Act.mute_silently {α : Type} {manner : α → Manner} {a : Act α}
    (h : ∀ s, Act.Goes muted manner s a) : (Act.silently a).Mute := by
  intro s r u hr
  rw [Act.silently, Act.run_within, Option.map_eq_some_iff] at hr
  obtain ⟨⟨r', t⟩, ht, hru⟩ := hr
  cases hru
  have silenced : (s.update Scope.silently.enter).Unprinted t := by
    have ends := h _ r' t ht
    cases r' with
    | error e => exact ends.2 rfl
    | ok x => exact ends.2 rfl
  exact ((Terminal.Unprinted.update s _).trans silenced).trans (.update t _)

section

variable {host : Host} (H : muted.Hosts host.dispatch)

include H

namespace Expansion

/-- **A line that is carried out for its value prints nothing.** -/
theorem mute_valueOf (line : Text) : (valueOf host.dispatch line).Mute :=
  Act.mute_silently fun s => Act.goes_checked muted.lawful H line _ s

/-- A text is expanded without printing. -/
theorem mute_expand (tokens : List Token) (bound : Nat) (text : Text) :
    (expand host.dispatch tokens bound text).Mute := by
  -- what stands inside a span is expanded within a smaller bound
  induction bound generalizing text with
  | zero =>
    intro s r u h
    cases h
  | succ bound ih =>
    rw [expand]
    induction scanTokens tokens 0 text with
    | nil => exact .pure _
    | cons piece pieces rest =>
      cases piece with
      | plain c => exact .bind rest fun _ => .pure _
      | item token =>
        refine .bind ?_ fun value => .bind rest fun _ => .pure _
        dsimp only
        split
        · exact .lookUp _
        · exact ih _
        · exact .bind (ih _) fun line => .bind (mute_valueOf H line) fun output => .pure _

end Expansion

/-- The words of a line are expanded without printing. -/
theorem Host.mute_expand (words : List Text) : (host.expand words).Mute := by
  unfold Host.expand Expansion.expandLine
  split
  · exact .ofExcept (.error _)
  · exact .mapM (fun text => Expansion.mute_expand H _ _ text) _

/-- A condition is decided without printing. -/
theorem Command.mute_value (o : Operand) : (o.value host).Mute := by
  cases o with
  | text t => exact .pure _
  | line t => exact Expansion.mute_valueOf H t

end

namespace Registry

/-- **Suppressed execution prints nothing.**  Whatever a line or a program does while the
terminal is silent, and however it ends, nothing is printed.  Nothing is printed either,
whether the terminal is silent or not, while a line is carried out for its value, while all
the spans of a line are replaced, and while the condition of a choice is decided. -/
theorem dispatch_unprinted (bound : Nat) (s : Terminal) :
    (s.session.silent = true →
      (∀ line output u, builtin.dispatch bound line s = some (output, u) → s.Unprinted u) ∧
      ∀ p r u, ((builtin.host bound).run p).run s = some (r, u) → s.Unprinted u) ∧
    (∀ line r u, ((builtin.host bound).valueOf line).run s = some (r, u) → s.Unprinted u) ∧
    (∀ words r u, ((builtin.host bound).expand words).run s = some (r, u) → s.Unprinted u) ∧
    ∀ (condition : Command.Operand) (r : Except Fault Output) (u : Terminal),
      (condition.value (builtin.host bound)).run s = some (r, u) → s.Unprinted u := by
  have H : muted.Hosts (builtin.host bound).dispatch := muted_hosts bound
  refine ⟨fun silent => ⟨fun line output u h => ?_, fun p r u h => ?_⟩,
    fun line r u h => ?_, fun words r u h => ?_, fun condition r u h => ?_⟩
  · exact (H line s output u h).2 silent
  · have ends := Host.goes_run muted.lawful H p s r u h
    cases r with
    | error e => exact ends.2 silent
    | ok x => exact ends.2 silent
  · exact Expansion.mute_valueOf H line s r u h
  · exact Host.mute_expand H words s r u h
  · exact Command.mute_value H condition s r u h

/-- A line that asks for a value, prints it and fails while the terminal is silent; and on a
terminal that is not silent a program that prints in a parenthesis, and a condition that
prints. -/
theorem dispatch_unprinted_reads :
    let console := Console.recorder { grid := ⟨60, 25⟩, input := ["7".toList] }
    let start := Terminal.ofSettings {} console (.memory .empty) ⟨0⟩
    let p : Program := (Program.setLine .empty 10 "PRINT a".toList).setLine 20 "HELP".toList
    let s := start.update fun t => { t with silent := true, program := p }
    let loud := start.update fun t => { t with aliases := t.aliases.insert "P".toList p }
    (∃ output u, builtin.dispatch 5 "FOR X IN a DO PRINT (INPUT Y) (DIVIDE 1 0)".toList s
        = some (output, u) ∧ .asked (some "7".toList) ∈ u.trace ∧ u.session.status ≠ 0 ∧
        s.Unprinted u) ∧
    (∃ r u, ((builtin.host 5).run p).run s = some (r, u) ∧ s.Unprinted u) ∧
    (∃ r u, ((builtin.host 5).expand ["ASSIGN".toList, "(P)".toList]).run loud = some (r, u) ∧
        .reached 20 ∈ u.trace ∧ loud.Unprinted u) ∧
    ∃ r u, ((Command.Operand.line "PRINT TRUE".toList).value (builtin.host 5)).run loud
        = some (r, u) ∧ loud.Unprinted u := by
  intro console start p s loud
  obtain ⟨silenced, -, -, -⟩ := dispatch_unprinted 5 s
  obtain ⟨lines, runs⟩ := silenced rfl
  obtain ⟨-, -, expands, decides⟩ := dispatch_unprinted 5 loud
  have failed : (builtin.dispatch 5 "FOR X IN a DO PRINT (INPUT Y) (DIVIDE 1 0)".toList s).any
      (fun r => decide (.asked (some "7".toList) ∈ r.2.trace) && decide (r.2.session.status ≠ 0))
        = true := by
    decide +kernel
  have ran : (((builtin.host 5).run p).run s).isSome = true := by decide +kernel
  have expanded : (((builtin.host 5).expand ["ASSIGN".toList, "(P)".toList]).run loud).any
      (fun r => decide (.reached 20 ∈ r.2.trace)) = true := by
    decide +kernel
  have decided : (((Command.Operand.line "PRINT TRUE".toList).value (builtin.host 5)).run
      loud).isSome = true := by
    decide +kernel
  obtain ⟨⟨output, u⟩, h, checked⟩ := (Option.any_eq_true _ _).mp failed
  obtain ⟨asked, status⟩ := Bool.and_eq_true_iff.mp checked
  obtain ⟨⟨r', u'⟩, h'⟩ := Option.isSome_iff_exists.mp ran
  obtain ⟨⟨words, v⟩, hv, reached⟩ := (Option.any_eq_true _ _).mp expanded
  obtain ⟨⟨value, w⟩, hw⟩ := Option.isSome_iff_exists.mp decided
  refine ⟨⟨output, u, h, of_decide_eq_true asked, of_decide_eq_true status, ?_⟩, ⟨r', u', h', ?_⟩,
    ⟨words, v, hv, of_decide_eq_true reached, ?_⟩, ⟨value, w, hw, ?_⟩⟩
  · exact lines _ _ _ h
  · exact runs _ _ _ h'
  · exact expands _ _ _ hv
  · exact decides _ _ _ hw

end Registry

end Teletype
