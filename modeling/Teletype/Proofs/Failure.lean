/-
# Failures

A line that is dispatched while another line is carried out may fail, and leaves a status
other than zero behind.  The main statement is that **no failure is swallowed**
(`Registry.dispatch_fails`): the line that was carried out fails as well, and a line that
gives back a jump or an exit did not fail.
-/
import Teletype.Proofs.Dispatch

namespace Teletype

/-- The dispatch of a line ended with a status other than zero. -/
def Event.Fails : Event → Prop
  | .left status => status ≠ 0
  | .blank status => status ≠ 0
  | _ => False

/-- Only dispatched lines fail. -/
theorem Event.not_fails {e : Event} (h : ¬ e.IsDispatch) : ¬ e.Fails := by
  cases e <;> first | exact id | exact absurd trivial h

/-- What commands do about failures.  An act that starts with status zero and succeeds ends
with status zero, and no line failed in it.  An act that settles with status zero had no
line fail in it.  An act that ends in a fault may have had. -/
def failing : Conduct
  | .well, s, u => s.session.status = 0 → u.session.status = 0 ∧
      ∃ new, u.trace = new ++ s.trace ∧ ∀ e ∈ new, ¬ e.Fails
  | .settled, s, u => s.session.status = 0 →
      ∃ new, u.trace = new ++ s.trace ∧ (u.session.status = 0 → ∀ e ∈ new, ¬ e.Fails)
  | .faulted, s, u => s.session.status = 0 → ∃ new, u.trace = new ++ s.trace

namespace failing

variable {m : Manner} {s t u : Terminal}

/-- Nothing fails in what is quiet. -/
theorem quiet (h : s.Quiet u) : failing .well s u := by
  intro hs
  obtain ⟨new, hu, hn⟩ := h.trace
  exact ⟨h.status.trans hs, new, hu, fun e he => Event.not_fails (hn e he)⟩

/-- What is quiet can be done behind anything. -/
theorem then_quiet (h : failing m s t) (hq : t.Quiet u) : failing m s u := by
  obtain ⟨new', hu, hn'⟩ := hq.trace
  have calm : ∀ e ∈ new', ¬ e.Fails := fun e he => Event.not_fails (hn' e he)
  cases m with
  | well =>
    intro hs
    obtain ⟨ht, new, hnew, hn⟩ := h hs
    exact ⟨hq.status.trans ht, new' ++ new, Terminal.trace_append hnew hu,
      List.forall_mem_append.mpr ⟨calm, hn⟩⟩
  | settled =>
    intro hs
    obtain ⟨new, hnew, hn⟩ := h hs
    refine ⟨new' ++ new, Terminal.trace_append hnew hu, fun hz => ?_⟩
    exact List.forall_mem_append.mpr ⟨calm, hn (hq.status.symm.trans hz)⟩
  | faulted =>
    intro hs
    obtain ⟨new, hnew⟩ := h hs
    exact ⟨new' ++ new, Terminal.trace_append hnew hu⟩

/-- One act can be done after another that succeeds. -/
theorem trans (h : failing .well s t) (h' : failing m t u) : failing m s u := by
  cases m with
  | well =>
    intro hs
    obtain ⟨ht, new, hnew, hn⟩ := h hs
    obtain ⟨hu, new', hnew', hn'⟩ := h' ht
    exact ⟨hu, new' ++ new, Terminal.trace_append hnew hnew',
      List.forall_mem_append.mpr ⟨hn', hn⟩⟩
  | settled =>
    intro hs
    obtain ⟨ht, new, hnew, hn⟩ := h hs
    obtain ⟨new', hnew', hn'⟩ := h' ht
    refine ⟨new' ++ new, Terminal.trace_append hnew hnew', fun hu => ?_⟩
    exact List.forall_mem_append.mpr ⟨hn' hu, hn⟩
  | faulted =>
    intro hs
    obtain ⟨ht, new, hnew, -⟩ := h hs
    obtain ⟨new', hnew'⟩ := h' ht
    exact ⟨new' ++ new, Terminal.trace_append hnew hnew'⟩

/-- What commands do about failures is lawful. -/
theorem lawful : Conduct.Lawful failing where
  refl s := quiet (.of_trace_eq rfl rfl rfl)
  trans := trans
  settled h hs := by
    obtain ⟨-, new, hnew, hn⟩ := h hs
    exact ⟨new, hnew, fun _ => hn⟩
  faulted h hs := by
    obtain ⟨new, hnew, -⟩ := h hs
    exact ⟨new, hnew⟩
  well h hu hs := by
    obtain ⟨new, hnew, hn⟩ := h hs
    exact ⟨hu, new, hnew, hn hu⟩
  routine h h' := then_quiet h' h.level.quiet
  scope {m s u} k h := by
    have entered : s.Quiet (s.update k.enter) := .of_trace_eq rfl (k.status_enter _) rfl
    have left : u.Quiet (u.update (k.leave s.session)) := .of_trace_eq rfl (k.status_leave _ _) rfl
    exact then_quiet (trans (quiet entered) h) left
  run {m s u} _ h := by
    have opened : s.Quiet (Runner.opened s) := .of_trace_cons rfl rfl rfl id
    have closed : u.Quiet (Runner.closed s.session u) := .of_trace_cons rfl rfl rfl id
    exact then_quiet (trans (quiet opened) h) closed

/-- An act that leaves a status other than zero behind has settled. -/
theorem settle (h : failing .faulted s t) {status : Int} (hn : status ≠ 0)
    (hq : (t.update fun t => { t with status }).Quiet u) : failing .settled s u := by
  intro hs
  obtain ⟨new, hnew⟩ := h hs
  obtain ⟨new', hnew', -⟩ := hq.trace
  refine ⟨new' ++ new, ?_, fun hz => absurd (hq.status.symm.trans hz) hn⟩
  rw [hnew', List.append_assoc, ← hnew]
  rfl

/-- The edits of commands leave failures alone. -/
theorem bears (manual : Manual) (b : Builtin) : failing.Bears manual b :=
  fun _ _ h => quiet h.level.quiet

end failing

/-! ## Lines -/

namespace Registry

variable {bound : Nat} {line : Text} {s t u : Terminal} {output : Output}

/-- What the words of a line do about failures. -/
theorem failing_carryOut {words : List Text} (H : failing.Hosts (builtin.host bound).dispatch)
    (h : builtin.carryOut (builtin.host bound) words s = some (output, u)) :
    failing output.manner s u := by
  refine carryOut_ends failing.lawful H (fun b _ => failing.bears _ b)
    (fun f t h => failing.settle h f.status_ne_zero (.print _ _)) ?_ ?_ h
  · intro n text t ht
    cases ht
    have stored : s.Quiet
        (s.update fun s => { s with program := s.program.setLine n text }).save :=
      .of_trace_cons rfl rfl rfl id
    exact failing.lawful.any (failing.quiet stored) _
  · intro word t ht
    cases ht
    have nothing : failing .faulted s s := failing.lawful.any (failing.lawful.refl s) _
    exact failing.settle nothing (by decide) (.print _ _)

/-- What a line that is carried out does about failures. -/
theorem failing_entered {words : List Text} (H : failing.Hosts (builtin.host bound).dispatch)
    (h : builtin.carryOut (builtin.host bound) words (entered s line) = some (output, t)) :
    ∃ inner, t.trace = inner ++ .entered line :: s.trace ∧
      (t.session.status = 0 → ∀ e ∈ inner, ¬ e.Fails) ∧
      ((∀ x, output ≠ .text x) → t.session.status = 0) := by
  have ends := failing_carryOut H h
  -- only a text can come from a command in which a line failed
  cases output with
  | text x =>
    obtain ⟨inner, ht, hn⟩ := ends rfl
    exact ⟨inner, ht, hn, fun hx => absurd rfl (hx x)⟩
  | _ =>
    obtain ⟨hz, inner, ht, hn⟩ := ends rfl
    exact ⟨inner, ht, fun _ => hn, fun _ => hz⟩

/-- Dispatched lines leave a status that tells whether lines failed. -/
theorem failing_hosts (bound : Nat) : failing.Hosts (builtin.dispatch bound) := by
  refine hosts_dispatch (fun s hs => ?_) (fun bound line s output t H hl h hs => ?_) bound
  · refine ⟨[.blank s.session.status], rfl, fun _ e he => ?_⟩
    rw [List.mem_singleton.mp he]
    exact not_not_intro hs
  · obtain ⟨inner, ht, hn, -⟩ := failing_entered H h
    refine ⟨.left t.session.status :: (inner ++ [.entered (Text.strip line)]), ?_, fun hz => ?_⟩
    · rw [List.cons_append, List.append_assoc, List.singleton_append, ← ht]
      rfl
    · refine List.forall_mem_cons.mpr ⟨not_not_intro hz, fun e he => ?_⟩
      rcases List.mem_append.mp he with he | he
      · exact hn hz e he
      · rw [List.mem_singleton.mp he]
        exact id

/-- **No failure is swallowed.**  If a line that was dispatched while a line was carried out
ended with a status other than zero, the line that was carried out ends with a status other
than zero as well.  A line that gives back a jump or an exit ends with status zero. -/
theorem dispatch_fails (h : builtin.dispatch bound line s = some (output, u))
    (hl : Text.strip line ≠ []) :
    ∃ inner, u.trace
        = .left u.session.status :: (inner ++ .entered (Text.strip line) :: s.trace) ∧
      ((∃ e ∈ inner, e.Fails) → u.session.status ≠ 0) ∧
      ((∀ t, output ≠ .text t) → u.session.status = 0) := by
  rcases dispatch_cases h with ⟨blank, -, -⟩ | ⟨-, bound', t, rfl, ht, rfl⟩
  · exact absurd blank hl
  obtain ⟨inner, htrace, hn, hz⟩ := failing_entered (failing_hosts bound') ht
  refine ⟨inner, ?_, ?_, hz⟩
  · rw [← htrace]
    rfl
  · rintro ⟨e, he, hf⟩ hzero
    exact hn hzero e he hf

/-- The failure of a line inside another one. -/
theorem dispatch_fails_nested :
    let line := "PRINT (DELETE x)".toList
    let s := Terminal.ofSettings {} (.recorder { grid := ⟨60, 25⟩ }) (.memory .empty) ⟨0⟩
    Text.strip line ≠ [] ∧ ∃ output u, builtin.dispatch 3 line s = some (output, u) ∧
      ∃ inner, u.trace
          = .left u.session.status :: (inner ++ .entered (Text.strip line) :: s.trace) ∧
        ((∃ e ∈ inner, e.Fails) → u.session.status ≠ 0) ∧
        ((∀ t, output ≠ .text t) → u.session.status = 0) := by
  intro line s
  have hl : Text.strip line ≠ [] := by decide
  have ends : (builtin.dispatch 3 line s).isSome = true := by decide +kernel
  obtain ⟨⟨output, u⟩, h⟩ := Option.isSome_iff_exists.mp ends
  exact ⟨hl, output, u, h, dispatch_fails h hl⟩

end Registry

end Teletype
