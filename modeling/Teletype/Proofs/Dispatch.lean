/-
# How lines are dispatched

A line is carried out by the built-in command that its first word names, or by the program
under an alias, or as a line of the stored program, or not at all.  These are the cases
that proofs about dispatched lines go through (`Registry.carryOut_cases`), and the two
cases of a line that is blank or not (`Registry.dispatch_cases`).  The main statements are
that **a conduct that bears what a line may do is kept by the line** (`Registry.carryOut_ends`),
and by all dispatched lines (`Registry.hosts_dispatch`).
-/
import Teletype.Dispatch
import Teletype.Proofs.Edit

namespace Teletype

/-! ## The names of the built-in commands -/

/-- The built-in command that a word names; of two with one name the one that was added
later. -/
def Builtin.named? (word : Text) : Option Builtin :=
  all.reverse.find? fun b => Text.upper b.command.page.name = Text.upper word

/-- The built-in command that carries a line out. -/
def Builtin.ofLine? (line : Text) : Option Builtin := named? (Text.upper (Text.firstWord line))

namespace Registry

/-- Adding a command adds it under its name. -/
theorem find?_register (r : Registry) (c : Command) (word : Text) :
    (r.register c).find? word
      = if Text.upper c.page.name = Text.upper word then some c else r.find? word := by
  have same : compare (Text.upper word) (Text.upper c.page.name) = .eq ↔
      Text.upper c.page.name = Text.upper word := by
    rw [Std.LawfulEqOrd.compare_eq_iff_eq]
    exact eq_comm
  rw [find?, find?, register, Table.get?_insert]
  simp only [same]

/-- Of commands that were added one after the other the last with a name is found. -/
theorem find?_foldl_register (cs : List Command) (r : Registry) (word : Text) :
    (cs.foldl register r).find? word
      = (cs.reverse.find? fun c => Text.upper c.page.name = Text.upper word).or
          (r.find? word) := by
  induction cs generalizing r with
  | nil => rfl
  | cons c cs ih =>
    rw [List.foldl_cons, ih, find?_register, List.reverse_cons, List.find?_append, Option.or_assoc]
    congr 1
    rw [List.find?_singleton]
    by_cases h : Text.upper c.page.name = Text.upper word
    · simp [h]
    · simp [h]

/-- **The built-in commands are found by their names.** -/
theorem find?_builtin (word : Text) :
    builtin.find? word = (Builtin.named? word).map Builtin.command := by
  rw [builtin, find?_foldl_register, ← List.map_reverse, List.find?_map]
  have nothing : find? .empty word = none := rfl
  rw [nothing, Option.or_none]
  rfl

/-- A page of the manual is found for a word exactly if a command is found by it. -/
theorem page?_eq_none_iff {word : Text} :
    builtin.manual.page? word = none ↔ Builtin.named? word = none := by
  rw [page?_manual, find?_builtin, Option.map_eq_none_iff, Option.map_eq_none_iff]

/-! ## Cases -/

variable {host : Host} {s u : Terminal} {output : Output}

/-- What settles an act is its output, or the report of its fault. -/
theorem settle_cases {a : Act Output} (h : Run.settle a s = some (output, u)) :
    a.run s = some (.ok output, u) ∨
      ∃ f t, a.run s = some (.error f, t) ∧ u = t.report f ∧ output = .failure := by
  obtain ⟨r, t, ht, hr⟩ := Run.bind_eq_some.mp h
  cases r with
  | ok x =>
    cases hr
    exact .inl ht
  | error f =>
    cases hr
    exact .inr ⟨f, t, ht, rfl, rfl⟩

/-- How the words of a line are carried out. -/
theorem carryOut_cases {words : List Text}
    (h : builtin.carryOut host words s = some (output, u)) :
    let word := words.headD []
    (∃ b, Builtin.named? (Text.upper word) = some b ∧
      Run.settle (b.command.perform host words) s = some (output, u)) ∨
    (Builtin.named? (Text.upper word) = none ∧
      ((∃ p, s.session.aliases.get? (Text.upper word) = some p ∧
        Run.settle (host.runAndSave p) s = some (output, u)) ∨
      (s.session.aliases.get? (Text.upper word) = none ∧
        ((∃ n, Decimal.toWord? word = some n ∧
          enterLine n (Text.unwords (words.drop 1)) s = some (output, u)) ∨
        (Decimal.toWord? word = none ∧ refuseWord word s = some (output, u)))))) := by
  intro word
  rw [carryOut, find?_builtin] at h
  rcases hb : Builtin.named? (Text.upper word) with _ | b
  · refine .inr ⟨rfl, ?_⟩
    rw [hb] at h
    obtain ⟨session, t, ht, h⟩ := Run.bind_eq_some.mp h
    cases ht
    rcases ha : s.session.aliases.get? (Text.upper word) with _ | p
    · refine .inr ⟨rfl, ?_⟩
      rw [ha] at h
      rcases hn : Decimal.toWord? word with _ | n
      · rw [hn] at h
        exact .inr ⟨rfl, h⟩
      · rw [hn] at h
        exact .inl ⟨n, rfl, h⟩
    · rw [ha] at h
      exact .inl ⟨p, rfl, h⟩
  · rw [hb] at h
    exact .inl ⟨b, rfl, h⟩

/-- The terminal in which the words of a line are carried out. -/
def entered (s : Terminal) (line : Text) : Terminal :=
  (s.note (.entered line)).update fun t => { t with status := 0 }

/-- What a line gives when its dispatch ends. -/
def leave (r : Output × Terminal) : Output × Terminal :=
  (r.1, r.2.note (.left r.2.session.status))

/-- A line that is not blank is carried out as its words are. -/
theorem carryOutLine_eq_map {r : Registry} {line : Text} (hl : Text.strip line ≠ []) :
    r.carryOutLine host line s
      = (r.carryOut host (Text.words (Text.strip line)) (entered s (Text.strip line))).map
          leave := by
  rw [carryOutLine, if_neg hl]
  show (r.carryOut host _ (entered s _)).bind _ = _
  cases r.carryOut host (Text.words (Text.strip line)) (entered s (Text.strip line)) <;> rfl

/-- A line that is not blank is dispatched as its words are carried out. -/
theorem dispatch_eq_map {r : Registry} {bound : Nat} {line : Text} (hl : Text.strip line ≠ []) :
    r.dispatch (bound + 1) line s
      = (r.carryOut (r.host bound) (Text.words (Text.strip line))
          (entered s (Text.strip line))).map leave :=
  carryOutLine_eq_map hl

/-- The words of a line that names a built-in command are carried out as the command is. -/
theorem carryOut_command {words : List Text} {b : Builtin}
    (hb : Builtin.named? (Text.upper (words.headD [])) = some b) :
    builtin.carryOut host words = Run.settle (b.command.perform host words) := by
  rw [carryOut, find?_builtin, hb]
  rfl

/-- A line that names a built-in command is dispatched as the command is carried out. -/
theorem dispatch_command {bound : Nat} {line : Text} {b : Builtin}
    (hb : Builtin.ofLine? (Text.strip line) = some b) :
    builtin.dispatch (bound + 1) line s
      = (Run.settle (b.command.perform (builtin.host bound) (Text.words (Text.strip line)))
          (entered s (Text.strip line))).map leave := by
  have named : Builtin.named? (Text.upper ((Text.words (Text.strip line)).headD [])) = some b := hb
  have hl : Text.strip line ≠ [] := by
    intro blank
    have nothing : Builtin.ofLine? [] = none := by decide
    rw [blank, nothing] at hb
    cases hb
  rw [dispatch_eq_map hl, carryOut_command named]

/-- A line that ends with status zero ended in no fault. -/
theorem perform_of_status {bound : Nat} {line : Text} {b : Builtin}
    (hb : Builtin.ofLine? (Text.strip line) = some b)
    (h : builtin.dispatch (bound + 1) line s = some (output, u))
    (succeeded : u.session.status = 0) :
    ∃ v, (b.command.perform (builtin.host bound) (Text.words (Text.strip line))).run
        (entered s (Text.strip line)) = some (.ok output, v) ∧
      u = v.note (.left v.session.status) := by
  rw [dispatch_command hb, Option.map_eq_some_iff] at h
  obtain ⟨⟨output', v⟩, settled, left⟩ := h
  cases left
  rcases settle_cases settled with performed | ⟨f, t, -, rfl, -⟩
  · exact ⟨v, performed, rfl⟩
  · have status : (t.report f).session.status = f.status :=
      (Terminal.Quiet.print (t.update fun s => { s with status := f.status }) _).status
    exact absurd (status.symm.trans succeeded) f.status_ne_zero

/-- A line whose first word names no command, but an alias, is dispatched as its program is
run. -/
theorem dispatch_alias {bound : Nat} {line : Text} {p : Program}
    (hn : Builtin.ofLine? (Text.strip line) = none) (hl : Text.strip line ≠ [])
    (hp : s.session.aliases.get? (Text.upper (Text.firstWord (Text.strip line))) = some p) :
    builtin.dispatch (bound + 1) line s
      = (Run.settle ((builtin.host bound).runAndSave p) (entered s (Text.strip line))).map
          leave := by
  have named : Builtin.named? (Text.upper ((Text.words (Text.strip line)).headD [])) = none := hn
  have known : (entered s (Text.strip line)).session.aliases.get?
      (Text.upper ((Text.words (Text.strip line)).headD [])) = some p := hp
  have session : Run.session (entered s (Text.strip line))
      = some ((entered s (Text.strip line)).session, entered s (Text.strip line)) := rfl
  rw [dispatch_eq_map hl, carryOut, find?_builtin, named]
  refine congrArg _ ((Run.bind_of_some session).trans ?_)
  rw [known]

/-- How a line is dispatched. -/
theorem dispatch_cases {r : Registry} {bound : Nat} {line : Text}
    (h : r.dispatch bound line s = some (output, u)) :
    (Text.strip line = [] ∧ output = .none ∧ u = s.note (.blank s.session.status)) ∨
    (Text.strip line ≠ [] ∧ ∃ bound' t, bound = bound' + 1 ∧
      r.carryOut ⟨r.manual, bound', r.dispatch bound'⟩ (Text.words (Text.strip line))
        (entered s (Text.strip line)) = some (output, t) ∧
      u = t.note (.left t.session.status)) := by
  cases bound with
  | zero => cases h
  | succ bound =>
    by_cases blank : Text.strip line = []
    · rw [dispatch_blank r bound blank] at h
      cases h
      exact .inl ⟨blank, rfl, rfl⟩
    · rw [dispatch_eq_map blank, Option.map_eq_some_iff] at h
      obtain ⟨⟨x, t⟩, ht, hu⟩ := h
      cases hu
      exact .inr ⟨blank, bound, t, rfl, ht, rfl⟩

/-! ## Conducts of lines -/

variable {C : Conduct}

/-- A conduct that is kept by what the words of a line name is kept when they are carried
out. -/
theorem carryOut_ends_of {words : List Text}
    (perform : ∀ b, Builtin.named? (Text.upper (words.headD [])) = some b →
      Act.Goes C Output.manner s (b.command.perform host words))
    (runs : ∀ p, s.session.aliases.get? (Text.upper (words.headD [])) = some p →
      Act.Goes C Output.manner s (host.runAndSave p))
    (report : ∀ f t, C .faulted s t → C .settled s (t.report f))
    (enter : ∀ n t, Builtin.named? (Text.upper (words.headD [])) = none →
      s.session.aliases.get? (Text.upper (words.headD [])) = none →
      Decimal.toWord? (words.headD []) = some n →
      enterLine n (Text.unwords (words.drop 1)) s = some (output, t) → C output.manner s t)
    (refuse : ∀ word t, refuseWord word s = some (output, t) → C output.manner s t)
    (h : builtin.carryOut host words s = some (output, u)) : C output.manner s u := by
  have settle : ∀ a : Act Output, Act.Goes C Output.manner s a →
      Run.settle a s = some (output, u) → C output.manner s u := by
    intro a ha h
    rcases settle_cases h with hr | ⟨f, t, ht, rfl, rfl⟩
    · exact ha _ _ hr
    · exact report f t (ha _ _ ht)
  -- a command, an alias, a line of the program, or a word that names nothing
  rcases carryOut_cases h with ⟨b, hb, h⟩ | ⟨hb, ⟨p, hp, h⟩ | ⟨hp, ⟨n, hn, h⟩ | ⟨-, h⟩⟩⟩
  · exact settle _ (perform b hb) h
  · exact settle _ (runs p hp) h
  · exact enter _ _ hb hp hn h
  · exact refuse _ _ h

/-- **A conduct that bears what the words of a line may do is kept when they are carried
out.** -/
theorem carryOut_ends (L : C.Steady) (H : C.Hosts host.dispatch) {words : List Text}
    (edits : ∀ b, Builtin.named? (Text.upper (words.headD [])) = some b → C.Bears host.manual b)
    (report : ∀ f t, C .faulted s t → C .settled s (t.report f))
    (enter : ∀ n text t, enterLine n text s = some (output, t) → C output.manner s t)
    (refuse : ∀ word t, refuseWord word s = some (output, t) → C output.manner s t)
    (h : builtin.carryOut host words s = some (output, u)) : C output.manner s u :=
  carryOut_ends_of (fun b hb => b.goes_perform L H (edits b hb) words s)
    (fun p _ => Host.goes_runAndSave L H p s) report (fun n t _ _ _ => enter n _ t) refuse h

/-- **A conduct is kept by all dispatched lines if it bears blank lines, and other lines as
long as the lines inside them keep it.** -/
theorem hosts_dispatch {r : Registry}
    (blank : ∀ s : Terminal, C .settled s (s.note (.blank s.session.status)))
    (full : ∀ bound line s output t, C.Hosts (r.host bound).dispatch → Text.strip line ≠ [] →
      r.carryOut (r.host bound) (Text.words (Text.strip line)) (entered s (Text.strip line))
        = some (output, t) → C .settled s (t.note (.left t.session.status))) (bound : Nat) :
    C.Hosts (r.dispatch bound) := by
  -- lines inside a line are dispatched with a smaller bound
  induction bound with
  | zero =>
    intro line s output u h
    cases h
  | succ bound ih =>
    intro line s output u h
    rcases dispatch_cases h with ⟨-, -, rfl⟩ | ⟨hl, bound', t, hb, h, rfl⟩
    · exact blank s
    · cases hb
      exact full bound line s output t ih hl h

/-- **What commands do however they end is kept by all dispatched lines** if it is steady and
bears their edits, a change of the status, the notes of dispatches and the storing of lines. -/
theorem hosts_of_bears {R : Terminal → Terminal → Prop} (L : Conduct.Steady fun _ => R)
    (edits : ∀ manual b, Conduct.Bears (fun _ => R) manual b)
    (status : ∀ (t : Terminal) (n : Int), R t (t.update fun t => { t with status := n }))
    (note : ∀ (t : Terminal) (e : Event), e.IsDispatch → R t (t.note e))
    (store : ∀ (t : Terminal) (n : LineNumber) (text : Text),
      R t (t.update fun s => { s with program := s.program.setLine n text }).save)
    (bound : Nat) : Conduct.Hosts (fun _ => R) (builtin.dispatch bound) := by
  have trans : ∀ {s t u : Terminal}, R s t → R t u → R s u := fun h h' => L.trans (m := .well) h h'
  have tell : ∀ (t : Terminal) (n : Int) (text : Text),
      R t ((t.update fun t => { t with status := n }).print text) := fun t n text =>
    L.simple (m := .well) (.print _ text) (status t n)
  refine hosts_dispatch (fun s => note s (.blank s.session.status) trivial)
    (fun bound line s output t H _ h => ?_) bound
  have began : R s (entered s (Text.strip line)) :=
    trans (note s (.entered (Text.strip line)) trivial) (status _ 0)
  have carried : R (entered s (Text.strip line)) t := by
    refine carryOut_ends L H (fun b _ => edits _ b) (fun f t ht => trans ht (tell t f.status _))
      (fun n text t ht => ?_) (fun word t ht => ?_) h
    · cases ht
      exact store _ n text
    · cases ht
      exact tell _ 1 _
  exact trans (trans began carried) (note t (.left t.session.status) trivial)

/-! ## Lines one after the other -/

/-- Lines were dispatched one after the other, each as deep as it needs. -/
inductive Carries (r : Registry) : Terminal → List Text → Terminal → Prop
  /-- No line was dispatched. -/
  | nil (s : Terminal) : Carries r s [] s
  /-- A line was dispatched, and then the others. -/
  | cons {bound : Nat} {line : Text} {lines : List Text} {output : Output} {s t u : Terminal}
      (first : r.dispatch bound line s = some (output, t)) (rest : Carries r t lines u) :
      Carries r s (line :: lines) u

/-- A conduct that does not tell how an act ended is kept by lines one after the other if
dispatched lines keep it. -/
theorem Carries.keeps {r : Registry} {lines : List Text} (L : C.Orderly)
    (H : ∀ bound, C.Hosts (r.dispatch bound)) (same : ∀ s u, C .settled s u → C .well s u)
    (h : r.Carries s lines u) : C .well s u := by
  induction h with
  | nil s => exact L.refl s
  | cons first _ ih => exact L.trans (same _ _ (H _ _ _ _ _ first)) ih

end Registry

end Teletype
