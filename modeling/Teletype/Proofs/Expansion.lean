/-
# Expanding a line

What is carried out while a line is expanded, and in which order.  Between two states of a
terminal lines are called one after the other, each of them what a parenthesis came to
just before (`Calls`).  The main statement is that **expanding an accepted line through
placeholders is evaluating the one phrase of the line** (`expand_eq_evaluateWords`): it
gives the same words or the same fault in the same state, and it calls the parentheses
once each, in the order in which they are closed, up to the first that fails.
-/
import Teletype.Proofs.Evaluation

namespace Teletype

/-! ## Calls -/

/-- A line that is called: what stands in a parenthesis, and the text it came to. -/
structure Call where
  /-- What stands in the parenthesis. -/
  inside : Phrase
  /-- What it came to. -/
  line : Text

/-- Between two states nothing happens but that lines are carried out without printing, one
after the other.  Each is what a parenthesis came to before it was called, and each but the
last succeeds; whether the last does is told. -/
inductive Calls (dispatch : Text → Run Output) : Terminal → List Call → Bool → Terminal → Prop
  /-- No line is called. -/
  | none (s : Terminal) : Calls dispatch s [] true s
  /-- The last line fails. -/
  | failed {r s u : Terminal} {c : Call} {f : Fault}
      (arrived : (c.inside.evaluate dispatch).run r = some (.ok c.line, s))
      (called : (Expansion.valueOf dispatch c.line).run s = some (.error f, u)) :
      Calls dispatch s [c] false u
  /-- A line succeeds, and others are called behind it. -/
  | next {r s t u : Terminal} {c : Call} {calls : List Call} {finished : Bool} {o : Output}
      (arrived : (c.inside.evaluate dispatch).run r = some (.ok c.line, s))
      (called : (Expansion.valueOf dispatch c.line).run s = some (.ok o, t))
      (more : Calls dispatch t calls finished u) : Calls dispatch s (c :: calls) finished u

variable {dispatch : Text → Run Output}

/-- Lines are called behind lines that succeeded. -/
theorem Calls.append {s t u : Terminal} {calls more : List Call} {finished : Bool}
    (h : Calls dispatch s calls true t) (h' : Calls dispatch t more finished u) :
    Calls dispatch s (calls ++ more) finished u := by
  generalize hb : true = b at h
  induction h with
  | none => exact h'
  | failed => cases hb
  | next arrived called _ ih => exact .next arrived called (ih h' hb)

/-- An act calls the given parentheses in order: all of them if it succeeds, and otherwise
those up to a failure. -/
def Act.Visits {α : Type} (dispatch : Text → Run Output) (parens : List Phrase) (a : Act α) :
    Prop :=
  ∀ s r u, a.run s = some (r, u) → ∃ calls finished, Calls dispatch s calls finished u ∧
    calls.map Call.inside <+: parens ∧
    (∀ x, r = .ok x → finished = true ∧ calls.map Call.inside = parens)

namespace Act.Visits

variable {α β : Type}

/-- An act that leaves the terminal calls nothing. -/
theorem of_unchanged {a : Act α} (h : ∀ s r u, a.run s = some (r, u) → u = s) :
    Visits dispatch [] a := by
  intro s r u hr
  obtain rfl := h s r u hr
  exact ⟨[], true, .none _, List.prefix_refl _, fun _ _ => ⟨rfl, rfl⟩⟩

/-- A value calls nothing. -/
theorem pure (x : α) : Visits dispatch [] (Pure.pure x : Act α) := by
  apply of_unchanged
  intro s r u h
  cases h
  rfl

/-- Looking a variable up calls nothing. -/
theorem lookUp (name : Text) : Visits dispatch [] (Expansion.lookUp name) := by
  apply of_unchanged
  intro s r u h
  unfold Expansion.lookUp at h
  rw [Act.bind_eq_some] at h
  rcases h with ⟨e, he, rfl⟩ | ⟨x, t, hx, h⟩
  · cases he
  · cases hx
    split at h <;> cases h <;> rfl

/-- One act after another calls what the one calls and then what the other does. -/
theorem bind {parens more : List Phrase} {a : Act α} {f : α → Act β}
    (h : Visits dispatch parens a) (hf : ∀ x, Visits dispatch more (f x)) :
    Visits dispatch (parens ++ more) (a >>= f) := by
  intro s r u hr
  rw [Act.bind_eq_some] at hr
  rcases hr with ⟨e, he, rfl⟩ | ⟨x, t, hx, hr⟩
  · obtain ⟨calls, finished, hc, hpre, -⟩ := h _ _ _ he
    exact ⟨calls, finished, hc, hpre.trans (List.prefix_append _ _), fun x hx => by cases hx⟩
  · obtain ⟨calls, finished, hc, -, hall⟩ := h _ _ _ hx
    obtain ⟨rfl, hmap⟩ := hall x rfl
    obtain ⟨calls', finished', hc', hpre, hall'⟩ := hf x _ _ _ hr
    refine ⟨calls ++ calls', finished', hc.append hc', ?_, fun y hy => ?_⟩
    · rw [List.map_append, hmap]
      exact (List.prefix_append_right_inj _).mpr hpre
    · obtain ⟨hf', hmap'⟩ := hall' y hy
      exact ⟨hf', by rw [List.map_append, hmap, hmap']⟩

/-- A parenthesis is called behind those that stand in it. -/
theorem call {inside : Phrase} (h : Visits dispatch inside.closings (inside.evaluate dispatch)) :
    Visits dispatch (inside.closings ++ [inside])
      (inside.evaluate dispatch >>= Expansion.valueOf dispatch) := by
  intro s r u hr
  rw [Act.bind_eq_some] at hr
  rcases hr with ⟨e, he, rfl⟩ | ⟨line, t, hx, hr⟩
  · obtain ⟨calls, finished, hc, hpre, -⟩ := h _ _ _ he
    exact ⟨calls, finished, hc, hpre.trans (List.prefix_append _ _), fun x hx => by cases hx⟩
  · obtain ⟨calls, finished, hc, -, hall⟩ := h _ _ _ hx
    obtain ⟨rfl, hmap⟩ := hall line rfl
    -- what stands in the parenthesis was called in full, so the parenthesis is called next
    have all : (calls ++ [(⟨inside, line⟩ : Call)]).map Call.inside = inside.closings ++ [inside] := by
      rw [List.map_append, hmap]
      rfl
    cases r with
    | error f =>
      refine ⟨_, false, hc.append (.failed (c := ⟨inside, line⟩) hx hr), ?_, fun x hx => ?_⟩
      · simp only [all, List.prefix_rfl]
      · cases hx
    | ok output =>
      refine ⟨_, true, hc.append (.next (c := ⟨inside, line⟩) hx hr (.none _)), ?_, fun _ _ => ?_⟩
      · simp only [all, List.prefix_rfl]
      · exact ⟨rfl, all⟩

end Act.Visits

/-- **Evaluating a phrase calls its parentheses in the order in which they are closed.** -/
theorem Phrase.visits_evaluate (dispatch : Text → Run Output) (p : Phrase) :
    (p.evaluate dispatch).Visits dispatch p.closings := by
  induction p with
  | done => exact .pure _
  | char c rest ih =>
    have h := ih.bind fun t => .pure (c :: t)
    rwa [List.append_nil] at h
  | reference name rest ih =>
    have h := (Act.Visits.lookUp name).bind fun value => ih.bind fun t => .pure (value ++ t)
    rwa [List.append_nil] at h
  | quote inside rest ihi ih =>
    have h := ihi.bind fun value => ih.bind fun t => .pure (value ++ t)
    rwa [List.append_nil] at h
  | paren inside rest ihi ih =>
    have h := ihi.call.bind fun output => ih.bind fun t => .pure (output.value ++ t)
    rw [List.append_nil, List.append_assoc, bind_assoc] at h
    exact h

/-- A node in front of the first of some phrases brings its parentheses in front. -/
theorem Phrase.flatMap_closings_onHead {node : Phrase → Phrase} {parens : List Phrase}
    (hnode : ∀ q, (node q).closings = parens ++ q.closings) (ps : List Phrase) :
    (onHead node ps).flatMap closings = parens ++ ps.flatMap closings := by
  cases ps with
  | nil => rw [onHead, List.flatMap_cons, hnode, closings, List.append_nil]
  | cons p ps => rw [onHead, List.flatMap_cons, List.flatMap_cons, hnode, List.append_assoc]

/-- The words of a phrase hold its parentheses. -/
theorem Phrase.flatMap_closings_words (p : Phrase) : p.words.flatMap closings = p.closings := by
  induction p with
  | done => rfl
  | char c rest ih =>
    rw [words]
    split
    · exact ih
    · have node : ∀ q, (char c q).closings = [] ++ q.closings := fun _ => rfl
      rw [flatMap_closings_onHead node, ih, node]
  | reference name rest ih =>
    have node : ∀ q, (reference name q).closings = [] ++ q.closings := fun _ => rfl
    rw [words, flatMap_closings_onHead node, ih, node]
  | quote inside rest _ ih =>
    have node : ∀ q, (quote inside q).closings = inside.closings ++ q.closings := fun _ => rfl
    rw [words, flatMap_closings_onHead node, ih, node]
  | paren inside rest _ ih =>
    have node : ∀ q, (paren inside q).closings = (inside.closings ++ [inside]) ++ q.closings := by
      intro q
      rw [closings, List.append_assoc, List.singleton_append]
    rw [words, flatMap_closings_onHead node, ih, node]

/-- Evaluating phrases calls the parentheses of each in turn. -/
theorem Phrase.visits_mapM_evaluate (dispatch : Text → Run Output) (ps : List Phrase) :
    (ps.mapM (evaluate dispatch)).Visits dispatch (ps.flatMap closings) := by
  induction ps with
  | nil => exact .pure _
  | cons p ps ih =>
    have h := (p.visits_evaluate dispatch).bind fun t => ih.bind fun ts => .pure (t :: ts)
    rw [List.append_nil] at h
    rwa [List.mapM_cons, List.flatMap_cons]

/-- Evaluating the words of a phrase calls its parentheses in the order in which they are
closed. -/
theorem Phrase.visits_evaluateWords (dispatch : Text → Run Output) (p : Phrase) :
    (p.evaluateWords dispatch).Visits dispatch p.closings := by
  rw [← flatMap_closings_words]
  exact visits_mapM_evaluate dispatch p.words

/-! ## Accepted lines -/

/-- Expanding a line is evaluating a phrase. -/
structure Phrase.ExpandsFrom (p : Phrase) (line : Text) : Prop where
  /-- In a host that lets tokens stand as deep inside one another as they do in the phrase,
  both give the same words or the same fault, in the same state. -/
  same (host : Host) (h : p.depth < host.bound) :
    host.expand (Text.words line) = p.evaluateWords host.dispatch
  /-- In any host expansion gives nothing that evaluation does not give. -/
  below (host : Host) : (host.expand (Text.words line)).Below (p.evaluateWords host.dispatch)
  /-- Each parenthesis is called once, in the order in which they are closed, up to the first
  that fails. -/
  visits (host : Host) : (host.expand (Text.words line)).Visits host.dispatch p.closings

/-- **Expanding an accepted line is evaluating its phrase.**  A line without a percent sign
that is accepted is the text of one well-formed phrase, and for every way to carry out
lines its words expand to what the words of the phrase come to. -/
theorem expand_eq_evaluateWords {line : Text} {tokenized : Tokenized} (clean : '%' ∉ line)
    (accepted : tokenize line = .ok tokenized) :
    ∃ p : Phrase, p.WellFormed ∧ p.text = line ∧
      (∀ q : Phrase, q.WellFormed → q.text = line → q = p) ∧ p.ExpandsFrom line := by
  obtain ⟨p, t, hp, rfl, hwords, hs, apart⟩ := exists_phrase_of_tokenize clean accepted
  have expansion : ∀ host : Host, host.expand (Text.words p.text)
      = (Text.words t).mapM (Expansion.expand host.dispatch tokenized.tokens host.bound) := by
    intro host
    rw [Host.expand, Text.unwords_words, Expansion.expandLine, accepted, ← hwords]
  have same : ∀ host : Host, p.depth < host.bound →
      host.expand (Text.words p.text) = p.evaluateWords host.dispatch := by
    intro host hb
    rw [expansion, Phrase.evaluateWords]
    exact mapM_expand_eq apart host.dispatch hs.words fun w hw =>
      Nat.lt_of_le_of_lt (Phrase.depth_le_of_mem_words hw) hb
  have below : ∀ host : Host,
      (host.expand (Text.words p.text)).Below (p.evaluateWords host.dispatch) := by
    intro host
    -- a host that goes deep enough gives what this one gives
    have enough : p.depth < max host.bound (p.depth + 1) := by omega
    rw [← same ⟨host.manual, max host.bound (p.depth + 1), host.dispatch⟩ enough, expansion,
      expansion]
    exact .mapM (fun _ => Expansion.expand_below _ _ (Nat.le_max_left _ _) _) _
  refine ⟨p, hp, rfl, fun q hq ht => hq.unique hp ht, same, below, fun host s r u hr => ?_⟩
  exact p.visits_evaluateWords host.dispatch s r u (below host s r u hr)

/-- The phrase of a line in which a quote stands beside a reference, in a parenthesis inside
another. -/
theorem expand_eq_evaluateWords_nested :
    let line := "PRINT (ADD (PRINT \"a (b\"$X) 1)".toList
    '%' ∉ line ∧ (∃ tokenized, tokenize line = .ok tokenized) ∧
      ∃ p : Phrase, p.WellFormed ∧ p.text = line ∧
        (∀ q : Phrase, q.WellFormed → q.text = line → q = p) ∧ p.ExpandsFrom line := by
  have accepted : ∃ tokenized,
      tokenize "PRINT (ADD (PRINT \"a (b\"$X) 1)".toList = .ok tokenized := ⟨_, rfl⟩
  obtain ⟨tokenized, h⟩ := accepted
  exact ⟨by decide, ⟨tokenized, h⟩, expand_eq_evaluateWords (by decide) h⟩

end Teletype
