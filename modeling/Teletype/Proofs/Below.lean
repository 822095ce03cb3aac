/-
# Acts that give less

One act gives less than another on the terminals with a property: where it comes to an end,
the other one comes to the same end.  What is made of acts that give less gives less, as long
as the acts that are done first keep the property.  The main statement is that **a text is
expanded to the same within a larger bound, and when more is given for the lines in it**
(`Expansion.expand_belowOn`).
-/
import Teletype.Expansion

namespace Teletype

variable {P : Terminal → Prop}

/-! ## Properties that acts keep -/

/-- A terminal with a property still has it where an act gave a value. -/
def Act.Keeps {α : Type} (P : Terminal → Prop) (a : Act α) : Prop :=
  ∀ s x t, P s → a.run s = some (.ok x, t) → P t

namespace Act.Keeps

variable {α β : Type} {a : Act α} {f : α → Act β}

/-- A value without an act keeps every property. -/
theorem pure (x : α) : Keeps P (Pure.pure x : Act α) := by
  intro s y t hs hx
  cases hx
  exact hs

/-- A look at the session keeps every property. -/
theorem session : Keeps P (liftM Run.session : Act Session) := by
  intro s x t hs hx
  cases hx
  exact hs

/-- A look at the status keeps every property. -/
theorem status : Keeps P (liftM Run.status : Act Int) := by
  intro s x t hs hx
  cases hx
  exact hs

/-- A value that was found or not keeps every property. -/
theorem ofExcept (r : Except Fault α) : Keeps P (Act.ofExcept r) := by
  intro s x t hs hx
  cases hx
  exact hs

/-- One act was done after another. -/
theorem bind (h : Keeps P a) (hf : ∀ x, Keeps P (f x)) : Keeps P (a >>= f) := by
  intro s y u hs hy
  rcases Act.bind_eq_some.mp hy with ⟨e, -, he⟩ | ⟨x, t, hx, hy⟩
  · cases he
  · exact hf x t y u (h s x t hs hx) hy

/-- A value is looked up. -/
theorem lookUp (name : Text) : Keeps P (Expansion.lookUp name) := by
  refine bind session fun session => ?_
  cases session.bindings.get? name with
  | some value => exact .pure value
  | none =>
    intro s x t _ hx
    cases hx

end Act.Keeps

/-! ## Acts that give less -/

/-- What one run gives on terminals with a property, another gives as well. -/
def Run.BelowOn {α : Type} (P : Terminal → Prop) (a b : Run α) : Prop :=
  ∀ s x u, P s → a s = some (x, u) → b s = some (x, u)

/-- What one act gives on terminals with a property, another gives as well. -/
def Act.BelowOn {α : Type} (P : Terminal → Prop) (a b : Act α) : Prop := Run.BelowOn P a.run b.run

/-- Runs that give what each other give are the same. -/
theorem Run.BelowOn.antisymm {α : Type} {a b : Run α} {s : Terminal} (h : BelowOn P a b)
    (h' : BelowOn P b a) (hs : P s) : a s = b s := by
  rcases ha : a s with _ | ⟨x, u⟩
  · rcases hb : b s with _ | ⟨x, u⟩
    · rfl
    · rw [← ha, h' _ _ _ hs hb]
  · exact (h _ _ _ hs ha).symm

namespace Act.BelowOn

variable {α β : Type} {a a' : Act α} {f g : α → Act β}

/-- An act gives what it gives. -/
theorem refl (a : Act α) : BelowOn P a a := fun _ _ _ _ h => h

/-- An act that goes on for ever gives nothing. -/
theorem endless (a : Act α) : BelowOn P (ExceptT.mk Run.endless) a := by
  intro s r u _ h
  cases h

/-- A run is lifted to an act. -/
theorem lift {r r' : Run α} (h : Run.BelowOn P r r') : BelowOn P (liftM r : Act α) (liftM r') := by
  intro s x u hs hx
  obtain ⟨y, hy, rfl⟩ := Act.run_lift_eq_some.mp hx
  exact Act.run_lift_eq_some.mpr ⟨y, h _ _ _ hs hy, rfl⟩

/-- One act goes on like another from what gives less. -/
theorem bind_left (h : BelowOn P a a') (f : α → Act β) : BelowOn P (a >>= f) (a' >>= f) := by
  intro s r u hs hr
  rw [Act.bind_eq_some] at hr ⊢
  rcases hr with ⟨e, he, rfl⟩ | ⟨x, t, hx, hr⟩
  · exact .inl ⟨e, h _ _ _ hs he, rfl⟩
  · exact .inr ⟨x, t, h _ _ _ hs hx, hr⟩

/-- One act goes on from another that keeps the property. -/
theorem bind (h : BelowOn P a a') (keep : a.Keeps P) (hf : ∀ x, BelowOn P (f x) (g x)) :
    BelowOn P (a >>= f) (a' >>= g) := by
  intro s r u hs hr
  rw [Act.bind_eq_some] at hr ⊢
  rcases hr with ⟨e, he, rfl⟩ | ⟨x, t, hx, hr⟩
  · exact .inl ⟨e, h _ _ _ hs he, rfl⟩
  · exact .inr ⟨x, t, h _ _ _ hs hx, hf x _ _ _ (keep s x t hs hx) hr⟩

/-- An act goes on from itself if it keeps the property. -/
theorem next (keep : a.Keeps P) (hf : ∀ x, BelowOn P (f x) (g x)) :
    BelowOn P (a >>= f) (a >>= g) :=
  bind (refl a) keep hf

/-- What is given on more terminals is given on fewer. -/
theorem weaken {Q : Terminal → Prop} (h : BelowOn Q a a') (hp : ∀ s, P s → Q s) : BelowOn P a a' :=
  fun s x u hs hx => h s x u (hp s hs) hx

/-- An act is done on a changed session. -/
theorem within {enter : Session → Session} {leave : Session → Session → Session}
    (h : BelowOn P a a') :
    BelowOn (fun s => P (s.update enter)) (Act.within enter leave a)
      (Act.within enter leave a') := by
  intro s r u hs hr
  rw [Act.run_within, Option.map_eq_some_iff] at hr ⊢
  obtain ⟨⟨r', t⟩, ht, hru⟩ := hr
  exact ⟨(r', t), h _ _ _ hs ht, hru⟩

/-- Acts are done on the items of a list. -/
theorem mapM {f g : α → Act β} (h : ∀ x, BelowOn P (f x) (g x)) (keep : ∀ x, (f x).Keeps P)
    (l : List α) : BelowOn P (l.mapM f) (l.mapM g) := by
  induction l with
  | nil => exact refl _
  | cons x l ih =>
    rw [List.mapM_cons, List.mapM_cons]
    exact bind (h x) (keep x) fun _ => bind_left ih _

end Act.BelowOn

/-- What settles an act that gives less gives less. -/
theorem Run.settle_below {a b : Act Output} (h : a.BelowOn P b) :
    BelowOn P (settle a) (settle b) := by
  intro s x u hs hx
  obtain ⟨r, t, ht, hr⟩ := Run.bind_eq_some.mp hx
  exact Run.bind_eq_some.mpr ⟨r, t, h _ _ _ hs ht, hr⟩

/-! ## Expansion -/

namespace Expansion

/-- What is filled in for tokens. -/
theorem fill_belowOn {f g : Token → Act Text} (h : ∀ token, (f token).BelowOn P (g token))
    (keep : ∀ token, (f token).Keeps P) (pieces : List (Piece Token)) :
    (fill f pieces).BelowOn P (fill g pieces) := by
  induction pieces with
  | nil => exact .refl _
  | cons piece pieces ih =>
    cases piece with
    | plain c => exact .bind_left ih _
    | item token => exact .bind (h token) (keep token) fun _ => .bind_left ih _

/-- **A text is expanded to the same within a larger bound**, and where more is given for the
lines in it. -/
theorem expand_belowOn {dispatch dispatch' : Text → Run Output} {tokens : List Token}
    (values : ∀ line, (valueOf dispatch line).BelowOn P (valueOf dispatch' line))
    (keepValues : ∀ line, (valueOf dispatch line).Keeps P)
    (keep : ∀ bound text, (expand dispatch tokens bound text).Keeps P)
    {m n : Nat} (hmn : m ≤ n) (text : Text) :
    (expand dispatch tokens m text).BelowOn P (expand dispatch' tokens n text) := by
  induction m generalizing n text with
  | zero => exact .endless _
  | succ m ih =>
    obtain ⟨n, rfl⟩ : ∃ k, n = k + 1 := ⟨n - 1, by omega⟩
    have hmn : m ≤ n := Nat.le_of_succ_le_succ hmn
    refine fill_belowOn (fun token => ?_) (fun token => ?_) _
    · rcases token.kind with _ | _ | _
      · exact .refl _
      · exact ih hmn _
      · exact .bind (ih hmn _) (keep m _) fun line => .bind_left (values line) _
    · rcases token.kind with _ | _ | _
      · exact .lookUp _
      · exact keep m _
      · exact .bind (keep m _) fun line => .bind (keepValues line) fun _ => .pure _

end Expansion

end Teletype
