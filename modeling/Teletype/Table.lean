/-
# Tables

A table is a finite map whose entries are listed in ascending order of their keys, so two
tables with the same entries are equal and every listing of a table is sorted.  The main
statements say what `insert` and `erase` do to a lookup, and that a table is determined
by its lookups.
-/

namespace Teletype

/-- A finite map, held as the list of its entries in ascending order of the keys. -/
structure Table (κ ν : Type) [Ord κ] where
  /-- The entries, each key once. -/
  entries : List (κ × ν)
  /-- The keys ascend. -/
  ascending : entries.Pairwise fun a b => compare a.1 b.1 = .lt

namespace Table

variable {κ ν : Type} [Ord κ]

/-- Tables with the same entries are equal. -/
@[ext] theorem ext_entries {a b : Table κ ν} (h : a.entries = b.entries) : a = b := by
  cases a
  cases b
  cases h
  rfl

instance [DecidableEq κ] [DecidableEq ν] : DecidableEq (Table κ ν) := fun a b =>
  decidable_of_iff (a.entries = b.entries) ⟨ext_entries, fun h => h ▸ rfl⟩

/-! ## Building and reading -/

/-- The table without entries. -/
def empty : Table κ ν := ⟨[], .nil⟩

instance : Inhabited (Table κ ν) := ⟨empty⟩

/-- The value of a key in a list of entries. -/
def lookupEntry (k : κ) : List (κ × ν) → Option ν
  | [] => none
  | e :: rest => if compare k e.1 = .eq then some e.2 else lookupEntry k rest

/-- The value of a key. -/
def get? (t : Table κ ν) (k : κ) : Option ν := lookupEntry k t.entries

/-- The key has a value. -/
def contains (t : Table κ ν) (k : κ) : Bool := (t.get? k).isSome

/-- The keys in ascending order. -/
def keys (t : Table κ ν) : List κ := t.entries.map Prod.fst

/-- The number of entries. -/
def size (t : Table κ ν) : Nat := t.entries.length

/-- The table has no entries. -/
def isEmpty (t : Table κ ν) : Bool := t.entries.isEmpty

/-- The entries with an entry put in its place, over an entry with the same key. -/
def insertEntry (k : κ) (v : ν) : List (κ × ν) → List (κ × ν)
  | [] => [(k, v)]
  | e :: rest =>
    match compare k e.1 with
    | .lt => (k, v) :: e :: rest
    | .eq => (k, v) :: rest
    | .gt => e :: insertEntry k v rest

/-- A bound on the keys still holds after an entry within the bound is put in. -/
theorem forall_insertEntry {p : κ → Prop} {k : κ} {v : ν} {l : List (κ × ν)} (hk : p k)
    (hl : ∀ e ∈ l, p e.1) : ∀ e ∈ insertEntry k v l, p e.1 := by
  induction l with
  | nil => simpa [insertEntry] using hk
  | cons e rest ih =>
    have he := hl e List.mem_cons_self
    have hrest := fun x hx => hl x (List.mem_cons_of_mem _ hx)
    unfold insertEntry
    split <;> intro x hx <;> rcases List.mem_cons.mp hx with rfl | hx
    · exact hk
    · exact hl x hx
    · exact hk
    · exact hrest x hx
    · exact he
    · exact ih hrest x hx

/-- Putting an entry in its place keeps the keys ascending. -/
theorem ascending_insertEntry [Std.TransOrd κ] {k : κ} {v : ν} {l : List (κ × ν)}
    (h : l.Pairwise fun a b => compare a.1 b.1 = .lt) :
    (insertEntry k v l).Pairwise fun a b => compare a.1 b.1 = .lt := by
  induction l with
  | nil => simp [insertEntry]
  | cons e rest ih =>
    obtain ⟨he, hrest⟩ := List.pairwise_cons.mp h
    unfold insertEntry
    split
    · next hlt =>
      refine List.pairwise_cons.mpr ⟨fun x hx => ?_, h⟩
      rcases List.mem_cons.mp hx with rfl | hx
      · exact hlt
      · exact Std.TransCmp.lt_trans hlt (he x hx)
    · next heq =>
      exact List.pairwise_cons.mpr
        ⟨fun x hx => Std.TransCmp.lt_of_eq_of_lt heq (he x hx), hrest⟩
    · next hgt =>
      refine List.pairwise_cons.mpr ⟨?_, ih hrest⟩
      exact forall_insertEntry (p := fun x => compare e.1 x = .lt)
        (Std.OrientedCmp.lt_of_gt hgt) he

/-- Give a key a value, in place of one that it had. -/
def insert [Std.TransOrd κ] (t : Table κ ν) (k : κ) (v : ν) : Table κ ν :=
  ⟨insertEntry k v t.entries, ascending_insertEntry t.ascending⟩

/-- Take a key and its value away. -/
def erase (t : Table κ ν) (k : κ) : Table κ ν :=
  ⟨t.entries.filter fun e => compare k e.1 != .eq, t.ascending.filter _⟩

/-- The table that holds the last value listed for each key. -/
def ofList [Std.TransOrd κ] (l : List (κ × ν)) : Table κ ν :=
  l.foldl (fun t e => t.insert e.1 e.2) empty

/-- The table with every value changed by a function. -/
def mapValues {μ : Type} (f : ν → μ) (t : Table κ ν) : Table κ μ :=
  ⟨t.entries.map fun e => (e.1, f e.2), by
    rw [List.pairwise_map]
    exact t.ascending⟩

/-- The entries whose keys are not below a bound, in ascending order. -/
def entriesFrom (t : Table κ ν) (k : κ) : List (κ × ν) :=
  t.entries.filter fun e => compare e.1 k != .lt

/-- The entry with the least key that is not below a bound. -/
def firstFrom? (t : Table κ ν) (k : κ) : Option (κ × ν) := (t.entriesFrom k).head?

/-! ## Lookups -/

/-- The empty table has no values. -/
@[simp] theorem get?_empty (k : κ) : (empty : Table κ ν).get? k = none := rfl

/-- A lookup after an insertion in a list of entries. -/
theorem lookupEntry_insertEntry [Std.TransOrd κ] {k x : κ} {v : ν} {l : List (κ × ν)} :
    lookupEntry x (insertEntry k v l)
      = if compare x k = .eq then some v else lookupEntry x l := by
  induction l with
  | nil => rfl
  | cons e rest ih =>
    unfold insertEntry
    split
    · rfl
    · next heq =>
      simp only [lookupEntry]
      by_cases hx : compare x k = .eq
      · simp [hx]
      · have : ¬ compare x e.1 = .eq := fun h =>
          hx (Std.TransCmp.eq_trans h (Std.OrientedCmp.eq_comm.mp heq))
        simp [hx, this]
    · next hgt =>
      simp only [lookupEntry, ih]
      by_cases hx : compare x e.1 = .eq
      · have : ¬ compare x k = .eq := fun h => by
          have := Std.TransCmp.eq_trans (Std.OrientedCmp.eq_comm.mp h) hx
          rw [hgt] at this
          cases this
        simp [hx, this]
      · simp [hx]

/-- **After an insertion the key has the new value and every other key its old one.** -/
theorem get?_insert [Std.TransOrd κ] (t : Table κ ν) (k x : κ) (v : ν) :
    (t.insert k v).get? x = if compare x k = .eq then some v else t.get? x :=
  lookupEntry_insertEntry

/-- A key has the value that it was given. -/
@[simp] theorem get?_insert_self [Std.TransOrd κ] (t : Table κ ν) (k : κ) (v : ν) :
    (t.insert k v).get? k = some v := by
  simp [get?_insert]

/-- A lookup in a list of entries without the entries of one key. -/
theorem lookupEntry_filter [Std.TransOrd κ] {k x : κ} {l : List (κ × ν)} :
    lookupEntry x (l.filter fun e => compare k e.1 != .eq)
      = if compare x k = .eq then none else lookupEntry x l := by
  induction l with
  | nil => simp [lookupEntry]
  | cons e rest ih =>
    by_cases hk : compare k e.1 = .eq
    · rw [List.filter_cons_of_neg (by simp [hk]), ih]
      by_cases hx : compare x k = .eq
      · simp [hx]
      · have : ¬ compare x e.1 = .eq := fun h =>
          hx (Std.TransCmp.eq_trans h (Std.OrientedCmp.eq_comm.mp hk))
        simp [hx, lookupEntry, this]
    · rw [List.filter_cons_of_pos (by simpa using hk)]
      simp only [lookupEntry, ih]
      by_cases hx : compare x k = .eq
      · have : ¬ compare x e.1 = .eq := fun h =>
          hk (Std.TransCmp.eq_trans (Std.OrientedCmp.eq_comm.mp hx) h)
        simp [hx, this]
      · simp [hx]

/-- **After an erasure the key has no value and every other key its old one.** -/
theorem get?_erase [Std.TransOrd κ] (t : Table κ ν) (k x : κ) :
    (t.erase k).get? x = if compare x k = .eq then none else t.get? x :=
  lookupEntry_filter

/-- An erased key has no value. -/
@[simp] theorem get?_erase_self [Std.TransOrd κ] (t : Table κ ν) (k : κ) :
    (t.erase k).get? k = none := by
  simp [get?_erase]

/-- An entry of an ascending list is found under its key. -/
theorem lookupEntry_eq_some_iff [Std.TransOrd κ] [Std.LawfulEqOrd κ] {k : κ} {v : ν}
    {l : List (κ × ν)} (h : l.Pairwise fun a b => compare a.1 b.1 = .lt) :
    lookupEntry k l = some v ↔ (k, v) ∈ l := by
  induction l with
  | nil => simp [lookupEntry]
  | cons e rest ih =>
    obtain ⟨he, hrest⟩ := List.pairwise_cons.mp h
    simp only [lookupEntry, List.mem_cons]
    by_cases hk : compare k e.1 = .eq
    · have hke := Std.LawfulEqOrd.eq_of_compare hk
      simp only [hk, if_true, Option.some.injEq]
      constructor
      · intro hv
        exact .inl (by rw [hke, ← hv])
      · rintro (heq | hmem)
        · rw [← heq]
        · have := he _ hmem
          rw [hke] at this
          simp at this
    · simp only [hk, if_false, ih hrest]
      constructor
      · exact .inr
      · rintro (heq | hmem)
        · rw [← heq] at hk
          simp at hk
        · exact hmem

/-- **The entries of a table are what its lookups find.** -/
theorem mem_entries_iff [Std.TransOrd κ] [Std.LawfulEqOrd κ] (t : Table κ ν) (k : κ) (v : ν) :
    (k, v) ∈ t.entries ↔ t.get? k = some v :=
  (lookupEntry_eq_some_iff t.ascending).symm

/-- **A table is determined by its lookups.** -/
theorem ext_get? [Std.TransOrd κ] [Std.LawfulEqOrd κ] {a b : Table κ ν}
    (h : ∀ k, a.get? k = b.get? k) : a = b := by
  have nodup : ∀ t : Table κ ν, t.entries.Nodup := fun t =>
    t.ascending.imp fun hxy he => by
      rw [he] at hxy
      simp at hxy
  refine ext_entries (List.Perm.eq_of_pairwise (fun x y _ _ hxy hyx => ?_)
    a.ascending b.ascending ?_)
  · rw [Std.OrientedCmp.gt_of_lt hxy] at hyx
    cases hyx
  · refine (List.perm_ext_iff_of_nodup (nodup a) (nodup b)).mpr fun e => ?_
    rw [mem_entries_iff, mem_entries_iff, h]

/-- A key that is below all keys of a list has no value there. -/
theorem lookupEntry_eq_none [Std.TransOrd κ] {k x : κ} {l : List (κ × ν)}
    (h : ∀ e ∈ l, compare k e.1 = .lt) (hx : compare x k = .eq) : lookupEntry x l = none := by
  induction l with
  | nil => rfl
  | cons e rest ih =>
    have below : compare x e.1 = .lt := Std.TransCmp.lt_of_eq_of_lt hx (h e List.mem_cons_self)
    have differs : ¬ compare x e.1 = .eq := by simp [below]
    rw [lookupEntry, if_neg differs]
    exact ih fun y hy => h y (List.mem_cons_of_mem _ hy)

/-- A lookup after the entries of an ascending list are put in. -/
theorem get?_foldl_insert [Std.TransOrd κ] {l : List (κ × ν)}
    (h : l.Pairwise fun a b => compare a.1 b.1 = .lt) (t : Table κ ν) (x : κ) :
    (l.foldl (fun t e => t.insert e.1 e.2) t).get? x = (lookupEntry x l).or (t.get? x) := by
  induction l generalizing t with
  | nil => rfl
  | cons e rest ih =>
    obtain ⟨he, hrest⟩ := List.pairwise_cons.mp h
    rw [List.foldl_cons, ih hrest, get?_insert, lookupEntry]
    by_cases hx : compare x e.1 = .eq
    · simp [hx, lookupEntry_eq_none he hx]
    · simp [hx]

/-- A lookup after entries are put in one after the other finds the last one under the key. -/
theorem get?_foldl_insert_last [Std.TransOrd κ] [Std.LawfulEqOrd κ] [DecidableEq κ]
    (l : List (κ × ν)) (t : Table κ ν) (k : κ) :
    (l.foldl (fun t e => t.insert e.1 e.2) t).get? k
      = ((l.reverse.find? fun e => e.1 = k).map Prod.snd).or (t.get? k) := by
  induction l generalizing t with
  | nil => rfl
  | cons e rest ih =>
    rw [List.foldl_cons, ih, get?_insert, List.reverse_cons, List.find?_append, List.find?_singleton]
    by_cases hk : e.1 = k
    · cases hf : rest.reverse.find? fun e => e.1 = k with
      | none => simp [hk]
      | some f => simp
    · have other : k ≠ e.1 := fun h => hk h.symm
      simp [hk, other]

/-- **In the table of listed entries a key has the value that is listed last for it.** -/
theorem get?_ofList [Std.TransOrd κ] [Std.LawfulEqOrd κ] [DecidableEq κ] (l : List (κ × ν))
    (k : κ) : (ofList l).get? k = (l.reverse.find? fun e => e.1 = k).map Prod.snd := by
  rw [ofList, get?_foldl_insert_last]
  exact Option.or_none

/-- **A table is the table of its entries.** -/
theorem ofList_entries [Std.TransOrd κ] [Std.LawfulEqOrd κ] (t : Table κ ν) :
    ofList t.entries = t := by
  refine ext_get? fun k => ?_
  rw [ofList, get?_foldl_insert t.ascending]
  exact Option.or_none

/-- A lookup in a list of entries whose values are changed. -/
theorem lookupEntry_map {μ : Type} (f : ν → μ) (k : κ) (l : List (κ × ν)) :
    lookupEntry k (l.map fun e => (e.1, f e.2)) = (lookupEntry k l).map f := by
  induction l with
  | nil => rfl
  | cons e rest ih =>
    simp only [List.map_cons, lookupEntry, ih]
    split <;> rfl

/-- Changing every value changes what a lookup finds. -/
theorem get?_mapValues {μ : Type} (f : ν → μ) (t : Table κ ν) (k : κ) :
    (t.mapValues f).get? k = (t.get? k).map f :=
  lookupEntry_map f k t.entries

/-! ## Keys -/

/-- The keys of a table are those under which a lookup finds something. -/
theorem mem_keys_iff [Std.TransOrd κ] [Std.LawfulEqOrd κ] (t : Table κ ν) (k : κ) :
    k ∈ t.keys ↔ ∃ v, t.get? k = some v := by
  simp only [← mem_entries_iff, keys, List.mem_map]
  constructor
  · rintro ⟨e, he, rfl⟩
    exact ⟨e.2, he⟩
  · rintro ⟨v, hv⟩
    exact ⟨(k, v), hv, rfl⟩

/-- The keys of the table of listed entries are those that are listed. -/
theorem mem_keys_ofList [Std.TransOrd κ] [Std.LawfulEqOrd κ] [DecidableEq κ] (l : List (κ × ν))
    (k : κ) : k ∈ (ofList l).keys ↔ k ∈ l.map Prod.fst := by
  rw [mem_keys_iff]
  simp only [get?_ofList, Option.map_eq_some_iff, List.mem_map]
  constructor
  · rintro ⟨-, e, found, -⟩
    have listed := List.mem_reverse.mp (List.mem_of_find?_eq_some found)
    have same := List.find?_some found
    exact ⟨e, listed, of_decide_eq_true same⟩
  · rintro ⟨e, listed, rfl⟩
    cases found : l.reverse.find? fun f => f.1 = e.1 with
    | some f => exact ⟨f.2, f, rfl, rfl⟩
    | none =>
      have missed := List.find?_eq_none.mp found e (List.mem_reverse.mpr listed)
      exact absurd (decide_eq_true rfl) missed

/-- A lookup after keys are put in one by one. -/
theorem get?_foldl_keys [Std.TransOrd κ] [Std.LawfulEqOrd κ] [DecidableEq κ] (l : List κ)
    (t : Table κ Unit) (x : κ) :
    ((l.map fun k => (k, ())).foldl (fun t e => t.insert e.1 e.2) t).get? x
      = if x ∈ l then some () else t.get? x := by
  induction l generalizing t with
  | nil => rfl
  | cons k rest ih =>
    rw [List.map_cons, List.foldl_cons, ih, get?_insert]
    by_cases hr : x ∈ rest
    · simp [hr]
    · simp [hr]

/-- **The keys of a table are put in order from any list of them.** -/
theorem keys_ofList [Std.TransOrd κ] [Std.LawfulEqOrd κ] [DecidableEq κ] {l : List κ}
    {t : Table κ ν} (h : ∀ k, k ∈ l ↔ k ∈ t.keys) :
    (ofList (l.map fun k => (k, ()))).keys = t.keys := by
  have same : ofList (l.map fun k => (k, ())) = t.mapValues fun _ => () := by
    refine ext_get? fun k => ?_
    rw [ofList, get?_foldl_keys, get?_empty, get?_mapValues]
    cases hk : t.get? k with
    | none =>
      refine if_neg fun mem => ?_
      obtain ⟨v, hv⟩ := (mem_keys_iff t k).mp ((h k).mp mem)
      rw [hk] at hv
      cases hv
    | some v => exact if_pos ((h k).mpr ((mem_keys_iff t k).mpr ⟨v, hk⟩))
  rw [same, keys, mapValues, List.map_map]
  rfl

end Table

end Teletype
