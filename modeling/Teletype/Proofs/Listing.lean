/-
# Listings typed back

A listing shows each line of a program as its number, one space and its text.  A dispatched
line is trimmed and cut at its spaces, and a line that begins with a number stores what
stands behind the first space.  The main statement is that **the lines of a listing, typed
back in any order, rebuild the program** (`Registry.answers_listing`), as long as its texts
are such as can be typed: not empty, and not ending in a blank.
-/
import Mathlib.Data.List.Perm.Basic
import Teletype.Proofs.Entry

namespace Teletype

/-! ## Lines and their answers -/

namespace Registry

/-- Dispatch lines one after the other, and give the output and the status of each. -/
def answers (r : Registry) (bound : Nat) : List Text → Run (List (Output × Int))
  | [] => pure []
  | line :: lines => do
    let output ← r.dispatch bound line
    let status ← Run.status
    let rest ← r.answers bound lines
    pure ((output, status) :: rest)

/-- The answers to lines are the answer to the first and those to the others. -/
theorem answers_cons {r : Registry} {bound : Nat} {line : Text} {s t : Terminal} {output : Output}
    (h : r.dispatch bound line s = some (output, t)) (lines : List Text) :
    r.answers bound (line :: lines) s
      = (r.answers bound lines t).map fun a => ((output, t.session.status) :: a.1, a.2) := by
  have status : Run.status t = some (t.session.status, t) := rfl
  rw [answers, Run.bind_of_some h, Run.bind_of_some status]
  show (r.answers bound lines t).bind _ = _
  cases r.answers bound lines t <;> rfl

end Registry

/-! ## Texts that can be typed -/

namespace Program

/-- Every line has a text, and the text does not end in a blank. -/
def Tidy (p : Program) : Prop := ∀ n text, p.line? n = some text → text ≠ [] ∧ text.EndsFull

variable {p : Program} {n : LineNumber} {text : Text}

/-- A program without lines is tidy. -/
theorem Tidy.empty : Tidy .empty := by
  intro n text h
  cases h

/-- A line may be stored or removed. -/
theorem Tidy.setLine (h : p.Tidy) (n : LineNumber) (full : text.EndsFull) :
    (p.setLine n text).Tidy := by
  intro m other hm
  rw [line?_setLine] at hm
  by_cases same : m = n
  · rw [if_pos same] at hm
    split at hm
    · cases hm
    · next nonempty =>
      cases hm
      exact ⟨nonempty, full⟩
  · rw [if_neg same] at hm
    exact h m other hm

/-- A line may be deleted. -/
theorem Tidy.erase (h : p.Tidy) (n : LineNumber) : Tidy (p.erase n) := by
  intro m other hm
  rw [line?, Table.get?_erase] at hm
  exact h m other (Option.ite_none_left_eq_some.mp hm).2

/-- A line may be moved. -/
theorem Tidy.moveLine? {q : Program} {source target : LineNumber} (h : p.Tidy)
    (moved : p.moveLine? source target = some (text, q)) : q.Tidy := by
  intro m other hm
  rw [line?_moveLine? moved] at hm
  by_cases ht : m = target
  · rw [if_pos ht] at hm
    cases hm
    obtain ⟨line, found, same⟩ := Option.map_eq_some_iff.mp moved
    cases same
    exact h source _ found
  · rw [if_neg ht] at hm
    exact h m other (Option.ite_none_left_eq_some.mp hm).2

/-- The lines that are listed are tidy. -/
theorem Tidy.of_mem_entries (h : p.Tidy) {e : LineNumber × Text} (he : e ∈ p.entries) :
    e.2 ≠ [] ∧ e.2.EndsFull :=
  h e.1 e.2 ((p.mem_entries_iff e.1 e.2).mp he)

/-- **Lines put in one after the other make up their program in any order.** -/
theorem foldl_insert_of_perm {entries : List (LineNumber × Text)} (order : entries.Perm p.entries) :
    entries.foldl (fun q e => q.insert e.1 e.2) .empty = p := by
  have same : ∀ x ∈ p.entries, ∀ y ∈ p.entries, ∀ q : Program,
      (q.insert x.1 x.2).insert y.1 y.2 = (q.insert y.1 y.2).insert x.1 x.2 := by
    intro x hx y hy q
    by_cases number : x.1 = y.1
    · -- one number has one text
      have texts : some x.2 = some y.2 := by
        rw [← (p.mem_entries_iff x.1 x.2).mp hx, ← (p.mem_entries_iff y.1 y.2).mp hy, number]
      have entry : x = y := Prod.ext number (Option.some.inj texts)
      rw [entry]
    · refine Table.ext_get? fun m => ?_
      simp only [Table.get?_insert, Std.LawfulEqOrd.compare_eq_iff_eq]
      by_cases hx : m = x.1
      · have other : m ≠ y.1 := hx ▸ number
        simp [hx, number]
      · simp [hx]
  rw [order.foldl_eq' fun x hx y hy q => same x (order.mem_iff.mp hx) y (order.mem_iff.mp hy) q]
  exact Table.ofList_entries p

end Program

namespace Registry

variable {bound : Nat} {s : Terminal}

/-- Listed lines are stored one after the other. -/
theorem answers_entries (bound : Nat) {entries : List (LineNumber × Text)} {s : Terminal}
    (free : s.session.aliases = .empty) (tidy : ∀ e ∈ entries, e.2 ≠ [] ∧ e.2.EndsFull) :
    ∃ u, builtin.answers (bound + 1) (entries.map Program.entryText) s
        = some (entries.map fun e => (.text e.2, 0), u) ∧
      u.session.program
        = entries.foldl (fun q e => q.insert e.1 e.2) s.session.program := by
  induction entries generalizing s with
  | nil => exact ⟨s, rfl, rfl⟩
  | cons e entries ih =>
    rw [List.forall_mem_cons] at tidy
    obtain ⟨⟨nonempty, full⟩, rest⟩ := tidy
    have line : entryLine e.1.text e.2 = Program.entryText e := if_neg nonempty
    have unnamed : s.session.aliases.get? e.1.text = none := by
      rw [free]
      rfl
    obtain ⟨t, stored, aliases, status, program⟩ : ∃ t,
        builtin.dispatch (bound + 1) (Program.entryText e) s = some (.text e.2, t) ∧
        t.session.aliases = .empty ∧ t.session.status = 0 ∧
        t.session.program = s.session.program.insert e.1 e.2 := by
      rw [← line]
      exact ⟨_, dispatch_entryLine (Decimal.toWord?_text e.1) full unnamed, free, rfl,
        if_neg nonempty⟩
    obtain ⟨u, dispatched, programs⟩ := ih aliases rest
    refine ⟨u, ?_, ?_⟩
    · rw [List.map_cons, answers_cons stored, dispatched, status]
      rfl
    · rw [programs, program]
      rfl

/-- **The lines of a listing, typed back into a terminal that was just set up, rebuild the
program**: dispatched one after the other, in any order, they end with status zero, and the
program is then the one that was listed.  Its texts may hold anything else: more spaces,
marks of spans, line feeds. -/
theorem answers_listing (bound : Nat) (settings : Settings) (console : Console) (store : Store)
    (dice : Dice) {p : Program} (tidy : p.Tidy) {lines : List Text}
    (order : lines.Perm p.listing) :
    ∃ answers u, builtin.answers (bound + 1) lines (.ofSettings settings console store dice)
        = some (answers, u) ∧
      answers.length = lines.length ∧ (∀ a ∈ answers, a.2 = 0) ∧ u.session.program = p := by
  -- the lines are those of some order of the entries
  obtain ⟨entries, rfl, same⟩ :=
    (congrFun₂ (List.eq_map_comp_perm Program.entryText) lines p.entries).mpr order
  obtain ⟨u, dispatched, program⟩ := answers_entries bound
    (s := .ofSettings settings console store dice) rfl
    (fun e he => tidy.of_mem_entries (same.mem_iff.mp he))
  refine ⟨_, u, dispatched, ?_, ?_, ?_⟩
  · rw [List.length_map, List.length_map]
  · intro a ha
    obtain ⟨e, -, rfl⟩ := List.mem_map.mp ha
    rfl
  · rw [program]
    exact Program.foldl_insert_of_perm same

/-- Two lines with spaces, marks of spans and a line feed in them, the last line first. -/
theorem answers_listing_backwards :
    let p := (Program.setLine .empty 10 "  PRINT  \"a )".toList).setLine 18446744073709551615
      "$x\n10 y".toList
    let lines := ["18446744073709551615 $x\n10 y".toList, "10   PRINT  \"a )".toList]
    p.Tidy ∧ lines.Perm p.listing ∧
      ∃ answers u, builtin.answers 1 lines
          (.ofSettings {} (.recorder { grid := ⟨60, 25⟩ }) (.memory .empty) ⟨0⟩)
          = some (answers, u) ∧
        answers.length = lines.length ∧ (∀ a ∈ answers, a.2 = 0) ∧ u.session.program = p := by
  intro p lines
  have tidy : p.Tidy := (Program.Tidy.empty.setLine 10 (.concat "  PRINT  \"a ".toList rfl)).setLine
    18446744073709551615 (.concat "$x\n10 ".toList rfl)
  have listed : p.listing.reverse = lines := by decide +kernel
  have order : lines.Perm p.listing := listed ▸ List.reverse_perm _
  exact ⟨tidy, order, answers_listing 0 _ _ _ _ tidy order⟩

end Registry

end Teletype
