/-
# Entering the name of an alias

The command that saves the program takes any word for a name, whatever its word came to; a line
is run as an alias by its first word alone.  The main statement is that **a program that was
saved runs when its name is entered, just as the command that runs the stored program runs it,
if the name is one word; any other name does not name the alias when it is entered**
(`Registry.dispatch_saved`), so that such a program cannot be run by its name
(`Registry.dispatch_saved_spaced`).
-/
import Teletype.Proofs.Address
import Teletype.Proofs.Oblivious
import Teletype.Proofs.Scopes

namespace Teletype

/-! ## Names that can be entered -/

namespace Text

/-- No space stands in the first word of a line. -/
theorem space_notMem_firstWord (line : Text) : ' ' ∉ firstWord line := by
  obtain ⟨first, rest, cut⟩ := List.exists_cons_of_ne_nil (cut_ne_nil ' ' line)
  have mem : firstWord line ∈ Text.cut ' ' line := by
    rw [firstWord, words, cut]
    exact List.mem_cons_self
  exact not_mem_of_mem_cut mem

/-- A part of a text with the capitals of the whole is the whole. -/
theorem eq_of_infix_of_upper {v w : Text} (part : v <:+: w) (same : upper v = upper w) : v = w := by
  obtain ⟨front, back, rfl⟩ := part
  have lengths : (upper front).length + (upper v).length + (upper back).length
      = (upper v).length := by
    rw [← List.length_append, ← List.length_append, ← upper_append, ← upper_append, ← same]
  have front_nil : front = [] := by
    by_contra nonempty
    have := List.length_pos_iff.mpr (upper_ne_nil nonempty)
    omega
  have back_nil : back = [] := by
    by_contra nonempty
    have := List.length_pos_iff.mpr (upper_ne_nil nonempty)
    omega
  rw [front_nil, back_nil, List.nil_append, List.append_nil]

/-- A text that is one word when it is entered as a line. -/
structure Enterable (w : Text) : Prop where
  /-- It has characters. -/
  nonempty : w ≠ []
  /-- It neither begins nor ends in a blank. -/
  trimmed : strip w = w
  /-- No space stands in it. -/
  space : ' ' ∉ w

/-- A text that is one word is the first word of its line. -/
theorem Enterable.firstWord {w : Text} (h : w.Enterable) : Text.firstWord w = w := by
  rw [Text.firstWord, words, cut_of_not_mem h.space]
  rfl

/-- **A line whose first word has the capitals of the whole is one word.** -/
theorem Enterable.of_upper {w : Text} (nonempty : strip w ≠ [])
    (same : upper (Text.firstWord (strip w)) = upper w) : w.Enterable := by
  have part : Text.firstWord (strip w) <:+: strip w := (isPrefix_firstWord _).isInfix
  have whole : Text.firstWord (strip w) = w :=
    eq_of_infix_of_upper (part.trans (isInfix_strip w)) same
  have longer : w.length ≤ (strip w).length := by
    have shorter := part.length_le
    rwa [whole] at shorter
  have trimmed : strip w = w := (isInfix_strip w).eq_of_length_le longer
  refine ⟨trimmed ▸ nonempty, trimmed, ?_⟩
  have single := space_notMem_firstWord (strip w)
  rwa [whole] at single

end Text

/-! ## Saving -/

namespace Command

variable {host : Host} {words : List Text} {output : Output} {s u : Terminal}

/-- What the command that saves has done when it ends in no fault. -/
theorem save_perform (idle : s.session.executing = false)
    (h : (save.perform host words).run s = some (.ok output, u)) :
    ∃ word name t, (host.expand words).run s = some (.ok [word, name], t) ∧
      host.manual.page? (Text.upper name) = none ∧
      u = (t.update fun s => { s with
        aliases := s.aliases.insert (Text.upper name) s.program }).save := by
  have h : (host.expand words >>= _).run s = some (.ok output, u) :=
    (Act.run_ensureIdle_of_idle idle _).symm.trans h
  rcases Act.bind_eq_some.mp h with ⟨e, -, fault⟩ | ⟨expanded, t, ht, h⟩
  · cases fault
  · split at h
    · next word name =>
      dsimp only at h
      split at h
      · cases h
      · next unnamed =>
        cases h
        exact ⟨word, name, t, ht, Option.not_isSome_iff_eq_none.mp unnamed, rfl⟩
    · cases h

end Command

/-! ## Entering the name -/

namespace Registry

variable {bound : Nat} {line w : Text} {output : Output} {s u : Terminal} {p : Program}

/-- What comes of a program when a line runs it, apart from what was done before and from the
line. -/
def ranAs (bound : Nat) (p : Program) (s : Terminal) : Option (Output × Terminal) :=
  (Run.settle ((builtin.host bound).runAndSave p)
    ({ s with trace := [] }.update fun t => { t with status := 0 })).map leave

/-- A line that runs a program runs it over what was done before and the entering of the
line. -/
theorem settle_runAndSave (bound : Nat) (p : Program) (s : Terminal) (line : Text) :
    (Run.settle ((builtin.host bound).runAndSave p) (entered s line)).map leave
      = (ranAs bound p s).map fun r => (r.1, r.2.atop (.entered line :: s.trace)) := by
  have blind : Run.Oblivious (Run.settle ((builtin.host bound).runAndSave p)) :=
    .settle (Host.oblivious_runAndSave (oblivious_dispatch bound) p)
  have apart : entered s line
      = ({ s with trace := [] }.update fun t => { t with status := 0 }).atop
          (.entered line :: s.trace) := rfl
  rw [apart, blind, ranAs, Option.map_map, Option.map_map]
  rfl

/-- The command that runs the stored program runs it when no program runs. -/
theorem dispatch_run (idle : s.session.executing = false) :
    builtin.dispatch (bound + 1) "RUN".toList s
      = (ranAs bound s.session.program s).map fun r =>
          (r.1, r.2.atop (.entered "RUN".toList :: s.trace)) := by
  have trimmed : Text.strip "RUN".toList = "RUN".toList := by decide
  have named : Builtin.ofLine? (Text.strip "RUN".toList) = some .run := by decide
  have began : (entered s "RUN".toList).session.executing = false := idle
  have runs : (Command.run.perform (builtin.host bound) (Text.words "RUN".toList)).run
      (entered s "RUN".toList)
        = ((builtin.host bound).runAndSave s.session.program).run (entered s "RUN".toList) :=
    (Act.run_ensureIdle_of_idle began _).trans (Act.run_session_bind _)
  rw [dispatch_command named, trimmed, ← settle_runAndSave]
  exact congrArg _ (Run.settle_congr runs)

/-- A word that is the name of an alias and of no command runs the program of the alias. -/
theorem dispatch_name (hw : w.Enterable) (free : Builtin.named? (Text.upper w) = none)
    (hp : s.session.aliases.get? (Text.upper w) = some p) :
    builtin.dispatch (bound + 1) w s
      = (ranAs bound p s).map fun r => (r.1, r.2.atop (.entered w :: s.trace)) := by
  have first : Text.firstWord (Text.strip w) = w := by rw [hw.trimmed, hw.firstWord]
  have unnamed : Builtin.ofLine? (Text.strip w) = none := by rw [Builtin.ofLine?, first, free]
  have nonempty : Text.strip w ≠ [] := hw.trimmed.symm ▸ hw.nonempty
  rw [dispatch_alias unnamed nonempty (by rw [first, hp]), hw.trimmed, settle_runAndSave]

/-- Two lines do the same: they give the same and leave the same terminal, which did the same
behind the entering of the one line or the other. -/
def DoSame (bound : Nat) (line line' : Text) (s : Terminal) : Prop :=
  ∃ result : Option (Output × Terminal),
    builtin.dispatch bound line s
        = result.map (fun r => (r.1, r.2.atop (.entered line :: s.trace))) ∧
      builtin.dispatch bound line' s
        = result.map fun r => (r.1, r.2.atop (.entered line' :: s.trace))

/-- **A program that was saved runs when its name is entered, if the name is one word.**  An idle
terminal saves its program by a line that succeeds, whatever the words of the line say; then the
words came to the word of the command and a name, and the program is under the name in capitals.
Behind the line a word with these capitals that can be entered does the same as the command that
runs the stored program, which is the program that was saved.  A name that cannot be entered, as
it is empty, begins or ends in a blank or has a space in it, does not name the alias when it is
entered. -/
theorem dispatch_saved (hb : Builtin.ofLine? (Text.strip line) = some .save)
    (idle : s.session.executing = false)
    (h : builtin.dispatch (bound + 1) line s = some (output, u))
    (succeeded : u.session.status = 0) :
    ∃ word name t,
      ((builtin.host bound).expand (Text.words (Text.strip line))).run
        (entered s (Text.strip line)) = some (.ok [word, name], t) ∧
      u.session.program = t.session.program ∧
      u.session.aliases = t.session.aliases.insert (Text.upper name) t.session.program ∧
      (∀ w, w.Enterable → Text.upper w = Text.upper name →
        ∀ deep, DoSame deep w "RUN".toList u) ∧
      (¬ name.Enterable → Text.strip name = [] ∨
        Text.upper (Text.firstWord (Text.strip name)) ≠ Text.upper name) := by
  obtain ⟨v, performed, left⟩ := perform_of_status hb h succeeded
  have began : (entered s (Text.strip line)).session.executing = false := idle
  obtain ⟨word, name, t, expanded, unnamed, saved⟩ := Command.save_perform began performed
  have program : u.session.program = t.session.program := by
    rw [left, saved]
    rfl
  have aliases : u.session.aliases
      = t.session.aliases.insert (Text.upper name) t.session.program := by
    rw [left, saved]
    rfl
  refine ⟨word, name, t, expanded, program, aliases, fun w hw same deep => ?_, fun spaced => ?_⟩
  · have found : u.session.aliases.get? (Text.upper w) = some u.session.program := by
      rw [same, aliases, program, Table.get?_insert_self]
    have free : Builtin.named? (Text.upper w) = none := by
      rw [same]
      exact page?_eq_none_iff.mp unnamed
    have still : u.session.executing = false :=
      (scoping_hosts (bound + 1) line s output u h).executing.trans idle
    cases deep with
    | zero => exact ⟨none, rfl, rfl⟩
    | succ deep => exact ⟨_, dispatch_name hw free found, dispatch_run still⟩
  · by_contra names
    rw [not_or, not_not] at names
    exact spaced (.of_upper names.1 names.2)

/-- A program is saved under a name that another line gives, and its name is entered in another
case. -/
theorem dispatch_saved_computed :
    let console := Console.recorder { grid := ⟨60, 25⟩ }
    let start := Terminal.ofSettings {} console (.memory .empty) ⟨0⟩
    ∃ s u, builtin.Carries start ["10 PRINT A".toList] s ∧ s.session.executing = false ∧
      builtin.dispatch 4 "SAVE (PRINT go)".toList s = some (.none, u) ∧ u.session.status = 0 ∧
      ∀ deep, DoSame deep "Go".toList "RUN".toList u := by
  intro console start
  have ran : (builtin.dispatch 1 "10 PRINT A".toList start).any (fun r =>
      (builtin.dispatch 4 "SAVE (PRINT go)".toList r.2).any fun q =>
        decide (r.2.session.executing = false) && decide (q.1 = .none)
          && decide (q.2.session.status = 0)
          && decide (q.2.session.aliases.keys = ["GO".toList])) = true := by
    decide +kernel
  obtain ⟨⟨output, s⟩, first, checked⟩ := (Option.any_eq_true _ _).mp ran
  obtain ⟨⟨output', u⟩, second, checked⟩ := (Option.any_eq_true _ _).mp checked
  simp only [Bool.and_eq_true, decide_eq_true_eq] at checked
  obtain ⟨⟨⟨idle, rfl⟩, succeeded⟩, keys⟩ := checked
  have saves : Builtin.ofLine? (Text.strip "SAVE (PRINT go)".toList) = some .save := by
    decide +kernel
  obtain ⟨word, name, t, -, -, aliases, runs, -⟩ := dispatch_saved saves idle second succeeded
  -- the one alias there is has the name
  have mem : Text.upper name ∈ u.session.aliases.keys := by
    rw [aliases, Table.mem_keys_iff, Table.get?_insert_self]
    exact ⟨_, rfl⟩
  rw [keys, List.mem_singleton] at mem
  have one : Text.Enterable "Go".toList := ⟨by decide, by decide +kernel, by decide⟩
  have same : Text.upper "Go".toList = Text.upper name := by
    rw [mem]
    decide +kernel
  exact ⟨s, u, .cons first (.nil s), idle, second, succeeded, runs _ one same⟩

/-- **A program that was saved under two words does not run when they are entered.**  Saving it
succeeds, and the command that runs the stored program runs it; but the line names no command. -/
theorem dispatch_saved_spaced :
    let console := Console.recorder { grid := ⟨60, 25⟩ }
    let start := Terminal.ofSettings {} console (.memory .empty) ⟨0⟩
    ∃ s t u v, builtin.Carries start ["10 PRINT A".toList] s ∧ s.session.executing = false ∧
      builtin.dispatch 4 "SAVE \"a b\"".toList s = some (.none, t) ∧ t.session.status = 0 ∧
      t.session.aliases.get? "A B".toList = some t.session.program ∧
      builtin.dispatch 4 "a b".toList t = some (.text (Command.unknownCommand "a".toList), u) ∧
      u.session.status = 1 ∧
      builtin.dispatch 4 "RUN".toList t = some (.none, v) ∧ v.session.status = 0 := by
  intro console start
  have ran : (builtin.dispatch 1 "10 PRINT A".toList start).any (fun r =>
      (builtin.dispatch 4 "SAVE \"a b\"".toList r.2).any fun q =>
        (builtin.dispatch 4 "a b".toList q.2).any fun x =>
          (builtin.dispatch 4 "RUN".toList q.2).any fun y =>
            decide (r.2.session.executing = false) && decide (q.1 = .none)
              && decide (q.2.session.status = 0)
              && decide (q.2.session.aliases.get? "A B".toList = some q.2.session.program)
              && decide (x.1 = .text (Command.unknownCommand "a".toList))
              && decide (x.2.session.status = 1) && decide (y.1 = .none)
              && decide (y.2.session.status = 0)) = true := by
    decide +kernel
  obtain ⟨⟨output, s⟩, first, checked⟩ := (Option.any_eq_true _ _).mp ran
  obtain ⟨⟨output, t⟩, second, checked⟩ := (Option.any_eq_true _ _).mp checked
  obtain ⟨⟨output, u⟩, third, checked⟩ := (Option.any_eq_true _ _).mp checked
  obtain ⟨⟨output, v⟩, fourth, checked⟩ := (Option.any_eq_true _ _).mp checked
  simp only [Bool.and_eq_true, decide_eq_true_eq] at checked
  obtain ⟨⟨⟨⟨⟨⟨⟨idle, rfl⟩, succeeded⟩, stored⟩, rfl⟩, refused⟩, rfl⟩, ended⟩ := checked
  exact ⟨s, t, u, v, .cons first (.nil s), idle, second, succeeded, stored, third, refused, fourth,
    ended⟩

end Registry

end Teletype
