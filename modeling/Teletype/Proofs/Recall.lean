/-
# Aliases are recalled

What is saved under an alias is a copy of the stored program, kept under a name in capitals.
The main statement is that **a program that is saved under a name is recalled under this
name, whatever was done in between** (`Registry.recall_save`): lines may have edited,
cleared and run the stored program, and have failed, and the terminal may have been set up
anew over its store, as long as no line saved or deleted an alias or exported a listing.
-/
import Teletype.Proofs.Address
import Teletype.Proofs.Persistence
import Teletype.Proofs.Writes

namespace Teletype

/-! ## Names in another case -/

namespace Text

/-- A character is as blank in lower case as it is. -/
theorem isBlank_toLower (c : Char) : isBlank c.toLower = isBlank c := by
  rcases toLower_cases c with same | ⟨n, hn, rfl⟩
  · rw [same]
  · revert n
    decide +kernel

/-- What is a mark of a span in lower case is one as it is. -/
theorem eq_of_toLower_mark {c mark : Char} (hm : mark ∈ spanMarks) (h : c.toLower = mark.toLower) :
    c = mark := by
  have still : spanMarks.all (fun mark => mark.toLower == mark) = true := by decide
  rw [eq_of_beq (List.all_eq_true.mp still mark hm)] at h
  rcases toLower_cases c with same | ⟨n, hn, rfl⟩
  · rw [← same, h]
  · -- no capital has a mark for its lower case
    have letters : ∀ n < 26, (Char.ofNat (65 + n)).toLower ∉ spanMarks := by
      decide +kernel
    exact absurd (h ▸ hm) (letters n hn)

/-- **A word stands for itself in any case of its ASCII letters.** -/
theorem Literal.of_sameAscii {w w' : Text} (h : w.Literal) (same : sameAscii w' w = true) :
    w'.Literal := by
  have lower : lowerAscii w' = lowerAscii w := of_decide_eq_true same
  have twin : ∀ c ∈ w', ∃ d ∈ w, d.toLower = c.toLower := by
    intro c hc
    have mem : c.toLower ∈ lowerAscii w := lower ▸ List.mem_map_of_mem hc
    exact List.mem_map.mp mem
  constructor
  · rintro rfl
    exact h.nonempty (List.map_eq_nil_iff.mp lower.symm)
  · intro c hc
    obtain ⟨d, hd, same⟩ := twin c hc
    rw [← isBlank_toLower, ← same, isBlank_toLower]
    exact h.full d hd
  · intro mark hm mem
    obtain ⟨d, hd, same⟩ := twin mark mem
    rw [eq_of_toLower_mark hm same] at hd
    exact h.plain mark hm hd

end Text

/-- A word is a cluster of flags in any case of its ASCII letters. -/
theorem Flags.Grammar.isCluster_congr (g : Grammar) {w w' : Text}
    (h : Text.upper w' = Text.upper w) : g.isCluster w' = g.isCluster w := by
  rw [isCluster, isCluster, h]

/-! ## Saving and recalling -/

namespace Command

variable {host : Host} {s : Terminal} {word w : Text}

/-- What is done to save the program under an alias that names no command. -/
theorem run_save (hb : 0 < host.bound) (idle : s.session.executing = false)
    (h : ∀ x ∈ [word, w], x.Literal) (free : host.manual.page? (Text.upper w) = none) :
    (save.perform host [word, w]).run s
      = some (.ok .none, (s.update fun t =>
          { t with aliases := t.aliases.insert (Text.upper w) t.program }).save) := by
  show (Act.ensureIdle >>= _).run s = _
  rw [Act.run_ensureIdle_of_idle idle, Registry.expand_literal h (List.cons_ne_nil _ _) hb, pure_bind]
  dsimp only
  rw [free]
  rfl

/-- The flag to recall and a name are sorted into the flag and the name. -/
theorem parse_recall (word : Text) (flat : Flags.Grammar.standard.isCluster w = false) :
    (Flags.parse .standard {} [word, "-R".toList, w]).name = w ∧
      AliasAction.ofParsed? (Flags.parse .standard {} [word, "-R".toList, w]) = some .fetch := by
  have noAction : Flags.splitAction .standard {} ["-R".toList, w] = (none, ["-R".toList, w]) := rfl
  have sorted : Flags.items .standard {} ["-R".toList, w] = [.cluster "-R".toList, .word w] := by
    have cluster : Flags.Grammar.standard.isCluster "-R".toList = true := by decide
    have noValue : Flags.Options.takesValue {} "-R".toList = false := by decide
    rw [Flags.items, if_pos cluster, noValue, if_neg Bool.false_ne_true, Flags.items, flat,
      if_neg Bool.false_ne_true, Flags.items]
  have parsed : Flags.parse .standard {} [word, "-R".toList, w]
      = { command := Text.upper word
          action := none
          flags := Table.ofList [('R', .set)]
          name := w
          start := 2 } := by
    unfold Flags.parse
    rw [show [word, "-R".toList, w].drop 1 = ["-R".toList, w] from rfl, noAction]
    dsimp only
    rw [sorted]
    rfl
  rw [parsed]
  exact ⟨rfl, rfl⟩

/-- What is done to make the program of an alias the stored program. -/
theorem run_recall {p : Program} (hb : 0 < host.bound)
    (h : ∀ x ∈ [word, "-R".toList, w], x.Literal)
    (flat : Flags.Grammar.standard.isCluster w = false)
    (found : s.session.aliases.get? (Text.upper w) = some p) (named : Text.upper w ≠ []) :
    (aliases.perform host [word, "-R".toList, w]).run s
      = some (.ok .none, ((s.update fun t => { t with program := p }).save).printLine
          ("Alias ".toList ++ Text.upper w ++ " recalled.".toList)) := by
  obtain ⟨name, action⟩ := parse_recall word flat
  have parsed : host.parse .standard {} [word, "-R".toList, w]
      = pure (Flags.parse .standard {} [word, "-R".toList, w]) := by
    show (host.expand _ >>= _) = _
    rw [Registry.expand_literal h (List.cons_ne_nil _ _) hb, pure_bind]
  show (host.parse .standard {} [word, "-R".toList, w] >>= _).run s = _
  rw [parsed, pure_bind, Act.run_session_bind, name, action, found]
  dsimp only
  rw [if_neg named]
  rfl

end Command

/-! ## Histories -/

namespace Registry

/-- A terminal became another one by lines and restarts.  Among the lines, and those inside
them, was none that writes aliases and none that exports a listing; every restart kept the
store and its key. -/
inductive History : Terminal → Terminal → Prop
  /-- Nothing was done. -/
  | refl (s : Terminal) : History s s
  /-- A line was dispatched. -/
  | line {s t u : Terminal} {bound : Nat} {line : Text} {output : Output} {new : List Event}
      (before : History s t) (ran : builtin.dispatch bound line t = some (output, u))
      (aliases : ¬ builtin.Meets (writing .aliases) bound line t)
      (trace : u.trace = new ++ t.trace) (exports : ∀ e ∈ new, ¬ e.Exports) : History s u
  /-- The terminal was restarted. -/
  | restart {s t : Terminal} (before : History s t) {settings : Settings}
      (key : settings.storageKey = t.settings.storageKey) (console : Console) (dice : Dice) :
      History s (t.restart settings console dice)

variable {s t u : Terminal} {name : Text}

/-- A line that is no part of the excluded ones leaves the aliases, and the saved session
current. -/
theorem persists_line {bound : Nat} {line : Text} {output : Output} {new : List Event} (ht : t.Persists)
    (ran : builtin.dispatch bound line t = some (output, u))
    (aliases : ¬ builtin.Meets (writing .aliases) bound line t)
    (trace : u.trace = new ++ t.trace) (exports : ∀ e ∈ new, ¬ e.Exports) :
    u.Persists ∧ u.session.aliases = t.session.aliases := by
  constructor
  · obtain ⟨-, new', trace', keeps⟩ := persisting_hosts bound line t output u ran
    have same : new' = new := List.append_cancel_right (trace'.symm.trans trace)
    subst same
    exact keeps trivial exports ht
  · have unmet : builtin.dispatchBarring (writing .aliases) bound line t
        = builtin.dispatch bound line t := Classical.not_not.mp aliases
    have kept : (keeping .aliases).Hosts (builtin.dispatchBarring (writing .aliases) bound) :=
      keeping_hostsBarring bound
    exact kept line t output u (unmet.trans ran)

/-- **A history leaves the aliases, and the saved session current.** -/
theorem History.keeps (h : History s u) (hs : s.Persists) :
    u.Persists ∧ u.session.aliases = s.session.aliases := by
  induction h with
  | refl => exact ⟨hs, rfl⟩
  | line _ ran aliases trace exports ih =>
    obtain ⟨persists, kept⟩ := ih
    obtain ⟨persists', kept'⟩ := persists_line persists ran aliases trace exports
    exact ⟨persists', kept'.trans kept⟩
  | restart _ key console dice ih =>
    obtain ⟨persists, kept⟩ := ih
    obtain ⟨persists', snapshot⟩ := persists.restart key console dice
    exact ⟨persists', (congrArg Snapshot.aliases snapshot).trans kept⟩

/-! ## There and back -/

/-- What a terminal is behind the saving of its program under an alias. -/
theorem dispatch_save (bound : Nat) (idle : s.session.executing = false)
    (accepts : s.store.Accepts s.settings.storageKey) (literal : name.Literal)
    (free : Builtin.named? (Text.upper name) = none) :
    ∃ t, builtin.dispatch (bound + 2) (Text.unwords ["SAVE".toList, name]) s = some (.none, t) ∧
      t.session.status = 0 ∧ t.session.program = s.session.program ∧
      t.session.aliases = s.session.aliases.insert (Text.upper name) s.session.program ∧
      t.Persists := by
  have words : ∀ w ∈ [name], w.Literal := by
    intro w hw
    rw [List.mem_singleton.mp hw]
    exact literal
  let began := entered s (Text.unwords ["SAVE".toList, name])
  have ran : (Command.save.perform (builtin.host (bound + 1)) ["SAVE".toList, name]).run began
      = some (.ok .none, _) :=
    Command.run_save (Nat.succ_pos bound) idle (literal_page .save words) (page?_eq_none_iff.mpr free)
  have persists : (began.update fun t =>
      { t with aliases := t.aliases.insert (Text.upper name) t.program }).save.Persists :=
    Terminal.persists_save accepts
  exact ⟨_, dispatch_of_run .save words ran, rfl, rfl, rfl, persists.of_same rfl rfl rfl⟩

/-- What a terminal is behind the recall of an alias that it has. -/
theorem dispatch_recall (bound : Nat) {p : Program} (literal : name.Literal)
    (flat : Flags.Grammar.standard.isCluster name = false)
    (found : s.session.aliases.get? (Text.upper name) = some p) :
    ∃ u, builtin.dispatch (bound + 2) (Text.unwords ["ALIAS".toList, "-R".toList, name]) s
        = some (.none, u) ∧ u.session.status = 0 ∧ u.session.program = p ∧
      u.session.aliases = s.session.aliases := by
  have words : ∀ w ∈ ["-R".toList, name], Text.Literal w := by
    have flag : Text.Literal "-R".toList := .of_isLiteral (by decide)
    exact List.forall_mem_cons.mpr ⟨flag, List.forall_mem_cons.mpr ⟨literal, nofun⟩⟩
  let began := entered s (Text.unwords ["ALIAS".toList, "-R".toList, name])
  have ran : (Command.aliases.perform (builtin.host (bound + 1))
      ["ALIAS".toList, "-R".toList, name]).run began = some (.ok .none, _) :=
    Command.run_recall (Nat.succ_pos bound) (literal_page .aliases words) flat found
      (Text.upper_ne_nil literal.nonempty)
  -- behind the recall only a message is printed
  let t := (began.update fun t => { t with program := p }).save
  let text := "Alias ".toList ++ Text.upper name ++ " recalled.".toList
  obtain ⟨status, program⟩ := printLine_leads t text
  have aliases : (t.printLine text).session.aliases = t.session.aliases :=
    congrArg Snapshot.aliases (Terminal.print_same t _).2.2
  exact ⟨_, dispatch_of_run .aliases words ran, status, program, aliases⟩

/-- **A program that was saved under a name is recalled under it.**  An idle terminal over a
store that accepts its key saves its program under a word that stands for itself, is no
cluster of flags and names no command.  Behind every history from there on, the alias is
recalled under this word in any case of its ASCII letters: the stored program is then the
one that was saved, and the aliases are as they were. -/
theorem recall_save (bound : Nat) (idle : s.session.executing = false)
    (accepts : s.store.Accepts s.settings.storageKey) (literal : name.Literal)
    (flat : Flags.Grammar.standard.isCluster name = false)
    (free : Builtin.named? (Text.upper name) = none) :
    ∃ t, builtin.dispatch (bound + 2) (Text.unwords ["SAVE".toList, name]) s = some (.none, t) ∧
      t.session.status = 0 ∧ t.session.program = s.session.program ∧
      ∀ u, History t u → ∀ name' : Text, Text.sameAscii name' name = true → ∀ bound' : Nat,
        ∃ v, builtin.dispatch (bound' + 2)
            (Text.unwords ["ALIAS".toList, "-R".toList, name']) u = some (.none, v) ∧
          v.session.status = 0 ∧ v.session.program = s.session.program ∧
          v.session.aliases = u.session.aliases ∧
          v.session.aliases.get? (Text.upper name) = some s.session.program := by
  obtain ⟨t, saved, status, program, aliases, persists⟩ :=
    dispatch_save bound idle accepts literal free
  refine ⟨t, saved, status, program, fun u history name' same bound' => ?_⟩
  obtain ⟨-, kept⟩ := history.keeps persists
  have capitals : Text.upper name' = Text.upper name := Text.upper_of_sameAscii same
  have found : u.session.aliases.get? (Text.upper name) = some s.session.program := by
    rw [kept, aliases, Table.get?_insert_self]
  have flat' : Flags.Grammar.standard.isCluster name' = false := by
    rw [Flags.Grammar.isCluster_congr _ capitals]
    exact flat
  obtain ⟨v, recalled, status', program', aliases'⟩ :=
    dispatch_recall bound' (literal.of_sameAscii same) flat' (capitals.symm ▸ found)
  exact ⟨v, recalled, status', program', aliases', by rw [aliases', found]⟩

/-- A program is saved, the stored program is cleared, the terminal is set up anew over its
store, and the program is recalled under the same word in another case. -/
theorem recall_save_restarted :
    let console := Console.recorder { grid := ⟨60, 25⟩ }
    let p := Program.setLine .empty 10 "PRINT A".toList
    let s := (Terminal.ofSettings {} console (.memory .empty) ⟨0⟩).update fun t =>
      { t with program := p }
    let name := "keep-é".toList
    ∃ t u v, builtin.dispatch 3 (Text.unwords ["SAVE".toList, name]) s = some (.none, t) ∧
      History t u ∧ u.session.program = .empty ∧
      builtin.dispatch 3 (Text.unwords ["ALIAS".toList, "-R".toList, "KEEP-é".toList]) u
        = some (.none, v) ∧
      v.session.program = p := by
  intro console p s name
  have ends : (builtin.dispatch 3 (Text.unwords ["SAVE".toList, name]) s).any (fun r =>
      (builtin.dispatch 3 "NEW".toList r.2).any fun r' =>
        decide (builtin.dispatchBarring (writing .aliases) 3 "NEW".toList r.2 = some r')
          && decide (∀ e ∈ r'.2.trace, ¬ e.Exports)
          && decide ((r'.2.restart {} console ⟨0⟩).session.program = .empty)) = true := by
    decide +kernel
  obtain ⟨⟨o, t⟩, first, checked⟩ := (Option.any_eq_true _ _).mp ends
  obtain ⟨⟨o', w⟩, second, checked⟩ := (Option.any_eq_true _ _).mp checked
  obtain ⟨checked, cleared⟩ := Bool.and_eq_true_iff.mp checked
  obtain ⟨barred, plain⟩ := Bool.and_eq_true_iff.mp checked
  have unmet : builtin.dispatchBarring (writing .aliases) 3 "NEW".toList t = some (o', w) :=
    of_decide_eq_true barred
  have free : ∀ e ∈ w.trace, ¬ e.Exports := of_decide_eq_true plain
  obtain ⟨settings, -⟩ := persisting_hosts 3 _ _ _ _ first
  obtain ⟨settings', new, trace, -⟩ := persisting_hosts 3 _ _ _ _ second
  have history : History t (w.restart {} console ⟨0⟩) := by
    refine .restart (.line (.refl t) second ?_ trace fun e he => free e (trace ▸ ?_)) ?_ console ⟨0⟩
    · exact fun meets => meets (unmet.trans second.symm)
    · exact List.mem_append_left _ he
    · exact (congrArg Settings.storageKey (settings'.trans settings)).symm
  have literal : Text.Literal name := .of_isLiteral (by decide)
  obtain ⟨t', saved, -, -, recalls⟩ := recall_save 1 (s := s) rfl (fun _ => rfl) literal
    (by decide) (by decide +kernel)
  cases first.symm.trans saved
  obtain ⟨v, recalled, -, program, -⟩ := recalls _ history "KEEP-é".toList (by decide) 1
  exact ⟨t, _, v, first, history, of_decide_eq_true cleared, recalled, program⟩

end Registry

end Teletype
