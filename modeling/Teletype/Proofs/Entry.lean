/-
# Lines with a number

A line that begins with a number stores its text under the number.  No command has a number
for its name, but an alias may: the command that saves the program refuses the names of
commands only, and an alias is looked for before a number.  The main statement is that **a
line with a number edits the program and nothing else wherever lines may lead from a fresh
start, unless one of these lines has saved an alias under the number**
(`Registry.dispatch_entry`); then the line runs the alias
(`Registry.dispatch_entry_captured`).
-/
import Teletype.Proofs.Address
import Teletype.Proofs.Held

namespace Teletype

/-- The decimal text of a line number is read as the number. -/
theorem Decimal.toWord?_text (n : LineNumber) : toWord? n.text = some n := by
  obtain ⟨-, digits, -⟩ := value_ofNat n.toNat
  have unsigned : ∀ rest, n.text ≠ '+' :: rest := by
    intro rest h
    have digits : n.text.all isDigit = true := digits
    rw [h] at digits
    cases digits
  have read : toNat? n.text = some n.toNat := toNat?_ofNat n.toNat
  unfold toWord?
  split
  · next rest h => exact absurd h (unsigned rest)
  · dsimp only
    rw [read]
    simp [n.toNat_lt_size]

/-! ## Saving under a name -/

namespace Registry

/-- The name in capitals under which a trimmed line saves the program, if its words, expanded in
a terminal, are the command that saves and one name. -/
def savedName? (bound : Nat) (line : Text) (t : Terminal) : Option Text :=
  if Builtin.ofLine? line = some .save then
    match ((builtin.host bound).expand (Text.words line)).run (entered t line) with
    | some (.ok [_, name], _) => some (Text.upper name)
    | _ => none
  else none

/-- Lines are barred that save the program under a name. -/
def savingUnder (name : Text) : Bar := fun bound line t =>
  savedName? bound (Text.strip line) t = some name

end Registry

/-- A name that had no alias has none. -/
def Terminal.StaysFree (name : Text) (s u : Terminal) : Prop :=
  s.session.aliases.get? name = none → u.session.aliases.get? name = none

namespace Terminal.StaysFree

variable {name : Text} {s u : Terminal}

/-- What is saved is the same. -/
theorem of_same (h : u.session.snapshot = s.session.snapshot) : StaysFree name s u := by
  intro free
  have aliases : u.session.aliases = s.session.aliases := congrArg Snapshot.aliases h
  rw [aliases, free]

/-- A status is set and a text printed. -/
theorem tell (s : Terminal) (status : Int) (text : Text) :
    StaysFree name s ((s.update fun t => { t with status }).print text) :=
  of_same (Routine.print (s.update fun t => { t with status }) text).same.1

/-- The program is saved under another name. -/
theorem insert {other : Text} (h : other ≠ name) (s : Terminal) :
    StaysFree name s
      (s.update fun t => { t with aliases := t.aliases.insert other t.program }).save := by
  intro free
  show (s.session.aliases.insert other s.session.program).get? name = none
  have distinct : compare name other ≠ .eq := by
    rw [ne_eq, Std.LawfulEqOrd.compare_eq_iff_eq]
    exact h.symm
  rw [Table.get?_insert, if_neg distinct, free]

end Terminal.StaysFree

/-- What commands do that leave a name without an alias. -/
def lacking (name : Text) : Conduct := fun _ => Terminal.StaysFree name

namespace lacking

open Terminal (StaysFree)

variable {name : Text} {s : Terminal}

/-- Leaving a name without an alias is lawful. -/
theorem lawful : Conduct.Lawful (lacking name) :=
  .of_snapshot (R := fun a b => a.aliases.get? name = none → b.aliases.get? name = none)
    (fun _ => id) fun h h' free => h' (h free)

/-- Only one command adds aliases. -/
theorem bears (manual : Manual) {b : Builtin} (other : b ≠ .save) :
    (lacking name).Bears manual b := by
  intro t u h
  cases h with
  | store => exact absurd rfl other
  | drop t dropped =>
    intro free
    show (t.session.aliases.erase dropped).get? name = none
    rw [Table.get?_erase, free, ite_self]
  | clear t text =>
    exact StaysFree.of_same (s := t.update fun s => { s with program := .empty })
      (Terminal.Routine.print _ _).same.1
  | _ => exact id

/-- The command that saves leaves a name without an alias if it saves under another one. -/
theorem goes_save {host : Host} {words : List Text} (H : (lacking name).Hosts host.dispatch)
    (other : ∀ word w t, (host.expand words).run s = some (.ok [word, w], t) →
      Text.upper w ≠ name) :
    Act.Goes (lacking name) Output.manner s (Command.save.perform host words) := by
  have L : (lacking name).Orderly := lawful.toOrderly
  show Act.Goes _ _ s (Act.ensureIdle >>= _)
  cases executing : s.session.executing with
  | true =>
    intro r u hr
    rw [Act.run_ensureIdle_bind executing] at hr
    cases hr
    exact id
  | false =>
    intro r u hr
    rw [Act.run_ensureIdle_of_idle executing] at hr
    revert hr
    refine Act.Goes.bind (a := host.expand words) L (Host.goes_expand L H words s)
      (fun ws t ht => ?_) r u
    split
    · next word w =>
      dsimp only
      split
      · exact .throw L _
      · exact .edit L (StaysFree.insert (other word w t ht) t) (.pure L _)
    · exact .throw L _

end lacking

namespace Registry

variable {bound : Nat} {name : Text} {s u : Terminal} {lines : List Text}

/-- What the words of a line do that does not save under a name. -/
theorem lacking_carryOut {line : Text} {output : Output}
    (H : (lacking name).Hosts (builtin.dispatchBarring (savingUnder name) bound))
    (free : savingUnder name bound line s = false)
    (h : builtin.carryOut (builtin.hostBarring (savingUnder name) bound)
      (Text.words (Text.strip line)) (entered s (Text.strip line)) = some (output, u)) :
    Terminal.StaysFree name (entered s (Text.strip line)) u := by
  have L : (lacking name).Lawful := lacking.lawful
  refine carryOut_ends_of (C := lacking name) (fun b hb => ?_)
    (fun p _ => Host.goes_runAndSave L H p _)
    (fun f t ht hs => Terminal.StaysFree.tell t f.status _ (ht hs)) (fun n t _ _ _ ht => ?_)
    (fun word t ht => ?_) h
  · by_cases save : b = .save
    · subst save
      have named : Builtin.ofLine? (Text.strip line) = some .save := hb
      refine lacking.goes_save H fun word w t expanded same => ?_
      -- the words come to the same without barring
      have expanded := Host.expand_below .always (scoping_hostsBarring bound)
        (hostBarring_below bound) (Text.words (Text.strip line)) _ _ _ trivial expanded
      rw [savingUnder, savedName?, if_pos named, expanded] at free
      exact of_decide_eq_false free (congrArg some same)
    · exact b.goes_perform L H (lacking.bears _ save) _ _
  · cases ht
    exact id
  · cases ht
    exact Terminal.StaysFree.tell _ 1 _

/-- **Lines that do not save under a name leave it without an alias.** -/
theorem lacking_hostsBarring (name : Text) (bound : Nat) :
    (lacking name).Hosts (builtin.dispatchBarring (savingUnder name) bound) :=
  hosts_dispatchBarring (fun _ => id)
    (fun _ _ _ _ _ H free h unnamed => lacking_carryOut H free h unnamed) bound

/-- **An alias that a name did not have was saved under it** by one of the lines that were
dispatched, or by a line inside one of them. -/
theorem Carries.exists_saving (h : builtin.Carries s lines u)
    (free : s.session.aliases.get? name = none) (bound_alias : u.session.aliases.get? name ≠ none) :
    ∃ earlier line later bound t, lines = earlier ++ line :: later ∧
      builtin.Carries s earlier t ∧ builtin.Meets (savingUnder name) bound line t := by
  induction h with
  | nil => exact absurd free bound_alias
  | @cons bound line lines output s t u first rest ih =>
    by_cases still : t.session.aliases.get? name = none
    · obtain ⟨earlier, line', later, bound', t', rfl, carries, meets⟩ := ih still bound_alias
      exact ⟨line :: earlier, line', later, bound', t', rfl, .cons first carries, meets⟩
    · refine ⟨[], line, lines, bound, s, rfl, .nil s, fun same => ?_⟩
      exact still (lacking_hostsBarring name bound line s output t (same.trans first) free)

/-! ## Entering lines -/

/-- **A line with a number edits the program, unless the number is an alias.**  Lines were
dispatched from a fresh start on.  Then a line with a number of 64 bits and a text that does not
end in white space gives back the text and stores it under the number, or removes the number if
the text is empty; it leaves every other line, the variables and the aliases as they were, runs
no program and prints nothing, as long as the number is no alias.  If it is one, then the line
runs its program; and it is one only if some line saved the program under the number. -/
theorem dispatch_entry {settings : Settings} {console : Console} {store : Store} {dice : Dice}
    (reached : builtin.Carries (.ofSettings settings console store dice) lines s) {w text : Text}
    {n : LineNumber} (hw : Decimal.toWord? w = some n) (full : text.EndsFull) (bound : Nat) :
    (s.session.aliases.get? w = none →
      ∃ u, builtin.dispatch (bound + 1) (entryLine w text) s = some (.text text, u) ∧
        u.session = { s.session with
          status := 0, program := s.session.program.setLine n text } ∧
        (∀ m, u.session.program.line? m = if m = n then (if text = [] then none else some text)
          else s.session.program.line? m) ∧
        u.console = s.console ∧
        u.trace = .left 0 :: .saved s.settings.storageKey :: .entered (entryLine w text)
          :: s.trace) ∧
    ∀ p, s.session.aliases.get? w = some p →
      builtin.dispatch (bound + 1) (entryLine w text) s
          = (Run.settle ((builtin.host bound).runAndSave p) (entered s (entryLine w text))).map
              leave ∧
        ∃ earlier line later bound' t, lines = earlier ++ line :: later ∧
          builtin.Carries (.ofSettings settings console store dice) earlier t ∧
          builtin.Meets (savingUnder w) bound' line t := by
  constructor
  · intro free
    refine ⟨_, dispatch_entryLine hw full free, rfl, fun m => ?_, rfl, rfl⟩
    exact Program.line?_setLine s.session.program n m text
  · intro p found
    obtain ⟨digits, word⟩ := Decimal.exists_isWord hw
    obtain ⟨trimmed, nonempty, head, -⟩ := entryLine_parts hw full
    have capitals : Text.upper (Text.firstWord (entryLine w text)) = w := by
      rw [Text.firstWord, head, word.upper_eq]
    constructor
    · have known : s.session.aliases.get?
          (Text.upper (Text.firstWord (Text.strip (entryLine w text)))) = some p := by
        rw [trimmed, capitals, found]
      have captured : builtin.dispatch (bound + 1) (entryLine w text) s = _ :=
        dispatch_alias (by rw [trimmed, ofLine?_entryLine hw full]) (by rwa [trimmed]) known
      rw [captured, trimmed]
    · refine reached.exists_saving rfl ?_
      rw [found]
      exact Option.some_ne_none p

/-- The last line there may be is entered behind lines that saved an alias. -/
theorem dispatch_entry_last :
    let console := Console.recorder { grid := ⟨60, 25⟩ }
    let start := Terminal.ofSettings {} console (.memory .empty) ⟨0⟩
    let n : LineNumber := 18446744073709551615
    let text : Text := "PRINT  \"a\"".toList
    ∃ s, builtin.Carries start ["10 PRINT A".toList, "SAVE keep".toList] s ∧
      Decimal.toWord? n.text = some n ∧ text.EndsFull ∧
      s.session.aliases.get? n.text = none ∧
      ∃ u, builtin.dispatch 1 (entryLine n.text text) s = some (.text text, u) ∧
        u.session.program.line? n = some text := by
  intro console start n text
  have ran : (builtin.dispatch 1 "10 PRINT A".toList start).any (fun r =>
      (builtin.dispatch 3 "SAVE keep".toList r.2).any fun r' =>
        decide (r'.2.session.aliases.get? n.text = none)) = true := by
    decide +kernel
  obtain ⟨⟨output, t⟩, first, checked⟩ := (Option.any_eq_true _ _).mp ran
  obtain ⟨⟨output', s⟩, second, checked⟩ := (Option.any_eq_true _ _).mp checked
  have free : s.session.aliases.get? n.text = none := of_decide_eq_true checked
  have reached : builtin.Carries start ["10 PRINT A".toList, "SAVE keep".toList] s :=
    .cons first (.cons second (.nil s))
  have full : text.EndsFull := .concat "PRINT  \"a".toList rfl
  obtain ⟨stores, -⟩ := dispatch_entry reached (Decimal.toWord?_text n) full 0
  obtain ⟨u, entered, -, line, -⟩ := stores free
  refine ⟨s, reached, Decimal.toWord?_text n, full, free, u, entered, ?_⟩
  rw [line n, if_pos rfl]
  rfl

/-- **An alias under a number captures the line with this number.**  The program is saved under
its own first line, and entering the line anew runs the program instead. -/
theorem dispatch_entry_captured :
    let console := Console.recorder { grid := ⟨60, 25⟩ }
    let start := Terminal.ofSettings {} console (.memory .empty) ⟨0⟩
    ∃ s u, builtin.Carries start ["10 PRINT A".toList, "SAVE 10".toList] s ∧
      builtin.dispatch 5 "10 PRINT B".toList s = some (.none, u) ∧
      .began 1 ∈ u.trace ∧ u.session.program.line? 10 = some "PRINT A".toList := by
  intro console start
  have ran : (builtin.dispatch 1 "10 PRINT A".toList start).any (fun r =>
      (builtin.dispatch 3 "SAVE 10".toList r.2).any fun r' =>
        (builtin.dispatch 5 "10 PRINT B".toList r'.2).any fun r'' =>
          decide (r''.1 = .none) && decide (.began 1 ∈ r''.2.trace)
            && decide (r''.2.session.program.line? 10 = some "PRINT A".toList)) = true := by
    decide +kernel
  obtain ⟨⟨output, t⟩, first, checked⟩ := (Option.any_eq_true _ _).mp ran
  obtain ⟨⟨output', s⟩, second, checked⟩ := (Option.any_eq_true _ _).mp checked
  obtain ⟨⟨output'', u⟩, third, checked⟩ := (Option.any_eq_true _ _).mp checked
  simp only [Bool.and_eq_true, decide_eq_true_eq] at checked
  obtain ⟨⟨rfl, began⟩, kept⟩ := checked
  exact ⟨s, u, .cons first (.cons second (.nil s)), third, began, kept⟩

end Registry

end Teletype
