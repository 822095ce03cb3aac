/-
# What lines write

Each part of a session is written by few kinds of lines: the program by lines with a number
and by the commands that clear, move, delete and recall; the variables by the commands that
give them values or take them away; the aliases by the commands that save and delete them;
color and theme by one command each; and the rest of the display by none.  The main
statement is that **a part of the session changes only where a line is dispatched that
writes it** (`Registry.dispatch_writes`), the lines inside other lines included.
-/
import Teletype.Proofs.Exclusion

namespace Teletype

/-! ## Parts of a session -/

/-- A part of a session that some lines write, or none. -/
inductive Part
  /-- The stored program. -/
  | program
  /-- The variables. -/
  | bindings
  /-- The programs saved under aliases. -/
  | aliases
  /-- The color of text. -/
  | color
  /-- The theme. -/
  | theme
  /-- The display without color and theme: the prompt with the name and the path, the delay,
  and whether the terminal reports what it does. -/
  | rest
  deriving DecidableEq, Repr

/-- From one session to another a part stayed as it was. -/
def Part.Kept (s u : Session) : Part → Prop
  | program => u.program = s.program
  | bindings => u.bindings = s.bindings
  | aliases => u.aliases = s.aliases
  | color => u.display.color = s.display.color
  | theme => u.display.theme = s.display.theme
  | rest => u.display = { s.display with color := u.display.color, theme := u.display.theme }

instance (s u : Session) : (part : Part) → Decidable (part.Kept s u)
  | .program => inferInstanceAs (Decidable (u.program = s.program))
  | .bindings => inferInstanceAs (Decidable (u.bindings = s.bindings))
  | .aliases => inferInstanceAs (Decidable (u.aliases = s.aliases))
  | .color => inferInstanceAs (Decidable (u.display.color = s.display.color))
  | .theme => inferInstanceAs (Decidable (u.display.theme = s.display.theme))
  | .rest => inferInstanceAs (Decidable (u.display = _))

namespace Part.Kept

variable {part : Part} {s t u : Session}

/-- What is saved and the display are the same. -/
theorem of_same (h : u.snapshot = s.snapshot) (h' : u.display = s.display) : part.Kept s u := by
  cases part with
  | program => exact congrArg Snapshot.program h
  | bindings => exact congrArg Snapshot.bindings h
  | aliases => exact congrArg Snapshot.aliases h
  | color => exact congrArg Display.color h'
  | theme => exact congrArg Display.theme h'
  | rest =>
    show u.display = { s.display with color := u.display.color, theme := u.display.theme }
    rw [← h']

/-- A part stayed as it was twice. -/
theorem trans (h : part.Kept s t) (h' : part.Kept t u) : part.Kept s u := by
  cases part with
  | rest =>
    have first : t.display = { s.display with color := t.display.color, theme := t.display.theme } := h
    have second : u.display = { t.display with color := u.display.color, theme := u.display.theme } := h'
    show u.display = { s.display with color := u.display.color, theme := u.display.theme }
    rw [second, first]
  | _ => exact Eq.trans h' h

/-- Another program leaves the other parts as they were. -/
theorem of_program (h : part ≠ .program) (p : Program) : part.Kept s { s with program := p } := by
  cases part with
  | program => exact absurd rfl h
  | _ => rfl

/-- Other variables leave the other parts as they were. -/
theorem of_bindings (h : part ≠ .bindings) (b : Table Text Text) :
    part.Kept s { s with bindings := b } := by
  cases part with
  | bindings => exact absurd rfl h
  | _ => rfl

/-- Other aliases leave the other parts as they were. -/
theorem of_aliases (h : part ≠ .aliases) (a : Table Text Program) :
    part.Kept s { s with aliases := a } := by
  cases part with
  | aliases => exact absurd rfl h
  | _ => rfl

/-- Another color leaves the other parts as they were. -/
theorem of_color (h : part ≠ .color) (color : Color) :
    part.Kept s { s with display := { s.display with color } } := by
  cases part with
  | color => exact absurd rfl h
  | _ => rfl

/-- Another theme leaves the other parts as they were. -/
theorem of_theme (h : part ≠ .theme) (theme : Theme) :
    part.Kept s { s with display := { s.display with theme } } := by
  cases part with
  | theme => exact absurd rfl h
  | _ => rfl

end Part.Kept

/-! ## What is done by lines -/

/-- What a line does itself, apart from the lines inside it. -/
inductive Deed
  /-- It stores a line of the program under its number. -/
  | entry
  /-- It is carried out by a command. -/
  | command (b : Builtin)
  /-- It is carried out by the command for aliases, which does something with one. -/
  | action (a : Command.AliasAction)
  deriving DecidableEq, Repr

/-- Which parts of the session are written. -/
def Deed.writes : Deed → Part → Bool
  | entry, .program | command .new, .program | command .move, .program
  | command .delete, .program | action .fetch, .program => true
  | command .assign, .bindings | command .unassign, .bindings | command .input, .bindings
  | command .repeatEach, .bindings => true
  | command .save, .aliases | action .delete, .aliases => true
  | command .color, .color => true
  | command .theme, .theme => true
  | _, _ => false

/-- The rest of the display is written by nothing. -/
theorem Deed.writes_rest (d : Deed) : d.writes .rest = false := by
  cases d with
  | entry => rfl
  | command b => cases b <;> rfl
  | action a => cases a <;> rfl

/-- A part that is not written is none that is. -/
theorem Deed.ne_of_writes {d : Deed} {part written : Part} (free : d.writes part = false)
    (writes : d.writes written = true) : part ≠ written := by
  rintro rfl
  exact Bool.false_ne_true (free.symm.trans writes)

namespace Registry

/-- The action on an alias that the words of a line ask for, expanded in a terminal. -/
def aliasAction? (bound : Nat) (words : List Text) (t : Terminal) : Option Command.AliasAction :=
  match ((builtin.host bound).parse .standard {} words).run t with
  | some (.ok parsed, _) => Command.AliasAction.ofParsed? parsed
  | _ => none

/-- What a trimmed line does that is dispatched in a terminal. -/
def deed? (bound : Nat) (line : Text) (t : Terminal) : Option Deed :=
  match Builtin.ofLine? line with
  | some .aliases => (aliasAction? bound (Text.words line) (entered t line)).map .action
  | some b => some (.command b)
  | none =>
    if (t.session.aliases.get? (Text.upper (Text.firstWord line))).isSome then none
    else (Decimal.toWord? (Text.firstWord line)).map fun _ => .entry

section

variable {bound : Nat} {line : Text} {t : Terminal}

/-- A line that names a command other than that for aliases is carried out by it. -/
theorem deed?_command {b : Builtin} (named : Builtin.ofLine? line = some b)
    (aliases : b ≠ .aliases) : deed? bound line t = some (.command b) := by
  rw [deed?, named]
  cases b with
  | aliases => exact absurd rfl aliases
  | _ => rfl

/-- A line that names the command for aliases does with an alias what its words ask for. -/
theorem deed?_action {a : Command.AliasAction} (named : Builtin.ofLine? line = some .aliases)
    (asked : aliasAction? bound (Text.words line) (entered t line) = some a) :
    deed? bound line t = some (.action a) := by
  rw [deed?, named]
  exact congrArg (Option.map Deed.action) asked

/-- A line that begins with a number and no other name is stored. -/
theorem deed?_entry {n : LineNumber} (unnamed : Builtin.ofLine? line = none)
    (free : t.session.aliases.get? (Text.upper (Text.firstWord line)) = none)
    (number : Decimal.toWord? (Text.firstWord line) = some n) :
    deed? bound line t = some .entry := by
  rw [deed?, unnamed]
  dsimp only
  rw [free, number]
  rfl

end

/-- Lines are barred that write a part of the session. -/
def writing (part : Part) : Bar := fun bound line t =>
  (deed? bound (Text.strip line) t).any fun deed => deed.writes part

end Registry

/-! ## Parts that stay as they are -/

/-- What commands do that leave a part of the session as it was. -/
def keeping (part : Part) : Conduct := fun _ s u => part.Kept s.session u.session

namespace keeping

variable {part : Part}

/-- Leaving a part of the session as it was is lawful. -/
theorem lawful : Conduct.Lawful (keeping part) where
  refl s := .of_same rfl rfl
  trans h h' := h.trans h'
  settled h := h
  faulted h := h
  well h _ := h
  routine step h := h.trans (.of_same step.same.1 step.same.2)
  scope {m s u} k h := by
    have entered : part.Kept s.session (s.update k.enter).session := by
      cases k <;> exact .of_same rfl rfl
    have left : part.Kept u.session (u.update (k.leave s.session)).session := by
      cases k <;> exact .of_same rfl rfl
    exact (entered.trans h).trans left
  run {m s u} _ h := by
    have opened : part.Kept s.session (Runner.opened s).session := .of_same rfl rfl
    have closed : part.Kept u.session (Runner.closed s.session u).session := .of_same rfl rfl
    exact (opened.trans h).trans closed

/-- A command that does not write a part leaves it as it was; the one for aliases depends on
its words. -/
theorem bears (manual : Manual) {b : Builtin} (aliases : b ≠ .aliases)
    (free : (Deed.command b).writes part = false) : (keeping part).Bears manual b := by
  have other : ∀ written, (Deed.command b).writes written = true → part ≠ written :=
    fun _ => Deed.ne_of_writes free
  intro t u h
  show part.Kept t.session u.session
  cases h with
  | bind hb => exact .of_bindings (other _ (by rcases hb with rfl | rfl | rfl <;> rfl)) _
  | unbind => exact .of_bindings (other _ rfl) _
  | clear t text =>
    have cleared : part.Kept t.session (t.update fun s => { s with program := .empty }).session :=
      .of_program (other _ rfl) _
    obtain ⟨snapshot, display⟩ := (Terminal.Routine.print
      (t.update fun s => { s with program := .empty }) (text ++ ['\n'])).same
    exact cleared.trans (.of_same snapshot display)
  | move => exact .of_program (other _ rfl) _
  | delete => exact .of_program (other _ rfl) _
  | store => exact .of_aliases (other _ rfl) _
  | color => exact .of_color (other _ rfl) _
  | theme => exact .of_theme (other _ rfl) _
  | write => exact .of_same rfl rfl
  | _ => exact absurd rfl aliases

/-- An action on an alias that does not write a part leaves it as it was. -/
theorem aliasAction {s : Terminal} {name : Text} {program : Program}
    {action : Command.AliasAction} (free : (Deed.action action).writes part = false) :
    Act.Goes (keeping part) Output.manner s (action.perform name program) := by
  refine Command.goes_aliasAction lawful.toOrderly action (fun drop => ?_) fun fetch => ?_
  · subst drop
    exact .of_aliases (Deed.ne_of_writes free rfl) _
  · subst fetch
    exact .of_program (Deed.ne_of_writes free rfl) _

end keeping

namespace Registry

variable {part : Part}

/-- What the words of a line do that is not barred. -/
theorem keeping_carryOut {bound : Nat} {line : Text} {s u : Terminal} {output : Output}
    (H : (keeping part).Hosts (builtin.dispatchBarring (writing part) bound))
    (free : writing part bound line s = false)
    (h : builtin.carryOut (builtin.hostBarring (writing part) bound)
      (Text.words (Text.strip line)) (entered s (Text.strip line)) = some (output, u)) :
    part.Kept (entered s (Text.strip line)).session u.session := by
  have L : (keeping part).Lawful := keeping.lawful
  have tell : ∀ {t : Terminal} (status : Int) (text : Text),
      part.Kept t.session ((t.update fun t => { t with status }).print text).session := by
    intro t status text
    obtain ⟨snapshot, display⟩ := (Terminal.Routine.print (t.update fun t => { t with status }) text).same
    exact .of_same snapshot display
  have deed : ∀ {d : Deed}, deed? bound (Text.strip line) s = some d → d.writes part = false := by
    intro d hd
    rw [writing, hd] at free
    exact free
  refine carryOut_ends_of (C := keeping part) (fun b hb => ?_)
    (fun p _ => Host.goes_runAndSave L H p _) (fun f t ht => ht.trans (tell f.status _))
    (fun n t hb hp hn ht => ?_) (fun word t ht => ?_) h
  · have named : Builtin.ofLine? (Text.strip line) = some b := hb
    by_cases aliases : b = .aliases
    · subst aliases
      refine Command.goes_aliases L H (Host.goes_runAndSave L H) ?_
      intro parsed t action name program parse asked _
      -- the words come to the same without barring
      have same := Host.parse_below .always (scoping_hostsBarring bound) (hostBarring_below bound)
        .standard {} (Text.words (Text.strip line)) _ _ _ trivial parse
      refine keeping.aliasAction (deed (deed?_action named ?_))
      rw [aliasAction?, same]
      exact asked
    · exact b.goes_perform L H (keeping.bears _ aliases (deed (deed?_command named aliases))) _ _
  · cases ht
    have entry : Deed.entry.writes part = false := deed (deed?_entry hb hp hn)
    have stored : part.Kept _ { (entered s (Text.strip line)).session with
        program := (entered s (Text.strip line)).session.program.setLine n
          (Text.unwords ((Text.words (Text.strip line)).drop 1)) } :=
      .of_program (Deed.ne_of_writes entry rfl) _
    exact stored
  · cases ht
    exact tell 1 _

/-- **A line leaves a part of the session as it was if no line is met that writes it.** -/
theorem keeping_hostsBarring (bound : Nat) :
    (keeping part).Hosts (builtin.dispatchBarring (writing part) bound) := by
  refine hosts_dispatchBarring (fun s => Part.Kept.of_same rfl rfl)
    (fun bound line s output t H free h => ?_) bound
  have entered : part.Kept s.session (entered s (Text.strip line)).session := .of_same rfl rfl
  have carried := keeping_carryOut H free h
  exact entered.trans carried

/-- **Write-set discipline.**  If a line changes a part of the session, then it is a line that
writes this part, or one is dispatched inside it, at whatever depth.  The display apart from
color and theme is changed by no line. -/
theorem dispatch_writes {bound : Nat} {line : Text} {s u : Terminal} {output : Output}
    (h : builtin.dispatch bound line s = some (output, u)) :
    (∀ part : Part, ¬ part.Kept s.session u.session → builtin.Meets (writing part) bound line s) ∧
    u.session.display = { s.session.display with
      color := u.session.display.color, theme := u.session.display.theme } := by
  have kept : ∀ part : Part, ¬ part.Kept s.session u.session →
      builtin.Meets (writing part) bound line s :=
    fun part changed same => changed (keeping_hostsBarring bound line s output u (same.trans h))
  refine ⟨kept, ?_⟩
  have never : ∀ bound line t, writing .rest bound line t = false := by
    intro bound line t
    rw [writing, funext Deed.writes_rest]
    exact Option.any_false
  refine Decidable.byContradiction fun changed => kept .rest changed ?_
  exact dispatchBarring_eq .always (fun bound line t _ => never bound line t) bound line trivial

/-- A branch in which an alias is recalled, under a name that a variable gives. -/
theorem dispatch_writes_nested :
    let p : Program := Program.setLine .empty 10 "PRINT a".toList
    let line := "IF 1 THEN (ALIAS $X -R)".toList
    let start := Terminal.ofSettings {} (.recorder { grid := ⟨60, 25⟩ }) (.memory .empty) ⟨0⟩
    let s := start.update fun t => { t with
      bindings := t.bindings.insert "X".toList "a".toList
      aliases := t.aliases.insert "A".toList p }
    ∃ output u, builtin.dispatch 6 line s = some (output, u) ∧
      ¬ Part.program.Kept s.session u.session ∧ builtin.Meets (writing .program) 6 line s ∧
      u.session.display = { s.session.display with
        color := u.session.display.color, theme := u.session.display.theme } := by
  intro p line start s
  have ran : (builtin.dispatch 6 line s).any (fun r =>
      decide (¬ Part.program.Kept s.session r.2.session)) = true := by
    decide +kernel
  obtain ⟨⟨output, u⟩, h, changed⟩ := (Option.any_eq_true _ _).mp ran
  obtain ⟨writes, display⟩ := dispatch_writes h
  exact ⟨output, u, h, of_decide_eq_true changed, writes _ (of_decide_eq_true changed), display⟩

end Registry

end Teletype
