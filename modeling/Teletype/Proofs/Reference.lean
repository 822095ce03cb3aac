/-
# References to variables

A reference is a `$` and the name behind it, as far as letters, digits and underscores go.  The
commands that give a variable a value take any text for its name that does not begin with a `$`.
The main statement is that **a variable that was given a value has it, a reference to it comes to
the value if its name is one that a reference can have, and otherwise no reference on any line is
one to it** (`Registry.holds_bound`).  Such a variable is lost for references
(`Registry.holds_bound_unreadable`).
-/
import Teletype.Proofs.Repetition

namespace Teletype

/-! ## The names of references -/

/-- A name is made of characters of names, and the pieces behind it are some of the pieces. -/
theorem splitName_spec (pieces : List (Piece Text)) :
    (∀ c ∈ (splitName pieces).1, isNameChar c = true) ∧
      ∀ p ∈ (splitName pieces).2, p ∈ pieces := by
  fun_induction splitName pieces with
  | case1 c pieces hc name rest split ih =>
    rw [split] at ih
    exact ⟨List.forall_mem_cons.mpr ⟨hc, ih.1⟩, fun p mem => List.mem_cons_of_mem _ (ih.2 p mem)⟩
  | case2 c pieces hc => exact ⟨fun _ mem => absurd mem List.not_mem_nil, fun _ mem => mem⟩
  | case3 pieces _ => exact ⟨fun _ mem => absurd mem List.not_mem_nil, fun _ mem => mem⟩

/-- A reference in a line has the name of a reference. -/
theorem isName_of_mem_variablePieces {line raw : Text} (h : .item raw ∈ variablePieces line) :
    Phrase.IsName raw := by
  induction line with
  | nil => cases h
  | cons c rest ih =>
    by_cases hc : c = '$'
    · rw [variablePieces, if_pos hc] at h
      obtain ⟨name, behind⟩ := splitName_spec (variablePieces rest)
      split at h
      · rcases List.mem_cons.mp h with same | mem
        · cases same
        · exact ih mem
      · next nonempty split =>
        rw [split] at name behind
        rcases List.mem_cons.mp h with same | mem
        · cases same
          exact ⟨nonempty, name⟩
        · exact ih (behind _ mem)
    · rw [variablePieces_cons hc] at h
      rcases List.mem_cons.mp h with same | mem
      · cases same
      · exact ih mem

/-- A token of a line stands for one of the spans among the pieces. -/
theorem item_raw_mem {kind : Token.Kind} {n : Nat} {pieces : List (Piece Text)} {token : Token}
    (h : token ∈ (numberSpans kind n pieces).2) : .item token.raw ∈ pieces := by
  have raw : token.raw ∈ (numberSpans kind n pieces).2.map Token.raw := List.mem_map_of_mem h
  rw [raw_numberSpans, List.mem_filterMap] at raw
  obtain ⟨p, mem, found⟩ := raw
  cases p with
  | plain c => cases found
  | item raw =>
    cases found
    exact mem

/-- **What a line refers to has the name of a reference.** -/
theorem isName_of_tokenize {line : Text} {tokenized : Tokenized} (h : tokenize line = .ok tokenized)
    {token : Token} (mem : token ∈ tokenized.tokens) (kind : token.kind = .variable) :
    Phrase.IsName token.raw := by
  unfold tokenize at h
  dsimp only at h
  split at h
  · cases h
  · next pieces _ =>
    split_ifs at h
    cases h
    obtain ⟨quotes, -⟩ := Numbered.numberSpans .quote 0 pieces
    obtain ⟨parens, -⟩ := Numbered.extractParens 0 (numberSpans .quote 0 pieces).1
      ((numberSpans .quote 0 pieces).1.count '(')
    -- the tokens of the other kinds are no references
    rcases List.mem_append.mp mem with mem | mem
    · rcases List.mem_append.mp mem with mem | mem
      · cases (parens token mem).symm.trans kind
      · cases (quotes token mem).symm.trans kind
    · exact isName_of_mem_variablePieces (item_raw_mem mem)

/-! ## Variables that were given a value -/

/-- A variable has a value, and references to it come to the value if there are any. -/
structure Terminal.Holds (u : Terminal) (name value : Text) : Prop where
  /-- The variable has the value. -/
  bound : u.session.bindings.get? name = some value
  /-- A reference comes to the value. -/
  read : Phrase.IsName name → ∀ host : Host, 0 < host.bound →
    (host.expand ['$' :: name]).run u = some (.ok [value], u)
  /-- A line that prints a reference gives the value back. -/
  printed : Phrase.IsName name → ∀ bound, ∃ w,
    Registry.builtin.dispatch (bound + 2) ("PRINT $".toList ++ name) u = some (.text value, w) ∧
      w.session.status = 0
  /-- If its name is none that a reference can have, no line refers to the variable. -/
  unread : ¬ Phrase.IsName name → ∀ line tokenized, tokenize line = .ok tokenized →
    ∀ token ∈ tokenized.tokens, token.kind = .variable → token.raw ≠ name

/-- A variable that has a value holds it. -/
theorem Terminal.Holds.of_bound {u : Terminal} {name value : Text}
    (h : u.session.bindings.get? name = some value) : u.Holds name value where
  bound := h
  read hn host hb := by
    have gives : (Phrase.reference name .done).Gives u.session value := .bound hn h
    have text : Text.words (Phrase.reference name .done).text = ['$' :: name] := by
      rw [Phrase.text, Phrase.text, List.append_nil]
      exact Text.cut_of_not_mem (by simp [hn.absent (c := ' ') (by decide)])
    have expanded := gives.run_expand host hb
    rwa [text] at expanded
  printed hn bound :=
    ⟨_, Registry.dispatch_print_reference bound hn h, (Terminal.Quiet.print _ _).status⟩
  unread other line tokenized ht token mem kind same :=
    other (same ▸ isName_of_tokenize ht mem kind)

/-! ## Commands that give a value -/

/-- An act that succeeds goes on from a value that it was given. -/
theorem Act.run_ofExcept_bind {α β : Type} {r : Except Fault α} {f : α → Act β} {s u : Terminal}
    {v : β} (h : (ofExcept r >>= f).run s = some (.ok v, u)) :
    ∃ x, r = .ok x ∧ (f x).run s = some (.ok v, u) := by
  cases r with
  | error e => cases h
  | ok x => exact ⟨x, rfl, h⟩

namespace Command

variable {host : Host} {words : List Text} {s u : Terminal} {output : Output}

/-- **What assigns a value** bound the name that its words came to, and gave back the value. -/
theorem run_assign (h : (assign.perform host words).run s = some (.ok output, u)) :
    ∃ word value keyword name t,
      (host.expand words).run s = some (.ok [word, value, keyword, name], t) ∧
        output = .text value ∧ u = t.setVariable name value := by
  obtain ⟨e, -, he⟩ | ⟨ws, t, expanded, h⟩ := Act.bind_eq_some.mp h
  · cases he
  · split at h
    · next word value keyword name =>
      split at h
      · obtain ⟨_, -, h⟩ := Act.run_ofExcept_bind h
        cases h
        exact ⟨word, value, keyword, name, t, expanded, rfl, rfl⟩
      · cases h
    · cases h

/-- The text that asks for a value. -/
def inputPrompt (parsed : Flags.Parsed) (t : Terminal) : Text :=
  (parsed.value? 'P').getD "INPUT".toList ++ t.session.display.prompt ++ [' ']

/-- **What asks for a value** bound the name among its words to the line that was read, in
capitals if that was wanted, and gave back the value. -/
theorem run_input (h : (input.perform host words).run s = some (.ok output, u)) :
    ∃ parsed t reply value, (host.parse .standard inputOptions words).run s = some (.ok parsed, t) ∧
      (t.print (inputPrompt parsed t)).readLine.1 = some reply ∧
      value = (if parsed.has 'U' then Text.upper reply else reply) ∧ output = .text value ∧
      u = (t.print (inputPrompt parsed t)).readLine.2.setVariable parsed.name value := by
  obtain ⟨e, -, he⟩ | ⟨parsed, t, sorted, h⟩ := Act.bind_eq_some.mp h
  · cases he
  · obtain ⟨_, -, h⟩ := Act.run_ofExcept_bind h
    let asked := t.print (inputPrompt parsed t)
    have printed : (liftM (Run.print (inputPrompt parsed t)) : Act Unit).run t
        = some (.ok (), asked) := rfl
    have read : (liftM Run.readLine : Act (Option Text)).run asked
        = some (.ok asked.readLine.1, asked.readLine.2) := rfl
    dsimp only at h
    rw [Act.run_session_bind] at h
    change ((liftM (Run.print (inputPrompt parsed t)) : Act Unit) >>= _).run t = _ at h
    rw [Act.run_bind_of_ok printed, Act.run_bind_of_ok read] at h
    rcases reply : asked.readLine.1 with _ | line
    · rw [reply] at h
      cases h
    · rw [reply] at h
      cases h
      exact ⟨parsed, t, line, _, sorted, reply, rfl, rfl, rfl⟩

end Command

namespace Registry

/-- **A variable that was given a value can be read back if its name is that of a reference.**  A
line that assigns a value or asks for one, if it succeeds, gave the variable that its words
name the value that it gives back, and a round of a repetition begins with the item in the
variable.  If the name is made of letters, digits and underscores, a reference to it comes to
the value, and printing the reference gives it back; otherwise no line refers to the
variable. -/
theorem holds_bound (bound : Nat) :
    (∀ line s output u, Builtin.ofLine? (Text.strip line) = some .assign →
      builtin.dispatch (bound + 1) line s = some (output, u) → u.session.status = 0 →
      ∃ word value keyword name t,
        ((builtin.host bound).expand (Text.words (Text.strip line))).run
          (entered s (Text.strip line)) = some (.ok [word, value, keyword, name], t) ∧
        output = .text value ∧ u.Holds name value) ∧
    (∀ line s output u, Builtin.ofLine? (Text.strip line) = some .input →
      builtin.dispatch (bound + 1) line s = some (output, u) → u.session.status = 0 →
      ∃ parsed reply value t,
        ((builtin.host bound).parse .standard Command.inputOptions
          (Text.words (Text.strip line))).run (entered s (Text.strip line)) = some (.ok parsed, t) ∧
        (t.print (Command.inputPrompt parsed t)).readLine.1 = some reply ∧
        value = (if parsed.has 'U' then Text.upper reply else reply) ∧
        output = .text value ∧ u.Holds parsed.name value) ∧
    ∀ name item s t, Command.Begins name item s t → t.Holds name item := by
  refine ⟨fun line s output u command ran well => ?_, fun line s output u command ran well => ?_,
    fun name item s t begins => .of_bound begins.value⟩
  · obtain ⟨v, performed, rfl⟩ := perform_of_status command ran well
    obtain ⟨word, value, keyword, name, t, expanded, rfl, rfl⟩ := Command.run_assign performed
    exact ⟨word, value, keyword, name, t, expanded, rfl,
      .of_bound (Table.get?_insert_self _ _ _)⟩
  · obtain ⟨v, performed, rfl⟩ := perform_of_status command ran well
    obtain ⟨parsed, t, reply, value, sorted, read, capital, rfl, rfl⟩ := Command.run_input performed
    exact ⟨parsed, reply, value, t, sorted, read, capital, rfl,
      .of_bound (Table.get?_insert_self _ _ _)⟩

/-- A sum that was assigned, a line that was read, and an item of a repetition. -/
theorem holds_bound_names :
    let console := Console.recorder { grid := ⟨60, 25⟩, input := ["so (".toList] }
    let start := Terminal.ofSettings {} console (.memory .empty) ⟨0⟩
    (∃ u, builtin.dispatch 4 "ASSIGN (ADD 1 2) TO X_1".toList start = some (.text "3".toList, u) ∧
      u.Holds "X_1".toList "3".toList) ∧
    (∃ u, builtin.dispatch 4 "INPUT -u Y".toList start = some (.text "SO (".toList, u) ∧
      u.Holds "Y".toList "SO (".toList) ∧
    ((start.update fun s => { s with executing := true }).setVariable "Z".toList []).Holds
      "Z".toList [] := by
  intro console start
  obtain ⟨assigned, asked, begun⟩ := holds_bound 3
  refine ⟨?_, ?_, ?_⟩
  · have ran : (builtin.dispatch 4 "ASSIGN (ADD 1 2) TO X_1".toList start).any (fun r =>
        decide (r.1 = .text "3".toList) && decide (r.2.session.status = 0)) = true := by
      decide +kernel
    obtain ⟨⟨output, u⟩, h, checked⟩ := (Option.any_eq_true _ _).mp ran
    simp only [Bool.and_eq_true, decide_eq_true_eq] at checked
    obtain ⟨rfl, well⟩ := checked
    obtain ⟨word, value, keyword, name, t, expanded, same, holds⟩ :=
      assigned _ _ _ _ (by decide +kernel) h well
    cases same
    have words : (((builtin.host 3).expand (Text.words (Text.strip
        "ASSIGN (ADD 1 2) TO X_1".toList))).run (entered start (Text.strip
          "ASSIGN (ADD 1 2) TO X_1".toList))).map Prod.fst
            = some (.ok ["ASSIGN".toList, "3".toList, "TO".toList, "X_1".toList]) := by
      decide +kernel
    rw [expanded] at words
    cases words
    exact ⟨u, h, holds⟩
  · have ran : (builtin.dispatch 4 "INPUT -u Y".toList start).any (fun r =>
        decide (r.1 = .text "SO (".toList) && decide (r.2.session.status = 0)) = true := by
      decide +kernel
    obtain ⟨⟨output, u⟩, h, checked⟩ := (Option.any_eq_true _ _).mp ran
    simp only [Bool.and_eq_true, decide_eq_true_eq] at checked
    obtain ⟨rfl, well⟩ := checked
    obtain ⟨parsed, reply, value, t, sorted, -, -, same, holds⟩ :=
      asked _ _ _ _ (by decide +kernel) h well
    cases same
    have name : (((builtin.host 3).parse .standard Command.inputOptions (Text.words (Text.strip
        "INPUT -u Y".toList))).run (entered start (Text.strip "INPUT -u Y".toList))).map
          (fun r => r.1.map Flags.Parsed.name) = some (.ok "Y".toList) := by
      decide +kernel
    rw [sorted] at name
    have same : parsed.name = "Y".toList := by simpa [Except.map] using name
    rw [same] at holds
    exact ⟨u, h, holds⟩
  · have running : (start.update fun s => { s with executing := true }).session.executing = true :=
      rfl
    exact begun _ _ _ _ (Command.Begins.of_executing running "Z".toList [])

/-- A value is assigned to a variable that no line refers to: the reference is one to another
variable, which does not exist or has another value. -/
theorem holds_bound_unreadable :
    let start := Terminal.ofSettings {} (.recorder { grid := ⟨60, 25⟩ }) (.memory .empty) ⟨0⟩
    let summary := fun r : Output × Terminal => (r.1, r.2.session.status)
    let run := fun lines : List Text => lines.foldlM (fun r line => builtin.dispatch 4 line r.2)
      (Output.none, start)
    ¬ Phrase.IsName "a-b".toList ∧
    (run ["ASSIGN 1 TO a-b".toList]).map (fun r => (summary r, r.2.session.bindings))
      = some ((.text "1".toList, 0), Table.empty.insert "a-b".toList "1".toList) ∧
    (run ["ASSIGN 1 TO a-b".toList, "PRINT $a-b".toList]).map summary = some (.failure, 1) ∧
    (run ["ASSIGN 2 TO a".toList, "ASSIGN 1 TO a-b".toList, "PRINT $a-b".toList]).map summary
      = some (.text "2-b".toList, 0) := by
  intro start summary run
  refine ⟨fun h => ?_, by decide +kernel, by decide +kernel, by decide +kernel⟩
  exact h.absent (c := '-') (by decide) (by decide)

end Registry

end Teletype
