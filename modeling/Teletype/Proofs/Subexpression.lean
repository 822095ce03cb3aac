/-
# Statements in parentheses

On a line of its own a choice or a repetition evaluates its operand, and carries out what stands
behind a keyword only when it is its turn (`Registry.dispatch_statement`).  In parentheses it is
a phrase like any other: everything that stands in it is evaluated, from left to right, and then
the line that it came to is dispatched.  The main statement is that **a line that uses a statement as a value calls the
parentheses in the operand, then all those behind the keywords, and then the statement; if
nothing stands behind the keywords but text, it is the statement with the value of its operand
that is carried out** (`Registry.dispatch_subexpression`).  Otherwise a branch that is not taken
is carried out as well, and a body before its variable has a value
(`Registry.dispatch_subexpression_untaken`).
-/
import Teletype.Proofs.Expansion
import Teletype.Proofs.Repetition

namespace Teletype

/-! ## Phrases one behind the other -/

namespace Phrase

section Append

variable (p q : Phrase)

/-- Two phrases come to what the one does and then to what the other does. -/
theorem evaluate_append (dispatch : Text → Run Output) :
    (p.append q).evaluate dispatch = (do
      let front ← p.evaluate dispatch
      let behind ← q.evaluate dispatch
      pure (front ++ behind)) := by
  induction p with
  | done => simp only [append, evaluate, pure_bind, List.nil_append, bind_pure]
  | char c rest ih =>
    simp only [append, evaluate, ih, bind_assoc, pure_bind, List.cons_append]
  | reference name rest ih =>
    simp only [append, evaluate, ih, bind_assoc, pure_bind, List.append_assoc]
  | quote inside rest _ ih =>
    simp only [append, evaluate, ih, bind_assoc, pure_bind, List.append_assoc]
  | paren inside rest _ ih =>
    simp only [append, evaluate, ih, bind_assoc, pure_bind, List.append_assoc]

/-- The parentheses of two phrases are those of the one and then those of the other. -/
theorem closings_append : (p.append q).closings = p.closings ++ q.closings := by
  induction p with
  | done => rfl
  | char c rest ih => exact ih
  | reference name rest ih => exact ih
  | quote inside rest _ ih => rw [append, closings, closings, ih, List.append_assoc]
  | paren inside rest _ ih =>
    rw [append, closings, closings, ih, List.append_assoc, List.cons_append]

/-- Two phrases are as deep as the deeper one. -/
theorem depth_append : (p.append q).depth = max p.depth q.depth := by
  induction p with
  | done => exact (Nat.zero_max _).symm
  | char c rest ih => exact ih
  | reference name rest ih => exact ih
  | quote inside rest _ ih => rw [append, depth, depth, ih, Nat.max_assoc]
  | paren inside rest _ ih => rw [append, depth, depth, ih, Nat.max_assoc]

/-- The words of two phrases with a space between them are those of both. -/
theorem words_append_space : (p.append (char ' ' q)).words = p.words ++ q.words := by
  have behind : ∀ (node : Phrase → Phrase) {ps : List Phrase} (qs : List Phrase), ps ≠ [] →
      onHead node (ps ++ qs) = onHead node ps ++ qs := by
    intro node ps qs nonempty
    cases ps with
    | nil => exact absurd rfl nonempty
    | cons p ps => rfl
  induction p with
  | done => rfl
  | char c rest ih =>
    rw [append, words, words, ih]
    split
    · rfl
    · exact behind _ _ rest.words_ne_nil
  | reference name rest ih =>
    rw [append, words, words, ih, behind _ _ rest.words_ne_nil]
  | quote inside rest _ ih =>
    rw [append, words, words, ih, behind _ _ rest.words_ne_nil]
  | paren inside rest _ ih =>
    rw [append, words, words, ih, behind _ _ rest.words_ne_nil]

variable {p q}

/-- Phrases that are well formed are so with a space between them. -/
theorem Nest.append_space {allowed : Char → Bool} (space : allowed ' ' = true)
    (hp : p.Nest allowed) (hq : q.Nest allowed) : (p.append (char ' ' q)).Nest allowed := by
  -- a name in front of the space goes on as far as it did
  have ends : ∀ rest : Phrase, startsName rest.text = false →
      startsName (rest.append (char ' ' q)).text = false := by
    intro rest h
    rw [text_append]
    exact startsName_append h rfl
  induction p with
  | done => exact ⟨space, fun h => absurd h (by decide), hq⟩
  | char c rest ih => exact ⟨hp.1, fun h => ends _ (hp.2.1 h), ih hp.2.2⟩
  | reference name rest ih => exact ⟨hp.1, ends _ hp.2.1, ih hp.2.2⟩
  | quote inside rest _ ih => exact ⟨hp.1, ih hp.2⟩
  | paren inside rest _ ih => exact ⟨hp.1, ih hp.2⟩

end Append

/-! ## Phrases that are texts -/

/-- No parenthesis stands in a text. -/
theorem closings_ofText (t : Text) : (ofText t).closings = [] := by
  induction t with
  | nil => rfl
  | cons c t ih => exact ih

/-- A row is a nest in which nothing is nested. -/
theorem Row.nest {allowed : Char → Bool} {p : Phrase} (h : p.Row allowed) : p.Nest allowed := by
  induction p with
  | done => exact trivial
  | char c rest ih => exact ⟨h.1, h.2.1, ih h.2.2⟩
  | reference name rest ih => exact ⟨h.1, h.2.1, ih h.2.2⟩
  | quote inside rest => exact absurd h id
  | paren inside rest => exact absurd h id

/-- A text in which no span begins or ends is well formed. -/
theorem WellFormed.ofText {t : Text} (plain : ∀ c ∈ spanMarks, c ∉ t) :
    (ofText t).WellFormed := by
  obtain ⟨quote, dollar, hopen, hclose⟩ := forall_spanMarks.mp plain
  refine (row_ofText (fun c hc => ?_) dollar).nest
  have other : ∀ d, d ∉ t → c ≠ d := fun d hd same => hd (same ▸ hc)
  simp [bare, other _ quote, other _ hopen, other _ hclose]

/-- A text without spaces is one word. -/
theorem words_ofText {t : Text} (space : ' ' ∉ t) : (ofText t).words = [ofText t] := by
  induction t with
  | nil => rfl
  | cons c t ih =>
    rw [List.mem_cons, not_or] at space
    rw [ofText, words, if_neg (Ne.symm space.1), ih space.2]
    rfl

/-- No span stands in the phrase: it is its text. -/
def IsText (p : Phrase) : Prop := ofText p.text = p

/-- Whether no span stands in the phrase. -/
instance (p : Phrase) : Decidable p.IsText := inferInstanceAs (Decidable (_ = _))

/-- A phrase without spans comes to its text. -/
theorem IsText.evaluate_eq {p : Phrase} (h : p.IsText) (dispatch : Text → Run Output) :
    p.evaluate dispatch = pure p.text := by
  have same := evaluate_ofText dispatch p.text
  rwa [h] at same

/-- What a phrase in parentheses comes to. -/
theorem evaluate_paren_done (dispatch : Text → Run Output) (p : Phrase) :
    (paren p done).evaluate dispatch = (do
      let line ← p.evaluate dispatch
      Output.value <$> Expansion.valueOf dispatch line) := by
  simp [evaluate]

/-- A phrase in parentheses is solid. -/
theorem WellFormed.solid_paren {p : Phrase} (h : p.WellFormed) (percent : '%' ∉ p.text) :
    (paren p done).Solid where
  wellFormed := ⟨h, trivial⟩
  percent := by simpa [text] using percent
  single := rfl
  nonempty := List.cons_ne_nil _ _
  full := .concat ('(' :: p.text) rfl

end Phrase

/-! ## Lines that assign a value -/

namespace Command

/-- A line that assigns what a phrase comes to. -/
def assigning (p : Phrase) (name : Text) : Phrase :=
  (Phrase.ofText "ASSIGN".toList).append (.char ' '
    (p.append (.char ' ' ((Phrase.ofText "TO".toList).append (.char ' ' (.ofText name))))))

variable {p : Phrase} {name : Text}

/-- The text of a line that assigns a value. -/
theorem text_assigning (p : Phrase) (name : Text) :
    (assigning p name).text = "ASSIGN ".toList ++ p.text ++ " TO ".toList ++ name := by
  simp [assigning, Phrase.text_append, Phrase.text, Phrase.text_ofText]

/-- **Assigning a phrase is giving the variable what the phrase comes to.** -/
theorem perform_assign (host : Host) (h : p.Solid) (hn : Phrase.IsName name)
    (hb : p.depth < host.bound) :
    assign.perform host (Text.words (assigning p name).text) = (do
      let value ← p.evaluate host.dispatch
      setVariable name value
      pure (.text value)) := by
  have wellFormed : (assigning p name).WellFormed := by
    have command : (Phrase.ofText "ASSIGN".toList).WellFormed :=
      .ofText (forall_spanMarks.mpr (by decide))
    have keyword : (Phrase.ofText "TO".toList).WellFormed :=
      .ofText (forall_spanMarks.mpr (by decide))
    exact .append_space rfl command (.append_space rfl h.wellFormed
      (.append_space rfl keyword (Phrase.WellFormed.ofText hn.plain)))
  have percent : '%' ∉ (assigning p name).text := by
    have word : '%' ∉ "ASSIGN ".toList ∧ '%' ∉ " TO ".toList := by decide
    simp only [text_assigning, List.mem_append, not_or]
    exact ⟨⟨⟨word.1, h.percent⟩, word.2⟩, hn.absent (by decide)⟩
  have depth : (assigning p name).depth < host.bound := by
    simp only [assigning, Phrase.depth_append, Phrase.depth, Phrase.depth_ofText]
    omega
  have words : (assigning p name).words = [.ofText "ASSIGN".toList, p, .ofText "TO".toList,
      .ofText name] := by
    rw [assigning, Phrase.words_append_space, Phrase.words_append_space, Phrase.words_append_space,
      Phrase.words_ofText (hn.absent (by decide)), h.single]
    rfl
  show (host.expand _ >>= _) = _
  rw [wellFormed.expand_eq percent depth, Phrase.evaluateWords, words]
  simp only [List.mapM_cons, List.mapM_nil, Phrase.evaluate_ofText, pure_bind, bind_assoc]
  refine bind_congr fun value => ?_
  rw [checkName_of_isName hn]
  rfl

end Command

/-! ## Statements -/

/-- A statement whose operand is evaluated first, and with parts behind it that wait. -/
inductive Statement
  /-- A choice between branches. -/
  | choice (condition positive : Phrase) (negative : Option Phrase)
  /-- A repetition of a body for the lines of a list. -/
  | repetition (name : Text) (list body : Phrase)

namespace Statement

/-- What stands in front of the operand. -/
def head : Statement → Text
  | choice _ _ _ => "IF ".toList
  | repetition name _ _ => "FOR ".toList ++ name ++ " IN ".toList

/-- What stands in front of the condition of a choice. -/
theorem head_choice (condition positive : Phrase) (negative : Option Phrase) :
    (choice condition positive negative).head = "IF ".toList := rfl

/-- What stands in front of the list of a repetition. -/
theorem head_repetition (name : Text) (list body : Phrase) :
    (repetition name list body).head = "FOR ".toList ++ name ++ " IN ".toList := rfl

/-- The operand. -/
def operand : Statement → Phrase
  | choice condition _ _ => condition
  | repetition _ list _ => list

/-- What waits behind the operand, each part with the keyword in front of it. -/
def parts : Statement → List (Text × Phrase)
  | choice _ positive none => [(" THEN ".toList, positive)]
  | choice _ positive (some negative) =>
    [(" THEN ".toList, positive), (" ELSE ".toList, negative)]
  | repetition _ _ body => [(" DO ".toList, body)]

/-- What stands behind the operand. -/
def rest (st : Statement) : Phrase :=
  st.parts.foldr (fun part behind => (Phrase.ofText part.1).append (part.2.append behind)) .done

/-- The statement as a phrase. -/
def phrase (st : Statement) : Phrase := (Phrase.ofText st.head).append (st.operand.append st.rest)

/-- The statement with a text in place of its operand. -/
def given (st : Statement) (value : Text) : Text := st.head ++ value ++ st.rest.text

/-- What the statement comes to in parentheses. -/
def worth (dispatch : Text → Run Output) (st : Statement) : Act Text :=
  (Phrase.paren st.phrase .done).evaluate dispatch

variable (dispatch : Text → Run Output) (st : Statement)

/-- The text of a statement has the text of its operand. -/
theorem text_phrase : st.phrase.text = st.given st.operand.text := by
  rw [phrase, Phrase.text_append, Phrase.text_append, Phrase.text_ofText, given, List.append_assoc]

/-- What stands behind the operand is written part by part. -/
theorem text_rest : st.rest.text = st.parts.flatMap fun part => part.1 ++ part.2.text := by
  rw [rest]
  induction st.parts with
  | nil => rfl
  | cons part parts ih =>
    rw [List.foldr_cons, Phrase.text_append, Phrase.text_append, Phrase.text_ofText, ih,
      List.flatMap_cons, List.append_assoc]

/-- The parentheses behind the operand are those of the parts. -/
theorem closings_rest : st.rest.closings = st.parts.flatMap fun part => part.2.closings := by
  rw [rest]
  induction st.parts with
  | nil => rfl
  | cons part parts ih =>
    rw [List.foldr_cons, Phrase.closings_append, Phrase.closings_append, Phrase.closings_ofText,
      List.nil_append, ih, List.flatMap_cons]

/-- Parts that are texts come to what stands behind the operand. -/
theorem evaluate_rest (text : ∀ part ∈ st.parts, part.2.IsText) :
    st.rest.evaluate dispatch = pure st.rest.text := by
  rw [rest]
  revert text
  induction st.parts with
  | nil => exact fun _ => rfl
  | cons part parts ih =>
    intro text
    rw [List.forall_mem_cons] at text
    rw [List.foldr_cons, Phrase.evaluate_append, Phrase.evaluate_append, Phrase.evaluate_ofText,
      text.1.evaluate_eq, ih text.2, Phrase.text_append, Phrase.text_append, Phrase.text_ofText]
    rfl

/-- **In parentheses all of a statement is evaluated before it is carried out.** -/
theorem worth_eq : st.worth dispatch = (do
    let value ← st.operand.evaluate dispatch
    let behind ← st.rest.evaluate dispatch
    Output.value <$> Expansion.valueOf dispatch (st.head ++ value ++ behind)) := by
  rw [worth, Phrase.evaluate_paren_done, phrase, Phrase.evaluate_append, Phrase.evaluate_append,
    Phrase.evaluate_ofText]
  simp only [pure_bind, bind_assoc, List.append_assoc]

/-- **The parentheses in a statement are called in order, and then the statement**, whatever
keywords they stand behind. -/
theorem visits_worth : (st.worth dispatch).Visits dispatch
    (st.operand.closings ++ st.parts.flatMap (fun part => part.2.closings) ++ [st.phrase]) := by
  have visits := (Phrase.paren st.phrase .done).visits_evaluate dispatch
  have parens : (Phrase.paren st.phrase .done).closings
      = st.operand.closings ++ st.parts.flatMap (fun part => part.2.closings) ++ [st.phrase] := by
    show st.phrase.closings ++ [st.phrase] = _
    rw [← closings_rest, phrase, Phrase.closings_append, Phrase.closings_append,
      Phrase.closings_ofText, List.nil_append]
  rwa [parens] at visits

end Statement

/-! ## Statements by themselves -/

namespace Command.Clause

/-- The clause is written as the phrase, and what stands in its parentheses is text. -/
inductive Shows : Clause → Phrase → Prop
  /-- Parentheses with a text in them. -/
  | paren (e : Text) (h : Enclosed e) : Shows (.paren e h) (.paren (.ofText e) .done)
  /-- Quotes with a text in them. -/
  | quote (t : Text) (h : '"' ∉ t) : Shows (.quote t h) (.quote (.ofText t) .done)
  /-- A reference. -/
  | reference (name : Text) (h : Simple name) : Shows (.reference name h) (.reference name .done)
  /-- A word. -/
  | bare (w : Text) (h : Bare w) : Shows (.bare w h) (.ofText w)

namespace Shows

variable {c : Clause} {p : Phrase}

/-- Both have one text. -/
theorem text_eq (h : c.Shows p) : c.text = p.text := by
  cases h with
  | paren e => simp [Clause.text, Phrase.text, Phrase.text_ofText]
  | quote t => simp [Clause.text, Phrase.text, Phrase.text_ofText]
  | reference name => simp [Clause.text, Phrase.text]
  | bare w => exact (Phrase.text_ofText w).symm

/-- The phrase is one word. -/
theorem words_eq (h : c.Shows p) : p.words = [p] := by
  cases h with
  | bare w h => exact Phrase.words_ofText h.space
  | _ => rfl

/-- The phrase comes to the text of what the clause comes to. -/
theorem evaluate_eq (h : c.Shows p) (host : Host) :
    p.evaluate host.dispatch = Output.value <$> c.value host := by
  cases h with
  | paren e =>
    rw [Phrase.evaluate_paren_done, Phrase.evaluate_ofText, pure_bind]
    rfl
  | quote t =>
    simp only [Phrase.evaluate, Phrase.evaluate_ofText, pure_bind, List.append_nil]
    rfl
  | reference name =>
    simp only [Phrase.evaluate, pure_bind, List.append_nil, value, map_bind, map_pure]
    rfl
  | bare w =>
    rw [Phrase.evaluate_ofText]
    rfl

end Shows

/-- What a choice goes on with behind its condition. -/
def branch (host : Host) (positive : Clause) (negative : Option Clause) (value : Text) :
    Act Output :=
  if Number.isTruthy value then positive.perform host
  else match negative with
    | none => pure .none
    | some negative => negative.perform host

/-- A choice evaluates its condition and goes on with the value. -/
theorem perform_choose (host : Host) (head : Text) {condition : Clause} {p : Phrase}
    (h : condition.Shows p) (positive : Clause) (negative : Option Clause) (s : Terminal) :
    (choose.perform host (head :: choiceWords condition positive negative)).run s
      = (p.evaluate host.dispatch >>= branch host positive negative).run s := by
  rw [run_choose, h.evaluate_eq, bind_map_left]
  rcases evaluated : (condition.value host).run s with _ | ⟨f | result, t⟩
  · exact (Act.run_bind_of_none evaluated).symm
  · exact (Act.run_bind_of_error evaluated).symm
  · rw [Act.run_bind_of_ok evaluated]
    dsimp only [branch]
    split
    · rfl
    · cases negative <;> rfl

/-- The list of a repetition comes to what its phrase does. -/
theorem items_eq (host : Host) {list : Clause} {p : Phrase} (h : list.Shows p)
    (wellFormed : p.WellFormed) (percent : '%' ∉ p.text) (hb : p.depth < host.bound) :
    list.items host = p.evaluate host.dispatch := by
  rw [items, h.text_eq, wellFormed.expand_eq percent hb, Phrase.evaluateWords, h.words_eq]
  simp [List.mapM_cons, Text.unwords, Text.join]

end Command.Clause

namespace Statement

open Command (Clause Bare)

/-- What a statement by itself does with the value of its operand: what stands behind the operand
is carried out as it is written, when it is its turn. -/
inductive Acts : Statement → (Host → Text → Act Output) → Prop
  /-- A choice carries out one branch. -/
  | choice {condition positive : Phrase} {negative : Option Phrase} {c p : Clause}
      {n : Option Clause} (operand : c.Shows condition) (first : p.text = positive.text)
      (second : n.map Clause.text = negative.map Phrase.text) :
      Acts (.choice condition positive negative) fun host => Clause.branch host p n
  /-- A repetition carries out its body for the lines of the value. -/
  | repetition {name : Text} {list body : Phrase} {c : Clause} (operand : c.Shows list)
      (differs : c.Differs "DO".toList) (hn : Phrase.IsName name)
      (other : Text.sameAscii name "IN".toList = false) :
      Acts (.repetition name list body) fun host value =>
        if value = [] then pure .none
        else Act.asProgram (Command.repeatFor host name body.text [] (Text.lines value))

/-- The statement with another operand. -/
def withOperand (operand : Phrase) : Statement → Statement
  | choice _ positive negative => choice operand positive negative
  | repetition name _ body => repetition name operand body

/-- A value that stands for itself as an operand. -/
structure Takes (value : Text) : Prop where
  /-- It is a word. -/
  word : Bare value
  /-- It is not the keyword behind a list. -/
  differs : Text.sameAscii value "DO".toList = false
  /-- No span begins or ends in it. -/
  plain : ∀ c ∈ spanMarks, c ∉ value
  /-- No percent sign stands in it. -/
  percent : '%' ∉ value

variable {st : Statement} {act : Host → Text → Act Output} {value : Text}

/-- The operand is the one that was put there. -/
theorem operand_withOperand (p : Phrase) (st : Statement) : (st.withOperand p).operand = p := by
  cases st <;> rfl

/-- A statement with a value in place of its operand is written so. -/
theorem given_eq (st : Statement) (value : Text) :
    st.given value = (st.withOperand (.ofText value)).phrase.text := by
  rw [text_phrase, operand_withOperand, Phrase.text_ofText]
  cases st with
  | choice _ _ negative => cases negative <;> rfl
  | repetition => rfl

/-- With a value in place of its operand a statement does the same. -/
theorem Acts.withOperand (h : st.Acts act) (ht : Takes value) :
    (st.withOperand (.ofText value)).Acts act := by
  cases h with
  | choice _ first second => exact .choice (.bare value ht.word) first second
  | repetition _ _ hn other =>
    refine .repetition (.bare value ht.word) (fun w h same => ?_) hn other
    cases same
    exact ht.differs

end Statement

namespace Registry

open Command (Clause repetitionLine)

/-- **A statement by itself evaluates its operand and goes on with the value.** -/
theorem dispatch_statement (bound : Nat) (s : Terminal) {st : Statement}
    {act : Host → Text → Act Output} (h : st.Acts act) (wellFormed : st.operand.WellFormed)
    (percent : '%' ∉ st.operand.text) (deep : st.operand.depth ≤ bound) :
    builtin.dispatch (bound + 2) st.phrase.text s
      = (Run.settle (st.operand.evaluate (builtin.dispatch (bound + 1)) >>=
          act (builtin.host (bound + 1))) (entered s (Text.strip st.phrase.text))).map leave := by
  cases h with
  | @choice condition positive negative c p n operand first second =>
    have written : (Statement.choice condition positive negative).phrase.text
        = Clause.choiceLine c p n := by
      rw [Statement.text_phrase, Statement.given, Statement.text_rest, List.append_assoc]
      rcases n with _ | n <;> rcases negative with _ | negative
      · rw [Clause.choiceLine, operand.text_eq, first, Statement.parts, List.flatMap_singleton]
        rfl
      · cases second
      · cases second
      · have last : n.text = negative.text := Option.some.inj second
        rw [Clause.choiceLine, operand.text_eq, first, last, Statement.parts, List.flatMap_cons,
          List.flatMap_singleton, List.append_assoc]
        rfl
    have performed := Clause.perform_choose (builtin.host (bound + 1)) "IF".toList operand p n
      (entered s (Clause.choiceLine c p n))
    rw [written, dispatch_choiceLine, (choiceLine_parts c p n).1]
    exact congrArg (Option.map leave) (Run.settle_congr performed)
  | @repetition name list body c operand differs hn other =>
    have written : (Statement.repetition name list body).phrase.text
        = repetitionLine name c body.text := by
      rw [Statement.text_phrase, Statement.given, Statement.text_rest, repetitionLine,
        operand.text_eq, Statement.parts, List.flatMap_singleton, Statement.head_repetition]
      simp only [List.append_assoc]
      rfl
    have items := Clause.items_eq (builtin.host (bound + 1)) operand wellFormed percent
      (Nat.lt_succ_of_le deep)
    rw [written, dispatch_repetitionLine bound hn other c differs body.text, items]
    rfl

/-- A line that assigns what a phrase comes to gives the variable this value. -/
theorem dispatch_assigning {bound : Nat} {s : Terminal} {p : Phrase} {name : Text} (h : p.Solid)
    (hn : Phrase.IsName name) (hb : p.depth < bound) :
    let line := (Command.assigning p name).text
    builtin.dispatch (bound + 1) line s
      = (Run.settle (do
          let value ← p.evaluate (builtin.dispatch bound)
          Command.setVariable name value
          pure (.text value)) (entered s line)).map leave := by
  intro line
  have written : line = "ASSIGN ".toList ++ (p.text ++ " TO ".toList ++ name) := by
    simp only [line, Command.text_assigning, List.append_assoc]
  have whole : Text.strip line = line := by
    refine Text.strip_eq_self (fun c hc => ?_) fun c hc => ?_
    · rw [written] at hc
      cases hc
      rfl
    · rw [written, ← List.append_assoc, List.getLast?_append_of_ne_nil _ hn.1] at hc
      exact isBlank_of_isNameChar (hn.2 c (List.mem_of_getLast? hc))
  have named : Builtin.ofLine? line = some .assign := by
    have word : Text.firstWord line = "ASSIGN".toList := by
      rw [written]
      rfl
    rw [Builtin.ofLine?, word]
    decide +kernel
  have performed := Command.perform_assign (builtin.host bound) h hn hb
  rw [dispatch_command (by rw [whole, named]), whole]
  exact congrArg (fun a => (Run.settle a (entered s line)).map leave) performed

/-- A statement with a value in place of its operand goes on with the value. -/
theorem dispatch_given (bound : Nat) (s : Terminal) {st : Statement}
    {act : Host → Text → Act Output} (h : st.Acts act) {value : Text}
    (ht : Statement.Takes value) :
    builtin.dispatch (bound + 2) (st.given value) s
      = (Run.settle (act (builtin.host (bound + 1)) value)
          (entered s (Text.strip (st.given value)))).map leave := by
  have itself := dispatch_statement bound s (h.withOperand ht)
  rw [Statement.operand_withOperand, Phrase.text_ofText, Phrase.depth_ofText,
    Phrase.evaluate_ofText, pure_bind, ← st.given_eq] at itself
  exact itself (.ofText ht.plain) ht.percent (Nat.zero_le bound)

/-- **A statement that is used as a value is evaluated in full and then carried out.**  A line
that prints a statement in parentheses, or assigns it to a variable, does so with what the
statement comes to there.  The parentheses in the operand are called, then those in the parts
behind it, whatever keywords these stand behind, and then the line that the statement came to.
If nothing stands in the parts but text, this is the statement with the value of its operand,
and if nothing stands in the operand either, it is the statement by itself.  A statement by
itself evaluates its operand and goes on with the value and the parts as they are written, and
with a word in place of the operand it goes on in the same way with this word. -/
theorem dispatch_subexpression (bound : Nat) (s : Terminal) (st : Statement) {name : Text}
    (wellFormed : st.phrase.WellFormed) (percent : '%' ∉ st.phrase.text)
    (deep : st.phrase.depth ≤ bound) (hn : Phrase.IsName name) :
    let dispatch := builtin.dispatch (bound + 2)
    let printed := "PRINT (".toList ++ st.phrase.text ++ [')']
    let assigned := "ASSIGN (".toList ++ st.phrase.text ++ ") TO ".toList ++ name
    builtin.dispatch (bound + 3) printed s
      = (Run.settle (st.worth dispatch >>= Command.say) (entered s printed)).map leave ∧
    builtin.dispatch (bound + 3) assigned s
      = (Run.settle (do
          let value ← st.worth dispatch
          Command.setVariable name value
          pure (.text value)) (entered s assigned)).map leave ∧
    (st.worth dispatch).Visits dispatch
      (st.operand.closings ++ st.parts.flatMap (fun part => part.2.closings) ++ [st.phrase]) ∧
    st.worth dispatch = (do
      let value ← st.operand.evaluate dispatch
      let behind ← st.rest.evaluate dispatch
      Output.value <$> Expansion.valueOf dispatch (st.head ++ value ++ behind)) ∧
    ((∀ part ∈ st.parts, part.2.IsText) →
      st.worth dispatch = (do
        let value ← st.operand.evaluate dispatch
        Output.value <$> Expansion.valueOf dispatch (st.given value)) ∧
      (st.operand.IsText →
        st.worth dispatch = Output.value <$> Expansion.valueOf dispatch st.phrase.text)) ∧
    ∀ act, st.Acts act →
      builtin.dispatch (bound + 3) st.phrase.text s
        = (Run.settle (st.operand.evaluate dispatch >>= act (builtin.host (bound + 2)))
            (entered s (Text.strip st.phrase.text))).map leave ∧
      ∀ value t, Statement.Takes value → dispatch (st.given value) t
        = (Run.settle (act (builtin.host (bound + 1)) value)
            (entered t (Text.strip (st.given value)))).map leave := by
  intro dispatch printed assigned
  have solid := wellFormed.solid_paren percent
  have inside : (Phrase.paren st.phrase .done).depth < bound + 2 := by
    show max (st.phrase.depth + 1) 0 < bound + 2
    omega
  refine ⟨?_, ?_, st.visits_worth dispatch, st.worth_eq dispatch, fun text => ?_,
    fun act acts => ⟨?_, fun value t takes => dispatch_given bound t acts takes⟩⟩
  · have line : "PRINT ".toList ++ (Phrase.paren st.phrase .done).text = printed := by
      simp [printed, Phrase.text]
    have said := dispatch_printing (s := s) solid inside
    rw [line] at said
    exact said
  · have line : (Command.assigning (.paren st.phrase .done) name).text = assigned := by
      simp [assigned, Command.text_assigning, Phrase.text]
    have given := dispatch_assigning (s := s) solid hn inside
    rw [line] at given
    exact given
  · have late : st.worth dispatch = (do
        let value ← st.operand.evaluate dispatch
        Output.value <$> Expansion.valueOf dispatch (st.given value)) := by
      rw [st.worth_eq, st.evaluate_rest dispatch text]
      rfl
    refine ⟨late, fun whole => ?_⟩
    rw [late, whole.evaluate_eq, pure_bind, st.text_phrase]
  · -- the operand is a part of the statement, and so is well formed and no deeper
    have operand : st.operand.WellFormed := wellFormed.of_append.2.of_append.1
    have absent : '%' ∉ st.operand.text := by
      rw [st.text_phrase, Statement.given, List.mem_append, List.mem_append, not_or, not_or]
        at percent
      exact percent.1.2
    have shallow : st.operand.depth ≤ bound + 1 := by
      rw [Statement.phrase, Phrase.depth_append, Phrase.depth_append] at deep
      omega
    exact dispatch_statement (bound + 1) s acts operand absent shallow

/-- A choice between words whose condition stands in parentheses: both ways it is the choice of
the word that the condition comes to. -/
theorem dispatch_subexpression_words :
    let start := Terminal.ofSettings {} (.recorder { grid := ⟨60, 25⟩ }) (.memory .empty) ⟨0⟩
    let lines := fun r : Output × Terminal => (r.1, r.2.trace.reverse.filterMap Event.line?)
    let dispatch := builtin.dispatch 3
    let st := Statement.choice (.paren (.ofText "EQUALS a a".toList) .done) (.ofText "yes".toList)
      (some (.ofText "no".toList))
    let line := "IF (EQUALS a a) THEN yes ELSE no".toList
    (st.phrase.WellFormed ∧ '%' ∉ st.phrase.text ∧ st.phrase.depth ≤ 1 ∧
      Phrase.IsName "Y".toList ∧ (∀ part ∈ st.parts, part.2.IsText)) ∧
    st.worth dispatch = (do
      let value ← st.operand.evaluate dispatch
      Output.value <$> Expansion.valueOf dispatch (st.given value)) ∧
    (∃ act, st.Acts act ∧
      builtin.dispatch 4 line start
        = (Run.settle (st.operand.evaluate dispatch >>= act (builtin.host 3))
            (entered start line)).map leave ∧
      Statement.Takes "TRUE".toList ∧
      ∀ t, dispatch "IF TRUE THEN yes ELSE no".toList t
        = (Run.settle (act (builtin.host 2) "TRUE".toList)
            (entered t "IF TRUE THEN yes ELSE no".toList)).map leave) ∧
    (builtin.dispatch 4 line start).map lines
      = some (.text "yes".toList, [line, "EQUALS a a".toList]) ∧
    (builtin.dispatch 4 ("PRINT (".toList ++ line ++ [')']) start).map lines
      = some (.text "yes".toList, ["PRINT (".toList ++ line ++ [')'], "EQUALS a a".toList,
          "IF TRUE THEN yes ELSE no".toList]) := by
  intro start lines dispatch st line
  have wellFormed : st.phrase.WellFormed := by
    simp [st, Phrase.WellFormed, Statement.phrase, Statement.head_choice, Statement.operand,
      Statement.rest, Statement.parts, Phrase.append, Phrase.ofText, Phrase.Nest, Phrase.bare]
  have percent : '%' ∉ st.phrase.text := by decide
  have deep : st.phrase.depth ≤ 1 := by decide
  have name : Phrase.IsName "Y".toList := ⟨by decide, List.all_eq_true.mp rfl⟩
  have text : ∀ part ∈ st.parts, part.2.IsText := by decide
  have word : ∀ {w : Text}, Phrase.IsName w → (∀ k ∈ Command.branchWords,
      Text.sameAscii w k = false) → w.head? ≠ some '$' → Command.Bare w :=
    fun h other constant => ⟨.of_isName h, h.1, constant, other⟩
  have yes : Command.Bare "yes".toList :=
    word ⟨by decide, List.all_eq_true.mp rfl⟩ (by decide) (by decide)
  have no : Command.Bare "no".toList :=
    word ⟨by decide, List.all_eq_true.mp rfl⟩ (by decide) (by decide)
  have truth : Phrase.IsName "TRUE".toList := ⟨by decide, List.all_eq_true.mp rfl⟩
  have takes : Statement.Takes "TRUE".toList :=
    ⟨word truth (by decide) (by decide), by decide, truth.plain, by decide⟩
  have enclosed : Command.Enclosed "EQUALS a a".toList :=
    ⟨by decide, by rw [show brackets _ = [] by decide]; exact .of_cancel (by simp) .refl⟩
  have acts : st.Acts fun host => Clause.branch host (.bare _ yes) (some (.bare _ no)) :=
    .choice (.paren _ enclosed) rfl rfl
  obtain ⟨-, -, -, -, late, itself⟩ := dispatch_subexpression 1 start st wellFormed percent deep name
  obtain ⟨alone, given⟩ := itself _ acts
  have written : st.phrase.text = line := by decide +kernel
  have trimmed : Text.strip line = line := by decide +kernel
  have put : st.given "TRUE".toList = "IF TRUE THEN yes ELSE no".toList := by decide +kernel
  have trimmed' : Text.strip "IF TRUE THEN yes ELSE no".toList
      = "IF TRUE THEN yes ELSE no".toList := by decide +kernel
  rw [written, trimmed] at alone
  have given := fun t => given _ t takes
  rw [put, trimmed'] at given
  exact ⟨⟨wellFormed, percent, deep, name, text⟩, (late text).1, ⟨_, acts, alone, takes, given⟩,
    by decide +kernel, by decide +kernel⟩

/-- Where parentheses stand in the parts of a statement, what would not be carried out by itself
is carried out in parentheses: the branch that is not taken loses the stored program, and the
body of a repetition is evaluated before its variable has a value. -/
theorem dispatch_subexpression_untaken :
    let start := Terminal.ofSettings {} (.recorder { grid := ⟨60, 25⟩ }) (.memory .empty) ⟨0⟩
    let s := start.update fun t => { t with
      bindings := t.bindings.insert "L".toList "a\nb".toList
      program := t.program.setLine 10 "PRINT A".toList }
    let summary := fun r : Output × Terminal => (r.1, r.2.session.status,
      decide (r.2.session.program = s.session.program), r.2.trace.reverse.filterMap Event.line?)
    let choice := "IF 1 THEN (PRINT yes) ELSE (NEW)".toList
    let repetition := "FOR X IN $L DO PRINT $X".toList
    let nested := fun line : Text => "PRINT (".toList ++ line ++ [')']
    (builtin.dispatch 5 choice s).map summary
      = some (.text "yes".toList, 0, true, [choice, "PRINT yes".toList]) ∧
    (builtin.dispatch 5 (nested choice) s).map summary
      = some (.failure, 1, false,
          [nested choice, "PRINT yes".toList, "NEW".toList, "IF 1 THEN yes ELSE".toList]) ∧
    (builtin.dispatch 5 repetition s).map summary
      = some (.text "a\nb".toList, 0, true,
          [repetition, "PRINT $X".toList, "PRINT $X".toList]) ∧
    (builtin.dispatch 5 (nested repetition) s).map summary
      = some (.failure, 1, true, [nested repetition]) := by
  intro start s summary choice repetition nested
  exact ⟨by decide +kernel, by decide +kernel, by decide +kernel, by decide +kernel⟩

end Registry

end Teletype
