/-
# Calculations

A command that calculates takes its operands from texts and gives its result back as one.  In a
calculation an operand is a number, a variable, or another operation in parentheses.  What an
operation comes to takes the place of its parentheses as a text, in a line that is then dispatched,
and the command reads it there.  The main statement is that **numbers survive being texts**
(`Registry.numbers_survive`): what is read from the text of a number is the number, with zero
for negative zero, and so a calculation comes to what its operations give of their operands.
-/
import Mathlib
import Teletype.Proofs.Numeral
import Teletype.Proofs.Subexpression

namespace Teletype

/-! ## Numbers as operands -/

namespace Number

open Binary Decimal

variable {x y : Float} {c : Char}

/-- It is a number. -/
def IsNumber (x : Float) : Prop := meaning x.toBits ≠ .nan

instance (x : Float) : Decidable (IsNumber x) := inferInstanceAs (Decidable (_ ≠ _))

/-- What is left of a number when it is stored as a text: zero loses its sign. -/
def stored (x : Float) : Float := if x.toBits = negativeZero then Float.ofBits 0 else x

/-- **A number is read back from its text.** -/
theorem read?_text (h : IsNumber x) : read? (text x) = some (stored x) := by
  rw [read?, text, readBits?_textOfBits h, Option.map_some, stored]
  split
  · rfl
  · rw [Float.ofBits_toBits]

/-- A command takes the text of a number for the number. -/
theorem operand_text (command : Text) (h : IsNumber x) : operand command (text x) = .ok (stored x) := by
  rw [operand, read?_text h]

/-- A command takes the texts of two numbers for the numbers. -/
theorem operands_text (command word : Text) (hx : IsNumber x) (hy : IsNumber y) :
    operands command [word, text x, text y] = .ok (stored x, stored y) := by
  rw [operands, operand_text command hx, operand_text command hy]
  rfl

/-- A digit may stand in a name. -/
theorem isNameChar_of_isDigit (h : isDigit c = true) : isNameChar c = true := by
  have code := (isDigit_iff c).mp h
  have digit : c.isDigit = true := by
    rw [Char.isDigit, Bool.and_eq_true, decide_eq_true_eq, decide_eq_true_eq]
    exact code
  rw [isNameChar, Char.isAlphanum, digit, Bool.or_true, Bool.true_or]

/-- The character may stand in the text of a number. -/
def isNumberChar (c : Char) : Bool := isNameChar c || c = '.' || c = '-'

/-- The text of a number has characters, all of which may stand there. -/
theorem text_chars (x : Float) : text x ≠ [] ∧ (text x).all isNumberChar = true := by
  rw [text, textOfBits]
  cases stands : meaning x.toBits with
  | nan => exact ⟨List.cons_ne_nil _ _, rfl⟩
  | infinite negative => cases negative <;> exact ⟨List.cons_ne_nil _ _, rfl⟩
  | finite negative m e =>
    rcases Nat.eq_zero_or_pos m with rfl | hm
    · exact ⟨List.cons_ne_nil _ _, rfl⟩
    · obtain ⟨_, _, plain, -⟩ := isPlain_shortest hm (of_meaning_finite stands).1
      obtain ⟨c, rest, text, -⟩ := plain.exists_cons
      have chars : (shortest m e).text.all isNumberChar = true := by
        refine List.all_eq_true.mpr fun c hc => ?_
        rcases plain.mem hc with digit | rfl
        · rw [isNumberChar, isNameChar_of_isDigit digit, Bool.true_or, Bool.true_or]
        · rfl
      rw [textOfMeaning_finite hm]
      rw [text] at chars ⊢
      cases negative <;> exact ⟨List.cons_ne_nil _ _, chars⟩

/-- **A text of such characters means itself in a line.** -/
theorem solid_ofText {t : Text} (h : t ≠ [] ∧ t.all isNumberChar = true) :
    (Phrase.ofText t).Solid := by
  have chars : ∀ c ∈ t, isNumberChar c = true := List.all_eq_true.mp h.2
  have absent : ∀ c, isNumberChar c = false → c ∉ t := by
    intro c other hc
    rw [chars c hc] at other
    cases other
  have plain : ∀ c ∈ spanMarks, c ∉ t :=
    forall_spanMarks.mpr ⟨absent _ rfl, absent _ rfl, absent _ rfl, absent _ rfl⟩
  refine ⟨.ofText plain, ?_, Phrase.words_ofText (absent _ rfl), ?_, ?_⟩
  all_goals rw [Phrase.text_ofText]
  · exact absent _ rfl
  · exact h.1
  · intro c hc
    have number := chars c (List.mem_of_getLast? hc)
    simp only [isNumberChar, Bool.or_eq_true, decide_eq_true_eq] at number
    rcases number with (name | rfl) | rfl
    · exact isBlank_of_isNameChar name
    · rfl
    · rfl

end Number

/-! ## Lines that calculate -/

namespace Command

variable {host : Host} {p q : Phrase} {x y z : Float} {s : Terminal}

namespace Operation

variable (op : Operation)

/-- A line that carries out an operation on what two phrases come to. -/
def line (p q : Phrase) : Phrase :=
  (Phrase.ofText op.name).append (.char ' ' (p.append (.char ' ' q)))

/-- The word for an operation means itself in a line. -/
theorem solid_name : (Phrase.ofText op.name).Solid :=
  Number.solid_ofText (by cases op <;> exact ⟨List.cons_ne_nil _ _, rfl⟩)

/-- The text of a line that calculates. -/
theorem text_line (p q : Phrase) :
    (op.line p q).text = op.name ++ ' ' :: (p.text ++ ' ' :: q.text) := by
  simp only [line, Phrase.text_append, Phrase.text, Phrase.text_ofText]

/-- A line that calculates comes to the line with the values in it. -/
theorem evaluate_line (dispatch : Text → Run Output) (p q : Phrase) :
    (op.line p q).evaluate dispatch = (do
      let a ← p.evaluate dispatch
      let b ← q.evaluate dispatch
      pure (op.line (.ofText a) (.ofText b)).text) := by
  have written : ∀ a b : Text, (op.line (.ofText a) (.ofText b)).text
      = op.name ++ ' ' :: (a ++ ' ' :: b) := by
    intro a b
    rw [text_line, Phrase.text_ofText, Phrase.text_ofText]
  simp only [written]
  simp only [line, Phrase.evaluate_append, Phrase.evaluate, Phrase.evaluate_ofText, pure_bind,
    bind_assoc]

/-- A line that calculates is as deep as its operands. -/
theorem depth_line (p q : Phrase) : (op.line p q).depth = max p.depth q.depth := by
  simp only [line, Phrase.depth_append, Phrase.depth, Phrase.depth_ofText, Nat.zero_max]

/-- The words of a line that calculates are that for the operation and the operands. -/
theorem words_line (hp : p.Solid) (hq : q.Solid) :
    (op.line p q).words = [.ofText op.name, p, q] := by
  rw [line, Phrase.words_append_space, Phrase.words_append_space, op.solid_name.single, hp.single,
    hq.single]
  rfl

/-- A line that calculates is what its text says. -/
theorem wellFormed_line (hp : p.Solid) (hq : q.Solid) : (op.line p q).WellFormed :=
  .append_space rfl op.solid_name.wellFormed (.append_space rfl hp.wellFormed hq.wellFormed)

/-- No percent sign stands in a line that calculates. -/
theorem percent_line (hp : p.Solid) (hq : q.Solid) : '%' ∉ (op.line p q).text := by
  have name := op.solid_name.percent
  rw [Phrase.text_ofText] at name
  simp only [text_line, List.mem_append, List.mem_cons, not_or]
  exact ⟨name, by decide, hp.percent, by decide, hq.percent⟩

/-- Carry out an operation on the numbers that two texts hold. -/
def calculate (a b : Text) : Act Output := do
  let (x, y) ← Act.ofExcept (Number.operands op.name [op.name, a, b])
  let z ← Act.ofExcept (op.apply x y)
  sayNumber z

/-- **Carrying out an operation on the texts of numbers is carrying it out on the numbers.** -/
theorem run_calculate (hx : Number.IsNumber x) (hy : Number.IsNumber y)
    (hz : op.apply (Number.stored x) (Number.stored y) = .ok z) (s : Terminal) :
    (op.calculate (Number.text x) (Number.text y)).run s
      = some (.ok (.text (Number.text z)), s.printLine (Number.text z)) := by
  rw [calculate, Number.operands_text op.name op.name hx hy]
  show (Act.ofExcept (op.apply (Number.stored x) (Number.stored y)) >>= sayNumber).run s = _
  rw [hz]
  rfl

end Operation

/-- **A line that calculates carries out its operation on what its operands come to.** -/
theorem perform_arithmetic (op : Operation) (hp : p.Solid) (hq : q.Solid)
    (deep : p.depth < host.bound ∧ q.depth < host.bound) :
    (arithmetic op).perform host (Text.words (op.line p q).text) = (do
      let a ← p.evaluate host.dispatch
      let b ← q.evaluate host.dispatch
      op.calculate a b) := by
  have depth : (op.line p q).depth < host.bound := by
    rw [op.depth_line]
    exact Nat.max_lt.mpr deep
  show (host.expand _ >>= _) = _
  rw [(op.wellFormed_line hp hq).expand_eq (op.percent_line hp hq) depth, Phrase.evaluateWords,
    op.words_line hp hq]
  simp only [List.mapM_cons, List.mapM_nil, Phrase.evaluate_ofText, pure_bind, bind_assoc]
  rfl

/-- **A random number is at most as large as the line says.** -/
theorem run_random {words : List Text} {name word : Text} {t : Terminal} {most : Nat}
    (expanded : (host.expand words).run s = some (.ok [name, word], t))
    (given : drawBound? word = some most) :
    ∃ n ≤ most, ∃ dice, (random.perform host words).run s
      = some (.ok (.text (Decimal.ofNat n)), { t with dice }.printLine (Decimal.ofNat n)) := by
  have within := (Dice.draw_le t.dice (min most (UInt64.size - 1))).trans (Nat.min_le_left _ _)
  refine ⟨_, within, (t.dice.draw (min most (UInt64.size - 1))).2, ?_⟩
  simp only [random, Act.run_bind_of_ok expanded, List.getElem?_cons_succ,
    List.getElem?_cons_zero, given]
  rfl

end Command

namespace Terminal

/-- From one terminal to another lines were dispatched for their values: the status and the trace
are all that can differ. -/
def Aside (s t : Terminal) : Prop :=
  ∃ status trace, t = { s with session := { s.session with status }, trace := trace ++ s.trace }

namespace Aside

variable {s t u : Terminal}

/-- Nothing was dispatched. -/
theorem refl (s : Terminal) : s.Aside s := ⟨s.session.status, [], rfl⟩

/-- Some lines were dispatched after others. -/
theorem trans (h : s.Aside t) (h' : t.Aside u) : s.Aside u := by
  obtain ⟨status, trace, rfl⟩ := h
  obtain ⟨status', trace', rfl⟩ := h'
  exact ⟨status', trace' ++ trace, by rw [List.append_assoc]⟩

/-- The variables are the same. -/
theorem bindings (h : s.Aside t) : t.session.bindings = s.session.bindings := by
  obtain ⟨status, trace, rfl⟩ := h
  rfl

/-- The dispatch of a line began. -/
theorem entered (s : Terminal) (line : Text) : s.Aside (Registry.entered s line) :=
  ⟨0, [.entered line], rfl⟩

end Aside

end Terminal

namespace Registry

variable {bound : Nat} {p q : Phrase} {x y z : Float} {s : Terminal}

/-- **A line that calculates is dispatched as its operation is carried out.** -/
theorem dispatch_arithmetic (op : Command.Operation) (hp : p.Solid) (hq : q.Solid)
    (deep : p.depth < bound ∧ q.depth < bound) :
    builtin.dispatch (bound + 1) (op.line p q).text s
      = (Run.settle (do
          let a ← p.evaluate (builtin.dispatch bound)
          let b ← q.evaluate (builtin.dispatch bound)
          op.calculate a b) (entered s (op.line p q).text)).map leave := by
  have whole : Text.strip (op.line p q).text = (op.line p q).text := by
    have behind := Text.EndsFull.after_space ⟨hq.nonempty, hq.full⟩ p.text
    rw [op.text_line]
    refine Text.strip_eq_self (fun c hc => ?_) (Text.EndsFull.after_space behind op.name).2
    cases op <;> cases hc <;> rfl
  have named : Builtin.ofLine? (op.line p q).text = some (.arithmetic op) := by
    have word : Text.firstWord (op.line p q).text = op.name := by
      rw [op.text_line]
      cases op <;> rfl
    rw [Builtin.ofLine?, word]
    cases op <;> decide +kernel
  have performed := @Command.perform_arithmetic (builtin.host bound) p q op hp hq deep
  rw [dispatch_command (by rw [whole, named]), whole]
  exact congrArg (fun a => (Run.settle a (entered s _)).map leave) performed

/-- A line that calculates with the texts of numbers says the text of what its operation gives of
the numbers. -/
theorem dispatch_texts {op : Command.Operation} (hx : Number.IsNumber x) (hy : Number.IsNumber y)
    (hz : op.apply (Number.stored x) (Number.stored y) = .ok z) (s : Terminal) :
    let line := (op.line (.ofText (Number.text x)) (.ofText (Number.text y))).text
    builtin.dispatch (bound + 2) line s
      = some (leave (.text (Number.text z), (entered s line).printLine (Number.text z))) := by
  intro line
  have solid := fun x => Number.solid_ofText (Number.text_chars x)
  rw [dispatch_arithmetic op (solid x) (solid y) (by simp [Phrase.depth_ofText])]
  simp only [Phrase.evaluate_ofText, pure_bind]
  rw [Run.settle, Run.bind_of_some (op.run_calculate hx hy hz _)]
  rfl

/-- Carried out for its value it gives this text, and nothing is printed. -/
theorem valueOf_texts {op : Command.Operation} (hx : Number.IsNumber x) (hy : Number.IsNumber y)
    (hz : op.apply (Number.stored x) (Number.stored y) = .ok z) (s : Terminal) :
    let line := (op.line (.ofText (Number.text x)) (.ofText (Number.text y))).text
    ∃ t, (Expansion.valueOf (builtin.dispatch (bound + 2)) line).run s
      = some (.ok (.text (Number.text z)), t) ∧ s.Aside t := by
  intro line
  have said : builtin.dispatch (bound + 2) line (s.update fun t => { t with silent := true })
      = some (.text (Number.text z), ((entered s line).note (.left 0)).update
          fun t => { t with silent := true }) := by
    rw [dispatch_texts hx hy hz, Terminal.printLine, Terminal.print_of_silent rfl]
    rfl
  refine ⟨(entered s line).note (.left 0), ?_, 0, [.left 0, .entered line], rfl⟩
  rw [Expansion.valueOf, Act.silently, Act.run_within,
    Act.run_bind_of_ok (Act.run_lift_of_some said)]
  rfl

end Registry

/-! ## Calculations -/

/-- The numbers that variables hold are stored as their texts. -/
def Session.Stores (s : Session) (held : Text → Option Float) : Prop :=
  ∀ name x, held name = some x → s.bindings.get? name = some (Number.text x)

/-- They are stored still when lines were dispatched for their values. -/
theorem Session.Stores.of_aside {s t : Terminal} {held : Text → Option Float}
    (stores : s.session.Stores held) (aside : s.Aside t) : t.session.Stores held := by
  rw [Stores, aside.bindings]
  exact stores

/-- A number, the number that a variable holds, or an operation on what two calculations come
to. -/
inductive Calculation
  /-- A number. -/
  | constant (x : Float)
  /-- A variable. -/
  | reference (name : Text) (h : Phrase.IsName name)
  /-- An operation. -/
  | operation (op : Command.Operation) (a b : Calculation)

/-- A reference means itself in a line. -/
theorem Phrase.IsName.solid_reference {name : Text} (h : IsName name) :
    (Phrase.reference name .done).Solid := by
  have written : (Phrase.reference name .done).text = '$' :: name := by simp [Phrase.text]
  refine ⟨⟨h, rfl, trivial⟩, ?_, rfl, List.cons_ne_nil _ _, fun c hc => ?_⟩
  · rw [written, List.mem_cons, not_or]
    exact ⟨by decide, h.absent (by decide)⟩
  · rw [written, List.getLast?_cons_of_ne_nil h.1] at hc
    exact isBlank_of_isNameChar (h.2 c (List.mem_of_getLast? hc))

namespace Calculation

open Registry

variable {held : Text → Option Float} {c : Calculation} {z : Float} {bound : Nat} {s : Terminal}

/-- The calculation as an operand: the text of a number, a reference, or an operation in
parentheses. -/
def phrase : Calculation → Phrase
  | constant x => .ofText (Number.text x)
  | reference name _ => .reference name .done
  | operation op a b => .paren (op.line a.phrase b.phrase) .done

/-- A calculation comes to a number when variables hold numbers: each operation is carried out on
what its operands come to, with zero for negative zero.  There is no operation on NaN, and no
division by zero. -/
inductive Comes (held : Text → Option Float) : Calculation → Float → Prop
  /-- A number comes to itself. -/
  | constant (x : Float) : Comes held (.constant x) x
  /-- A variable comes to the number that it holds. -/
  | reference {name : Text} {x : Float} (h : Phrase.IsName name) (found : held name = some x) :
      Comes held (.reference name h) x
  /-- An operation comes to its result. -/
  | operation {op : Command.Operation} {a b : Calculation} {x y z : Float} (left : Comes held a x)
      (right : Comes held b y) (hx : Number.IsNumber x) (hy : Number.IsNumber y)
      (result : op.apply (Number.stored x) (Number.stored y) = .ok z) :
      Comes held (.operation op a b) z

/-- A calculation means itself in a line. -/
theorem solid_phrase (c : Calculation) : c.phrase.Solid := by
  induction c with
  | constant x => exact Number.solid_ofText (Number.text_chars x)
  | reference name h => exact h.solid_reference
  | operation op a b ha hb => exact (op.wellFormed_line ha hb).solid_paren (op.percent_line ha hb)

/-- **The phrase of a calculation comes to the text of what the calculation comes to.** -/
theorem Comes.run_evaluate (comes : c.Comes held z) (stores : s.session.Stores held) :
    ∃ t, (c.phrase.evaluate (builtin.dispatch (bound + 2))).run s
      = some (.ok (Number.text z), t) ∧ s.Aside t := by
  induction comes generalizing s with
  | constant x =>
    refine ⟨s, ?_, .refl s⟩
    rw [phrase, Phrase.evaluate_ofText]
    rfl
  | reference h found =>
    exact ⟨s, (Phrase.Gives.bound h (stores _ _ found)).run_evaluate _ rfl, .refl s⟩
  | operation left right hx hy result ihl ihr =>
    obtain ⟨t, first, st⟩ := ihl stores
    obtain ⟨u, second, tu⟩ := ihr (stores.of_aside st)
    obtain ⟨v, said, uv⟩ := valueOf_texts hx hy result u
    refine ⟨v, ?_, (st.trans tu).trans uv⟩
    rw [phrase, Phrase.evaluate_paren_done, Command.Operation.evaluate_line]
    simp only [bind_assoc, pure_bind]
    rw [Act.run_bind_of_ok first, Act.run_bind_of_ok second, map_eq_pure_bind,
      Act.run_bind_of_ok said]
    rfl

end Calculation

namespace Registry

open Calculation Number Binary

variable {bound : Nat} {s : Terminal} {held : Text → Option Float} {c a b : Calculation} {z : Float}

/-- A line that calculates says the text of what the calculation comes to. -/
theorem dispatch_operation {op : Command.Operation} (comes : (operation op a b).Comes held z)
    (stores : s.session.Stores held) (deep : (operation op a b).phrase.depth < bound + 2) :
    let line := (op.line a.phrase b.phrase).text
    ∃ t, (entered s line).Aside t ∧ builtin.dispatch (bound + 3) line s
      = some (leave (.text (text z), t.printLine (text z))) := by
  intro line
  have inside : a.phrase.depth < bound + 2 ∧ b.phrase.depth < bound + 2 := by
    rw [Calculation.phrase, Phrase.depth, op.depth_line] at deep
    omega
  cases comes with
  | operation left right hx hy result =>
    have begun := stores.of_aside (.entered s line)
    obtain ⟨t, first, st⟩ := left.run_evaluate begun
    obtain ⟨u, second, tu⟩ := right.run_evaluate (begun.of_aside st)
    refine ⟨u, st.trans tu, ?_⟩
    rw [dispatch_arithmetic op a.solid_phrase b.solid_phrase inside]
    rw [Run.settle_congr ((Act.run_bind_of_ok first).trans (Act.run_bind_of_ok second)), Run.settle,
      Run.bind_of_some (op.run_calculate hx hy result u)]
    rfl

/-- A line that assigns a calculation to a variable stores the text of what it comes to. -/
theorem dispatch_assigned {name : Text} (comes : c.Comes held z) (stores : s.session.Stores held)
    (deep : c.phrase.depth < bound + 2) (hn : Phrase.IsName name) :
    let line := (Command.assigning c.phrase name).text
    ∃ t, (entered s line).Aside t ∧ builtin.dispatch (bound + 3) line s
      = some (leave (.text (text z), t.setVariable name (text z))) := by
  intro line
  obtain ⟨t, evaluated, st⟩ := comes.run_evaluate (stores.of_aside (.entered s line))
  refine ⟨t, st, ?_⟩
  rw [dispatch_assigning c.solid_phrase hn deep, Run.settle_congr (Act.run_bind_of_ok evaluated)]
  rfl

/-- A variable that was given the text of a number holds the number. -/
theorem stores_setVariable (stores : s.session.Stores held) (name : Text) (z : Float) :
    (s.setVariable name (text z)).session.Stores (Function.update held name (some z)) := by
  intro n x hx
  show (s.session.bindings.insert name (text z)).get? n = _
  by_cases same : n = name
  · subst same
    rw [Function.update_self] at hx
    cases hx
    exact Table.get?_insert_self _ _ _
  · rw [Function.update_of_ne same] at hx
    rw [Table.get?_insert, if_neg (mt Std.LawfulEqOrd.compare_eq_iff_eq.mp same)]
    exact stores n x hx

/-- **Numbers survive being texts.**  The text of a pattern that is not that of NaN is read back as
the pattern, and as that of zero for negative zero.  Every integer with at most 53 binary digits
has a pattern, and the text of each of its patterns is its decimal form.  A command takes the text
of a number for the number, again with zero for negative zero.  And so a line that calculates
prints and gives back what its operations give of their operands, whether these are numbers,
variables or operations in parentheses, and a line that assigns a calculation lets the variable
hold what the calculation comes to. -/
theorem numbers_survive :
    (∀ bits, meaning bits ≠ .nan →
      readBits? (textOfBits bits) = some (if bits = negativeZero then 0 else bits)) ∧
    (∀ z : Int, z.natAbs < 2 ^ 53 → (∃ bits, (meaning bits).value? = some (z : ℚ)) ∧
      ∀ bits, (meaning bits).value? = some (z : ℚ) → textOfBits bits = Decimal.ofInt z) ∧
    (∀ command x, IsNumber x → operand command (text x) = .ok (stored x)) ∧
    ∀ (bound : Nat) (s : Terminal) (held : Text → Option Float) (c : Calculation) (z : Float),
      s.session.Stores held → c.Comes held z → c.phrase.depth < bound + 2 →
      (∀ op a b, c = operation op a b →
        let line := (op.line a.phrase b.phrase).text
        ∃ t, (entered s line).Aside t ∧ builtin.dispatch (bound + 3) line s
          = some (leave (.text (text z), t.printLine (text z)))) ∧
      ∀ name, Phrase.IsName name →
        let line := (Command.assigning c.phrase name).text
        ∃ t, (entered s line).Aside t ∧ builtin.dispatch (bound + 3) line s
            = some (leave (.text (text z), t.setVariable name (text z))) ∧
          (t.setVariable name (text z)).session.Stores (Function.update held name (some z)) := by
  refine ⟨fun bits => readBits?_textOfBits, fun z small =>
    ⟨exists_value small, fun bits => textOfBits_whole small⟩,
    fun command x => operand_text command, fun bound s held c z stores comes deep => ⟨?_, ?_⟩⟩
  · rintro op a b rfl
    exact dispatch_operation comes stores deep
  · intro name hn line
    obtain ⟨t, st, given⟩ := dispatch_assigned comes stores deep hn
    exact ⟨t, st, given, stores_setVariable (stores.of_aside ((Terminal.Aside.entered s _).trans st)) _ _⟩

/-- The least magnitude, a negative integer, the operand of a root, and a sum of the tenth that a
variable holds and three tenths. -/
theorem numbers_survive_tenths :
    let tenth := Float.ofBits 0x3FB999999999999A
    let three := Float.ofBits 0x4008000000000000
    let name := "A".toList
    let hn : Phrase.IsName name := ⟨by decide, List.all_eq_true.mp rfl⟩
    let start := (Terminal.ofSettings {} (.recorder { grid := ⟨60, 25⟩ }) (.memory .empty)
      ⟨0⟩).setVariable name (text tenth)
    let held := Function.update (fun _ => none) name (some tenth)
    let product := operation .multiply (constant three) (constant tenth)
    let sum := operation .add (reference name hn) product
    let z := stored tenth + stored (stored three * stored tenth)
    let line := "ADD $A (MULTIPLY 3 0.1)".toList
    (meaning 1 ≠ .nan ∧ readBits? (textOfBits 1) = some 1) ∧
    ((-7 : Int).natAbs < 2 ^ 53 ∧ (meaning 0xC01C000000000000).value? = some ((-7 : Int) : ℚ) ∧
      textOfBits 0xC01C000000000000 = "-7".toList) ∧
    (IsNumber three ∧ operand "SQRT".toList (text three) = .ok (stored three)) ∧
    (start.session.Stores held ∧ sum.Comes held z ∧ sum.phrase.depth < 3 ∧
      ((Command.Operation.line .add (reference name hn).phrase product.phrase).text = line) ∧
      ∃ t, (entered start line).Aside t ∧ builtin.dispatch 4 line start
        = some (leave (.text (text z), t.printLine (text z)))) ∧
    (∃ t : Terminal, builtin.dispatch 4 (Command.assigning sum.phrase name).text start
        = some (leave (.text (text z), t.setVariable name (text z))) ∧
      (t.setVariable name (text z)).session.Stores (Function.update held name (some z))) ∧
    text z = "0.4".toList := by
  intro tenth three name hn start held product sum z line
  obtain ⟨patterns, integers, operands, calculations⟩ := numbers_survive
  have least : meaning 1 ≠ .nan := by decide +kernel
  have seven : (meaning 0xC01C000000000000).value? = some ((-7 : Int) : ℚ) := by
    have stands : meaning 0xC01C000000000000 = .finite true 7881299347898368 (-50) := by
      decide +kernel
    rw [stands, Meaning.value?]
    norm_num
  have stores : start.session.Stores held :=
    stores_setVariable (fun _ _ h => absurd h (Option.some_ne_none _).symm) name tenth
  have comes : sum.Comes held z :=
    .operation (.reference hn (Function.update_self _ _ _))
      (.operation (.constant three) (.constant tenth) (by decide +kernel) (by decide +kernel) rfl)
      (by decide +kernel) (by decide +kernel) rfl
  have deep : sum.phrase.depth < 3 := by
    simp [sum, product, Calculation.phrase, Phrase.depth, Command.Operation.depth_line,
      Phrase.depth_ofText]
  have written : (Command.Operation.line .add (reference name hn).phrase product.phrase).text
      = line := by
    decide +kernel
  obtain ⟨said, assigned⟩ := calculations 1 start held sum z stores comes deep
  obtain ⟨t, st, given⟩ := said _ _ _ rfl
  obtain ⟨u, -, kept⟩ := assigned name hn
  rw [written] at st given
  exact ⟨⟨least, (patterns 1 least).trans (congrArg some (if_neg (by decide +kernel)))⟩,
    ⟨by decide, seven, (integers (-7) (by decide)).2 _ seven⟩,
    ⟨by decide +kernel, operands _ _ (by decide +kernel)⟩,
    ⟨stores, comes, deep, written, t, st, given⟩, ⟨u, kept⟩, by decide +kernel⟩

end Registry

end Teletype
