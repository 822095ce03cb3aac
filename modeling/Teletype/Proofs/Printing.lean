/-
# Printed values

A value that a quote or a variable gives is printed as it is.  If the printing stands in a
parenthesis, though, its line is made up with the value in it and read a second time, so
that delimiters in the value count and blanks at its end are trimmed.  The main statement
is that **printing gives the value and changes nothing that is saved, and so does printing
what is printed if the value is inert** (`Registry.dispatch_print_print`): no delimiter
stands in it, and it does not end in a blank.  Of other values the second part fails
(`Registry.dispatch_print_print_command`).
-/
import Teletype.Proofs.Acceptance
import Teletype.Proofs.Persistence

namespace Teletype

/-! ## Blanks at the end -/

/-- No character of a name is blank. -/
theorem isBlank_of_isNameChar {c : Char} (h : isNameChar c = true) : Text.isBlank c = false := by
  have code : c.toNat = 95 ∨ 48 ≤ c.toNat ∧ c.toNat ≤ 57 ∨ 65 ≤ c.toNat ∧ c.toNat ≤ 90 ∨
      97 ≤ c.toNat ∧ c.toNat ≤ 122 := by
    have classes : (((decide (65 ≤ c.val ∧ c.val ≤ 90) || 97 ≤ c.val && c.val ≤ 122) ||
        48 ≤ c.val && c.val ≤ 57) || c = '_') = true := h
    simp only [Bool.or_eq_true, Bool.and_eq_true, decide_eq_true_eq,
      UInt32.le_iff_toNat_le] at classes
    rcases classes with ((h | h) | h) | rfl
    · exact .inr (.inr (.inl h))
    · exact .inr (.inr (.inr h))
    · exact .inr (.inl h)
    · exact .inl rfl
  rcases code with h | h | h | h <;> exact Text.isBlank_of_printable (by omega) (by omega)

/-- The text does not end in a blank. -/
def Text.EndsFull (t : Text) : Prop := ∀ c ∈ t.getLast?, isBlank c = false

/-- A text with a character behind it that is not blank. -/
theorem Text.EndsFull.concat (t : Text) {c : Char} (h : isBlank c = false) :
    EndsFull (t ++ [c]) := by
  intro d hd
  rw [List.getLast?_concat] at hd
  cases hd
  exact h

/-- A line that prints a text is not changed by trimming, if the text does not end in a
blank. -/
theorem Text.strip_print {t : Text} (ht : t ≠ []) (h : t.EndsFull) :
    strip ("PRINT ".toList ++ t) = "PRINT ".toList ++ t := by
  refine strip_eq_self (fun c hc => ?_) fun c hc => h c ?_
  · cases hc
    rfl
  · rwa [List.getLast?_append_of_ne_nil _ ht] at hc

/-! ## Phrases that give a value -/

namespace Phrase

/-- The phrase of a text in which every character stands for itself. -/
def ofText : Text → Phrase
  | [] => done
  | c :: t => char c (ofText t)

/-- The phrase of a text has this text. -/
theorem text_ofText (t : Text) : (ofText t).text = t := by
  induction t with
  | nil => rfl
  | cons c t ih => rw [ofText, text, ih]

/-- A text comes to itself. -/
theorem evaluate_ofText (dispatch : Text → Run Output) (t : Text) :
    (ofText t).evaluate dispatch = pure t := by
  induction t with
  | nil => rfl
  | cons c t ih => rw [ofText, evaluate, ih, pure_bind]

/-- Nothing stands inside a text. -/
theorem depth_ofText (t : Text) : (ofText t).depth = 0 := by
  induction t with
  | nil => rfl
  | cons c t ih => exact ih

/-- A text without dollar signs is a row of its characters. -/
theorem row_ofText {allowed : Char → Bool} {t : Text} (h : ∀ c ∈ t, allowed c = true)
    (dollar : '$' ∉ t) : (ofText t).Row allowed := by
  induction t with
  | nil => exact trivial
  | cons c t ih =>
    rw [List.forall_mem_cons] at h
    rw [List.mem_cons, not_or] at dollar
    exact ⟨h.1, fun hc => absurd hc.symm dollar.1, ih h.2 dollar.2⟩

/-- The phrase gives a value in a session: it quotes the value, or refers to a variable that
has it. -/
inductive Gives (s : Session) (v : Text) : Phrase → Prop
  /-- The value is quoted. -/
  | quoted (quote : '"' ∉ v) (dollar : '$' ∉ v) (percent : '%' ∉ v) :
      Gives s v (.quote (ofText v) done)
  /-- A variable has the value. -/
  | bound {name : Text} (h : IsName name) (found : s.bindings.get? name = some v) :
      Gives s v (.reference name done)

namespace Gives

variable {s : Session} {v : Text} {p : Phrase}

/-- What gives a value is well formed. -/
theorem wellFormed (h : p.Gives s v) : p.WellFormed := by
  cases h with
  | quoted quote dollar _ =>
    refine ⟨row_ofText (fun c hc => ?_) dollar, trivial⟩
    have other : c ≠ '"' := fun e => quote (e ▸ hc)
    simpa [quotable] using other
  | bound name _ => exact ⟨name, rfl, trivial⟩

/-- It is one word. -/
theorem words_eq (h : p.Gives s v) : p.words = [p] := by
  cases h <;> rfl

/-- No quote or parenthesis stands inside a quote in it. -/
theorem depth_le (h : p.Gives s v) : p.depth ≤ 1 := by
  cases h with
  | quoted =>
    rw [depth, depth_ofText]
    exact Nat.le_refl 1
  | bound => exact Nat.zero_le 1

/-- No percent sign stands in it. -/
theorem percent_not_mem (h : p.Gives s v) : '%' ∉ p.text := by
  cases h with
  | quoted _ _ percent => simpa [text, text_ofText] using percent
  | bound h _ =>
    have other : '%' ∉ _ := fun hc => absurd (h.2 '%' hc) (by decide)
    simpa [text] using other

/-- It does not end in a blank. -/
theorem endsFull (h : p.Gives s v) : p.text.EndsFull := by
  cases h with
  | quoted => exact .concat ('"' :: (ofText v).text) rfl
  | @bound name h _ =>
    obtain rfl | ⟨init, last, rfl⟩ := name.eq_nil_or_concat'
    · exact absurd rfl h.1
    · rw [text, text, List.append_nil]
      exact .concat ('$' :: init) (isBlank_of_isNameChar (h.2 last (by simp)))

/-- It comes to the value. -/
theorem run_evaluate (dispatch : Text → Run Output) {t : Terminal} (h : p.Gives s v)
    (same : t.session.bindings = s.bindings) : (p.evaluate dispatch).run t = some (.ok v, t) := by
  cases h with
  | quoted =>
    rw [evaluate, evaluate_ofText, pure_bind, evaluate, pure_bind, List.append_nil]
    rfl
  | @bound name _ found =>
    have looked : (Expansion.lookUp name).run t = some (.ok v, t) := by
      rw [Expansion.lookUp, Act.run_session_bind, same, found]
      rfl
    rw [evaluate, Act.run_bind_of_ok looked, evaluate, pure_bind, List.append_nil]
    rfl

end Gives

/-- A line that prints what a phrase comes to. -/
def printing (p : Phrase) : Phrase := (ofText "PRINT ".toList).append p

/-- The text of a line that prints. -/
theorem text_printing (p : Phrase) : p.printing.text = "PRINT ".toList ++ p.text := by
  rw [printing, text_append, text_ofText]

/-- The words of a line that prints. -/
theorem words_printing (p : Phrase) : p.printing.words = ofText "PRINT".toList :: p.words := rfl

/-- A line that prints comes to the line with the value in it. -/
theorem evaluate_printing (dispatch : Text → Run Output) (p : Phrase) :
    p.printing.evaluate dispatch = (do
      let v ← p.evaluate dispatch
      pure ("PRINT ".toList ++ v)) := by
  simp [printing, ofText, append, evaluate]

end Phrase

/-! ## Inert texts -/

/-- The characters that a line is cut into spans at. -/
def spanMarks : List Char := ['"', '$', '(', ')']

/-- No span begins or ends in a text. -/
theorem forall_spanMarks {t : Text} :
    (∀ c ∈ spanMarks, c ∉ t) ↔ '"' ∉ t ∧ '$' ∉ t ∧ '(' ∉ t ∧ ')' ∉ t := by
  simp [spanMarks]

/-- A text means itself when a line is made up with it: it holds nothing that a span begins
or ends with, and does not end in a blank. -/
structure Text.Inert (t : Text) : Prop where
  /-- No span begins or ends in it. -/
  plain : ∀ c ∈ spanMarks, c ∉ t
  /-- It does not end in a blank. -/
  full : t.EndsFull

/-- A line without spans is tokenized to its words. -/
theorem tokenize_of_plain {line : Text} (h : ∀ c ∈ spanMarks, c ∉ line) :
    tokenize line = .ok ⟨Text.words line, []⟩ := by
  obtain ⟨hquote, hdollar, hopen, hclose⟩ := forall_spanMarks.mp h
  have uncut : Text.cut '"' line = [line] := Text.cut_of_not_mem hquote
  have pieces : quotePieces line = some (line.map .plain) := by
    rw [quotePieces, uncut, alternate]
  simp only [tokenize, variablePieces_eq_map hdollar, numberSpans_plain, pieces,
    List.count_eq_zero_of_not_mem hopen, extractParens, if_neg hopen, if_neg hclose,
    List.nil_append]

/-- A line without spans is expanded to its words. -/
theorem Host.expand_of_plain {host : Host} {line : Text} (h : ∀ c ∈ spanMarks, c ∉ line)
    (hb : 0 < host.bound) : host.expand (Text.words line) = pure (Text.words line) := by
  obtain ⟨bound, hbound⟩ := Nat.exists_eq_add_one_of_ne_zero (Nat.ne_of_gt hb)
  have same : ∀ word, Expansion.expand host.dispatch [] host.bound word = pure word := by
    intro word
    rw [hbound, Expansion.expand, scanTokens_nil, Expansion.fill_plain]
  rw [Host.expand, Text.unwords_words, Expansion.expandLine, tokenize_of_plain h]
  show (Text.words line).mapM _ = _
  rw [funext same, List.mapM_pure, List.map_id']

/-! ## Acts that give the same -/

/-- An act goes on alike from acts that give the same. -/
theorem Act.run_bind_congr {α β : Type} {a b : Act α} {s : Terminal} (h : a.run s = b.run s)
    (f : α → Act β) : (a >>= f).run s = (b >>= f).run s := by
  show (a.run s).bind _ = (b.run s).bind _
  rw [h]

/-- What settles an act depends on what the act gives. -/
theorem Run.settle_congr {a b : Act Output} {s t : Terminal} (h : a.run s = b.run t) :
    settle a s = settle b t := by
  show (a.run s).bind _ = (b.run t).bind _
  rw [h]

/-- A text is said: it is printed and given back. -/
theorem Run.settle_say (v : Text) (s : Terminal) :
    settle (Command.say v) s = some (.text v, s.printLine v) := rfl

/-! ## Lines that print -/

/-- What stands behind the word of a command that prints a phrase can be told from the line:
the phrase is one word that does not end in a blank. -/
structure Phrase.Solid (p : Phrase) : Prop where
  /-- It is what its text says. -/
  wellFormed : p.WellFormed
  /-- No percent sign stands in it. -/
  percent : '%' ∉ p.text
  /-- It is one word. -/
  single : p.words = [p]
  /-- It has characters. -/
  nonempty : p.text ≠ []
  /-- It does not end in a blank. -/
  full : p.text.EndsFull

namespace Phrase

variable {p : Phrase}

/-- What gives a value is solid. -/
theorem Gives.solid {s : Session} {v : Text} (h : p.Gives s v) : p.Solid where
  wellFormed := h.wellFormed
  percent := h.percent_not_mem
  single := h.words_eq
  nonempty := by cases h <;> exact List.cons_ne_nil _ _
  full := h.endsFull

/-- A line that prints is well formed. -/
theorem WellFormed.printing (h : p.WellFormed) : p.printing.WellFormed := by
  simpa [WellFormed, Phrase.printing, ofText, append, Nest, bare] using h

/-- No percent sign stands in a line that prints a phrase without one. -/
theorem percent_not_mem_printing (h : '%' ∉ p.text) : '%' ∉ p.printing.text := by
  rw [text_printing, List.mem_append, not_or]
  exact ⟨by decide, h⟩

/-- A line that prints, in parentheses. -/
def printed (p : Phrase) : Phrase := .paren p.printing .done

/-- The text of a line that prints, in parentheses. -/
theorem text_printed (p : Phrase) : p.printed.text = "(PRINT ".toList ++ p.text ++ [')'] := by
  rw [printed, text, text_printing, text]
  rfl

/-- A line that prints is solid in parentheses. -/
theorem Solid.printed (h : p.Solid) : p.printed.Solid where
  wellFormed := ⟨h.wellFormed.printing, trivial⟩
  percent := by
    rw [text_printed, List.mem_append, List.mem_append, not_or, not_or]
    exact ⟨⟨by decide, h.percent⟩, by decide⟩
  single := rfl
  nonempty := List.cons_ne_nil _ _
  full := by
    rw [text_printed]
    exact .concat _ rfl

/-- A line that prints, in parentheses, comes to what the line with the value in it gives
back. -/
theorem run_evaluate_printed {dispatch : Text → Run Output} {v : Text} {s : Terminal}
    (h : (p.evaluate dispatch).run s = some (.ok v, s)) :
    (p.printed.evaluate dispatch).run s
      = (Output.value <$> Expansion.valueOf dispatch ("PRINT ".toList ++ v)).run s := by
  have line : (p.printing.evaluate dispatch).run s = some (.ok ("PRINT ".toList ++ v), s) := by
    rw [evaluate_printing, Act.run_bind_of_ok h]
    rfl
  rw [printed, evaluate, Act.run_bind_of_ok line, map_eq_pure_bind]
  simp only [evaluate, pure_bind, List.append_nil]

end Phrase

namespace Command

variable {host : Host}

/-- **Printing a phrase is saying what it comes to.** -/
theorem perform_print {p : Phrase} (h : p.Solid) (hb : p.depth < host.bound) :
    print.perform host (Text.words ("PRINT ".toList ++ p.text))
      = p.evaluate host.dispatch >>= say := by
  have expanded : host.expand (Text.words p.printing.text)
      = p.printing.evaluateWords host.dispatch :=
    h.wellFormed.printing.expand_eq (Phrase.percent_not_mem_printing h.percent) hb
  rw [← p.text_printing]
  show (host.expand _ >>= fun words => say (Text.unwords (words.drop 1))) = _
  rw [expanded, Phrase.evaluateWords, Phrase.words_printing, h.single]
  simp only [List.mapM_cons, List.mapM_nil, Phrase.evaluate_ofText, pure_bind, bind_assoc]
  rfl

/-- Printing an inert text is saying it. -/
theorem perform_print_of_inert {v : Text} (h : v.Inert) (hb : 0 < host.bound) :
    print.perform host (Text.words (Text.strip ("PRINT ".toList ++ v))) = say v := by
  have spoken : ∀ line : Text, (∀ c ∈ spanMarks, c ∉ line) →
      Text.unwords ((Text.words line).drop 1) = v →
      print.perform host (Text.words line) = say v := by
    intro line plain rest
    show (host.expand _ >>= fun words => say (Text.unwords (words.drop 1))) = _
    rw [Host.expand_of_plain plain hb, pure_bind, rest]
  by_cases hv : v = []
  · -- the blank behind the word of the command is trimmed
    subst hv
    exact spoken "PRINT".toList (forall_spanMarks.mpr (by decide)) rfl
  · rw [Text.strip_print hv h.full]
    refine spoken _ (fun c hc => ?_) (Text.unwords_words v)
    have word : ∀ c ∈ spanMarks, c ∉ "PRINT ".toList := forall_spanMarks.mpr (by decide)
    exact fun mem => (List.mem_append.mp mem).elim (word c hc) (h.plain c hc)

end Command

namespace Registry

variable {bound : Nat} {line v : Text} {p : Phrase} {s t : Terminal}

/-- A line that prints is dispatched as the words are printed. -/
theorem dispatch_print (hp : Builtin.ofLine? (Text.strip line) = some .print) :
    builtin.dispatch (bound + 1) line s
      = (Run.settle (Command.print.perform (builtin.host bound) (Text.words (Text.strip line)))
          (entered s (Text.strip line))).map leave :=
  dispatch_command hp

/-- A line that begins with the word of the command prints. -/
theorem ofLine?_print (t : Text) : Builtin.ofLine? ("PRINT ".toList ++ t) = some .print := by
  have word : Text.firstWord ("PRINT ".toList ++ t) = "PRINT".toList := rfl
  rw [Builtin.ofLine?, word]
  decide +kernel

/-- **A line that prints a phrase says what the phrase comes to.** -/
theorem dispatch_printing (h : p.Solid) (hb : p.depth < bound) :
    builtin.dispatch (bound + 1) ("PRINT ".toList ++ p.text) s
      = (Run.settle (p.evaluate (builtin.dispatch bound) >>= Command.say)
          (entered s ("PRINT ".toList ++ p.text))).map leave := by
  have whole := Text.strip_print h.nonempty h.full
  have named : Builtin.ofLine? ("PRINT ".toList ++ p.text) = some .print := ofLine?_print _
  have performed := @Command.perform_print (builtin.host bound) p h hb
  rw [dispatch_print (by rw [whole, named]), whole, performed]
  rfl

/-- A line that prints an inert text gives the text back when it is carried out for its
value, and nothing is printed. -/
theorem valueOf_print_of_inert (h : v.Inert) (s : Terminal) :
    (Expansion.valueOf (builtin.dispatch (bound + 2)) ("PRINT ".toList ++ v)).run s
      = some (.ok (.text v),
          (entered s (Text.strip ("PRINT ".toList ++ v))).note (.left 0)) := by
  have named : Builtin.ofLine? (Text.strip ("PRINT ".toList ++ v)) = some .print := by
    by_cases hv : v = []
    · subst hv
      decide +kernel
    · rw [Text.strip_print hv h.full, ofLine?_print]
  have said : builtin.dispatch (bound + 2) ("PRINT ".toList ++ v)
      (s.update fun t => { t with silent := true })
      = some (.text v, ((entered s (Text.strip ("PRINT ".toList ++ v))).note (.left 0)).update
          fun t => { t with silent := true }) := by
    rw [dispatch_print named, Command.perform_print_of_inert h (Nat.succ_pos bound), Run.settle_say,
      Terminal.printLine, Terminal.print_of_silent rfl]
    rfl
  rw [Expansion.valueOf, Act.silently, Act.run_within,
    Act.run_bind_of_ok (Act.run_lift_of_some said)]
  rfl

end Registry

/-- A line was dispatched. -/
def Event.line? : Event → Option Text
  | .entered line => some line
  | _ => none

namespace Terminal

variable {s t u : Terminal}

/-- From one terminal to another some lines were dispatched, in order, and the session ended
well with all that is saved of it, in the session and in the store, as it was. -/
structure Untouched (s u : Terminal) (lines : List Text) : Prop where
  /-- The status is zero. -/
  status : u.session.status = 0
  /-- What would be saved of the session is the same. -/
  snapshot : u.session.snapshot = s.session.snapshot
  /-- The store is the same. -/
  store : u.store = s.store
  /-- These lines were dispatched. -/
  lines : ∃ new, u.trace = new ++ s.trace ∧ new.reverse.filterMap Event.line? = lines

namespace Untouched

variable {lines more : List Text}

/-- Some lines were dispatched after others. -/
theorem trans (h : s.Untouched t lines) (h' : t.Untouched u more) :
    s.Untouched u (lines ++ more) := by
  obtain ⟨new, ht, hl⟩ := h.lines
  obtain ⟨new', hu, hm⟩ := h'.lines
  refine ⟨h'.status, h'.snapshot.trans h.snapshot, h'.store.trans h.store, new' ++ new,
    trace_append ht hu, ?_⟩
  rw [List.reverse_append, List.filterMap_append, hl, hm]

/-- The dispatch of a line began. -/
theorem entered (s : Terminal) (line : Text) : s.Untouched (Registry.entered s line) [line] :=
  ⟨rfl, rfl, rfl, [.entered line], rfl, rfl⟩

/-- The dispatch of a line ended. -/
theorem left (h : s.session.status = 0) (status : Int) :
    s.Untouched (s.note (.left status)) [] :=
  ⟨h, rfl, rfl, [.left status], rfl, rfl⟩

/-- A text was printed. -/
theorem print (h : s.session.status = 0) (text : Text) : s.Untouched (s.print text) [] := by
  have quiet := Quiet.print s text
  obtain ⟨-, store, snapshot⟩ := print_same s text
  obtain ⟨new, trace, calm⟩ := quiet.trace
  refine ⟨quiet.status.trans h, snapshot, store, new, trace, ?_⟩
  rw [List.filterMap_eq_nil_iff]
  intro e he
  have other := calm e (List.mem_reverse.mp he)
  cases e with
  | entered line => exact absurd trivial other
  | _ => rfl

end Untouched

end Terminal

namespace Registry

variable {v : Text} {p : Phrase} {s : Terminal}

/-- A text that was said after some lines leaves everything untouched as well. -/
theorem untouched_leave {t : Terminal} {lines : List Text} (h : s.Untouched t lines) :
    s.Untouched (leave (.text v, t.printLine v)).2 lines := by
  have printed : t.Untouched (t.printLine v) [] := .print h.status _
  have all := (h.trans printed).trans (.left printed.status (t.printLine v).session.status)
  rwa [List.append_nil, List.append_nil] at all

/-- **Printing gives a value as it is, and printing what is printed does so for an inert
value.**  A line that prints a phrase which quotes a value, or refers to a variable that has
it, gives the value back and leaves everything that is saved untouched, whatever the value
is.  If the printing stands in a parenthesis, a line is made up with the value in it and is
dispatched for what it gives back.  If the value is inert, this is the value again, and no
other line was dispatched. -/
theorem dispatch_print_print (bound : Nat) (h : p.Gives s.session v) :
    let once := "PRINT ".toList ++ p.text
    let twice := "PRINT (PRINT ".toList ++ p.text ++ [')']
    (∃ u, builtin.dispatch (bound + 4) once s = some (.text v, u) ∧ s.Untouched u [once]) ∧
    builtin.dispatch (bound + 4) twice s
      = (Run.settle (do
          let output ← Expansion.valueOf (builtin.dispatch (bound + 3)) ("PRINT ".toList ++ v)
          Command.say output.value) (entered s twice)).map leave ∧
    (v.Inert → ∃ u, builtin.dispatch (bound + 4) twice s = some (.text v, u) ∧
      s.Untouched u [twice, Text.strip ("PRINT ".toList ++ v)]) := by
  intro once twice
  have deep := h.depth_le
  have evaluated : ∀ line, (p.evaluate (builtin.dispatch (bound + 3))).run (entered s line)
      = some (.ok v, entered s line) := fun line => h.run_evaluate _ rfl
  have nested : "PRINT ".toList ++ p.printed.text = twice := by
    rw [Phrase.text_printed, ← List.append_assoc, ← List.append_assoc]
    rfl
  have general : builtin.dispatch (bound + 4) twice s
      = (Run.settle (do
          let output ← Expansion.valueOf (builtin.dispatch (bound + 3)) ("PRINT ".toList ++ v)
          Command.say output.value) (entered s twice)).map leave := by
    have inside : p.printed.depth < bound + 3 := by
      show max (p.depth + 1) 0 < bound + 3
      omega
    have value := Phrase.run_evaluate_printed (evaluated twice)
    rw [← nested, dispatch_printing h.solid.printed inside, nested,
      Run.settle_congr (Act.run_bind_congr value Command.say), bind_map_left]
  refine ⟨?_, general, fun inert => ?_⟩
  · refine ⟨_, ?_, untouched_leave (v := v) (.entered s once)⟩
    rw [dispatch_printing h.solid (by omega), Run.settle_congr (Act.run_bind_of_ok (evaluated once)),
      Run.settle_say]
    rfl
  · refine ⟨_, ?_, untouched_leave (v := v) (((Terminal.Untouched.entered s twice).trans
      (.entered _ (Text.strip ("PRINT ".toList ++ v)))).trans (.left rfl 0))⟩
    rw [general, Run.settle_congr (Act.run_bind_of_ok (valueOf_print_of_inert inert _)),
      Run.settle_say]
    rfl

/-- A variable whose value holds a percent sign. -/
theorem dispatch_print_print_reference :
    let v := "50% off".toList
    let p := Phrase.reference "X".toList .done
    let start := Terminal.ofSettings {} (.recorder { grid := ⟨60, 25⟩ }) (.memory .empty) ⟨0⟩
    let s := start.update fun t => { t with bindings := t.bindings.insert "X".toList v }
    p.Gives s.session v ∧ Text.Inert v ∧
      (∃ u, builtin.dispatch 4 "PRINT $X".toList s = some (.text v, u) ∧
        s.Untouched u ["PRINT $X".toList]) ∧
      ∃ u, builtin.dispatch 4 "PRINT (PRINT $X)".toList s = some (.text v, u) ∧
        s.Untouched u ["PRINT (PRINT $X)".toList, "PRINT 50% off".toList] := by
  intro v p start s
  have gives : p.Gives s.session v := .bound ⟨by decide, List.all_eq_true.mp rfl⟩ rfl
  have inert : Text.Inert v :=
    ⟨forall_spanMarks.mpr (by decide), .concat "50% of".toList rfl⟩
  obtain ⟨once, -, twice⟩ := dispatch_print_print 0 gives
  exact ⟨gives, inert, once, twice inert⟩

/-- Where a variable or a quote gives the name of a command in parentheses, the command is
carried out: the stored program is lost, and an empty text comes back. -/
theorem dispatch_print_print_command :
    let start := Terminal.ofSettings {} (.recorder { grid := ⟨60, 25⟩ }) (.memory .empty) ⟨0⟩
    let s := start.update fun t => { t with
      bindings := t.bindings.insert "X".toList "(NEW)".toList
      program := t.program.setLine 10 "PRINT A".toList }
    let summary := fun r : Output × Terminal => (r.1, r.2.session.status, r.2.session.program,
      r.2.trace.reverse.filterMap Event.line?)
    s.session.program ≠ .empty ∧
    (builtin.dispatch 4 "PRINT (PRINT $X)".toList s).map summary
      = some (.text [], 0, .empty,
          ["PRINT (PRINT $X)".toList, "PRINT (NEW)".toList, "NEW".toList]) ∧
    (builtin.dispatch 4 "PRINT (PRINT \"(NEW)\")".toList s).map summary
      = some (.text [], 0, .empty,
          ["PRINT (PRINT \"(NEW)\")".toList, "PRINT (NEW)".toList, "NEW".toList]) := by
  intro start s summary
  exact ⟨by decide, by decide +kernel, by decide +kernel⟩

end Registry

end Teletype
