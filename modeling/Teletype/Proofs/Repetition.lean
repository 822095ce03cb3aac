/-
# Repetitions

A repetition is cut at its keywords before its parts are looked at: its list is evaluated as
it stands, whatever keywords stand in it, and its body not at all until a round carries it
out.  The main statement is that **a repetition carries out its body for the lines of its list
in order, each bound and saved just before, until one ends it or none is left, and that a
repetition that prints the lines of a value gives the value back**
(`Registry.dispatch_repetition`).  A variable whose name is a keyword in small letters has no
repetition (`Registry.dispatch_repetition_keyword`).
-/
import Teletype.Proofs.Choice
import Teletype.Proofs.Quotation
import Teletype.Proofs.Rounds

namespace Teletype

/-! ## Names in front of a line -/

/-- A character that may not stand in a name does not. -/
theorem Phrase.IsName.absent {name : Text} (h : IsName name) {c : Char}
    (hc : isNameChar c = false) : c ∉ name :=
  fun mem => Bool.false_ne_true (hc.symm.trans (h.2 c mem))

/-- No span begins or ends in a name. -/
theorem Phrase.IsName.plain {name : Text} (h : IsName name) : ∀ c ∈ spanMarks, c ∉ name :=
  forall_spanMarks.mpr ⟨h.absent (by decide), h.absent (by decide), h.absent (by decide),
    h.absent (by decide)⟩

/-- Characters in front of a line that are no `$` stay in front of its pieces. -/
theorem variablePieces_append {x : Text} (hx : '$' ∉ x) (t : Text) :
    variablePieces (x ++ t) = x.map .plain ++ variablePieces t := by
  induction x with
  | nil => rfl
  | cons c x ih =>
    rw [List.mem_cons, not_or] at hx
    rw [List.cons_append, variablePieces_cons (Ne.symm hx.1), ih hx.2, List.map_cons,
      List.cons_append]

/-- Characters in front of a line that are no quote stay in front of its pieces. -/
theorem quotePieces_append {x : Text} (hx : '"' ∉ x) (t : Text) :
    quotePieces (x ++ t) = (quotePieces t).map fun pieces => x.map .plain ++ pieces := by
  obtain ⟨piece, pieces, ht⟩ := List.exists_cons_of_ne_nil (Text.cut_ne_nil '"' t)
  rw [quotePieces, quotePieces, Text.cut_append hx ht, alternate_append, ht]

/-- Characters in front of a line that open no parenthesis stay there in every round. -/
theorem extractParens_append {x : Text} (hx : '(' ∉ x) (n : Nat) (t : Text) (rounds : Nat) :
    extractParens n (x ++ t) rounds
      = (x ++ (extractParens n t rounds).1, (extractParens n t rounds).2) := by
  induction rounds generalizing n t with
  | zero => rfl
  | succ rounds ih =>
    have items : (parenPieces (x ++ t)).any Piece.isItem = (parenPieces t).any Piece.isItem := by
      have none : (x.map (Piece.plain (α := Text))).any Piece.isItem = false := by
        simp [Piece.isItem]
      rw [parenPieces_append hx, List.any_append, none, Bool.false_or]
    rw [extractParens, extractParens, items]
    split
    · rw [parenPieces_append hx, numberSpans_map_plain]
      dsimp only
      rw [ih]
    · rfl

/-- **A word in front of a line is a word of its own**, if no span begins or ends in it. -/
theorem tokenize_word {w : Text} (plain : ∀ c ∈ spanMarks, c ∉ w) (space : ' ' ∉ w) (t : Text) :
    tokenize (w ++ ' ' :: t)
      = (tokenize t).map fun tokenized => ⟨w :: tokenized.words, tokenized.tokens⟩ := by
  have front : w ++ ' ' :: t = (w ++ [' ']) ++ t := by simp
  obtain ⟨quote, dollar, hopen, hclose⟩ := forall_spanMarks.mp plain
  have absent : ∀ {c : Char}, c ∉ w → c ≠ ' ' → c ∉ w ++ [' '] := by
    intro c hw hc mem
    rcases List.mem_append.mp mem with mem | mem
    · exact hw mem
    · exact hc (List.mem_singleton.mp mem)
  have hopen := absent hopen (by decide)
  have hclose := absent hclose (by decide)
  have words : ∀ y, Text.words ((w ++ [' ']) ++ y) = w :: Text.words y := by
    intro y
    rw [List.append_assoc]
    exact Text.words_word space y
  unfold tokenize
  rw [front, variablePieces_append (absent dollar (by decide)), numberSpans_map_plain]
  dsimp only
  rw [quotePieces_append (absent quote (by decide))]
  cases quotePieces (numberSpans .variable 0 (variablePieces t)).1 with
  | none => rfl
  | some pieces =>
    dsimp only [Option.map_some]
    rw [numberSpans_map_plain]
    dsimp only
    rw [List.count_append, List.count_eq_zero_of_not_mem hopen, Nat.zero_add,
      extractParens_append hopen]
    dsimp only
    simp only [List.mem_append (s := w ++ [' ']), hopen, hclose, false_or, words]
    split_ifs <;> rfl

/-- A text without percent signs holds no placeholder. -/
theorem Clear.of_percent {tokens : List Token} {t : Text} (h : '%' ∉ t) : Clear tokens t := by
  intro token _ inside
  refine h (inside.subset ?_)
  rw [Token.placeholder_eq_cons]
  exact List.mem_cons_self

/-- **A name in front of some words is expanded to itself.** -/
theorem Host.expand_name (host : Host) (hb : 0 < host.bound) {name : Text}
    (hn : Phrase.IsName name) {words : List Text} (nonempty : words ≠ []) :
    host.expand (name :: words) = (do
      let rest ← host.expand words
      pure (name :: rest)) := by
  obtain ⟨bound, hbound⟩ := Nat.exists_eq_add_one_of_ne_zero (Nat.ne_of_gt hb)
  have front : Text.unwords (name :: words) = name ++ ' ' :: Text.unwords words := by
    rw [← List.singleton_append, Text.unwords_append (List.cons_ne_nil _ _) nonempty]
    rfl
  have itself : ∀ tokens, Expansion.expand host.dispatch tokens host.bound name = pure name := by
    intro tokens
    rw [hbound]
    exact Expansion.expand_of_clear (.of_percent (hn.absent (by decide)))
  rw [Host.expand, Host.expand, front, Expansion.expandLine, Expansion.expandLine,
    tokenize_word hn.plain (hn.absent (by decide))]
  cases tokenize (Text.unwords words) with
  | error imbalance => rfl
  | ok tokenized =>
    dsimp only [Except.map]
    rw [List.mapM_cons, itself, pure_bind]

/-! ## Blanks behind a body -/

namespace Text

/-- A text that is not all of a class keeps what stands in front when it is trimmed. -/
theorem trimEnd_append (p : Char → Bool) (x y : Text) :
    trimEnd p (x ++ y) = if trimEnd p y = [] then trimEnd p x else x ++ trimEnd p y := by
  simp only [trimEnd, List.reverse_append, List.dropWhile_append, List.reverse_eq_nil_iff,
    List.isEmpty_iff]
  split
  · rfl
  · rw [List.reverse_append, List.reverse_reverse]

/-- What is trimmed off a text is of the class. -/
theorem exists_trimEnd_append (p : Char → Bool) (t : Text) :
    ∃ blanks, t = trimEnd p t ++ blanks ∧ ∀ c ∈ blanks, p c = true := by
  refine ⟨(t.reverse.takeWhile p).reverse, ?_, fun c hc => ?_⟩
  · rw [trimEnd, ← List.reverse_append, List.takeWhile_append_dropWhile, List.reverse_reverse]
  · exact List.mem_takeWhile_imp (List.mem_reverse.mp hc)

/-- A text of the class is trimmed to nothing. -/
theorem trimEnd_eq_nil {p : Char → Bool} {t : Text} (h : ∀ c ∈ t, p c = true) :
    trimEnd p t = [] := by
  rw [trimEnd, List.reverse_eq_nil_iff, List.dropWhile_eq_nil_iff]
  exact fun c hc => h c (List.mem_reverse.mp hc)

/-- **Blanks at the end of a text do not count when both its ends are trimmed.** -/
theorem strip_trimEnd (t : Text) : strip (trimEnd isBlank t) = strip t := by
  obtain ⟨blanks, whole, blank⟩ := exists_trimEnd_append isBlank t
  generalize trimEnd isBlank t = x at whole
  subst whole
  have gone : blanks.dropWhile isBlank = [] := List.dropWhile_eq_nil_iff.mpr blank
  rw [strip, strip, trim, trim, List.dropWhile_append]
  split
  · next nil => rw [List.isEmpty_iff.mp nil, gone]
  · rw [trimEnd_append, if_pos (trimEnd_eq_nil blank)]

end Text

/-- A line is dispatched as it is without the blanks at its end. -/
theorem Registry.dispatch_trimEnd (r : Registry) (bound : Nat) (line : Text) :
    r.dispatch bound (Text.trimEnd Text.isBlank line) = r.dispatch bound line := by
  cases bound with
  | zero => rfl
  | succ bound => rw [dispatch, dispatch, carryOutLine, carryOutLine, Text.strip_trimEnd]

namespace Command

/-- The name of a reference is one stretch of a line. -/
theorem Simple.of_isName {name : Text} (h : Phrase.IsName name) : Simple name where
  space := h.absent (by decide)
  plain c hc := isMark_of_isNameChar (h.2 c hc)
  full c hc := isBlank_of_isNameChar (h.2 c (List.mem_of_getLast? hc))

/-- The name of a reference is one that a variable may have. -/
theorem checkName_of_isName {name : Text} (h : Phrase.IsName name) : checkName name = .ok () := by
  obtain ⟨c, rest, rfl⟩ := List.exists_cons_of_ne_nil h.1
  refine (checkName_eq_ok_iff _).mpr ⟨c, rest, rfl, ?_⟩
  rintro rfl
  exact h.absent (c := '$') (by decide) List.mem_cons_self

/-! ## The parts of a repetition -/

/-- A repetition as it is written. -/
def repetitionLine (name : Text) (list : Clause) (body : Text) : Text :=
  Text.unwords ["FOR".toList, name, "IN".toList, list.text, "DO".toList, body]

/-- What a list comes to: its words are expanded and put together. -/
def Clause.items (host : Host) (list : Clause) : Act Text := do
  let words ← host.expand (Text.words list.text)
  pure (Text.unwords words)

section Parts

variable {name : Text} {list : Clause}

/-- The words of a repetition up to its body. -/
def repetitionWords (name : Text) (list : Clause) : List Text :=
  "FOR".toList :: name :: "IN".toList :: (Text.words list.text ++ ["DO".toList])

/-- The line of a repetition has its words, and behind them those of the body without the blanks
at its end. -/
theorem repetitionLine_parts (hn : Phrase.IsName name) (list : Clause) (body : Text) :
    ∃ words, Text.words (Text.strip (repetitionLine name list body))
        = repetitionWords name list ++ words ∧
      Text.unwords words = Text.trimEnd Text.isBlank body := by
  let front := Text.unwords ["FOR".toList, name, "IN".toList, list.text, []]
  have words_front : Text.words (front ++ "DO".toList) = repetitionWords name list := by
    have spelled : front ++ "DO".toList = "FOR".toList ++ ' ' ::
        (name ++ ' ' :: ("IN".toList ++ ' ' :: (list.text ++ ' ' :: "DO".toList))) := by
      simp [front, Text.unwords, Text.join]
    rw [spelled, Text.words_word (by decide), Text.words_word (hn.absent (by decide)),
      Text.words_word (by decide), Text.words_append]
    rfl
  have written : repetitionLine name list body = front ++ ("DO".toList ++ ' ' :: body) := by
    simp [front, repetitionLine, Text.unwords, Text.join]
  have stripped : Text.strip (repetitionLine name list body)
      = Text.trimEnd Text.isBlank (front ++ ("DO".toList ++ ' ' :: body)) := by
    rw [written, Text.strip, Text.trim]
    exact congrArg _ (List.dropWhile_cons_of_neg Bool.false_ne_true)
  -- the keyword is the last thing that stays when the body is blank
  have keyword : Text.trimEnd Text.isBlank "DO".toList = "DO".toList := by decide
  have space : Text.trimEnd Text.isBlank [' '] = [] := by decide
  rw [stripped, Text.trimEnd_append, Text.trimEnd_append _ "DO".toList, ← List.singleton_append,
    Text.trimEnd_append _ [' '], space, keyword]
  by_cases blank : Text.trimEnd Text.isBlank body = []
  · refine ⟨[], ?_, blank.symm⟩
    rw [if_pos blank, if_pos rfl, if_neg (by decide), words_front, List.append_nil]
  · refine ⟨Text.words (Text.trimEnd Text.isBlank body), ?_, Text.unwords_words _⟩
    rw [if_neg blank, if_neg (by simp), if_neg (by simp), ← List.append_assoc,
      List.singleton_append, Text.words_append, words_front]

/-- **A repetition is cut into its parts**, whatever keywords stand in its list and its body. -/
theorem read_repetitionWords (hn : Phrase.IsName name)
    (other : Text.sameAscii name "IN".toList = false)
    (differs : list.Differs "DO".toList) (words : List Text) :
    Repetition.read (repetitionWords name list ++ words)
      = .ok ⟨"FOR".toList :: name :: "IN".toList :: Text.words list.text,
          Text.unwords words⟩ := by
  have named : splitKeyword "IN".toList {} (name :: "IN".toList ::
      (Text.words list.text ++ "DO".toList :: words))
        = some ([name], Text.words list.text ++ "DO".toList :: words) := by
    have alone : splitKeyword "IN".toList {} [name] = none := Clause.splitKeyword_single other _
    refine splitKeyword_append alone ?_ rfl _
    have plain : ∀ c ∈ name, isMark c = false := fun c hc => isMark_of_isNameChar (hn.2 c hc)
    show (Nesting.after {} name).isTop = true
    rw [Nesting.after_of_plain plain]
    rfl
  have listed : splitKeyword "DO".toList {} (Text.words list.text ++ "DO".toList :: words)
      = some (Text.words list.text, words) := by
    refine splitKeyword_append ?_ ?_ rfl _
    · refine Clause.splitKeyword_of_lettered (fun d hd rest => ?_) differs
      simp only [List.mem_cons, List.not_mem_nil, or_false] at hd
      rcases hd with rfl | rfl | rfl <;> simp [Text.sameAscii, Text.lowerAscii]
    · rw [Text.unwords_words, list.after_text]
      rfl
  have parts : repetitionWords name list ++ words = "FOR".toList :: name :: "IN".toList ::
      (Text.words list.text ++ "DO".toList :: words) := by
    simp [repetitionWords]
  rw [parts, Repetition.read, List.drop_one, List.tail_cons, named]
  dsimp only
  rw [listed]
  dsimp only
  have count : [name].length + (Text.words list.text).length + 2
      = (Text.words list.text).length + 3 := by
    rw [List.length_singleton]
    omega
  rw [count, List.take_succ_cons, List.take_succ_cons, List.take_succ_cons, List.take_left]

/-- **A repetition evaluates its list once and then takes its items in order.** -/
theorem perform_repeatEach (host : Host) (hb : 0 < host.bound) (hn : Phrase.IsName name)
    (other : Text.sameAscii name "IN".toList = false)
    (differs : list.Differs "DO".toList) (words : List Text) :
    repeatEach.perform host (repetitionWords name list ++ words) = (do
      let value ← list.items host
      if value = [] then pure .none
      else Act.asProgram (repeatFor host name (Text.unwords words) [] (Text.lines value))) := by
  have command : Phrase.IsName "FOR".toList := ⟨by decide, List.all_eq_true.mp rfl⟩
  have keyword : Phrase.IsName "IN".toList := ⟨by decide, List.all_eq_true.mp rfl⟩
  have nonempty : Text.words list.text ≠ [] := Text.cut_ne_nil ' ' list.text
  have head : host.expand ("FOR".toList :: name :: "IN".toList :: Text.words list.text) = (do
      let rest ← host.expand (Text.words list.text)
      pure ("FOR".toList :: name :: "IN".toList :: rest)) := by
    rw [host.expand_name hb command (List.cons_ne_nil _ _),
      host.expand_name hb hn (List.cons_ne_nil _ _), host.expand_name hb keyword nonempty]
    simp only [bind_assoc, pure_bind]
  show (Act.ofExcept (Repetition.read _) >>= _) = _
  rw [read_repetitionWords hn other differs]
  show (host.expand _ >>= _) = _
  rw [head, Clause.items, bind_assoc, bind_assoc]
  refine bind_congr fun rest => ?_
  rw [pure_bind, pure_bind]
  show (Act.ofExcept (checkName name) >>= _) = _
  rw [checkName_of_isName hn]
  rfl

end Parts

end Command

/-! ## Dispatching a repetition -/

/-- A phrase that gives a value is expanded to it. -/
theorem Phrase.Gives.run_expand (host : Host) {p : Phrase} {t : Terminal} {v : Text}
    (h : p.Gives t.session v) (hb : p.depth < host.bound) :
    (host.expand (Text.words p.text)).run t = some (.ok [v], t) := by
  rw [h.wellFormed.expand_eq h.percent_not_mem hb, evaluateWords, h.words_eq, List.mapM_cons,
    List.mapM_nil, Act.run_bind_of_ok (h.run_evaluate host.dispatch rfl)]
  rfl

namespace Registry

open Command (Clause repetitionLine repetitionWords Rounds Ends)

/-- What a line gives whose repetition came to its end: whether a program runs is put back, and
a fault is reported. -/
def finished (executing : Bool) : Except Fault Output × Terminal → Output × Terminal
  | (.ok output, u) => leave (output, u.update fun s => { s with executing })
  | (.error f, u) => leave (.failure, (u.update fun s => { s with executing }).report f)

/-- The line of a repetition that is carried out in a terminal comes to what its list and its
rounds come to. -/
inductive Repeats (host : Host) (name : Text) (list : Clause) (body : Text) (s : Terminal) :
    Option (Output × Terminal) → Prop
  /-- The list is evaluated for ever. -/
  | endless (evaluated : (list.items host).run s = none) : Repeats host name list body s none
  /-- The list ends in a fault, and nothing is carried out. -/
  | faulty {f : Fault} {t : Terminal} (evaluated : (list.items host).run s = some (.error f, t)) :
      Repeats host name list body s (some (leave (.failure, t.report f)))
  /-- The list is empty, and nothing is carried out. -/
  | empty {t : Terminal} (evaluated : (list.items host).run s = some (.ok [], t)) :
      Repeats host name list body s (some (leave (.none, t)))
  /-- The lines of the list are the items of rounds that passed and those that are left at the
  end. -/
  | rounds {value : Text} {t u : Terminal} {passed : List (Text × Text)} {rest : List Text}
      {result : Option (Except Fault Output × Terminal)}
      (evaluated : (list.items host).run s = some (.ok value, t)) (nonempty : value ≠ [])
      (items : Text.lines value = passed.map Prod.fst ++ rest)
      (rounds : Rounds host.dispatch name body (t.update fun s => { s with executing := true })
        passed u)
      (ends : Ends host.dispatch name body (passed.map Prod.snd) u rest result) :
      Repeats host name list body s (result.map (finished t.session.executing))

/-- An act that is done as part of a program is settled outside it. -/
theorem settle_asProgram (a : Act Output) (t : Terminal) :
    (Run.settle (Act.asProgram a) t).map leave
      = (a.run (t.update fun s => { s with executing := true })).map
          (finished t.session.executing) := by
  have run := Act.run_within (fun s => { s with executing := true })
    (fun before s => { s with executing := before.executing }) a t
  show (((Act.asProgram a).run t).bind _).map leave = _
  rw [Act.asProgram, run]
  rcases a.run (t.update fun s => { s with executing := true }) with _ | ⟨f | output, u⟩ <;> rfl

/-- A line that is carried out for every item may be replaced by one that is dispatched alike. -/
theorem repeatFor_congr {host : Host} {body body' : Text}
    (same : host.dispatch body = host.dispatch body') (name : Text) (done items : List Text) :
    Command.repeatFor host name body done items = Command.repeatFor host name body' done items := by
  induction items generalizing done with
  | nil => rfl
  | cons item items ih => simp only [Command.repeatFor, same, ih]

variable {name : Text} {s : Terminal}

/-- The line of a repetition is dispatched as its list and its rounds are carried out. -/
theorem dispatch_repetitionLine (bound : Nat) (hn : Phrase.IsName name)
    (other : Text.sameAscii name "IN".toList = false) (list : Clause)
    (differs : list.Differs "DO".toList) (body : Text) :
    let line := repetitionLine name list body
    let host := builtin.host (bound + 1)
    builtin.dispatch (bound + 2) line s
      = (Run.settle (do
          let value ← list.items host
          if value = [] then pure .none
          else Act.asProgram (Command.repeatFor host name body [] (Text.lines value)))
          (entered s (Text.strip line))).map leave := by
  intro line host
  obtain ⟨words, parts, trimmed⟩ := Command.repetitionLine_parts hn list body
  have named : Builtin.ofLine? (Text.strip line) = some .repeatEach := by
    rw [Builtin.ofLine?, Text.firstWord, parts]
    show Builtin.named? (Text.upper "FOR".toList) = some .repeatEach
    decide
  have same : host.dispatch (Text.unwords words) = host.dispatch body := by
    rw [trimmed]
    exact builtin.dispatch_trimEnd (bound + 1) body
  have performed := Command.perform_repeatEach host (Nat.succ_pos bound) hn other differs words
  simp only [repeatFor_congr same] at performed
  rw [dispatch_command named, parts, ← performed]
  rfl

/-- **The line of a repetition repeats its body for the lines of its list.** -/
theorem repeats_repetitionLine (bound : Nat) (s : Terminal) (hn : Phrase.IsName name)
    (other : Text.sameAscii name "IN".toList = false) (list : Clause)
    (differs : list.Differs "DO".toList) (body : Text) :
    let line := repetitionLine name list body
    Repeats (builtin.host (bound + 1)) name list body (entered s (Text.strip line))
      (builtin.dispatch (bound + 2) line s) := by
  intro line
  have whole := dispatch_repetitionLine (s := s) bound hn other list differs body
  rcases evaluated : (list.items (builtin.host (bound + 1))).run (entered s (Text.strip line))
    with _ | ⟨f | value, t⟩
  · have ended := whole.trans (congrArg (Option.map leave) (Run.bind_of_none
      (Act.run_bind_of_none evaluated)))
    rw [ended]
    exact .endless evaluated
  · have ended := whole.trans (congrArg (Option.map leave) (Run.bind_of_some
      (Act.run_bind_of_error evaluated)))
    rw [ended]
    exact .faulty evaluated
  · have settled := whole.trans (congrArg (Option.map leave) (Run.settle_congr (t := t)
      (Act.run_bind_of_ok evaluated)))
    by_cases nonempty : value = []
    · subst nonempty
      rw [settled, if_pos rfl]
      exact .empty evaluated
    · rw [settled, if_neg nonempty, settle_asProgram]
      obtain ⟨passed, rest, u, items, rounds, ends⟩ :=
        Command.exists_rounds_repeatFor (builtin.host (bound + 1)) (scoping_hosts (bound + 1))
          name body (Text.lines value) [] (s := t.update fun s => { s with executing := true }) rfl
      exact .rounds evaluated nonempty items rounds ends

/-- **A repetition that prints the lines of a variable gives the value of the variable back**,
unless a request to stop is noticed. -/
theorem dispatch_repetition_print (bound : Nat) (hn : Phrase.IsName name)
    (other : Text.sameAscii name "IN".toList = false) {source value : Text}
    (hs : Phrase.IsName source) (found : s.session.bindings.get? source = some value)
    (calm : s.session.stopping = false) :
    ∃ output u, builtin.dispatch (bound + 3) (Text.unwords ["FOR".toList, name, "IN".toList,
        '$' :: source, "DO".toList, "PRINT $".toList ++ name]) s = some (output, u) ∧
      u.session.status = 0 ∧ (output = .text value ∨ s.SeesStop u) := by
  let list : Clause := .reference source (.of_isName hs)
  have whole := dispatch_repetitionLine (s := s) (bound + 1) hn other list (.of_beginsOperand rfl)
    ("PRINT $".toList ++ name)
  let start := entered s (Text.strip (repetitionLine name list ("PRINT $".toList ++ name)))
  have gives : (Phrase.reference source .done).Gives start.session value := .bound hs found
  have text : (Phrase.reference source .done).text = list.text := by
    rw [Phrase.text, Phrase.text, List.append_nil]
    rfl
  have expanded := gives.run_expand (builtin.host (bound + 2)) (Nat.succ_pos _)
  rw [text] at expanded
  have evaluated : (list.items (builtin.host (bound + 2))).run start = some (.ok value, start) :=
    Act.run_bind_of_ok expanded
  have settled := whole.trans (congrArg (Option.map leave) (Run.settle_congr (t := start)
    (Act.run_bind_of_ok evaluated)))
  by_cases nonempty : value = []
  · subst nonempty
    rw [if_pos rfl] at settled
    exact ⟨_, _, settled, rfl, .inl rfl⟩
  · rw [if_neg nonempty, settle_asProgram] at settled
    obtain ⟨output, u, ran, -, well, result⟩ := run_repeatFor_print bound
      (s := start.update fun s => { s with executing := true }) hn (Text.lines value) [] calm rfl
    rw [ran] at settled
    refine ⟨output, _, settled, well, result.imp (fun same => ?_) fun seen => ?_⟩
    · rw [same, List.reverse_nil, List.nil_append, Text.unlines_lines]
    · have begun : s.Notes (start.update fun s => { s with executing := true }) :=
        ⟨[.entered _], rfl⟩
      exact (seen.after begun).before ⟨[.left _], rfl⟩

/-- **A repetition carries out its body for the lines of its list in order.**  Whatever stands in
its list and its body, the list is evaluated once; if it comes to a text, rounds pass for its
lines, each with the line just bound and saved and a program running, until no line is left or
one round ends the repetition: with a fault that keeps the status, with a jump or an exit, or
with the texts so far.  No line behind is bound.  If the body prints the variable, and no
request to stop is pending or noticed, the text that was listed comes back. -/
theorem dispatch_repetition (bound : Nat) (s : Terminal) (hn : Phrase.IsName name)
    (other : Text.sameAscii name "IN".toList = false) :
    (∀ list : Clause, Command.beginsOperand list.text = true → ∀ body,
      let line := repetitionLine name list body
      Repeats (builtin.host (bound + 2)) name list body (entered s (Text.strip line))
        (builtin.dispatch (bound + 3) line s)) ∧
    ∀ source value, Phrase.IsName source → s.session.bindings.get? source = some value →
      s.session.stopping = false →
      ∃ output u, builtin.dispatch (bound + 3) (Text.unwords ["FOR".toList, name, "IN".toList,
          '$' :: source, "DO".toList, "PRINT $".toList ++ name]) s = some (output, u) ∧
        u.session.status = 0 ∧ (output = .text value ∨ s.SeesStop u) := by
  constructor
  · intro list marked body
    exact repeats_repetitionLine (bound + 1) s hn other list (.of_beginsOperand marked) body
  · intro source value hs found calm
    exact dispatch_repetition_print bound hn other hs found calm

/-- A repetition over what a parenthesis comes to, with keywords in it, and one over a variable
whose value has an empty line. -/
theorem dispatch_repetition_lines :
    let start := Terminal.ofSettings {} (.recorder { grid := ⟨60, 25⟩ }) (.memory .empty) ⟨0⟩
    let s := start.update fun t => { t with
      bindings := t.bindings.insert "L".toList "IN\n\nDO".toList }
    let line := "FOR X IN (PRINT $L DO b) DO PRINT <$X>".toList
    (∃ list : Clause, repetitionLine "X".toList list "PRINT <$X>".toList = line ∧
      Repeats (builtin.host 4) "X".toList list "PRINT <$X>".toList (entered s (Text.strip line))
        (builtin.dispatch 5 line s)) ∧
    (builtin.dispatch 5 line s).map Prod.fst = some (.text "<IN>\n<>\n<DO DO b>".toList) ∧
    ∃ output u, builtin.dispatch 5 "FOR X IN $L DO PRINT $X".toList s = some (output, u) ∧
      u.session.status = 0 ∧ (output = .text "IN\n\nDO".toList ∨ s.SeesStop u) := by
  intro start s line
  have name : Phrase.IsName "X".toList := ⟨by decide, List.all_eq_true.mp rfl⟩
  have source : Phrase.IsName "L".toList := ⟨by decide, List.all_eq_true.mp rfl⟩
  let list : Clause := .paren "PRINT $L DO b".toList
    ⟨by decide, by rw [show brackets _ = [] by decide]; exact .of_cancel (by simp) .refl⟩
  obtain ⟨general, printed⟩ := dispatch_repetition 2 s name (by decide)
  have written : repetitionLine "X".toList list "PRINT <$X>".toList = line := by decide +kernel
  have rounds := general list rfl "PRINT <$X>".toList
  dsimp only at rounds
  rw [written] at rounds
  have printed := printed "L".toList "IN\n\nDO".toList source (by decide +kernel) rfl
  have short : Text.unwords ["FOR".toList, "X".toList, "IN".toList, '$' :: "L".toList, "DO".toList,
      "PRINT $".toList ++ "X".toList] = "FOR X IN $L DO PRINT $X".toList := by decide +kernel
  rw [short] at printed
  exact ⟨⟨list, written, rounds⟩, by decide +kernel, printed⟩

/-- A keyword is one in any letters, and the names of variables are not: a repetition cannot bind
the variable whose name is a keyword in small letters. -/
theorem dispatch_repetition_keyword :
    let start := Terminal.ofSettings {} (.recorder { grid := ⟨60, 25⟩ }) (.memory .empty) ⟨0⟩
    let summary := fun r : Output × Terminal => (r.1, r.2.session.status, r.2.session.bindings)
    Phrase.IsName "in".toList ∧ "in".toList ≠ "IN".toList ∧
    (builtin.dispatch 4 "ASSIGN a TO in".toList start).map summary
      = some (.text "a".toList, 0, Table.empty.insert "in".toList "a".toList) ∧
    (builtin.dispatch 4 "FOR in IN \"a\" DO PRINT $in".toList start).map summary
      = some (.failure, 1, .empty) := by
  intro start summary
  exact ⟨⟨by decide, List.all_eq_true.mp rfl⟩, by decide, by decide +kernel, by decide +kernel⟩

end Registry

end Teletype
