/-
# Lines addressed by their numbers

A line is entered under a number of 64 bits; the commands that delete, move, list and jump
to lines read their arguments as indices instead, and an index is rounded.  The main
statement is that **a line is found under its number exactly if the number is rounded to
itself, and these commands then act on this line and no other**
(`Registry.dispatch_addressed`).  From two to the power of 53 on there are lines that can be
entered but not deleted (`Registry.dispatch_addressed_rounded`).
-/
import Teletype.Proofs.Index
import Teletype.Proofs.Printing

namespace Teletype

/-! ## Literal words -/

namespace Text

/-- A text that does not end in a blank may stand behind a space. -/
theorem EndsFull.after_space {t : Text} (h : t ≠ [] ∧ t.EndsFull) (x : Text) :
    x ++ ' ' :: t ≠ [] ∧ (x ++ ' ' :: t).EndsFull := by
  refine ⟨fun nil => absurd (List.append_eq_nil_iff.mp nil).2 (List.cons_ne_nil _ _), ?_⟩
  intro c hc
  obtain ⟨d, rest, ht⟩ := List.exists_cons_of_ne_nil h.1
  rw [List.getLast?_append_of_ne_nil _ (List.cons_ne_nil _ _), ht, List.getLast?_cons_cons,
    ← ht] at hc
  exact h.2 c hc

/-- A word that stands for itself: no blank stands in it, and nothing that begins or ends a
span. -/
structure Literal (w : Text) : Prop where
  /-- It has characters. -/
  nonempty : w ≠ []
  /-- None of them is blank. -/
  full : ∀ c ∈ w, isBlank c = false
  /-- No span begins or ends in it. -/
  plain : ∀ c ∈ spanMarks, c ∉ w

/-- Whether a word stands for itself. -/
def isLiteral (w : Text) : Bool :=
  !w.isEmpty && w.all (fun c => !isBlank c) && spanMarks.all fun c => !w.contains c

/-- A word stands for itself if this is found of its characters one by one. -/
theorem Literal.of_isLiteral {w : Text} (h : w.isLiteral = true) : w.Literal := by
  rw [isLiteral, Bool.and_eq_true, Bool.and_eq_true, List.all_eq_true, List.all_eq_true] at h
  obtain ⟨⟨nonempty, full⟩, plain⟩ := h
  refine ⟨fun nil => ?_, fun c hc => ?_, fun c hc mem => ?_⟩
  · rw [nil] at nonempty
    cases nonempty
  · exact Bool.not_eq_true' _ |>.mp (full c hc)
  · have absent := plain c hc
    rw [List.contains_iff_mem.mpr mem] at absent
    cases absent

namespace Literal

variable {w : Text} {ws : List Text}

/-- No space stands in a literal word. -/
theorem space (h : w.Literal) : ' ' ∉ w := fun mem => Bool.false_ne_true ((h.full _ mem).symm.trans rfl)

/-- A line of literal words does not end in a blank. -/
theorem endsFull_unwords (hn : ws ≠ []) (h : ∀ w ∈ ws, w.Literal) :
    unwords ws ≠ [] ∧ (unwords ws).EndsFull := by
  induction ws with
  | nil => exact absurd rfl hn
  | cons w ws ih =>
    rw [List.forall_mem_cons] at h
    cases ws with
    | nil => exact ⟨h.1.nonempty, fun c hc => h.1.full c (List.mem_of_mem_getLast? hc)⟩
    | cons next ws => exact EndsFull.after_space (ih (List.cons_ne_nil _ _) h.2) w

/-- Literal words make up a line that is not changed by trimming. -/
theorem strip_unwords (hn : ws ≠ []) (h : ∀ w ∈ ws, w.Literal) :
    strip (unwords ws) = unwords ws := by
  refine strip_eq_self (fun c hc => ?_) (endsFull_unwords hn h).2
  obtain ⟨w, ws, rfl⟩ := List.exists_cons_of_ne_nil hn
  have literal := h w List.mem_cons_self
  obtain ⟨d, rest, rfl⟩ := List.exists_cons_of_ne_nil literal.nonempty
  have first : (unwords ((d :: rest) :: ws)).head? = some d := by
    cases ws <;> rfl
  rw [first] at hc
  cases hc
  exact literal.full c List.mem_cons_self

/-- No span stands in a line of literal words. -/
theorem plain_unwords (h : ∀ w ∈ ws, w.Literal) : ∀ c ∈ spanMarks, c ∉ unwords ws := by
  intro c hc
  have other : c ≠ ' ' := by
    rintro rfl
    exact absurd hc (by decide)
  induction ws with
  | nil => exact List.not_mem_nil
  | cons w ws ih =>
    rw [List.forall_mem_cons] at h
    cases ws with
    | nil => exact h.1.plain c hc
    | cons next ws =>
      intro mem
      rcases List.mem_append.mp mem with mem | mem
      · exact h.1.plain c hc mem
      · rcases List.mem_cons.mp mem with mem | mem
        · exact other mem
        · exact ih h.2 mem

end Literal

end Text

/-- A word of 64 bits stands for itself. -/
theorem Decimal.IsWord.literal {w digits : Text} {n : UInt64} (h : IsWord w n digits) :
    w.Literal where
  nonempty := by
    rcases h.sign with rfl | rfl
    · exact h.nonempty
    · exact List.cons_ne_nil _ _
  full _ hc := h.isBlank hc
  plain c hc mem := by
    simp only [spanMarks, List.mem_cons, List.not_mem_nil, or_false] at hc
    rcases h.mem mem with digit | rfl
    · rcases hc with rfl | rfl | rfl | rfl <;> cases digit
    · rcases hc with hc | hc | hc | hc <;> cases hc

/-! ## Lines of literal words -/

namespace Registry

variable {bound : Nat} {s : Terminal}

/-- The word of every command stands for itself and names it. -/
theorem named_page (b : Builtin) :
    b.command.page.name.Literal ∧ Builtin.named? (Text.upper b.command.page.name) = some b := by
  have all : Builtin.all.all (fun b => b.command.page.name.isLiteral
      && decide (Builtin.named? (Text.upper b.command.page.name) = some b)) = true := by
    decide +kernel
  obtain ⟨literal, named⟩ := Bool.and_eq_true_iff.mp (List.all_eq_true.mp all b (Builtin.mem_all b))
  exact ⟨.of_isLiteral literal, of_decide_eq_true named⟩

/-- The word of a command and literal words are literal words. -/
theorem literal_page (b : Builtin) {words : List Text} (h : ∀ w ∈ words, w.Literal) :
    ∀ w ∈ b.command.page.name :: words, w.Literal :=
  List.forall_mem_cons.mpr ⟨(named_page b).1, h⟩

/-- **A line of literal words is dispatched as its command is carried out with them.** -/
theorem dispatch_literal (b : Builtin) {words : List Text} (h : ∀ w ∈ words, w.Literal) :
    let line := Text.unwords (b.command.page.name :: words)
    builtin.dispatch (bound + 1) line s
      = (Run.settle (b.command.perform (builtin.host bound) (b.command.page.name :: words))
          (entered s line)).map leave := by
  intro line
  have literal := literal_page b h
  have stripped : Text.strip line = line := Text.Literal.strip_unwords (List.cons_ne_nil _ _) literal
  have cut : Text.words line = b.command.page.name :: words :=
    Text.words_unwords (fun w hw => (literal w hw).space) (List.cons_ne_nil _ _)
  have named : Builtin.ofLine? (Text.strip line) = some b := by
    rw [stripped, Builtin.ofLine?, Text.firstWord, cut]
    exact (named_page b).2
  rw [dispatch_command named, stripped, cut]

/-- Literal words are expanded to themselves. -/
theorem expand_literal {host : Host} {words : List Text} (h : ∀ w ∈ words, w.Literal)
    (hn : words ≠ []) (hb : 0 < host.bound) : host.expand words = pure words := by
  have expanded := Host.expand_of_plain (Text.Literal.plain_unwords h) hb
  rwa [Text.words_unwords (fun w hw => (h w hw).space) hn] at expanded

end Registry

/-! ## Commands for lines -/

/-- While no program runs, what is behind the check is done. -/
theorem Act.run_ensureIdle_of_idle {α : Type} {s : Terminal} (h : s.session.executing = false)
    (k : Unit → Act α) : (ensureIdle >>= k).run s = (k ()).run s := by
  have passed : ensureIdle.run s = some (.ok (), s) := by
    rw [ensureIdle, run_session_bind, h]
    rfl
  exact Act.run_bind_of_ok passed

/-- The lines from a line to itself are this line. -/
theorem Program.linesBetween_self {p : Program} {m : LineNumber} {text : Text}
    (h : p.line? m = some text) : p.linesBetween m m = [(m, text)] := by
  have mem : (m, text) ∈ p.linesBetween m m :=
    List.mem_filter.mpr ⟨(p.mem_entries_iff m text).mpr h, by simp⟩
  have key : ∀ e ∈ p.linesBetween m m, e.1 = m := by
    intro e he
    have both := (List.mem_filter.mp he).2
    rw [Bool.and_eq_true, decide_eq_true_eq, decide_eq_true_eq] at both
    exact UInt64.le_antisymm both.2 both.1
  have sorted : (p.linesBetween m m).Pairwise fun a b => a.1 < b.1 :=
    (ascending_of_suffix (List.suffix_refl p.entries)).filter _
  generalize p.linesBetween m m = lines at mem key sorted
  match lines with
  | [] => cases mem
  | [e] =>
    rw [List.mem_singleton.mp mem]
  | e :: e' :: rest =>
    -- two lines would have one number
    have lt := (List.pairwise_cons.mp sorted).1 e' List.mem_cons_self
    rw [key e List.mem_cons_self, key e' (List.mem_cons_of_mem _ List.mem_cons_self)] at lt
    exact absurd lt (UInt64.lt_irrefl m)

namespace Command

variable {host : Host} {s : Terminal} {word w w' : Text} {m m' : LineNumber}

/-- What is done to delete a line. -/
theorem run_delete (idle : s.session.executing = false)
    (expanded : host.expand [word, w] = pure [word, w]) :
    (delete.perform host [word, w]).run s
      = match readDelete w with
        | .error f => some (.error f, s)
        | .ok m => match s.session.program.line? m with
          | none => some (.error (.refused ("Line ".toList ++ m.text
              ++ " does not exist; nothing deleted.".toList)), s)
          | some text => (say (Program.entryText (m, text))).run
              (s.update fun t => { t with program := t.program.erase m }).save := by
  show (Act.ensureIdle >>= _).run s = _
  rw [Act.run_ensureIdle_of_idle idle, expanded, pure_bind]
  dsimp only
  cases readDelete w with
  | error f => rfl
  | ok m =>
    have read : (Act.ofExcept (.ok m : Except Fault LineNumber)).run s = some (.ok m, s) := rfl
    rw [Act.run_bind_of_ok read, Act.run_session_bind]
    dsimp only
    cases s.session.program.line? m <;> rfl

/-- What is done to move a line. -/
theorem run_move (idle : s.session.executing = false)
    (expanded : host.expand [word, w, w'] = pure [word, w, w']) :
    (move.perform host [word, w, w']).run s
      = match readMove w w' with
        | .error f => some (.error f, s)
        | .ok (m, m') => match s.session.program.line? m with
          | none => some (.error (.refused ("Line ".toList ++ m.text
              ++ " does not exist; nothing moved.".toList)), s)
          | some text => (say (Program.entryText (m', text))).run (s.update fun t =>
              { t with program := (s.session.program.erase m).insert m' text }).save := by
  show (Act.ensureIdle >>= _).run s = _
  rw [Act.run_ensureIdle_of_idle idle, expanded, pure_bind]
  dsimp only
  cases readMove w w' with
  | error f => rfl
  | ok lines =>
    obtain ⟨m, m'⟩ := lines
    have read : (Act.ofExcept (.ok (m, m') : Except Fault (LineNumber × LineNumber))).run s
        = some (.ok (m, m'), s) := rfl
    rw [Act.run_bind_of_ok read, Act.run_session_bind, Program.moveLine?]
    dsimp only
    cases s.session.program.line? m <;> rfl

/-- What a jump to a line gives. -/
theorem run_goto (expanded : host.expand [word, w] = pure [word, w])
    (hm : Number.readIndex w = .ok m) :
    (goto.perform host [word, w]).run s = some (.ok (.jump m), s) := by
  show (host.expand _ >>= _).run s = _
  rw [expanded, pure_bind]
  dsimp only
  rw [hm]
  rfl

/-- The lines from one to another are listed. -/
theorem run_list {words : List Text} (expanded : host.expand words = pure words)
    (hm : listBound words[1]? 0 = .ok m)
    (hm' : listBound words[2]? (UInt64.ofNat (UInt64.size - 1)) = .ok m') :
    (list.perform host words).run s
      = (printListing (s.session.program.linesBetween m m')).run s := by
  have first : (Act.ofExcept (listBound words[1]? 0)).run s = some (.ok m, s) := by
    rw [hm]
    rfl
  have last : (Act.ofExcept (listBound words[2]? (UInt64.ofNat (UInt64.size - 1)))).run s
      = some (.ok m', s) := by
    rw [hm']
    rfl
  show (host.expand _ >>= _).run s = _
  rw [expanded, pure_bind, Act.run_bind_of_ok first, Act.run_bind_of_ok last, Act.run_session_bind]

end Command

/-! ## Addressed lines -/

namespace Registry

variable {bound : Nat} {s : Terminal} {line text w : Text} {n m : LineNumber}

/-- A line gives an output with status zero, and leaves a program. -/
def Leads (bound : Nat) (s : Terminal) (line : Text) (output : Output) (p : Program) : Prop :=
  ∃ u, builtin.dispatch bound line s = some (output, u) ∧ u.session.status = 0 ∧
    u.session.program = p

/-- Printing leaves the status and the program. -/
theorem printLine_leads (s : Terminal) (text : Text) :
    (s.printLine text).session.status = s.session.status ∧
      (s.printLine text).session.program = s.session.program :=
  ⟨(Terminal.Quiet.print s _).status,
    congrArg Snapshot.program (Terminal.Routine.print s _).same.1⟩

/-- A line of literal words gives what its command gives with them. -/
theorem dispatch_of_run (b : Builtin) {words : List Text} (h : ∀ w ∈ words, w.Literal)
    {output : Output} {t : Terminal}
    (ran : (b.command.perform (builtin.host bound) (b.command.page.name :: words)).run
      (entered s (Text.unwords (b.command.page.name :: words))) = some (.ok output, t)) :
    builtin.dispatch (bound + 1) (Text.unwords (b.command.page.name :: words)) s
      = some (output, t.note (.left t.session.status)) := by
  have settled : Run.settle (b.command.perform (builtin.host bound) (b.command.page.name :: words))
      (entered s (Text.unwords (b.command.page.name :: words))) = some (output, t) :=
    Run.bind_eq_some.mpr ⟨_, _, ran, rfl⟩
  rw [dispatch_literal b h, settled]
  rfl

/-- A line of literal words leads where its command does. -/
theorem leads_of_run (b : Builtin) {words : List Text} (h : ∀ w ∈ words, w.Literal)
    {output : Output} {t : Terminal} {p : Program}
    (ran : (b.command.perform (builtin.host bound) (b.command.page.name :: words)).run
      (entered s (Text.unwords (b.command.page.name :: words))) = some (.ok output, t))
    (status : t.session.status = 0) (program : t.session.program = p) :
    Leads (bound + 1) s (Text.unwords (b.command.page.name :: words)) output p :=
  ⟨t.note (.left t.session.status), dispatch_of_run b h ran, status, program⟩

/-- The commands for lines act on a line of the program where it is given by a word. -/
structure Addresses (bound : Nat) (s : Terminal) (w : Text) (m : LineNumber) (text : Text) :
    Prop where
  /-- The line is deleted, and no other. -/
  delete : Leads bound s (Text.unwords ["DELETE".toList, w])
    (.text (Program.entryText (m, text))) (s.session.program.erase m)
  /-- The line is moved to the line that another word gives. -/
  move (w' : Text) (m' : LineNumber) : w'.Literal → Number.readIndex w' = .ok m' →
    Leads bound s (Text.unwords ["MOVE".toList, w, w']) (.text (Program.entryText (m', text)))
      ((s.session.program.erase m).insert m' text)
  /-- The line is jumped to. -/
  goto : Leads bound s (Text.unwords ["GOTO".toList, w]) (.jump m) s.session.program
  /-- The line is listed, and no other. -/
  list : Leads bound s (Text.unwords ["LIST".toList, w, w])
    (.text (Program.entryText (m, text) ++ ['\n'])) s.session.program

/-- The commands for lines act on the line that a literal word is read as. -/
theorem addresses_of_readIndex (idle : s.session.executing = false) (literal : w.Literal)
    (hm : Number.readIndex w = .ok m) (hl : s.session.program.line? m = some text) :
    Addresses (bound + 2) s w m text := by
  have one : ∀ x ∈ [w], x.Literal := List.forall_mem_singleton.mpr literal
  have expand : ∀ (b : Builtin) {words : List Text}, (∀ x ∈ words, x.Literal) →
      (builtin.host (bound + 1)).expand (b.command.page.name :: words)
        = pure (b.command.page.name :: words) := fun b _ h =>
    expand_literal (literal_page b h) (List.cons_ne_nil _ _) (Nat.succ_pos bound)
  constructor
  case delete =>
    have ran := Command.run_delete (s := entered s (Text.unwords ["DELETE".toList, w])) idle
      (expand .delete one)
    have read : Command.readDelete w = .ok m := by
      rw [Command.readDelete, hm]
    have found : (entered s (Text.unwords ["DELETE".toList, w])).session.program.line? m
        = some text := hl
    rw [read] at ran
    dsimp only at ran
    rw [found] at ran
    obtain ⟨status, program⟩ := printLine_leads _ _
    exact leads_of_run .delete one ran status program
  case move =>
    intro w' m' literal' hm'
    have two : ∀ x ∈ [w, w'], x.Literal := List.forall_mem_cons.mpr
      ⟨literal, List.forall_mem_singleton.mpr literal'⟩
    have ran := Command.run_move (s := entered s (Text.unwords ["MOVE".toList, w, w'])) idle
      (expand .move two)
    have read : Command.readMove w w' = .ok (m, m') := by
      rw [Command.readMove, hm, hm']
    have found : (entered s (Text.unwords ["MOVE".toList, w, w'])).session.program.line? m
        = some text := hl
    rw [read] at ran
    dsimp only at ran
    rw [found] at ran
    obtain ⟨status, program⟩ := printLine_leads _ _
    exact leads_of_run .move two ran status program
  case goto =>
    exact leads_of_run .goto one (t := entered s _) (Command.run_goto (expand .goto one) hm) rfl rfl
  case list =>
    have two : ∀ x ∈ [w, w], x.Literal := List.forall_mem_cons.mpr ⟨literal, one⟩
    have read : ∀ missing, Command.listBound (some w) missing = .ok m := by
      intro missing
      rw [Command.listBound, hm]
    have ran := Command.run_list (s := entered s (Text.unwords ["LIST".toList, w, w]))
      (expand .list two) (read _) (read _)
    have line : (entered s (Text.unwords ["LIST".toList, w, w])).session.program.linesBetween m m
        = [(m, text)] := Program.linesBetween_self hl
    rw [line] at ran
    have lines : [Program.entryText (m, text)].flatMap (fun line => line ++ ['\n'])
        = Program.entryText (m, text) ++ ['\n'] := List.append_nil _
    rw [← lines]
    obtain ⟨status, program⟩ := printLine_leads _ _
    obtain ⟨status', program'⟩ := printLine_leads _ _
    exact leads_of_run .list two ran (status.trans status') (program.trans program')

/-- What settles an act has the program that the act left. -/
theorem settle_program {a : Act Output} {r : Except Fault Output} {t : Terminal}
    (h : a.run s = some (r, t)) :
    ∃ output u, Run.settle a s = some (output, u) ∧ u.session.program = t.session.program := by
  cases r with
  | ok output => exact ⟨output, t, Run.bind_eq_some.mpr ⟨_, _, h, rfl⟩, rfl⟩
  | error f =>
    exact ⟨.failure, t.report f, Run.bind_eq_some.mpr ⟨_, _, h, rfl⟩, (printLine_leads _ _).2⟩

/-- A literal word that is not read as a line deletes another one or none. -/
theorem delete_other (idle : s.session.executing = false) (literal : w.Literal)
    (hn : Number.readIndex w ≠ .ok n) :
    ∃ output u, builtin.dispatch (bound + 2) (Text.unwords ["DELETE".toList, w]) s
        = some (output, u) ∧ u.session.program.line? n = s.session.program.line? n := by
  have one : ∀ x ∈ [w], x.Literal := List.forall_mem_singleton.mpr literal
  have expanded : (builtin.host (bound + 1)).expand ["DELETE".toList, w]
      = pure ["DELETE".toList, w] :=
    expand_literal (literal_page .delete one) (List.cons_ne_nil _ _) (Nat.succ_pos bound)
  have ran := Command.run_delete (s := entered s (Text.unwords ["DELETE".toList, w])) idle expanded
  obtain ⟨r, t, performed, same⟩ : ∃ r t, (Builtin.delete.command.perform (builtin.host (bound + 1))
      ["DELETE".toList, w]).run (entered s (Text.unwords ["DELETE".toList, w])) = some (r, t) ∧
      t.session.program.line? n = s.session.program.line? n := by
    cases hr : Command.readDelete w with
    | error f =>
      rw [hr] at ran
      exact ⟨_, _, ran, rfl⟩
    | ok m =>
      have other : n ≠ m := by
        rintro rfl
        unfold Command.readDelete at hr
        split at hr
        · next hm =>
          cases hr
          exact hn hm
        · cases hr
        · cases hr
      rw [hr] at ran
      dsimp only at ran
      split at ran
      · exact ⟨_, _, ran, rfl⟩
      · refine ⟨_, _, ran, ?_⟩
        rw [(printLine_leads _ _).2]
        show (s.session.program.erase m).get? n = _
        rw [Table.get?_erase, if_neg (by simpa using other)]
        rfl
  obtain ⟨output, u, settled, program⟩ := settle_program performed
  refine ⟨output, u.note (.left u.session.status), ?_, (congrArg (Program.line? · n) program).trans same⟩
  exact (dispatch_literal .delete one).trans (congrArg (Option.map leave) settled)

end Registry

/-- A word of 64 bits has no capitals. -/
theorem Decimal.IsWord.upper_eq {w digits : Text} {n : UInt64} (h : IsWord w n digits) :
    Text.upper w = w := by
  have code : ∀ c ∈ w, c.toNat ≤ 57 := by
    intro c hc
    rcases h.mem hc with digit | rfl
    · exact ((isDigit_iff c).mp digit).2
    · decide
  rw [Text.upper_of_ascii fun c hc => Nat.lt_of_le_of_lt (code c hc) (by decide)]
  have same : ∀ c ∈ w, c.toUpper = id c := by
    intro c hc
    have small : ¬ (97 ≤ c.toNat ∧ c.toNat ≤ 122) := by
      have := code c hc
      omega
    exact dif_neg small
  rw [List.map_congr_left same, List.map_id]

/-- A word of 64 bits names no command. -/
theorem Decimal.IsWord.named?_eq_none {w digits : Text} {n : UInt64} (h : IsWord w n digits) :
    Builtin.named? w = none := by
  have lettered : Builtin.all.all (fun b =>
      (Text.upper b.command.page.name).any fun c => !(isDigit c || c == '+')) = true := by
    decide +kernel
  refine List.find?_eq_none.mpr fun b hb same => ?_
  have letter := List.all_eq_true.mp lettered b (List.mem_reverse.mp hb)
  obtain ⟨c, hc, other⟩ := List.any_eq_true.mp letter
  rw [of_decide_eq_true same, h.upper_eq] at hc
  rcases h.mem hc with digit | rfl
  · rw [digit] at other
    cases other
  · cases other

namespace Registry

variable {bound : Nat} {s : Terminal} {text w : Text} {n : LineNumber}

/-- The line that stores a text under a number, or removes the number if the text is empty. -/
def entryLine (w text : Text) : Text := if text = [] then w else w ++ ' ' :: text

/-- A line that begins with a number is trimmed if its text is at the end, and its words are the
number and those of the text. -/
theorem entryLine_parts (hw : Decimal.toWord? w = some n) (full : text.EndsFull) :
    Text.strip (entryLine w text) = entryLine w text ∧ entryLine w text ≠ [] ∧
      (Text.words (entryLine w text)).headD [] = w ∧
      Text.unwords ((Text.words (entryLine w text)).drop 1) = text := by
  obtain ⟨digits, word⟩ := Decimal.exists_isWord hw
  have literal := word.literal
  obtain ⟨d, more, hd⟩ := List.exists_cons_of_ne_nil literal.nonempty
  have first : Text.isBlank d = false := literal.full d (hd ▸ List.mem_cons_self)
  by_cases nonempty : text = []
  · subst nonempty
    have alone : entryLine w [] = w := if_pos rfl
    have one : Text.words w = [w] := Text.cut_of_not_mem literal.space
    rw [alone, one]
    refine ⟨Text.strip_eq_self (fun c hc => ?_) fun c hc => ?_, literal.nonempty, rfl, rfl⟩
    · rw [hd] at hc
      cases hc
      exact first
    · exact literal.full c (List.mem_of_getLast? hc)
  · have joined : entryLine w text = w ++ ' ' :: text := if_neg nonempty
    have ended := Text.EndsFull.after_space ⟨nonempty, full⟩ w
    rw [joined, Text.words_word literal.space]
    refine ⟨Text.strip_eq_self (fun c hc => ?_) ended.2, ended.1, rfl, Text.unwords_words text⟩
    rw [hd] at hc
    cases hc
    exact first

/-- A line that begins with a number names no command. -/
theorem ofLine?_entryLine (hw : Decimal.toWord? w = some n) (full : text.EndsFull) :
    Builtin.ofLine? (entryLine w text) = none := by
  obtain ⟨digits, word⟩ := Decimal.exists_isWord hw
  obtain ⟨-, -, head, -⟩ := entryLine_parts hw full
  rw [Builtin.ofLine?, Text.firstWord, head, word.upper_eq, word.named?_eq_none]

/-- Words that begin with a number store what is behind it, unless the number is an alias. -/
theorem carryOut_entry (host : Host) {words : List Text}
    (hw : Decimal.toWord? (words.headD []) = some n)
    (free : s.session.aliases.get? (words.headD []) = none) :
    builtin.carryOut host words s = enterLine n (Text.unwords (words.drop 1)) s := by
  obtain ⟨digits, word⟩ := Decimal.exists_isWord hw
  have session : Run.session s = some (s.session, s) := rfl
  rw [carryOut, find?_builtin, word.upper_eq, word.named?_eq_none, hw]
  refine (Run.bind_of_some session).trans ?_
  rw [free]

/-- **A line that begins with a number stores its text under it, unless the number is an
alias.** -/
theorem dispatch_entryLine (hw : Decimal.toWord? w = some n) (full : text.EndsFull)
    (free : s.session.aliases.get? w = none) :
    builtin.dispatch (bound + 1) (entryLine w text) s
      = some (.text text, (((entered s (entryLine w text)).update fun t =>
          { t with program := t.program.setLine n text }).save).note (.left 0)) := by
  obtain ⟨trimmed, nonempty, head, behind⟩ := entryLine_parts hw full
  have stored := carryOut_entry (s := entered s (entryLine w text)) (builtin.host bound)
    (head.symm ▸ hw) (head.symm ▸ free)
  rw [behind] at stored
  rw [dispatch_eq_map (trimmed.symm ▸ nonempty), trimmed, stored]
  rfl

/-- A line that begins with a number and has a text leads on, unless the number is an alias. -/
theorem leads_entry (hw : Decimal.toWord? w = some n) (free : s.session.aliases.get? w = none)
    (nonempty : text ≠ []) (full : text.EndsFull) :
    Leads (bound + 1) s (w ++ ' ' :: text) (.text text) (s.session.program.insert n text) := by
  have line : entryLine w text = w ++ ' ' :: text := if_neg nonempty
  have program : s.session.program.setLine n text = s.session.program.insert n text :=
    if_neg nonempty
  rw [← line]
  exact ⟨_, dispatch_entryLine hw full free, rfl, program⟩

/-- **The commands for lines find a line under its number exactly if the digits in excess of
the number are zeros.**  A line that begins with a word of 64 bits is stored under it,
whichever it is.  The commands that delete, move, list and jump to lines read the word as
the number to which it is rounded, and act on the line that has this number and on no other;
this is the number itself exactly if its digits in excess are zeros, and otherwise the line
cannot be deleted by its number. -/
theorem dispatch_addressed (bound : Nat) (s : Terminal) (hw : Decimal.toWord? w = some n) :
    (∀ text : Text, s.session.aliases.get? w = none → text ≠ [] → text.EndsFull →
      Leads (bound + 2) s (w ++ ' ' :: text) (.text text) (s.session.program.insert n text)) ∧
    (∀ m text, s.session.executing = false → Number.readIndex w = .ok m →
      s.session.program.line? m = some text → Addresses (bound + 2) s w m text) ∧
    (Number.readIndex w = if Binary.rounded n.toNat < UInt64.size
      then .ok (UInt64.ofNat (Binary.rounded n.toNat)) else .error .other) ∧
    (Number.readIndex w = .ok n ↔ 2 ^ Binary.excess n.toNat ∣ n.toNat) ∧
    (s.session.executing = false → ¬ 2 ^ Binary.excess n.toNat ∣ n.toNat →
      ∃ output u, builtin.dispatch (bound + 2) (Text.unwords ["DELETE".toList, w]) s
        = some (output, u) ∧ u.session.program.line? n = s.session.program.line? n) := by
  obtain ⟨digits, word⟩ := Decimal.exists_isWord hw
  have exactly := Number.readIndex_eq_iff hw
  exact ⟨fun text free nonempty full => leads_entry hw free nonempty full,
    fun m text idle hm hl => addresses_of_readIndex idle word.literal hm hl,
    Number.readIndex_word hw, exactly,
    fun idle inexact => delete_other idle word.literal fun hn => inexact (exactly.mp hn)⟩

/-- The second number past two to the power of 53, written with a plus sign, and the first. -/
theorem dispatch_addressed_even :
    let w := "+9007199254740994".toList
    let odd := "9007199254740993".toList
    let start := Terminal.ofSettings {} (.recorder { grid := ⟨60, 25⟩ }) (.memory .empty) ⟨0⟩
    let s := start.update fun t => { t with
      program := t.program.insert 9007199254740994 "PRINT A".toList }
    Leads 2 start (w ++ " PRINT A".toList) (.text "PRINT A".toList) s.session.program ∧
    Addresses 2 s w 9007199254740994 "PRINT A".toList ∧
    2 ^ Binary.excess 9007199254740994 ∣ 9007199254740994 ∧
    ¬ 2 ^ Binary.excess 9007199254740993 ∣ 9007199254740993 ∧
    ∃ output u, builtin.dispatch 2 (Text.unwords ["DELETE".toList, odd]) s = some (output, u) ∧
      u.session.program.line? 9007199254740993 = s.session.program.line? 9007199254740993 := by
  intro w odd start s
  have hw : Decimal.toWord? w = some 9007199254740994 := by decide +kernel
  have hodd : Decimal.toWord? odd = some 9007199254740993 := by decide +kernel
  obtain ⟨entry, -, -, -, -⟩ := dispatch_addressed 0 start hw
  obtain ⟨-, addressed, -, exactly, -⟩ := dispatch_addressed 0 s hw
  obtain ⟨-, -, -, -, lost⟩ := dispatch_addressed 0 s hodd
  have even : 2 ^ Binary.excess 9007199254740994 ∣ 9007199254740994 := by decide +kernel
  have uneven : ¬ 2 ^ Binary.excess 9007199254740993 ∣ 9007199254740993 := by decide +kernel
  exact ⟨entry _ rfl (List.cons_ne_nil _ _) (.concat "PRINT ".toList rfl),
    addressed _ _ rfl (exactly.mpr even) (by decide +kernel), even, uneven, lost rfl uneven⟩

/-- The first number past two to the power of 53: a line is stored under it, and deleting it
fails. -/
theorem dispatch_addressed_rounded :
    let start := Terminal.ofSettings {} (.recorder { grid := ⟨60, 25⟩ }) (.memory .empty) ⟨0⟩
    let summary := fun r : Output × Terminal => (r.1, r.2.session.status, r.2.session.program)
    let stored : Program := Program.setLine .empty 9007199254740993 "PRINT A".toList
    let s := start.update fun t => { t with program := stored }
    (builtin.dispatch 2 "9007199254740993 PRINT A".toList start).map summary
      = some (.text "PRINT A".toList, 0, stored) ∧
    (builtin.dispatch 2 "DELETE 9007199254740993".toList s).map summary
      = some (.failure, 1, stored) ∧
    (builtin.dispatch 2 "GOTO 9007199254740993".toList s).map Prod.fst
      = some (.jump 9007199254740992) := by
  intro start summary stored s
  exact ⟨by decide +kernel, by decide +kernel, by decide +kernel⟩

end Registry

end Teletype
