/-
# Editing a program

A program is edited by lines that begin with a number and by the commands that delete and
move lines and remove them all.  What they do is told on a sheet, which has a text or none
under every number.  The main statement is that **the program goes with the sheet through
any lines that edit or list it** (`Registry.answers_revisions`): the answers are those of the
sheet, a listing shows its lines in ascending order of their numbers, and the next line is
the least that is left.
-/
import Mathlib.Data.List.Sort
import Mathlib.Logic.Function.Basic
import Teletype.Proofs.Listing

namespace Teletype

/-! ## Sheets -/

/-- The texts of lines by their numbers. -/
abbrev Sheet := LineNumber → Option Text

/-- What a line asks to do with a sheet. -/
inductive Revision
  /-- Store a text in a line; the empty text removes the line. -/
  | store (n : LineNumber) (text : Text)
  /-- Remove a line, if one was given. -/
  | delete (target : Option LineNumber)
  /-- Move the text of one line to another, if two lines were given. -/
  | move (lines : Option (LineNumber × LineNumber))
  /-- Remove all lines. -/
  | clear
  /-- List the lines from one number to another, if these were given. -/
  | list (bounds : Option (LineNumber × LineNumber))
  deriving DecidableEq, Repr

namespace Sheet

/-- The sheet after a revision. -/
def revise (m : Sheet) : Revision → Sheet
  | .store n text => Function.update m n (if text = [] then none else some text)
  | .delete none | .move none | .list _ => m
  | .delete (some n) => Function.update m n none
  | .move (some (source, target)) =>
    match m source with
    | none => m
    | some text =>
      if source = target then m
      else Function.update (Function.update m source none) target (some text)
  | .clear => fun _ => none

/-- A text shows the lines of a sheet from one number to another, in ascending order. -/
def Lists (m : Sheet) (first last : LineNumber) (text : Text) : Prop :=
  ∃ rows : List (LineNumber × Text), rows.Pairwise (fun a b => a.1 < b.1) ∧
    (∀ n line, (n, line) ∈ rows ↔ m n = some line ∧ first ≤ n ∧ n ≤ last) ∧
    text = rows.flatMap fun row => Program.entryText row ++ ['\n']

/-- A revision names no lines that it can be done to. -/
def Refuses (m : Sheet) : Revision → Prop
  | .delete target => ∀ n ∈ target, m n = none
  | .move lines => ∀ l ∈ lines, m l.1 = none
  | .list bounds => bounds = none
  | .store _ _ | .clear => False

/-- The output and the status that answer a revision. -/
inductive Answers (m : Sheet) : Revision → Output × Int → Prop
  /-- A text that is stored is given back. -/
  | stored (n : LineNumber) (text : Text) : Answers m (.store n text) (.text text, 0)
  /-- A line that is removed is shown. -/
  | deleted {n : LineNumber} {text : Text} (h : m n = some text) :
    Answers m (.delete (some n)) (.text (Program.entryText (n, text)), 0)
  /-- A line that is moved is shown where it is then. -/
  | moved {source target : LineNumber} {text : Text} (h : m source = some text) :
    Answers m (.move (some (source, target))) (.text (Program.entryText (target, text)), 0)
  /-- Nothing is said when all lines are removed. -/
  | cleared : Answers m .clear (.none, 0)
  /-- Lines that are listed are shown. -/
  | listed {first last : LineNumber} {text : Text} (h : m.Lists first last text) :
    Answers m (.list (some (first, last))) (.text text, 0)
  /-- What is refused fails. -/
  | refused {r : Revision} (h : m.Refuses r) : Answers m r (.failure, 1)

/-- Revisions are done one after the other, and every one is answered from the sheet as it
is then. -/
inductive Serves : Sheet → List Revision → List (Output × Int) → Prop
  /-- Nothing was asked. -/
  | nil (m : Sheet) : Serves m [] []
  /-- One revision is answered before others. -/
  | cons {m : Sheet} {r : Revision} {rs : List Revision} {a : Output × Int}
    {as : List (Output × Int)} (head : m.Answers r a) (tail : Serves (m.revise r) rs as) :
    Serves m (r :: rs) (a :: as)

/-- The least line of a sheet that is not below a number, or none if all lines are. -/
def IsNext (m : Sheet) (n : LineNumber) : Option (LineNumber × Text) → Prop
  | none => ∀ k, n ≤ k → m k = none
  | some (k, text) => m k = some text ∧ IsLeast {j | (m j).isSome ∧ n ≤ j} k

variable {m : Sheet} {r : Revision}

/-- What is refused changes nothing. -/
theorem revise_of_refuses (h : m.Refuses r) : m.revise r = m := by
  match r with
  | .delete none | .move none | .list _ => rfl
  | .delete (some n) => exact Function.update_eq_self_iff.mpr (h n rfl).symm
  | .move (some (source, target)) =>
    have absent : m source = none := h _ rfl
    rw [revise, absent]

/-- A line that is moved to itself stays. -/
theorem revise_move_self (m : Sheet) (n : LineNumber) : m.revise (.move (some (n, n))) = m := by
  rw [revise]
  split
  · rfl
  · exact if_pos rfl

/-- **The lines of a sheet are shown in one way only.** -/
theorem Lists.unique {first last : LineNumber} {text text' : Text} (h : m.Lists first last text)
    (h' : m.Lists first last text') : text = text' := by
  obtain ⟨rows, sorted, mem, rfl⟩ := h
  obtain ⟨rows', sorted', mem', rfl⟩ := h'
  have irrefl : Std.Irrefl fun a b : LineNumber × Text => a.1 < b.1 :=
    ⟨fun a => UInt64.lt_irrefl a.1⟩
  have asymm : Std.Asymm fun a b : LineNumber × Text => a.1 < b.1 :=
    ⟨fun _ _ => UInt64.lt_asymm⟩
  have same : rows = rows' := sorted.eq_of_mem_iff sorted' fun row =>
    (mem row.1 row.2).trans (mem' row.1 row.2).symm
  rw [same]

/-- A sheet has one answer to a revision. -/
theorem Answers.unique {a a' : Output × Int} (h : m.Answers r a) (h' : m.Answers r a') :
    a = a' := by
  cases h with
  | stored n text =>
    cases h' with
    | stored => rfl
    | refused absent => exact absent.elim
  | deleted found =>
    cases h' with
    | deleted found' =>
      obtain rfl := Option.some.inj (found.symm.trans found')
      rfl
    | refused absent => cases found.symm.trans (absent _ rfl)
  | moved found =>
    cases h' with
    | moved found' =>
      obtain rfl := Option.some.inj (found.symm.trans found')
      rfl
    | refused absent => cases found.symm.trans (absent _ rfl)
  | cleared =>
    cases h' with
    | cleared => rfl
    | refused absent => exact absent.elim
  | listed lists =>
    cases h' with
    | listed lists' => rw [lists.unique lists']
    | refused absent => cases absent
  | refused absent =>
    cases h' with
    | stored | cleared => exact absent.elim
    | deleted found | moved found => cases found.symm.trans (absent _ rfl)
    | listed => cases absent
    | refused => rfl

/-- **There is one way to answer revisions one after the other.** -/
theorem Serves.unique {rs : List Revision} {as as' : List (Output × Int)} (h : m.Serves rs as)
    (h' : m.Serves rs as') : as = as' := by
  induction h generalizing as' with
  | nil =>
    cases h'
    rfl
  | cons head _ ih =>
    cases h' with
    | cons head' tail' => rw [head.unique head', ih tail']

end Sheet

/-! ## Programs as sheets -/

namespace Program

/-- The lines between two numbers make up a listing of the sheet. -/
theorem lists_linesBetween (p : Program) (first last : LineNumber) :
    Sheet.Lists p.line? first last
      ((p.linesBetween first last).flatMap fun row => entryText row ++ ['\n']) := by
  refine ⟨_, (ascending_of_suffix (List.suffix_refl p.entries)).filter _, fun n line => ?_, rfl⟩
  refine List.mem_filter.trans ?_
  rw [p.mem_entries_iff, Bool.and_eq_true, decide_eq_true_eq, decide_eq_true_eq]
  rfl

/-- The next line of a program is that of the sheet. -/
theorem isNext_nextLine? (p : Program) (n : LineNumber) :
    Sheet.IsNext p.line? n (p.nextLine? n) := by
  cases next : p.nextLine? n with
  | none =>
    intro k le
    refine Option.not_isSome_iff_eq_none.mp fun has => ?_
    obtain ⟨t, mem⟩ := exists_mem_linesFrom.mpr ⟨has, le⟩
    have none : p.linesFrom n = [] := List.head?_eq_none_iff.mp next
    rw [none] at mem
    exact List.not_mem_nil mem
  | some e =>
    exact ⟨(mem_linesFrom.mp (List.mem_of_head? next)).1,
      (isLeast_iff_head? (p.linesFrom_suffix n) fun _ => exists_mem_linesFrom).mpr ⟨e.2, next⟩⟩

/-- Storing a text in a line is a revision of the sheet. -/
theorem line?_setLine_eq (p : Program) (n : LineNumber) (text : Text) :
    (p.setLine n text).line? = Sheet.revise p.line? (.store n text) := by
  funext k
  rw [line?_setLine, Sheet.revise, Function.update_apply]

/-- Removing a line is a revision of the sheet. -/
theorem line?_erase_eq (p : Program) (n : LineNumber) :
    line? (p.erase n) = Sheet.revise p.line? (.delete (some n)) := by
  funext k
  rw [Sheet.revise, Function.update_apply, line?, Table.get?_erase]
  simp only [Std.LawfulEqOrd.compare_eq_iff_eq]
  rfl

/-- Moving a line is a revision of the sheet. -/
theorem line?_moveLine?_eq {p : Program} {source target : LineNumber} {text : Text}
    (h : p.line? source = some text) :
    line? ((p.erase source).insert target text)
      = Sheet.revise p.line? (.move (some (source, target))) := by
  have moved : p.moveLine? source target = some (text, (p.erase source).insert target text) := by
    rw [moveLine?, h]
    rfl
  funext k
  rw [line?_moveLine? moved, Sheet.revise, h]
  dsimp only
  by_cases same : source = target
  · rw [if_pos same]
    by_cases hk : k = target
    · rw [if_pos hk, hk, ← same, h]
    · rw [if_neg hk, if_neg (same ▸ hk)]
  · rw [if_neg same, Function.update_apply, Function.update_apply]

end Program

/-! ## Lines as revisions -/

namespace Revision

/-- The index that a word is read as. -/
def index? (word : Text) : Option LineNumber := (Number.readIndex word).toOption

/-- The line that is deleted, given the words behind the command. -/
def target? : List Text → Option LineNumber
  | [word] => index? word
  | _ => none

/-- The lines that are moved from and to, given the words behind the command. -/
def ends? : List Text → Option (LineNumber × LineNumber)
  | [source, target] => do
    let source ← index? source
    let target ← index? target
    pure (source, target)
  | _ => none

/-- The first and the last line that are listed, given the words behind the command: the
first and the last of all where there is no word. -/
def bounds? (words : List Text) : Option (LineNumber × LineNumber) := do
  let first ← words[0]?.elim (some 0) index?
  let last ← words[1]?.elim (some (UInt64.ofNat (UInt64.size - 1))) index?
  pure (first, last)

/-- No span begins or ends in a line. -/
def isPlain (line : Text) : Bool := spanMarks.all fun c => !line.contains c

/-- No span begins or ends in a line if none of the marks of spans stands in it. -/
theorem isPlain_iff {line : Text} : isPlain line = true ↔ ∀ c ∈ spanMarks, c ∉ line := by
  refine List.all_eq_true.trans (forall₂_congr fun c _ => ?_)
  rw [Bool.not_eq_true', ← Bool.not_eq_true, List.contains_iff_mem]

/-- What a line asks to do with a sheet, if it begins with a number or with the word of a
command for it.  Words that are read must be plain: no span may begin or end in the line. -/
def read? (line : Text) : Option Revision :=
  let line := Text.strip line
  let words := (Text.words line).drop 1
  match Decimal.toWord? (Text.firstWord line) with
  | some n => some (.store n (Text.unwords words))
  | none =>
    match Builtin.ofLine? line with
    | some .new => some .clear
    | some .delete => if isPlain line then some (.delete (target? words)) else none
    | some .move => if isPlain line then some (.move (ends? words)) else none
    | some .list => if isPlain line then some (.list (bounds? words)) else none
    | _ => none

/-- The ways in which a line asks for something. -/
theorem read?_cases {line : Text} {r : Revision} (h : read? line = some r) :
    let words := (Text.words (Text.strip line)).drop 1
    let plain := ∀ c ∈ spanMarks, c ∉ Text.strip line
    (∃ n, Decimal.toWord? (Text.firstWord (Text.strip line)) = some n ∧
      r = .store n (Text.unwords words)) ∨
    (Builtin.ofLine? (Text.strip line) = some .new ∧ r = .clear) ∨
    (Builtin.ofLine? (Text.strip line) = some .delete ∧ plain ∧ r = .delete (target? words)) ∨
    (Builtin.ofLine? (Text.strip line) = some .move ∧ plain ∧ r = .move (ends? words)) ∨
    (Builtin.ofLine? (Text.strip line) = some .list ∧ plain ∧ r = .list (bounds? words)) := by
  intro words plain
  unfold read? at h
  dsimp only at h
  split at h
  · next n hn =>
    cases h
    exact .inl ⟨n, hn, rfl⟩
  · refine .inr ?_
    split at h
    · next hb =>
      cases h
      exact .inl ⟨hb, rfl⟩
    · next hb =>
      obtain ⟨hp, h⟩ := Option.ite_none_right_eq_some.mp h
      cases h
      exact .inr (.inl ⟨hb, isPlain_iff.mp hp, rfl⟩)
    · next hb =>
      obtain ⟨hp, h⟩ := Option.ite_none_right_eq_some.mp h
      cases h
      exact .inr (.inr (.inl ⟨hb, isPlain_iff.mp hp, rfl⟩))
    · next hb =>
      obtain ⟨hp, h⟩ := Option.ite_none_right_eq_some.mp h
      cases h
      exact .inr (.inr (.inr ⟨hb, isPlain_iff.mp hp, rfl⟩))
    · cases h

end Revision

/-! ## Terminals at rest -/

/-- No program runs and nothing is saved under an alias; the program and the status are the
given ones. -/
structure Terminal.Rests (t : Terminal) (p : Program) (status : Int) : Prop where
  /-- No program runs. -/
  idle : t.session.executing = false
  /-- There are no aliases. -/
  free : t.session.aliases = .empty
  /-- This is the program. -/
  program : t.session.program = p
  /-- This is the status. -/
  status : t.session.status = status

namespace Terminal.Rests

variable {t : Terminal} {p : Program} {status : Int}

/-- A text is printed. -/
theorem print (h : t.Rests p status) (text : Text) : (t.print text).Rests p status := by
  unfold Terminal.print
  split
  · exact h
  · split <;> exact ⟨h.idle, h.free, h.program, h.status⟩

/-- Lines are printed one after the other. -/
theorem foldl_printLine (h : t.Rests p status) (lines : List Text) :
    (lines.foldl Terminal.printLine t).Rests p status := by
  induction lines generalizing t with
  | nil => exact h
  | cons line lines ih => exact ih (h.print _)

/-- A fault is reported. -/
theorem report (h : t.Rests p status) (f : Fault) : (t.report f).Rests p f.status :=
  print (t := t.update fun s => { s with status := f.status }) ⟨h.idle, h.free, h.program, rfl⟩ _

/-- Another program takes the place of the program. -/
theorem replace (h : t.Rests p status) (q : Program) :
    (t.update fun s => { s with program := q }).Rests q status :=
  ⟨h.idle, h.free, rfl, h.status⟩

/-- The session is saved. -/
theorem save (h : t.Rests p status) : t.save.Rests p status :=
  ⟨h.idle, h.free, h.program, h.status⟩

/-- A line is entered. -/
theorem entered (h : t.Rests p status) (line : Text) : (Registry.entered t line).Rests p 0 :=
  ⟨h.idle, h.free, h.program, rfl⟩

end Terminal.Rests

/-- Lines are printed one after the other. -/
theorem Act.run_forM_printLine (lines : List Text) (s : Terminal) :
    (lines.forM fun line => Run.printLine line : Act Unit).run s
      = some (.ok (), lines.foldl Terminal.printLine s) := by
  induction lines generalizing s with
  | nil => rfl
  | cons line lines ih =>
    have printed : (liftM (Run.printLine line) : Act Unit).run s
        = some (.ok (), s.printLine line) := rfl
    exact (run_bind_of_ok printed).trans (ih _)

namespace Revision

/-- What a command reads is read as an argument of a revision, or else it is a fault. -/
def Reads {α : Type} (read : Except Fault α) (argument : Option α) : Prop :=
  (∃ x, read = .ok x ∧ argument = some x) ∨
    ∃ detail, read = .error (.malformed detail) ∧ argument = none

/-- The line to delete is read as the index that its word gives. -/
theorem reads_readDelete (word : Text) : Reads (Command.readDelete word) (index? word) := by
  unfold Command.readDelete index?
  cases Number.readIndex word with
  | ok n => exact .inl ⟨n, rfl, rfl⟩
  | error e => cases e <;> exact .inr ⟨_, rfl, rfl⟩

/-- The lines to move from and to are read as the indices that their words give. -/
theorem reads_readMove (source target : Text) :
    Reads (Command.readMove source target) (ends? [source, target]) := by
  show Reads _ ((index? source).bind fun n => (index? target).bind fun m => some (n, m))
  unfold Command.readMove index?
  cases Number.readIndex source with
  | ok n =>
    cases Number.readIndex target with
    | ok m => exact .inl ⟨(n, m), rfl, rfl⟩
    | error e => cases e <;> exact .inr ⟨_, rfl, rfl⟩
  | error e =>
    cases Number.readIndex target with
    | ok m => cases e <;> exact .inr ⟨_, rfl, rfl⟩
    | error e' => cases e <;> cases e' <;> exact .inr ⟨_, rfl, rfl⟩

/-- A bound of a listing is read as the index that its word gives, if there is a word. -/
theorem reads_listBound (word : Option Text) (missing : LineNumber) :
    Reads (Command.listBound word missing) (word.elim (some missing) index?) := by
  cases word with
  | none => exact .inl ⟨missing, rfl, rfl⟩
  | some word =>
    unfold Command.listBound index?
    dsimp only [Option.elim]
    cases Number.readIndex word with
    | ok n => exact .inl ⟨n, rfl, rfl⟩
    | error e => exact .inr ⟨_, rfl, rfl⟩

end Revision

namespace Command

open Revision

variable {host : Host} {words : List Text} {s t : Terminal} {p q : Program} {r : Revision}

/-- A command answers a revision of a program and leaves the program revised. -/
def Serves (a : Act Output) (s : Terminal) (p : Program) (r : Revision) : Prop :=
  ∃ output u q status, Run.settle a s = some (output, u) ∧ u.Rests q status ∧
    Sheet.Answers p.line? r (output, status) ∧ q.line? = Sheet.revise p.line? r

/-- A command that succeeds answers by its output. -/
theorem Serves.of_ok {a : Act Output} {output : Output} (h : a.run s = some (.ok output, t))
    (rests : t.Rests q 0) (answers : Sheet.Answers p.line? r (output, 0))
    (sheet : q.line? = Sheet.revise p.line? r) : Serves a s p r :=
  ⟨output, t, q, 0, Run.bind_eq_some.mpr ⟨_, _, h, rfl⟩, rests, answers, sheet⟩

/-- A command that refuses what it cannot do answers by its failure. -/
theorem Serves.of_error {a : Act Output} {f : Fault} (h : a.run s = some (.error f, s))
    (rests : s.Rests p 0) (status : f.status = 1) (refuses : Sheet.Refuses p.line? r) :
    Serves a s p r :=
  ⟨.failure, s.report f, p, 1, Run.bind_eq_some.mpr ⟨_, _, h, rfl⟩, status ▸ rests.report f,
    .refused refuses, (Sheet.revise_of_refuses refuses).symm⟩

/-- Deleting a line is served. -/
theorem serves_delete (rests : s.Rests p 0) (expanded : host.expand words = pure words) :
    Serves (delete.perform host words) s p (.delete (target? (words.drop 1))) := by
  match words with
  | [word, w] =>
    have ran := run_delete rests.idle expanded
    show Serves _ s p (.delete (index? w))
    rcases reads_readDelete w with ⟨n, read, index⟩ | ⟨detail, read, index⟩
    · rw [read] at ran
      dsimp only at ran
      rw [rests.program] at ran
      rw [index]
      cases line : p.line? n with
      | none =>
        rw [line] at ran
        exact .of_error ran rests rfl fun k hk => by cases hk; exact line
      | some text =>
        rw [line] at ran
        exact .of_ok ran ((rests.replace _).save.print _) (.deleted line)
          (rests.program ▸ Program.line?_erase_eq _ n)
    · rw [read] at ran
      rw [index]
      exact .of_error ran rests rfl fun k hk => by cases hk
  | [] | [_] | _ :: _ :: _ :: _ =>
    refine .of_error (f := .malformed "DELETE requires one argument.".toList) ?_ rests rfl
      fun k hk => by cases hk
    show (Act.ensureIdle >>= _).run s = _
    rw [Act.run_ensureIdle_of_idle rests.idle, expanded]
    rfl

/-- Moving a line is served. -/
theorem serves_move (rests : s.Rests p 0) (expanded : host.expand words = pure words) :
    Serves (move.perform host words) s p (.move (ends? (words.drop 1))) := by
  match words with
  | [word, source, target] =>
    have ran := run_move rests.idle expanded
    show Serves _ s p (.move (ends? [source, target]))
    rcases reads_readMove source target with ⟨⟨n, m⟩, read, ends⟩ | ⟨detail, read, ends⟩
    · rw [read] at ran
      dsimp only at ran
      rw [rests.program] at ran
      rw [ends]
      cases line : p.line? n with
      | none =>
        rw [line] at ran
        exact .of_error ran rests rfl fun l hl => by cases hl; exact line
      | some text =>
        rw [line] at ran
        exact .of_ok ran ((rests.replace _).save.print _) (.moved line)
          (Program.line?_moveLine?_eq line)
    · rw [read] at ran
      rw [ends]
      exact .of_error ran rests rfl fun l hl => by cases hl
  | [] | [_] | [_, _] | _ :: _ :: _ :: _ :: _ =>
    refine .of_error (f := .malformed "MOVE requires two arguments.".toList) ?_ rests rfl
      fun l hl => by cases hl
    show (Act.ensureIdle >>= _).run s = _
    rw [Act.run_ensureIdle_of_idle rests.idle, expanded]
    rfl

/-- Removing all lines is served. -/
theorem serves_new (rests : s.Rests p 0) : Serves (new.perform host words) s p .clear :=
  .of_ok rfl ((rests.replace .empty).print _).save .cleared rfl

/-- What is listed is given back. -/
theorem run_printListing (lines : List (LineNumber × Text)) (s : Terminal) :
    (printListing lines).run s
      = some (.ok (.text ((lines.map Program.entryText).flatMap fun line => line ++ ['\n'])),
          ((lines.map Program.entryText).foldl Terminal.printLine s).printLine
            "End of Program.".toList) := by
  rw [printListing, Act.run_bind_of_ok (Act.run_forM_printLine _ s)]
  rfl

/-- Listing lines is served. -/
theorem serves_list (rests : s.Rests p 0) (expanded : host.expand words = pure words) :
    Serves (list.perform host words) s p (.list (bounds? (words.drop 1))) := by
  have bounds : bounds? (words.drop 1) = (words[1]?.elim (some 0) index?).bind fun first =>
      (words[2]?.elim (some (UInt64.ofNat (UInt64.size - 1))) index?).bind fun last =>
        some (first, last) := by
    rw [bounds?, List.getElem?_drop, List.getElem?_drop]
    rfl
  rw [bounds]
  rcases reads_listBound words[1]? 0 with ⟨first, read, start⟩ | ⟨detail, read, start⟩
  · rcases reads_listBound words[2]? (UInt64.ofNat (UInt64.size - 1)) with
      ⟨last, read', stop⟩ | ⟨detail, read', stop⟩
    · rw [start, stop]
      have ran := run_list (s := s) expanded read read'
      rw [run_printListing, rests.program] at ran
      refine .of_ok ran ((rests.foldl_printLine _).print _) (.listed ?_) rfl
      rw [List.flatMap_map]
      exact p.lists_linesBetween first last
    · rw [start, stop]
      refine .of_error (f := .malformed detail) ?_ rests rfl rfl
      show (host.expand words >>= _).run s = _
      rw [expanded, pure_bind, read, read']
      rfl
  · rw [start]
    refine .of_error (f := .malformed detail) ?_ rests rfl rfl
    show (host.expand words >>= _).run s = _
    rw [expanded, pure_bind, read]
    rfl

end Command

/-! ## Lines one after the other -/

namespace Registry

variable {s : Terminal} {p : Program} {status : Int} {line : Text} {r : Revision}

/-- **A line that edits or lists the program is answered from its sheet, and the program is
revised as the sheet is.** -/
theorem dispatch_revision (bound : Nat) (rests : s.Rests p status)
    (read : Revision.read? line = some r) :
    ∃ output u q status', builtin.dispatch (bound + 2) line s = some (output, u) ∧
      u.Rests q status' ∧ Sheet.Answers p.line? r (output, status') ∧
      q.line? = Sheet.revise p.line? r := by
  have began := rests.entered (Text.strip line)
  have nonblank : Text.strip line ≠ [] := by
    intro blank
    have nothing : Revision.read? [] = none := by decide
    have same : Revision.read? line = Revision.read? [] := by
      unfold Revision.read?
      rw [blank]
      rfl
    rw [same, nothing] at read
    cases read
  -- what carries out the words of the line ends the line
  suffices carried : ∃ output u q status', builtin.carryOut (builtin.host (bound + 1))
      (Text.words (Text.strip line)) (entered s (Text.strip line)) = some (output, u) ∧
      u.Rests q status' ∧ Sheet.Answers p.line? r (output, status') ∧
      q.line? = Sheet.revise p.line? r by
    obtain ⟨output, u, q, status', carried, rests, answers, sheet⟩ := carried
    refine ⟨output, u.note (.left u.session.status), q, status', ?_,
      ⟨rests.idle, rests.free, rests.program, rests.status⟩, answers, sheet⟩
    rw [dispatch_eq_map nonblank, carried]
    rfl
  have expand : (∀ c ∈ spanMarks, c ∉ Text.strip line) →
      (builtin.host (bound + 1)).expand (Text.words (Text.strip line))
        = pure (Text.words (Text.strip line)) := fun plain =>
    Host.expand_of_plain plain (Nat.succ_pos bound)
  rcases Revision.read?_cases read with ⟨n, hn, rfl⟩ | ⟨hb, rfl⟩ | ⟨hb, plain, rfl⟩ |
    ⟨hb, plain, rfl⟩ | ⟨hb, plain, rfl⟩
  · have free : (entered s (Text.strip line)).session.aliases.get?
        ((Text.words (Text.strip line)).headD []) = none := by
      rw [began.free]
      rfl
    refine ⟨_, _, _, 0, carryOut_entry _ hn free, (began.replace _).save, .stored n _, ?_⟩
    rw [Program.line?_setLine_eq, began.program]
  · rw [carryOut_command hb]
    exact Command.serves_new began
  · rw [carryOut_command hb]
    exact Command.serves_delete began (expand plain)
  · rw [carryOut_command hb]
    exact Command.serves_move began (expand plain)
  · rw [carryOut_command hb]
    exact Command.serves_list began (expand plain)

/-- Lines that edit or list the program are answered one after the other. -/
theorem answers_of_rests (bound : Nat) (rests : s.Rests p status) {lines : List Text}
    (read : ∀ line ∈ lines, (Revision.read? line).isSome) :
    ∃ answers u, builtin.answers (bound + 2) lines s = some (answers, u) ∧
      Sheet.Serves p.line? (lines.filterMap Revision.read?) answers ∧
      u.session.program.line? = (lines.filterMap Revision.read?).foldl Sheet.revise p.line? := by
  induction lines generalizing s p status with
  | nil => exact ⟨[], s, rfl, .nil _, congrArg _ rests.program⟩
  | cons line lines ih =>
    rw [List.forall_mem_cons] at read
    obtain ⟨r, hr⟩ := Option.isSome_iff_exists.mp read.1
    obtain ⟨output, t, q, status', dispatched, rests', answer, revised⟩ :=
      dispatch_revision bound rests hr
    obtain ⟨answers, u, others, serves, program⟩ := ih rests' read.2
    rw [revised] at serves program
    rw [List.filterMap_cons_some hr]
    refine ⟨(output, status') :: answers, u, ?_, .cons answer serves, program⟩
    rw [answers_cons dispatched, others, rests'.status]
    rfl

/-- **A program goes with its sheet through any lines that edit or list it.**  While no program
runs and nothing is saved under an alias, lines are dispatched one after the other, each of
which begins with a number, or deletes, moves or lists lines by plain words, or removes all
lines.  Every line is then answered from the sheet that the lines before it have left; the
program is the sheet that all of them leave; and its next line is the least line of the sheet
that is not below a number. -/
theorem answers_revisions (bound : Nat) (idle : s.session.executing = false)
    (free : s.session.aliases = .empty) {lines : List Text}
    (read : ∀ line ∈ lines, (Revision.read? line).isSome) :
    let revisions := lines.filterMap Revision.read?
    let sheet := revisions.foldl Sheet.revise s.session.program.line?
    ∃ answers u, builtin.answers (bound + 2) lines s = some (answers, u) ∧
      Sheet.Serves s.session.program.line? revisions answers ∧
      u.session.program.line? = sheet ∧
      ∀ n, Sheet.IsNext sheet n (u.session.program.nextLine? n) := by
  intro revisions sheet
  obtain ⟨answers, u, dispatched, serves, program⟩ :=
    answers_of_rests bound (s := s) ⟨idle, free, rfl, rfl⟩ read
  refine ⟨answers, u, dispatched, serves, program, fun n => ?_⟩
  have next := u.session.program.isNext_nextLine? n
  rwa [program] at next

/-- A line is stored, moved over another one and to itself; a line that is not there and a word
that is no number are deleted in vain; the lines are listed and removed. -/
theorem answers_revisions_moved :
    let s := Terminal.ofSettings {} (.recorder { grid := ⟨60, 25⟩ }) (.memory .empty) ⟨0⟩
    let lines := ["10 PRINT  A".toList, " 20 GOTO 10 ".toList, "MOVE 10 20".toList,
      "move 20 20".toList, "DELETE 10".toList, "DELETE X".toList, "LIST 15 25".toList,
      "NEW (NOW".toList]
    s.session.executing = false ∧ s.session.aliases = .empty ∧
      (∀ line ∈ lines, (Revision.read? line).isSome) ∧
      let revisions := lines.filterMap Revision.read?
      let sheet := revisions.foldl Sheet.revise s.session.program.line?
      ∃ answers u, builtin.answers 2 lines s = some (answers, u) ∧
        Sheet.Serves s.session.program.line? revisions answers ∧
        u.session.program.line? = sheet ∧
        ∀ n, Sheet.IsNext sheet n (u.session.program.nextLine? n) := by
  intro s lines
  have read : ∀ line ∈ lines, (Revision.read? line).isSome := by decide +kernel
  exact ⟨rfl, rfl, read, answers_revisions 0 rfl rfl read⟩

end Registry

end Teletype
