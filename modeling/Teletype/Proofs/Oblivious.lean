/-
# The trace is only written

A terminal keeps a trace of what it did for those who look at it from outside.  No command
reads it: what is done does not depend on what was done before in any other way than through
the session, the console, the store and the random numbers.  The main statement is that **a
line gives the same over every trace, and puts the same things on top of it**
(`Registry.oblivious_dispatch`).
-/
import Teletype.Proofs.Dispatch

namespace Teletype

/-! ## Terminals over a trace -/

namespace Terminal

/-- The terminal, had other things been done before. -/
def atop (t : Terminal) (es : List Event) : Terminal := { t with trace := t.trace ++ es }

/-- Printing is the same over every trace. -/
theorem print_atop (t : Terminal) (es : List Event) (text : Text) :
    (t.atop es).print text = (t.print text).atop es := by
  have same : (t.atop es).console.takeStop = t.console.takeStop := rfl
  by_cases still : (t.session.silent || t.session.stopping) = true
  · have still' : ((t.atop es).session.silent || (t.atop es).session.stopping) = true := still
    rw [print, print, if_pos still, if_pos still']
  · have still' : ¬ ((t.atop es).session.silent || (t.atop es).session.stopping) = true := still
    rw [print, print, if_neg still, if_neg still', same]
    rcases t.console.takeStop with ⟨_ | _, console⟩ <;> rfl

/-- So is noticing a request to stop. -/
theorem takeStop_atop (t : Terminal) (es : List Event) :
    (t.atop es).takeStop = (t.takeStop.1, t.takeStop.2.atop es) := by
  have same : (t.atop es).console.takeStop = t.console.takeStop := rfl
  rcases hc : t.console.takeStop with ⟨_ | _, console⟩
  · simp only [takeStop, same, hc]
    rfl
  · simp only [takeStop, same, hc]
    rfl

/-- So is saving a text. -/
theorem saveUnder_atop (t : Terminal) (es : List Event) (key value : Text) :
    (t.atop es).saveUnder key value
      = ((t.saveUnder key value).1, (t.saveUnder key value).2.atop es) := rfl

/-- So is saving the session. -/
theorem save_atop (t : Terminal) (es : List Event) : (t.atop es).save = t.save.atop es :=
  congrArg Prod.snd (t.saveUnder_atop es _ _)

end Terminal

/-! ## Runs that do not read the trace -/

/-- Over every trace the run gives the same and leaves the same terminal over this trace. -/
def Run.Oblivious {α : Type} (r : Run α) : Prop :=
  ∀ s es, r (s.atop es) = (r s).map fun p => (p.1, p.2.atop es)

namespace Run.Oblivious

variable {α β : Type} {r : Run α} {f : α → Run β}

/-- A value is given. -/
theorem pure (x : α) : Oblivious (Pure.pure x : Run α) := fun _ _ => rfl

/-- Nothing is given. -/
theorem endless : Oblivious (Run.endless : Run α) := fun _ _ => rfl

/-- One run is done after another. -/
theorem bind (h : Oblivious r) (hf : ∀ x, Oblivious (f x)) : Oblivious (r >>= f) := by
  intro s es
  have first := h s es
  rcases hr : r s with _ | ⟨x, t⟩
  · rw [hr] at first
    rw [Run.bind_of_none first, Run.bind_of_none hr]
    rfl
  · rw [hr] at first
    rw [Run.bind_of_some first, Run.bind_of_some hr]
    exact hf x t es

/-- The terminal is looked at, but for its trace. -/
theorem look {f : Terminal → Run β} (h : ∀ t, Oblivious (f t))
    (same : ∀ t es, f (t.atop es) = f t) : Oblivious (get >>= f) := by
  intro s es
  show f (s.atop es) (s.atop es) = _
  rw [same]
  exact h s s es

/-- The terminal answers, and is changed. -/
theorem answer {f : Terminal → α × Terminal}
    (h : ∀ t es, f (t.atop es) = ((f t).1, (f t).2.atop es)) :
    Oblivious (modifyGet f : Run α) := by
  intro s es
  show some (f (s.atop es)) = _
  rw [h]
  rfl

/-- The terminal is changed. -/
theorem change {f : Terminal → Terminal} (h : ∀ t es, f (t.atop es) = (f t).atop es) :
    Oblivious (modify f : Run PUnit) :=
  answer fun t es => by rw [h]

/-- The session is looked at. -/
theorem session : Oblivious Run.session := fun _ _ => rfl

/-- The status is looked at. -/
theorem status : Oblivious Run.status := fun _ _ => rfl

/-- The session is changed. -/
theorem update (f : Session → Session) : Oblivious (Run.update f) := fun _ _ => rfl

/-- A thing is noted. -/
theorem note (e : Event) : Oblivious (Run.note e) := fun _ _ => rfl

/-- A line is read. -/
theorem readLine : Oblivious Run.readLine := fun _ _ => rfl

/-- The session is saved. -/
theorem save : Oblivious Run.save := change Terminal.save_atop

/-- A number is drawn. -/
theorem draw (bound : Nat) : Oblivious (Run.draw bound) := by
  refine answer fun t es => ?_
  have same : (t.atop es).dice = t.dice := rfl
  rw [same]
  rcases t.dice.draw bound with ⟨n, dice⟩
  rfl

/-- A text is printed. -/
theorem print (text : Text) : Oblivious (Run.print text) :=
  change fun t es => t.print_atop es text

/-- A line is printed. -/
theorem printLine (text : Text) : Oblivious (Run.printLine text) := print _

/-- A request to stop is noticed. -/
theorem takeStop : Oblivious Run.takeStop := answer Terminal.takeStop_atop

end Run.Oblivious

/-! ## Acts that do not read the trace -/

/-- The act does not read the trace. -/
def Act.Oblivious {α : Type} (a : Act α) : Prop := Run.Oblivious a.run

namespace Act.Oblivious

variable {α β : Type} {a : Act α} {f : α → Act β}

/-- A value is given. -/
theorem pure (x : α) : Oblivious (Pure.pure x : Act α) := Run.Oblivious.pure _

/-- A fault ends the act. -/
theorem throw (e : Fault) : Oblivious (throwThe Fault e : Act α) := Run.Oblivious.pure _

/-- A value is given, or a fault ends the act. -/
theorem ofExcept (r : Except Fault α) : Oblivious (Act.ofExcept r) := Run.Oblivious.pure _

/-- One act is done after another. -/
theorem bind (h : Oblivious a) (hf : ∀ x, Oblivious (f x)) : Oblivious (a >>= f) := by
  rw [Oblivious, ExceptT.run_bind]
  refine Run.Oblivious.bind h fun r => ?_
  cases r with
  | error e => exact .pure _
  | ok x => exact hf x

/-- A run is done. -/
theorem lift {r : Run α} (h : Run.Oblivious r) : Oblivious (liftM r : Act α) :=
  Run.Oblivious.bind h fun _ => .pure _

/-- A run is done, and an act after it. -/
theorem next {r : Run α} (h : Run.Oblivious r) (hf : ∀ x, Oblivious (f x)) :
    Oblivious ((liftM r : Act α) >>= f) :=
  bind (lift h) hf

/-- The terminal is looked at, but for its trace. -/
theorem look {f : Terminal → Act β} (h : ∀ t, Oblivious (f t))
    (same : ∀ t es, f (t.atop es) = f t) : Oblivious (get >>= f) := by
  rw [Oblivious, ExceptT.run_bind]
  exact Run.Oblivious.look h fun t es => by rw [same]

/-- An act is done for each thing in a list. -/
theorem forM {f : α → Act PUnit} (h : ∀ x, Oblivious (f x)) (xs : List α) :
    Oblivious (xs.forM f) := by
  induction xs with
  | nil => exact pure _
  | cons x xs ih => exact bind (h x) fun _ => ih

/-- Each thing in a list is replaced. -/
theorem mapM (h : ∀ x, Oblivious (f x)) (xs : List α) : Oblivious (xs.mapM f) := by
  induction xs with
  | nil => exact pure _
  | cons x xs ih =>
    rw [List.mapM_cons]
    exact bind (h x) fun _ => bind ih fun _ => pure _

/-- An act is done on a changed session. -/
theorem within {enter : Session → Session} {leave : Session → Session → Session}
    (h : Oblivious a) : Oblivious (Act.within enter leave a) :=
  Run.Oblivious.bind .session fun _ => .bind (.update _) fun _ => .bind h fun _ =>
    .bind (.update _) fun _ => .pure _

end Act.Oblivious

/-- Settling an act that does not read the trace does not read it. -/
theorem Run.Oblivious.settle {a : Act Output} (h : Act.Oblivious a) :
    Run.Oblivious (Run.settle a) := by
  refine .bind h fun r => ?_
  cases r with
  | ok output => exact .pure _
  | error e =>
    have reported : ∀ t es, (Terminal.atop t es).report e = (t.report e).atop es := fun t es =>
      Terminal.print_atop (t.update fun s => { s with status := e.status }) es _
    exact .bind (.change reported) fun _ => .pure _

/-! ## Expansion -/

namespace Expansion

variable {dispatch : Text → Run Output} (D : ∀ line, Run.Oblivious (dispatch line))
include D

/-- A line is carried out for its output. -/
theorem oblivious_valueOf (line : Text) : Act.Oblivious (valueOf dispatch line) := by
  refine .within (.next (D line) fun output => .next .status fun status => ?_)
  split
  · exact .throw _
  · exact .pure _

omit D in
/-- The items among pieces are replaced. -/
theorem oblivious_fill {replace : Token → Act Text} (h : ∀ token, Act.Oblivious (replace token))
    (pieces : List (Piece Token)) : Act.Oblivious (fill replace pieces) := by
  induction pieces with
  | nil => exact .pure _
  | cons piece pieces ih =>
    cases piece with
    | plain c => exact .bind ih fun _ => .pure _
    | item token => exact .bind (h token) fun _ => .bind ih fun _ => .pure _

/-- The tokens in a text are replaced. -/
theorem oblivious_expand (tokens : List Token) (bound : Nat) (text : Text) :
    Act.Oblivious (expand dispatch tokens bound text) := by
  induction bound generalizing text with
  | zero => exact .lift .endless
  | succ bound ih =>
    refine oblivious_fill (fun token => ?_) _
    split
    · refine .next .session fun session => ?_
      split
      · exact .pure _
      · exact .throw _
    · exact ih _
    · exact .bind (ih _) fun line => .bind (oblivious_valueOf D line) fun _ => .pure _

end Expansion

variable {host : Host} (H : ∀ line, Run.Oblivious (host.dispatch line))

namespace Host

include H

/-- The words of a line are expanded. -/
theorem oblivious_expand (words : List Text) : Act.Oblivious (host.expand words) := by
  rw [expand, Expansion.expandLine]
  split
  · exact .throw _
  · exact .mapM (Expansion.oblivious_expand H _ _) _

/-- The words of a line are sorted. -/
theorem oblivious_parse (g : Flags.Grammar) (o : Flags.Options) (words : List Text) :
    Act.Oblivious (host.parse g o words) := by
  rw [parse]
  split
  · exact .bind (oblivious_expand H words) fun _ => .pure _
  · exact .pure _

end Host

/-! ## Programs -/

namespace Runner

variable {dispatch : Text → Run Output} (D : ∀ line, Run.Oblivious (dispatch line))

/-- It is looked whether the run stops. -/
theorem oblivious_settle (next : Next) : Act.Oblivious (settle next) := by
  have looks : Act.Oblivious (do
      if ← Run.takeStop then pure Next.finished
      else do
        let status ← Run.status
        if status ≠ 0 then throw (.lineFailed status) else pure next) := by
    refine .next .takeStop fun stops => ?_
    split
    · exact .pure _
    · refine .next .status fun status => ?_
      split
      · exact .throw _
      · exact .pure _
  cases next with
  | finished => exact .pure _
  | onward => exact looks
  | jumped target => exact looks

include D

/-- A line of a program is carried out. -/
theorem oblivious_step (p : Program) (budget : Nat) (n : LineNumber) (line : Text) :
    Act.Oblivious (step dispatch p budget n line) := by
  rw [step]
  split
  · exact .throw _
  · exact .next (.note _) fun _ => .next (D line) fun _ => .bind (.ofExcept _) oblivious_settle

/-- Lines of a program are carried out. -/
theorem oblivious_walkLines (p : Program) (budget : Nat)
    {jump : List (LineNumber × Text) → Act Unit} (J : ∀ lines, Act.Oblivious (jump lines))
    (lines : List (LineNumber × Text)) :
    Act.Oblivious (walkLines dispatch p budget jump lines) := by
  induction lines with
  | nil => exact .pure _
  | cons line lines ih =>
    refine .bind (oblivious_step D p budget _ _) fun next => ?_
    cases next with
    | finished => exact .pure _
    | onward => exact ih
    | jumped target => exact J _

/-- They are with every budget of jumps. -/
theorem oblivious_walk (p : Program) (budget : Nat) (lines : List (LineNumber × Text)) :
    Act.Oblivious (walk dispatch p budget lines) := by
  induction budget generalizing lines with
  | zero => exact oblivious_walkLines D p _ (fun _ => .pure _) lines
  | succ budget ih => exact oblivious_walkLines D p _ ih lines

/-- A program is run. -/
theorem oblivious_run (p : Program) : Act.Oblivious (run dispatch p) := by
  refine .next .session fun session => ?_
  split
  · exact .throw _
  · refine .look (fun t => .within (.within ?_)) fun _ _ => rfl
    exact Run.Oblivious.bind .session fun _ => .bind (.note _) fun _ =>
      .bind (oblivious_walk D p _ _) fun _ => .bind (.note _) fun _ => .pure _

end Runner

include H in
/-- A program is run and the session saved. -/
theorem Host.oblivious_runAndSave (p : Program) :
    Act.Oblivious (host.runAndSave p) :=
  Run.Oblivious.bind (Runner.oblivious_run H p) fun _ => .bind .save fun _ => .pure _

/-! ## Commands -/

namespace Command

variable {words : List Text}

/-- A text is said. -/
theorem oblivious_say (text : Text) : Act.Oblivious (say text) :=
  .next (.printLine text) fun _ => .pure _

/-- Lines of a program are listed. -/
theorem oblivious_printListing (lines : List (LineNumber × Text)) :
    Act.Oblivious (printListing lines) :=
  .bind (.forM (fun line => .lift (.printLine line)) _) fun _ =>
    .next (.printLine _) fun _ => .pure _

/-- Pages are listed. -/
theorem oblivious_listPages (header : Text) (listed : Page → Bool) (trailer : Text) :
    Act.Oblivious (listPages host header listed trailer) :=
  .look (fun _ => .next (.printLine _) fun _ => .next (.print _) fun _ =>
    .next (.printLine _) fun _ => .pure _) fun _ _ => rfl

/-- The screen is cleared. -/
theorem oblivious_clearNamed (name : Text) (hidden : Bool) :
    Act.Oblivious ((clearNamed name hidden).perform host words) :=
  .next (.change fun _ _ => rfl) fun _ => .pure _

/-- A variable is given a value. -/
theorem oblivious_setVariable (name value : Text) : Run.Oblivious (setVariable name value) :=
  .bind (.update _) fun _ => .save

/-- What may not be done while a program runs is refused. -/
theorem oblivious_ensureIdle : Act.Oblivious Act.ensureIdle := by
  refine .next .session fun session => ?_
  split
  · exact .throw _
  · exact .pure _

/-- The variables are listed. -/
theorem oblivious_vars : Act.Oblivious (vars.perform host words) :=
  .next .session fun _ => .next (.print _) fun _ => .pure _

/-- The program is cleared. -/
theorem oblivious_new : Act.Oblivious (new.perform host words) :=
  .next (.update _) fun _ => .next (.printLine _) fun _ => .next .save fun _ => .pure _

/-- The aliases are listed. -/
theorem oblivious_listAliases : Act.Oblivious listAliases := by
  refine .next .session fun session => ?_
  dsimp only
  split
  · exact .next (.printLine _) fun _ => .pure _
  · exact .next (.printLine _) fun _ => .bind (.forM (fun _ => .lift (.printLine _)) _) fun _ =>
      .pure _

/-- Something is done with an alias. -/
theorem oblivious_aliasAction (name : Text) (program : Program) (action : AliasAction) :
    Act.Oblivious (action.perform name program) := by
  cases action with
  | delete =>
    exact .next (.update _) fun _ => .next .save fun _ => .next (.printLine _) fun _ => .pure _
  | fetch =>
    exact .next (.update _) fun _ => .next .save fun _ => .next (.printLine _) fun _ => .pure _
  | list => exact oblivious_printListing _

include H

/-- Words are printed. -/
theorem oblivious_print : Act.Oblivious (print.perform host words) :=
  .bind (Host.oblivious_expand H words) fun _ => oblivious_say _

/-- The manual is shown. -/
theorem oblivious_help : Act.Oblivious (help.perform host words) := by
  refine .bind (Host.oblivious_expand H words) fun words => ?_
  split
  · exact oblivious_listPages _ _ _
  · dsimp only
    split
    · exact oblivious_say _
    · split
      · exact oblivious_listPages _ _ _
      · exact .throw _

/-- The color is set. -/
theorem oblivious_color : Act.Oblivious (color.perform host words) :=
  .bind (Host.oblivious_expand H words) fun _ => .bind (.ofExcept _) fun _ =>
    .next (.update _) fun _ => .pure _

/-- The theme is shown or set. -/
theorem oblivious_theme : Act.Oblivious (theme.perform host words) := by
  refine .bind (Host.oblivious_expand H words) fun words => ?_
  split
  · exact .next .session fun _ => .next (.printLine _) fun _ => .next (.printLine _) fun _ =>
      .pure _
  · exact .bind (.ofExcept _) fun _ => .next (.update _) fun _ =>
      .next (.change fun _ _ => rfl) fun _ => .pure _

/-- The cursor is moved. -/
theorem oblivious_setCursor : Act.Oblivious (setCursor.perform host words) := by
  refine .bind (Host.oblivious_expand H words) fun words => ?_
  split
  · split
    · refine .look (fun t => ?_) fun _ _ => rfl
      dsimp only
      split
      · exact .next (.change fun _ _ => rfl) fun _ => .pure _
      · exact .throw _
    · exact .throw _
  · exact .throw _

/-- Parameters are shown. -/
theorem oblivious_system : Act.Oblivious (system.perform host words) := by
  refine .bind (Host.oblivious_expand H words) fun words => ?_
  dsimp only
  split
  · exact .look (fun _ => .next (.print _) fun _ => .pure _) fun _ _ => rfl
  · split
    · refine .look (fun _ => oblivious_say _) fun t es => ?_
      cases ‹Parameter› <;> rfl
    · exact .throw _

/-- An operation is carried out. -/
theorem oblivious_arithmetic (op : Operation) :
    Act.Oblivious ((arithmetic op).perform host words) :=
  .bind (Host.oblivious_expand H words) fun _ => .bind (.ofExcept _) fun _ =>
    .bind (.ofExcept _) fun _ => oblivious_say _

/-- A root is taken. -/
theorem oblivious_sqrt : Act.Oblivious (sqrt.perform host words) := by
  refine .bind (Host.oblivious_expand H words) fun words => .bind (.ofExcept _) fun operands => ?_
  obtain ⟨value, root⟩ := operands
  dsimp only
  split
  · exact oblivious_say _
  · exact .throw _

/-- A logarithm is taken. -/
theorem oblivious_logarithm : Act.Oblivious (logarithm.perform host words) := by
  refine .bind (Host.oblivious_expand H words) fun words => ?_
  split
  · exact .bind (.ofExcept _) fun _ => oblivious_say _
  · refine .bind (.ofExcept _) fun operands => ?_
    obtain ⟨value, base⟩ := operands
    dsimp only
    split
    · exact oblivious_say _
    · exact .throw _

/-- A number is drawn. -/
theorem oblivious_random : Act.Oblivious (random.perform host words) := by
  refine .bind (Host.oblivious_expand H words) fun words => ?_
  dsimp only
  split
  · exact .throw _
  · exact .next (.draw _) fun _ => oblivious_say _

/-- Texts are compared. -/
theorem oblivious_compareBy (c : Comparison) :
    Act.Oblivious ((compareBy c).perform host words) := by
  refine .bind (Host.oblivious_expand H words) fun words => ?_
  split
  · exact oblivious_say _
  · exact .throw _

/-- A value is assigned. -/
theorem oblivious_assign : Act.Oblivious (assign.perform host words) := by
  refine .bind (Host.oblivious_expand H words) fun words => ?_
  split
  · split
    · exact .bind (.ofExcept _) fun _ => .next (oblivious_setVariable _ _) fun _ => .pure _
    · exact .throw _
  · exact .throw _

/-- A variable is taken away. -/
theorem oblivious_unassign : Act.Oblivious (unassign.perform host words) := by
  refine .bind (Host.oblivious_expand H words) fun words => .bind (.ofExcept _) fun _ =>
    .next .session fun session => ?_
  split
  · exact .next (.update _) fun _ => .next .save fun _ => .pure _
  · exact .next (.printLine _) fun _ => .pure _

/-- A value is asked for. -/
theorem oblivious_input : Act.Oblivious (input.perform host words) := by
  refine .bind (Host.oblivious_parse H _ _ words) fun parsed => .bind (.ofExcept _) fun _ =>
    .next .session fun _ => .next (.print _) fun _ => .next .readLine fun reply => ?_
  split
  · exact .throw _
  · exact .next (oblivious_setVariable _ _) fun _ => .pure _

/-- Operands have values. -/
theorem oblivious_value (o : Operand) : Act.Oblivious (o.value host) := by
  cases o with
  | text t => exact .pure _
  | line t => exact Expansion.oblivious_valueOf H t

/-- Operands are carried out. -/
theorem oblivious_performWords (words : List Text) : Act.Oblivious (performWords host words) := by
  refine .next .session fun session => .bind (.ofExcept _) fun o => ?_
  cases o with
  | text t => exact .pure _
  | line t =>
    refine .next (H t) fun output => .next .status fun status => ?_
    split
    · exact .throw _
    · exact .pure _

/-- A branch is chosen. -/
theorem oblivious_choose : Act.Oblivious (choose.perform host words) := by
  refine .bind (.ofExcept _) fun choice => .next .session fun session =>
    .bind (.ofExcept _) fun condition => .bind (oblivious_value H condition) fun result => ?_
  split
  · exact oblivious_performWords H _
  · split
    · exact oblivious_performWords H _
    · exact .pure _

/-- A line is carried out for each item. -/
theorem oblivious_repeatFor (name body : Text) (done items : List Text) :
    Act.Oblivious (repeatFor host name body done items) := by
  induction items generalizing done with
  | nil => exact .pure _
  | cons item items ih =>
    refine .next (oblivious_setVariable _ _) fun _ => .next (H body) fun output =>
      .next .status fun status => ?_
    split
    · exact .throw _
    · split
      · refine .next .takeStop fun stops => ?_
        split
        · exact .pure _
        · exact ih _
      · exact .pure _

/-- A line is carried out for each line of a list. -/
theorem oblivious_repeatEach : Act.Oblivious (repeatEach.perform host words) := by
  refine .bind (.ofExcept _) fun repetition => .bind (Host.oblivious_expand H _) fun head =>
    .bind (.ofExcept _) fun _ => ?_
  dsimp only
  split
  · exact .pure _
  · exact .within (oblivious_repeatFor H _ _ _ _)

/-- A line is jumped to. -/
theorem oblivious_goto : Act.Oblivious (goto.perform host words) := by
  refine .bind (Host.oblivious_expand H words) fun words => ?_
  split
  · split
    · exact .pure _
    · exact .throw _
  · exact .throw _

/-- The program is listed. -/
theorem oblivious_list : Act.Oblivious (list.perform host words) :=
  .bind (Host.oblivious_expand H words) fun _ => .bind (.ofExcept _) fun _ =>
    .bind (.ofExcept _) fun _ => .next .session fun _ => oblivious_printListing _

/-- The program is run. -/
theorem oblivious_runProgram : Act.Oblivious (run.perform host words) :=
  .bind oblivious_ensureIdle fun _ => .next .session fun _ => Host.oblivious_runAndSave H _

/-- The program is saved under an alias. -/
theorem oblivious_save : Act.Oblivious (save.perform host words) := by
  refine .bind oblivious_ensureIdle fun _ => .bind (Host.oblivious_expand H words) fun words => ?_
  split
  · dsimp only
    split
    · exact .throw _
    · exact .next (.update _) fun _ => .next .save fun _ => .pure _
  · exact .throw _

/-- Aliases are listed, used and run. -/
theorem oblivious_aliases : Act.Oblivious (aliases.perform host words) := by
  show Act.Oblivious (if words.length < 2 then _ else _)
  split
  · exact oblivious_listAliases
  · refine .bind (Host.oblivious_parse H _ _ words) fun parsed => .next .session fun session => ?_
    dsimp only
    split
    · split
      · exact Host.oblivious_runAndSave H _
      · exact oblivious_listAliases
    · split
      · exact .next (.printLine _) fun _ => .pure _
      · split
        · exact oblivious_aliasAction _ _ _
        · exact .next (.printLine _) fun _ => .pure _

/-- A line is moved. -/
theorem oblivious_move : Act.Oblivious (move.perform host words) := by
  refine .bind oblivious_ensureIdle fun _ => .bind (Host.oblivious_expand H words) fun words => ?_
  split
  · refine .bind (.ofExcept _) fun lines => ?_
    obtain ⟨source, target⟩ := lines
    refine .next .session fun session => ?_
    split
    · exact .throw _
    · exact .next (.update _) fun _ => .next .save fun _ => oblivious_say _
  · exact .throw _

/-- A line is deleted. -/
theorem oblivious_delete : Act.Oblivious (delete.perform host words) := by
  refine .bind oblivious_ensureIdle fun _ => .bind (Host.oblivious_expand H words) fun words => ?_
  split
  · refine .bind (.ofExcept _) fun n => .next .session fun session => ?_
    split
    · exact .throw _
    · exact .next (.update _) fun _ => .next .save fun _ => oblivious_say _
  · exact .throw _

/-- The listing is written to the store. -/
theorem oblivious_download : Act.Oblivious (download.perform host words) := by
  refine .bind (Host.oblivious_expand H words) fun words => .next .session fun session => ?_
  have saved : ∀ key value, Act.Oblivious (Act.saveUnder key value) := fun key value =>
    Run.Oblivious.answer fun t es => t.saveUnder_atop es key value
  exact .bind (saved _ _) fun _ => .next (.printLine _) fun _ => .pure _

end Command

include H in
/-- A built-in command does not read the trace if dispatched lines do not. -/
theorem Builtin.oblivious_perform (b : Builtin) (words : List Text) :
    Act.Oblivious (b.command.perform host words) := by
  cases b with
  | print => exact Command.oblivious_print H
  | help => exact Command.oblivious_help H
  | clear => exact Command.oblivious_clearNamed _ _
  | clr => exact Command.oblivious_clearNamed _ _
  | cls => exact Command.oblivious_clearNamed _ _
  | color => exact Command.oblivious_color H
  | theme => exact Command.oblivious_theme H
  | setCursor => exact Command.oblivious_setCursor H
  | system => exact Command.oblivious_system H
  | arithmetic op => exact Command.oblivious_arithmetic H op
  | sqrt => exact Command.oblivious_sqrt H
  | logarithm => exact Command.oblivious_logarithm H
  | random => exact Command.oblivious_random H
  | compare c => exact Command.oblivious_compareBy H c
  | assign => exact Command.oblivious_assign H
  | unassign => exact Command.oblivious_unassign H
  | vars => exact Command.oblivious_vars
  | input => exact Command.oblivious_input H
  | choose => exact Command.oblivious_choose H
  | repeatEach => exact Command.oblivious_repeatEach H
  | goto => exact Command.oblivious_goto H
  | exit => exact .pure _
  | list => exact Command.oblivious_list H
  | run => exact Command.oblivious_runProgram H
  | new => exact Command.oblivious_new
  | save => exact Command.oblivious_save H
  | aliases => exact Command.oblivious_aliases H
  | move => exact Command.oblivious_move H
  | delete => exact Command.oblivious_delete H
  | download => exact Command.oblivious_download H

/-! ## Dispatched lines -/

namespace Registry

include H

/-- The words of a line are carried out. -/
theorem oblivious_carryOut (words : List Text) : Run.Oblivious (builtin.carryOut host words) := by
  rw [carryOut, find?_builtin]
  rcases Builtin.named? (Text.upper (words.headD [])) with _ | b
  · refine .bind .session fun session => ?_
    split
    · exact .settle (Host.oblivious_runAndSave H _)
    · split
      · exact .bind (.update _) fun _ => .bind .save fun _ => .pure _
      · exact .bind (.update _) fun _ => .bind (.printLine _) fun _ => .pure _
  · exact .settle (Builtin.oblivious_perform H b words)

/-- A line is carried out. -/
theorem oblivious_carryOutLine (line : Text) :
    Run.Oblivious (builtin.carryOutLine host line) := by
  rw [carryOutLine]
  split
  · exact .bind .status fun _ => .bind (.note _) fun _ => .pure _
  · exact .bind (.note _) fun _ => .bind (.update _) fun _ =>
      .bind (oblivious_carryOut H _) fun _ => .bind .status fun _ => .bind (.note _) fun _ =>
        .pure _

omit H in
/-- **No line reads the trace.**  Over every trace a line gives the same, and leaves the same
terminal with the same things on top of this trace. -/
theorem oblivious_dispatch (bound : Nat) (line : Text) :
    Run.Oblivious (builtin.dispatch bound line) := by
  induction bound generalizing line with
  | zero => exact .endless
  | succ bound ih => exact oblivious_carryOutLine ih line

end Registry

end Teletype
