/-
# What commands change

Besides the steps that every command may take, a few commands change what is saved of the
session, how text is shown, or the store.  Each of them does so in a way of its own, and
saves the session right behind a change of what is saved (`Builtin.Edit`).  The main
statement is that **a built-in command keeps every steady conduct that dispatched lines
keep and that its own edits keep** (`Builtin.goes_perform`).
-/
import Teletype.Command.Builtin
import Teletype.Proofs.Conduct

namespace Teletype

/-- The changes that a built-in command may make. -/
inductive Builtin.Edit (manual : Manual) : Builtin → Terminal → Terminal → Prop
  /-- Some commands give a variable a value. -/
  | bind {b : Builtin} (hb : b = .assign ∨ b = .input ∨ b = .repeatEach) (t : Terminal)
      (name value : Text) : Edit manual b t
        (t.update fun s => { s with bindings := s.bindings.insert name value }).save
  /-- One takes a variable away. -/
  | unbind (t : Terminal) (name : Text) : Edit manual .unassign t
      (t.update fun s => { s with bindings := s.bindings.erase name }).save
  /-- One clears the program. -/
  | clear (t : Terminal) (text : Text) : Edit manual .new t
      ((t.update fun s => { s with program := .empty }).printLine text).save
  /-- One moves a line of the program. -/
  | move (t : Terminal) {source target : LineNumber} {text : Text} {p : Program}
      (h : t.session.program.moveLine? source target = some (text, p)) : Edit manual .move t
        (t.update fun s => { s with program := p }).save
  /-- One deletes a line of the program. -/
  | delete (t : Terminal) {n : LineNumber} {text : Text}
      (h : t.session.program.line? n = some text) : Edit manual .delete t
        (t.update fun s => { s with program := s.program.erase n }).save
  /-- One saves the program under an alias that names no command. -/
  | store (t : Terminal) {name : Text} (h : manual.page? name = none) : Edit manual .save t
      (t.update fun s => { s with aliases := s.aliases.insert name s.program }).save
  /-- One deletes an alias. -/
  | drop (t : Terminal) (name : Text) : Edit manual .aliases t
      (t.update fun s => { s with aliases := s.aliases.erase name }).save
  /-- The same one makes the program of an alias the stored program. -/
  | recall (t : Terminal) {name : Text} {p : Program}
      (h : t.session.aliases.get? name = some p) : Edit manual .aliases t
        (t.update fun s => { s with program := p }).save
  /-- One sets the color of text. -/
  | color (t : Terminal) (color : Color) : Edit manual .color t
      (t.update fun s => { s with display := { s.display with color } })
  /-- One sets the theme. -/
  | theme (t : Terminal) (theme : Theme) : Edit manual .theme t
      (t.update fun s => { s with display := { s.display with theme } })
  /-- One writes the listing of the program to the store. -/
  | write (t : Terminal) (key : Text) : Edit manual .download t
      (t.saveUnder key
        (Json.quote (t.session.program.listing.flatMap fun line => line ++ ['\n']))).2

/-- The edits of commands are level. -/
theorem Builtin.Edit.level {manual : Manual} {b : Builtin} {t u : Terminal}
    (h : b.Edit manual t u) : t.Level u := by
  cases h with
  | clear =>
    have cleared : t.Level (t.update fun s => { s with program := .empty }) :=
      .of_trace_eq rfl rfl
    exact cleared.trans ((Terminal.Level.print _ _).trans (.save _))
  | color => exact .of_trace_eq rfl rfl
  | theme => exact .of_trace_eq rfl rfl
  | _ => exact .of_trace_cons rfl rfl ⟨id, rfl, rfl⟩

/-- A conduct bears the edits of a command. -/
def Conduct.Bears (C : Conduct) (manual : Manual) (b : Builtin) : Prop :=
  ∀ t u, b.Edit manual t u → C .well t u

namespace Command

variable {C : Conduct} {host : Host} {words : List Text} {s : Terminal}

/-! ## Saying and listing -/

/-- A text can be said. -/
theorem goes_say (L : C.Orderly) (text : Text) : Act.Goes C Output.manner s (say text) :=
  .printLine L (.pure L _)

/-- Lines of a program can be listed. -/
theorem goes_printListing (L : C.Orderly) (lines : List (LineNumber × Text)) :
    Act.Goes C Output.manner s (printListing lines) := by
  refine .bind L (.forM L (fun line t => ?_) _) fun _ t _ => ?_
  · intro r u hr
    cases hr
    exact L.step (.print t _)
  · exact .printLine L (.pure L _)

/-! ## Commands for the screen -/

/-- Words can be printed. -/
theorem goes_print (L : C.Orderly) (H : C.Hosts host.dispatch) :
    Act.Goes C Output.manner s (print.perform host words) :=
  .bind L (Host.goes_expand L H words s) fun _ _ _ => goes_say L _

/-- Pages can be listed. -/
theorem goes_listPages (L : C.Orderly) (header : Text) (listed : Page → Bool) (trailer : Text) :
    Act.Goes C Output.manner s (listPages host header listed trailer) := by
  refine .look L rfl ?_
  exact .printLine L (.print L (.printLine L (.pure L _)))

/-- The manual can be shown. -/
theorem goes_help (L : C.Orderly) (H : C.Hosts host.dispatch) :
    Act.Goes C Output.manner s (help.perform host words) := by
  refine .bind L (Host.goes_expand L H words s) fun words t _ => ?_
  split
  · exact goes_listPages L _ _ _
  · dsimp only
    split
    · exact goes_say L _
    · split
      · exact goes_listPages L _ _ _
      · exact .throw L _

/-- The screen can be cleared. -/
theorem goes_clearNamed (L : C.Orderly) (name : Text) (hidden : Bool) :
    Act.Goes C Output.manner s ((clearNamed name hidden).perform host words) := by
  have homed : C .well s (s.clear.moveTo .home) := L.simple (.move _ (.inl rfl)) (L.step (.clear s))
  exact .next L rfl homed (.pure L _)

/-- The color can be set. -/
theorem goes_color (L : C.Orderly) (H : C.Hosts host.dispatch) (B : C.Bears host.manual .color) :
    Act.Goes C Output.manner s (color.perform host words) := by
  refine .bind L (Host.goes_expand L H words s) fun words t _ => ?_
  refine .bind L (.ofExcept L _) fun color u _ => ?_
  exact .next L rfl (B _ _ (.color u color)) (.pure L _)

/-- The theme can be shown and set. -/
theorem goes_theme (L : C.Orderly) (H : C.Hosts host.dispatch) (B : C.Bears host.manual .theme) :
    Act.Goes C Output.manner s (theme.perform host words) := by
  refine .bind L (Host.goes_expand L H words s) fun words t _ => ?_
  split
  · refine .session L ?_
    exact .printLine L (.printLine L (.pure L _))
  · refine .bind L (.ofExcept L _) fun theme u _ => ?_
    refine .next L rfl (B _ _ (.theme u theme)) ?_
    exact .next L rfl (L.step (.theme _ theme)) (.pure L _)

/-- The cursor can be moved. -/
theorem goes_setCursor (L : C.Orderly) (H : C.Hosts host.dispatch) :
    Act.Goes C Output.manner s (setCursor.perform host words) := by
  refine .bind L (Host.goes_expand L H words s) fun words t _ => ?_
  split
  · split
    · refine .look L rfl ?_
      dsimp only
      split
      · next held => exact .next L rfl (L.step (.move _ (.inr held))) (.pure L _)
      · exact .throw L _
    · exact .throw L _
  · exact .throw L _

/-- Parameters can be shown. -/
theorem goes_system (L : C.Orderly) (H : C.Hosts host.dispatch) :
    Act.Goes C Output.manner s (system.perform host words) := by
  refine .bind L (Host.goes_expand L H words s) fun words t _ => ?_
  dsimp only
  split
  · refine .look L rfl ?_
    exact .print L (.pure L _)
  · split
    · refine .look L rfl ?_
      exact goes_say L _
    · exact .throw L _

/-! ## Commands for numbers -/

/-- Operations can be carried out. -/
theorem goes_arithmetic (L : C.Orderly) (H : C.Hosts host.dispatch) (op : Operation) :
    Act.Goes C Output.manner s ((arithmetic op).perform host words) := by
  refine .bind L (Host.goes_expand L H words s) fun words t _ => ?_
  refine .bind L (.ofExcept L _) fun operands t _ => ?_
  refine .bind L (.ofExcept L _) fun result t _ => ?_
  exact goes_say L _

/-- Roots can be taken. -/
theorem goes_sqrt (L : C.Orderly) (H : C.Hosts host.dispatch) :
    Act.Goes C Output.manner s (sqrt.perform host words) := by
  refine .bind L (Host.goes_expand L H words s) fun words t _ => ?_
  refine .bind L (.ofExcept L _) fun operands t _ => ?_
  obtain ⟨value, root⟩ := operands
  dsimp only
  split
  · exact goes_say L _
  · exact .throw L _

/-- Logarithms can be taken. -/
theorem goes_logarithm (L : C.Orderly) (H : C.Hosts host.dispatch) :
    Act.Goes C Output.manner s (logarithm.perform host words) := by
  refine .bind L (Host.goes_expand L H words s) fun words t _ => ?_
  split
  · refine .bind L (.ofExcept L _) fun value t _ => ?_
    exact goes_say L _
  · refine .bind L (.ofExcept L _) fun operands t _ => ?_
    obtain ⟨value, base⟩ := operands
    dsimp only
    split
    · exact goes_say L _
    · exact .throw L _

/-- Numbers can be drawn. -/
theorem goes_random (L : C.Orderly) (H : C.Hosts host.dispatch) :
    Act.Goes C Output.manner s (random.perform host words) := by
  refine .bind L (Host.goes_expand L H words s) fun words t _ => ?_
  have draws : ∀ bound, Act.Goes C Output.manner t (do
      let n ← Run.draw bound
      say (Decimal.ofNat n)) := by
    intro bound
    have drawn : (liftM (Run.draw bound) : Act Nat).run t
        = some (.ok (t.dice.draw bound).1, { t with dice := (t.dice.draw bound).2 }) := rfl
    exact .next L drawn (L.step (.draw t bound)) (goes_say L _)
  split
  · exact draws _
  · dsimp only
    split
    · exact .throw L _
    · exact draws _

/-- Texts can be compared. -/
theorem goes_compareBy (L : C.Orderly) (H : C.Hosts host.dispatch) (c : Comparison) :
    Act.Goes C Output.manner s ((compareBy c).perform host words) := by
  refine .bind L (Host.goes_expand L H words s) fun words t _ => ?_
  split
  · exact goes_say L _
  · exact .throw L _

/-! ## Commands for variables -/

/-- Some commands can give a variable a value and save the session. -/
theorem goes_setVariable (L : C.Orderly) {manual : Manual} {b : Builtin} (B : C.Bears manual b)
    (hb : b = .assign ∨ b = .input ∨ b = .repeatEach) {β : Type} {late : β → Manner}
    {name value : Text} {f : Unit → Act β}
    (hf : Act.Goes C late
      (s.update fun s => { s with bindings := s.bindings.insert name value }).save (f ())) :
    Act.Goes C late s (liftM (setVariable name value) >>= f) :=
  .next L rfl (B _ _ (.bind hb s name value)) hf

/-- A variable can be given a value. -/
theorem goes_assign (L : C.Orderly) (H : C.Hosts host.dispatch) (B : C.Bears host.manual .assign) :
    Act.Goes C Output.manner s (assign.perform host words) := by
  refine .bind L (Host.goes_expand L H words s) fun words t _ => ?_
  split
  · split
    · refine .bind L (.ofExcept L _) fun _ u _ => ?_
      exact goes_setVariable L B (.inl rfl) (.pure L _)
    · exact .throw L _
  · exact .throw L _

/-- A variable can be taken away. -/
theorem goes_unassign (L : C.Orderly) (H : C.Hosts host.dispatch)
    (B : C.Bears host.manual .unassign) :
    Act.Goes C Output.manner s (unassign.perform host words) := by
  refine .bind L (Host.goes_expand L H words s) fun words t _ => ?_
  refine .bind L (.ofExcept L _) fun _ u _ => ?_
  refine .session L ?_
  split
  · exact .edit L (B _ _ (.unbind u _)) (.pure L _)
  · exact .printLine L (.pure L _)

/-- The variables can be listed. -/
theorem goes_vars (L : C.Orderly) : Act.Goes C Output.manner s (vars.perform host words) := by
  refine .session L ?_
  exact .print L (.pure L _)

/-- A value can be asked for. -/
theorem goes_input (L : C.Orderly) (H : C.Hosts host.dispatch) (B : C.Bears host.manual .input) :
    Act.Goes C Output.manner s (input.perform host words) := by
  refine .bind L (Host.goes_parse L H _ _ words s) fun parsed t _ => ?_
  refine .bind L (.ofExcept L _) fun _ u _ => ?_
  refine .session L (.print L ?_)
  refine .bind L (fun r v hr => ?_) fun reply v _ => ?_
  · cases hr
    exact L.step (.read _)
  · split
    · exact .throw L _
    · exact goes_setVariable L B (.inr (.inl rfl)) (.pure L _)

/-! ## Commands that decide what is carried out -/

/-- Operands have values. -/
theorem goes_value (L : C.Orderly) (H : C.Hosts host.dispatch) (o : Operand) :
    Act.Goes C (fun _ => .well) s (o.value host) := by
  cases o with
  | text t => exact .pure L _
  | line t => exact Expansion.goes_valueOf L H t s

/-- Operands can be carried out. -/
theorem goes_performWords (L : C.Orderly) (H : C.Hosts host.dispatch) :
    Act.Goes C Output.manner s (performWords host words) := by
  refine .session L ?_
  refine .bind L (.ofExcept L _) fun o t _ => ?_
  cases o with
  | text t => exact .pure L _
  | line line => exact .of_well L (Act.goes_checked L H line _ t)

/-- Branches can be chosen. -/
theorem goes_choose (L : C.Orderly) (H : C.Hosts host.dispatch) :
    Act.Goes C Output.manner s (choose.perform host words) := by
  refine .bind L (.ofExcept L _) fun choice t _ => ?_
  refine .session L ?_
  refine .bind L (.ofExcept L _) fun condition u _ => ?_
  refine .bind L (goes_value L H condition) fun result v _ => ?_
  split
  · exact goes_performWords L H
  · split
    · exact goes_performWords L H
    · exact .pure L _

/-- A line can be carried out for each item. -/
theorem goes_repeatFor (L : C.Steady) (H : C.Hosts host.dispatch)
    (B : C.Bears host.manual .repeatEach) (name body : Text) (done items : List Text) :
    Act.Goes C Output.manner s (repeatFor host name body done items) := by
  induction items generalizing done s with
  | nil => exact .pure L _
  | cons item items ih =>
    refine goes_setVariable L B (.inr (.inr rfl)) ?_
    refine Act.goes_after L H body .lineFailed fun output t => ?_
    cases output with
    | text x =>
      have stops : (liftM Run.takeStop : Act Bool).run t
          = some (.ok t.takeStop.1, t.takeStop.2) := rfl
      refine .next L stops (L.stop (L.refl t)) ?_
      split
      · exact .pure L _
      · exact ih _
    | _ => exact .pure L _

/-- Lines can be carried out for lists. -/
theorem goes_repeatEach (L : C.Steady) (H : C.Hosts host.dispatch)
    (B : C.Bears host.manual .repeatEach) :
    Act.Goes C Output.manner s (repeatEach.perform host words) := by
  refine .bind L (.ofExcept L _) fun repetition t _ => ?_
  refine .bind L (Host.goes_expand L H _ t) fun head u _ => ?_
  refine .bind L (.ofExcept L _) fun _ v _ => ?_
  dsimp only
  split
  · exact .pure L _
  · exact .within L .asProgram (goes_repeatFor L H B _ _ _ _)

/-- Lines can be jumped to. -/
theorem goes_goto (L : C.Orderly) (H : C.Hosts host.dispatch) :
    Act.Goes C Output.manner s (goto.perform host words) := by
  refine .bind L (Host.goes_expand L H words s) fun words t _ => ?_
  split
  · split
    · exact .pure L _
    · exact .throw L _
  · exact .throw L _

/-! ## Commands for the stored program -/

/-- The program can be listed. -/
theorem goes_list (L : C.Orderly) (H : C.Hosts host.dispatch) :
    Act.Goes C Output.manner s (list.perform host words) := by
  refine .bind L (Host.goes_expand L H words s) fun words t _ => ?_
  refine .bind L (.ofExcept L _) fun first u _ => ?_
  refine .bind L (.ofExcept L _) fun last v _ => ?_
  exact .session L (goes_printListing L _)

/-- What may not be done while a program runs can be refused. -/
theorem goes_ensureIdle (L : C.Orderly) : Act.Goes C (fun _ => .well) s Act.ensureIdle := by
  refine .session L ?_
  split
  · exact .throw L _
  · exact .pure L _

/-- The program can be run if programs can. -/
theorem goes_runProgram (L : C.Orderly)
    (R : ∀ p s, Act.Goes C Output.manner s (host.runAndSave p)) :
    Act.Goes C Output.manner s (run.perform host words) := by
  refine .bind L (goes_ensureIdle L) fun _ t _ => ?_
  exact .session L (R _ t)

/-- The program can be cleared. -/
theorem goes_new (L : C.Orderly) (B : C.Bears host.manual .new) :
    Act.Goes C Output.manner s (new.perform host words) := by
  intro r u hr
  cases hr
  exact L.settled (B _ _ (.clear s _))

/-- The program can be saved under an alias. -/
theorem goes_save (L : C.Orderly) (H : C.Hosts host.dispatch) (B : C.Bears host.manual .save) :
    Act.Goes C Output.manner s (save.perform host words) := by
  refine .bind L (goes_ensureIdle L) fun _ t _ => ?_
  refine .bind L (Host.goes_expand L H words t) fun words u _ => ?_
  split
  · dsimp only
    split
    · exact .throw L _
    · next h =>
      exact .edit L (B _ _ (.store u (Option.not_isSome_iff_eq_none.mp h))) (.pure L _)
  · exact .throw L _

/-- The aliases can be listed. -/
theorem goes_listAliases (L : C.Orderly) : Act.Goes C Output.manner s listAliases := by
  refine .session L ?_
  dsimp only
  split
  · exact .printLine L (.pure L _)
  · refine .printLine L (.bind L (.forM L (fun name t => ?_) _) fun _ t _ => .pure L _)
    intro r u hr
    cases hr
    exact L.step (.print t _)

/-- Something can be done with an alias if the change that it makes is fine. -/
theorem goes_aliasAction (L : C.Orderly) {name : Text} {program : Program} (action : AliasAction)
    (drop : action = .delete →
      C .well s (s.update fun s => { s with aliases := s.aliases.erase name }).save)
    (fetch : action = .fetch → C .well s (s.update fun s => { s with program := program }).save) :
    Act.Goes C Output.manner s (action.perform name program) := by
  cases action with
  | delete => exact .edit L (drop rfl) (.printLine L (.pure L _))
  | fetch => exact .edit L (fetch rfl) (.printLine L (.pure L _))
  | list => exact goes_printListing L _

/-- Aliases can be listed, used and run if programs can be run, and the action can be carried
out that the words ask for. -/
theorem goes_aliases (L : C.Orderly) (H : C.Hosts host.dispatch)
    (R : ∀ p s, Act.Goes C Output.manner s (host.runAndSave p))
    (A : ∀ parsed t action name program,
      (host.parse .standard {} words).run s = some (.ok parsed, t) →
      AliasAction.ofParsed? parsed = some action → t.session.aliases.get? name = some program →
      Act.Goes C Output.manner t (action.perform name program)) :
    Act.Goes C Output.manner s (aliases.perform host words) := by
  show Act.Goes C _ s (if words.length < 2 then _ else _)
  split
  · exact goes_listAliases L
  · refine .bind L (Host.goes_parse L H _ _ words s) fun parsed t ht => ?_
    refine .session L ?_
    dsimp only
    split
    · split
      · exact R _ t
      · exact goes_listAliases L
    · next action ha =>
      split
      · exact .printLine L (.pure L _)
      · split
        · next h => exact A parsed t action _ _ ht ha h
        · exact .printLine L (.pure L _)

/-- A line can be moved. -/
theorem goes_move (L : C.Orderly) (H : C.Hosts host.dispatch) (B : C.Bears host.manual .move) :
    Act.Goes C Output.manner s (move.perform host words) := by
  refine .bind L (goes_ensureIdle L) fun _ t _ => ?_
  refine .bind L (Host.goes_expand L H words t) fun words u _ => ?_
  split
  · refine .bind L (.ofExcept L _) fun lines v _ => ?_
    obtain ⟨source, target⟩ := lines
    refine .session L ?_
    split
    · exact .throw L _
    · next h => exact .edit L (B _ _ (.move v h)) (goes_say L _)
  · exact .throw L _

/-- A line can be deleted. -/
theorem goes_delete (L : C.Orderly) (H : C.Hosts host.dispatch)
    (B : C.Bears host.manual .delete) :
    Act.Goes C Output.manner s (delete.perform host words) := by
  refine .bind L (goes_ensureIdle L) fun _ t _ => ?_
  refine .bind L (Host.goes_expand L H words t) fun words u _ => ?_
  split
  · refine .bind L (.ofExcept L _) fun n v _ => ?_
    refine .session L ?_
    split
    · exact .throw L _
    · next h => exact .edit L (B _ _ (.delete v h)) (goes_say L _)
  · exact .throw L _

/-- The listing can be written to the store. -/
theorem goes_download (L : C.Orderly) (H : C.Hosts host.dispatch)
    (B : C.Bears host.manual .download) :
    Act.Goes C Output.manner s (download.perform host words) := by
  refine .bind L (Host.goes_expand L H words s) fun words t _ => ?_
  refine .session L ?_
  refine .bind L (fun r u hr => ?_) fun _ u _ => .printLine L (.pure L _)
  cases hr
  exact L.any_ends (B _ _ (.write t _)) _

end Command

/-! ## All built-in commands -/

/-- A built-in command keeps an orderly conduct that dispatched lines keep and that bears its
edits, if programs can be run and repetitions carried out. -/
theorem Builtin.goes_perform_of {C : Conduct} {host : Host} {words : List Text} {s : Terminal}
    (L : C.Orderly) (H : C.Hosts host.dispatch) (b : Builtin) (B : C.Bears host.manual b)
    (R : ∀ p s, Act.Goes C Output.manner s (host.runAndSave p))
    (F : b = .repeatEach → Act.Goes C Output.manner s (Command.repeatEach.perform host words)) :
    Act.Goes C Output.manner s (b.command.perform host words) := by
  cases b with
  | print => exact Command.goes_print L H
  | help => exact Command.goes_help L H
  | clear => exact Command.goes_clearNamed L _ _
  | clr => exact Command.goes_clearNamed L _ _
  | cls => exact Command.goes_clearNamed L _ _
  | color => exact Command.goes_color L H B
  | theme => exact Command.goes_theme L H B
  | setCursor => exact Command.goes_setCursor L H
  | system => exact Command.goes_system L H
  | arithmetic op => exact Command.goes_arithmetic L H op
  | sqrt => exact Command.goes_sqrt L H
  | logarithm => exact Command.goes_logarithm L H
  | random => exact Command.goes_random L H
  | compare c => exact Command.goes_compareBy L H c
  | assign => exact Command.goes_assign L H B
  | unassign => exact Command.goes_unassign L H B
  | vars => exact Command.goes_vars L
  | input => exact Command.goes_input L H B
  | choose => exact Command.goes_choose L H
  | repeatEach => exact F rfl
  | goto => exact Command.goes_goto L H
  | exit => exact .pure L _
  | list => exact Command.goes_list L H
  | run => exact Command.goes_runProgram L R
  | new => exact Command.goes_new L B
  | save => exact Command.goes_save L H B
  | aliases =>
    exact Command.goes_aliases L H R fun _ t action name _ _ _ h =>
      Command.goes_aliasAction L action (fun _ => B _ _ (.drop t name)) fun _ => B _ _ (.recall t h)
  | move => exact Command.goes_move L H B
  | delete => exact Command.goes_delete L H B
  | download => exact Command.goes_download L H B

/-- **A built-in command keeps a steady conduct that dispatched lines keep and that bears
its edits.** -/
theorem Builtin.goes_perform {C : Conduct} {host : Host} (L : C.Steady)
    (H : C.Hosts host.dispatch) (b : Builtin) (B : C.Bears host.manual b) (words : List Text)
    (s : Terminal) : Act.Goes C Output.manner s (b.command.perform host words) := by
  refine b.goes_perform_of L H B (Host.goes_runAndSave L H) ?_
  rintro rfl
  exact Command.goes_repeatEach L H B

end Teletype
