/-
# Commands that fail

A command looks at its words, at the session and at what the user answers before it changes
anything, and what it changes it changes only when nothing can fail any more.  In a line
without parentheses no other line is carried out, so that the line fails as a whole.  The
main statement is that **a line without parentheses that fails changes nothing but the
status, what was printed, and requests to stop** (`Registry.dispatch_spares`), as long as it
neither repeats a line nor runs a program.
-/
import Teletype.Proofs.Dispatch
import Teletype.Proofs.Still

namespace Teletype

/-! ## Terminals that were spared -/

/-- The text that was printed. -/
def Event.printedText? : Event → Option Text
  | .printed text _ _ => some text
  | _ => none

/-- Texts were printed on a console one after the other.  Besides it was asked for a stop, or
for a line where it had none. -/
inductive Console.Heard : Console → List Text → Console → Prop
  /-- A recorder has the same lines to read and the same size and theme. -/
  | recorder (r : Recorder) (texts : List Text) (stopAfter : Option Nat) :
      Heard (.recorder r) texts (.recorder { r with
        output := r.output ++ texts.flatten
        cursor := texts.foldl r.grid.advance r.cursor
        prints := r.prints + texts.length
        stopAfter })
  /-- A pair of streams has the same size, and the same lines to read but for such that are no
  text. -/
  | stream (s : Stream) (texts : List Text) (input : List (Option Text))
      (lines : input.filterMap id = s.input.filterMap id) :
      Heard (.stream s) texts (.stream { s with
        output := s.output ++ texts.flatten
        cursor := texts.foldl s.grid.advanceEach s.cursor
        input })

namespace Console.Heard

variable {c d e : Console} {texts more : List Text}

/-- Nothing was printed. -/
theorem refl (c : Console) : c.Heard [] c := by
  cases c with
  | recorder r =>
    have same := recorder r [] r.stopAfter
    rwa [List.flatten_nil, List.append_nil] at same
  | stream s =>
    have same := stream s [] s.input rfl
    rwa [List.flatten_nil, List.append_nil] at same

/-- Texts were printed, and then others. -/
theorem trans (h : c.Heard texts d) (h' : d.Heard more e) : c.Heard (texts ++ more) e := by
  cases h with
  | recorder r _ stopAfter =>
    cases h' with
    | recorder _ _ stopAfter' =>
      have all := recorder r (texts ++ more) stopAfter'
      rw [List.flatten_append, List.foldl_append, List.length_append, ← List.append_assoc,
        ← Nat.add_assoc] at all
      exact all
  | stream s _ input lines =>
    cases h' with
    | stream _ _ input' lines' =>
      have all := stream s (texts ++ more) input' (lines'.trans lines)
      rw [List.flatten_append, List.foldl_append, ← List.append_assoc] at all
      exact all

/-- One text was printed. -/
theorem print (c : Console) (text : Text) : c.Heard [text] (c.print text) := by
  cases c with
  | recorder r =>
    have one := recorder r [text] r.stopAfter
    rw [List.flatten_singleton] at one
    exact one
  | stream s =>
    have one := stream s [text] s.input rfl
    rw [List.flatten_singleton] at one
    exact one

/-- It was asked for a stop. -/
theorem takeStop (c : Console) : c.Heard [] c.takeStop.2 := by
  cases c with
  | recorder r =>
    show Heard (.recorder r) [] (.recorder r.takeStop.2)
    unfold Recorder.takeStop
    split
    · have asked := recorder r [] none
      rwa [List.flatten_nil, List.append_nil] at asked
    · exact refl _
  | stream s => exact refl _

/-- It was asked for a line and had none. -/
theorem closed (h : c.read.1 = none) : c.Heard [] c.read.2 := by
  cases c with
  | recorder r =>
    obtain ⟨grid, cursor, output, theme, input, prints, stopAfter⟩ := r
    cases input with
    | nil => exact refl _
    | cons line lines => cases h
  | stream s =>
    obtain ⟨grid, cursor, input, output⟩ := s
    cases input with
    | nil => exact refl _
    | cons line lines =>
      cases line with
      | none =>
        have asked := stream ⟨grid, cursor, none :: lines, output⟩ [] lines rfl
        rwa [List.flatten_nil, List.append_nil] at asked
      | some line => cases h

end Console.Heard

namespace Terminal

/-- From one terminal to another nothing changed but the status, the request to stop, and what
was printed: the variables, the program, the aliases, the display, the flags, the settings, the
store and the random numbers are the same, and the console has only printed. -/
structure Spared (s u : Terminal) : Prop where
  /-- The settings are the same. -/
  settings : u.settings = s.settings
  /-- The session is the same but for the status and the request to stop. -/
  session : u.session
    = { s.session with status := u.session.status, stopping := u.session.stopping }
  /-- The store is the same. -/
  store : u.store = s.store
  /-- The random numbers are the same. -/
  dice : u.dice = s.dice
  /-- What was done with the console is the printing of the texts in the trace. -/
  console : ∃ new, u.trace = new ++ s.trace ∧
    s.console.Heard (new.reverse.filterMap Event.printedText?) u.console

namespace Spared

variable {s t u : Terminal}

/-- Nothing was done. -/
theorem refl (s : Terminal) : s.Spared s := ⟨rfl, rfl, rfl, rfl, [], rfl, .refl _⟩

/-- One thing was done after another. -/
theorem trans (h : s.Spared t) (h' : t.Spared u) : s.Spared u := by
  obtain ⟨new, trace, heard⟩ := h.console
  obtain ⟨new', trace', heard'⟩ := h'.console
  refine ⟨h'.settings.trans h.settings, ?_, h'.store.trans h.store, h'.dice.trans h.dice,
    new' ++ new, trace_append trace trace', ?_⟩
  · rw [h'.session, h.session]
  · rw [List.reverse_append, List.filterMap_append]
    exact heard.trans heard'

/-- A thing was noted other than the printing of a text, and the console heard nothing. -/
theorem of_cons {e : Event} (settings : u.settings = s.settings)
    (session : u.session
      = { s.session with status := u.session.status, stopping := u.session.stopping })
    (store : u.store = s.store) (dice : u.dice = s.dice) (trace : u.trace = e :: s.trace)
    (he : e.printedText? = none) (console : s.console.Heard [] u.console) : s.Spared u := by
  refine ⟨settings, session, store, dice, [e], trace, ?_⟩
  rw [List.reverse_singleton, List.filterMap_cons_none he]
  exact console

/-- A thing was noted other than the printing of a text. -/
theorem note (s : Terminal) {e : Event} (he : e.printedText? = none) : s.Spared (s.note e) :=
  .of_cons rfl rfl rfl rfl rfl he (.refl _)

/-- A text was printed. -/
theorem print (s : Terminal) (text : Text) : s.Spared (s.print text) := by
  unfold Terminal.print
  split
  · exact refl s
  · have asked := Console.Heard.takeStop s.console
    split
    · next hc =>
      rw [hc] at asked
      exact .of_cons rfl rfl rfl rfl rfl rfl asked
    · next console hc =>
      rw [hc] at asked
      exact ⟨rfl, rfl, rfl, rfl, [_], rfl, asked.trans (.print console text)⟩

/-- The status was set. -/
theorem status (s : Terminal) (status : Int) : s.Spared (s.update fun t => { t with status }) :=
  ⟨rfl, rfl, rfl, rfl, [], rfl, .refl _⟩

/-- A fault was reported. -/
theorem report (s : Terminal) (f : Fault) : s.Spared (s.report f) :=
  (status s f.status).trans (print _ _)

/-- A line was asked for, and there was none. -/
theorem closed (h : s.readLine.1 = none) : s.Spared s.readLine.2 :=
  .of_cons rfl rfl rfl rfl rfl rfl (.closed h)

/-- A text was not saved in memory. -/
theorem refused {values : Table Text Text} (memory : s.store = .memory values) {key value : Text}
    {f : Fault} (h : (s.saveUnder key value).1 = .error f) : s.Spared (s.saveUnder key value).2 := by
  have store : (s.saveUnder key value).2.store = s.store := by
    show (s.store.save key value).2 = s.store
    change (s.store.save key value).1 = .error f at h
    rw [memory] at h ⊢
    unfold Store.save at h ⊢
    split
    · rfl
    · next fine =>
      rw [fine] at h
      cases h
  exact .of_cons rfl rfl store rfl rfl rfl (.refl _)

end Spared

end Terminal

/-! ## Acts that cannot fail -/

/-- The act ends without a fault and leaves the status as it was. -/
def Act.Sure {α : Type} (s : Terminal) (a : Act α) : Prop :=
  ∃ x u, a.run s = some (.ok x, u) ∧ u.session.status = s.session.status

namespace Act.Sure

variable {α β : Type} {s t : Terminal}

/-- A value is given. -/
theorem pure (x : α) : Sure s (Pure.pure x : Act α) := ⟨x, s, rfl, rfl⟩

/-- One act is done after another. -/
theorem next {a : Act α} {f : α → Act β} {x : α} (ha : a.run s = some (.ok x, t))
    (status : t.session.status = s.session.status) (hf : Sure t (f x)) : Sure s (a >>= f) := by
  obtain ⟨y, u, hu, same⟩ := hf
  exact ⟨y, u, (Act.run_bind_of_ok ha).trans hu, same.trans status⟩

/-- One act is done after looking at the session. -/
theorem session {f : Session → Act β} (hf : Sure s (f s.session)) :
    Sure s (liftM Run.session >>= f) :=
  next rfl rfl hf

/-- One act is done after printing. -/
theorem print {text : Text} {f : Unit → Act β} (hf : Sure (s.print text) (f ())) :
    Sure s (liftM (Run.print text) >>= f) :=
  next rfl (Terminal.Quiet.print s text).status hf

/-- One act is done after printing a line. -/
theorem printLine {text : Text} {f : Unit → Act β} (hf : Sure (s.printLine text) (f ())) :
    Sure s (liftM (Run.printLine text) >>= f) :=
  next rfl (Terminal.Quiet.print s _).status hf

/-- One act is done after printing lines. -/
theorem printLines {lines : List Text} {f : Unit → Act β} (hf : ∀ t, Sure t (f ())) :
    Sure s ((lines.forM fun line => liftM (Run.printLine line) : Act Unit) >>= f) := by
  induction lines generalizing s with
  | nil => exact hf s
  | cons line lines ih =>
    show Sure s (((liftM (Run.printLine line) : Act Unit) >>= fun _ => lines.forM _) >>= f)
    rw [bind_assoc]
    exact printLine ih

end Act.Sure

/-! ## Commands that fail as a whole -/

/-- If the act ends in a fault, the terminal was spared; otherwise the status is as it was. -/
def Act.Atomic {α : Type} (s : Terminal) (a : Act α) : Prop :=
  (∀ f u, a.run s = some (.error f, u) → s.Spared u) ∧
    ∀ x u, a.run s = some (.ok x, u) → u.session.status = s.session.status

namespace Act.Atomic

variable {α β : Type} {s : Terminal} {a : Act α} {f : α → Act β}

/-- What only looks fails as a whole. -/
theorem of_still (h : a.Still) : Atomic s a := by
  constructor
  · intro f u hr
    rw [h s _ u hr]
    exact .refl s
  · intro x u hr
    rw [h s _ u hr]

/-- What cannot fail fails as a whole. -/
theorem of_sure (h : Sure s a) : Atomic s a := by
  obtain ⟨x, u, hu, status⟩ := h
  constructor
  · intro f v hr
    cases hu.symm.trans hr
  · intro y v hr
    cases hu.symm.trans hr
    exact status

/-- A fault is thrown. -/
theorem throw (f : Fault) : Atomic s (MonadExcept.throw f : Act α) := of_still (.throw f)

/-- A value is given. -/
theorem pure (x : α) : Atomic s (Pure.pure x : Act α) := of_still (.pure x)

/-- Something is done after what only looks, on the terminal that was looked at. -/
theorem lookAt (h : a.Still) (hf : ∀ x, a.run s = some (.ok x, s) → Atomic s (f x)) :
    Atomic s (a >>= f) := by
  constructor
  · intro e u hr
    rcases Act.bind_eq_some.mp hr with ⟨e', he, -⟩ | ⟨x, t, hx, hr'⟩
    · exact (of_still h).1 e' u he
    · obtain rfl := h s _ t hx
      exact (hf x hx).1 e u hr'
  · intro y u hr
    rcases Act.bind_eq_some.mp hr with ⟨e', -, he⟩ | ⟨x, t, hx, hr'⟩
    · cases he
    · obtain rfl := h s _ t hx
      exact (hf x hx).2 y u hr'

/-- Something is done after what only looks. -/
theorem look (h : a.Still) (hf : ∀ x, Atomic s (f x)) : Atomic s (a >>= f) :=
  lookAt h fun x _ => hf x

/-- Something is done after a value or a fault was given. -/
theorem ofExcept {r : Except Fault α} (hf : ∀ x, Atomic s (f x)) :
    Atomic s (Act.ofExcept r >>= f) :=
  look (.ofExcept r) hf

/-- Something is done after looking at the session. -/
theorem session {f : Session → Act β} (hf : Atomic s (f s.session)) :
    Atomic s (liftM Run.session >>= f) := by
  rw [Atomic, Act.run_session_bind]
  exact hf

/-- Something is done only if no program runs. -/
theorem ensureIdle {f : Unit → Act β} (hf : Atomic s (f ())) :
    Atomic s (Act.ensureIdle >>= f) := by
  refine look (.session fun x => ?_) fun _ => hf
  split
  · exact .throw _
  · exact .pure _

/-- Something is done behind a step that spared the terminal. -/
theorem next {x : α} {t : Terminal} (ha : a.run s = some (.ok x, t)) (spared : s.Spared t)
    (status : t.session.status = s.session.status) (hf : Atomic t (f x)) : Atomic s (a >>= f) := by
  rw [Atomic, Act.run_bind_of_ok ha]
  constructor
  · intro e u hr
    exact spared.trans (hf.1 e u hr)
  · intro y u hr
    exact (hf.2 y u hr).trans status

/-- Nothing is done behind a fault that spared the terminal. -/
theorem fault {e : Fault} {t : Terminal} (ha : a.run s = some (.error e, t))
    (spared : s.Spared t) : Atomic s (a >>= f) := by
  rw [Atomic, Act.run_bind_of_error ha]
  constructor
  · rintro _ _ ⟨⟩
    exact spared
  · rintro _ _ ⟨⟩

/-- Something is done after printing. -/
theorem print {text : Text} {f : Unit → Act β} (hf : Atomic (s.print text) (f ())) :
    Atomic s (liftM (Run.print text) >>= f) :=
  next rfl (.print s text) (Terminal.Quiet.print s text).status hf

end Act.Atomic

namespace Command

open Act (Sure Atomic)

variable {host : Host} {words : List Text} {s : Terminal}

/-- A text is said. -/
theorem sure_say (text : Text) : Sure s (say text) := .printLine (.pure _)

/-- Lines of a program are listed. -/
theorem sure_printListing (lines : List (LineNumber × Text)) : Sure s (printListing lines) :=
  .printLines fun _ => .printLine (.pure _)

/-- Pages are listed. -/
theorem sure_listPages (header : Text) (listed : Page → Bool) (trailer : Text) :
    Sure s (listPages host header listed trailer) :=
  .next rfl rfl (.printLine (.print (.printLine (.pure _))))

/-- The aliases are listed. -/
theorem sure_listAliases : Sure s listAliases := by
  refine .session ?_
  dsimp only
  split
  · exact .printLine (.pure _)
  · exact .printLine (.printLines fun _ => .pure _)

/-- A variable is given a value. -/
theorem sure_setVariable (name value : Text) (output : Output) :
    Sure s (do
      setVariable name value
      pure output) :=
  .next rfl rfl (.pure _)

/-- Something is done with an alias. -/
theorem sure_aliasAction (name : Text) (program : Program) (action : AliasAction) :
    Sure s (action.perform name program) := by
  cases action with
  | delete => exact .next rfl rfl (.next rfl rfl (.printLine (.pure _)))
  | fetch => exact .next rfl rfl (.next rfl rfl (.printLine (.pure _)))
  | list => exact sure_printListing _

/-! ### Operands without parentheses -/

/-- Without parentheses an operand stands for itself. -/
theorem exists_text_of_operand {bindings : Table Text Text} {o : Operand}
    (flat : ∀ w ∈ words, '(' ∉ w) (h : operand bindings words = .ok o) : ∃ t, o = .text t := by
  unfold operand at h
  split at h
  · cases h
    exact ⟨_, rfl⟩
  · next head rest found =>
    have mem : head ∈ words :=
      (List.dropWhile_sublist _).subset (found ▸ List.mem_cons_self)
    split at h
    · split at h
      · cases h
        exact ⟨_, rfl⟩
      · cases h
    · exact absurd List.mem_cons_self (flat _ mem)
    · split at h
      · cases h
        exact ⟨_, rfl⟩
      · cases h

/-- The words before and behind a keyword are words of the line. -/
theorem subset_of_splitKeyword {keyword : Text} {n : Nesting} {before behind : List Text}
    (h : splitKeyword keyword n words = some (before, behind)) :
    before ⊆ words ∧ behind ⊆ words := by
  obtain ⟨word, -, rfl⟩ := splitKeyword_words h
  exact ⟨List.subset_append_left _ _,
    List.subset_append_of_subset_right _ (List.subset_cons_self _ _)⟩

/-- The words of a choice are words of the line. -/
theorem Choice.subset_of_read {c : Choice} (h : Choice.read words = .ok c) :
    c.condition ⊆ words ∧ c.positive ⊆ words ∧ ∀ negative ∈ c.negative, negative ⊆ words := by
  have rest : words.drop 1 ⊆ words := List.drop_subset 1 words
  unfold Choice.read at h
  split at h
  · cases h
  · cases h
  · cases h
  · next condition branches _ _ cut =>
    obtain ⟨condition_le, branches_le⟩ := subset_of_splitKeyword cut
    have condition_le := List.Subset.trans condition_le rest
    have branches_le := List.Subset.trans branches_le rest
    split at h
    · cases h
      exact ⟨condition_le, branches_le, nofun⟩
    · cases h
    · next positive negative _ cut' =>
      cases h
      obtain ⟨positive_le, negative_le⟩ := subset_of_splitKeyword cut'
      refine ⟨condition_le, List.Subset.trans positive_le branches_le, ?_⟩
      rintro _ ⟨⟩
      exact List.Subset.trans negative_le branches_le

/-- Without parentheses the words of a branch are only looked at. -/
theorem still_performWords (flat : ∀ w ∈ words, '(' ∉ w) : (performWords host words).Still := by
  refine .session fun session => .given fun o h => ?_
  obtain ⟨t, rfl⟩ := exists_text_of_operand flat h
  exact .pure _

/-- Without parentheses a choice only looks at its words. -/
theorem still_choose (flat : ∀ w ∈ words, '(' ∉ w) : (choose.perform host words).Still := by
  refine .given fun choice h => .session fun session => .given fun o ho => ?_
  obtain ⟨condition_le, positive_le, negative_le⟩ := Choice.subset_of_read h
  obtain ⟨t, rfl⟩ := exists_text_of_operand (fun w hw => flat w (condition_le hw)) ho
  refine .bind (.pure _) fun result => ?_
  split
  · exact still_performWords fun w hw => flat w (positive_le hw)
  · split
    · next words' hn => exact still_performWords fun w hw => flat w (negative_le words' hn hw)
    · exact .pure _

/-! ### One command after the other -/

section

variable (flat : '(' ∉ Text.unwords words)

include flat

/-- Printing fails as a whole. -/
theorem atomic_print : Atomic s (print.perform host words) :=
  .look (host.still_expand flat) fun _ => .of_sure (sure_say _)

/-- So does showing the manual. -/
theorem atomic_help : Atomic s (help.perform host words) := by
  refine .look (host.still_expand flat) fun words => ?_
  split
  · exact .of_sure (sure_listPages _ _ _)
  · dsimp only
    split
    · exact .of_sure (sure_say _)
    · split
      · exact .of_sure (sure_listPages _ _ _)
      · exact .throw _

/-- So does setting the color. -/
theorem atomic_color : Atomic s (color.perform host words) := by
  refine .look (host.still_expand flat) fun words => ?_
  exact .ofExcept fun color => .of_sure (.next rfl rfl (.pure _))

/-- So does showing and setting the theme. -/
theorem atomic_theme : Atomic s (theme.perform host words) := by
  refine .look (host.still_expand flat) fun words => ?_
  split
  · exact .of_sure (.session (.printLine (.printLine (.pure _))))
  · exact .ofExcept fun theme => .of_sure (.next rfl rfl (.next rfl rfl (.pure _)))

/-- So does moving the cursor. -/
theorem atomic_setCursor : Atomic s (setCursor.perform host words) := by
  refine .look (host.still_expand flat) fun words => ?_
  split
  · split
    · refine .next rfl (.refl s) rfl ?_
      dsimp only
      split
      · exact .of_sure (.next rfl rfl (.pure _))
      · exact .throw _
    · exact .throw _
  · exact .throw _

/-- So does showing parameters. -/
theorem atomic_system : Atomic s (system.perform host words) := by
  refine .look (host.still_expand flat) fun words => ?_
  dsimp only
  split
  · exact .of_sure (.next rfl rfl (.print (.pure _)))
  · split
    · exact .of_sure (.next rfl rfl (sure_say _))
    · exact .throw _

/-- So do operations. -/
theorem atomic_arithmetic (op : Operation) : Atomic s ((arithmetic op).perform host words) := by
  refine .look (host.still_expand flat) fun words => ?_
  refine .ofExcept fun operands => ?_
  exact .ofExcept fun result => .of_sure (sure_say _)

/-- So do roots. -/
theorem atomic_sqrt : Atomic s (sqrt.perform host words) := by
  refine .look (host.still_expand flat) fun words => ?_
  refine .ofExcept fun operands => ?_
  obtain ⟨value, root⟩ := operands
  dsimp only
  split
  · exact .of_sure (sure_say _)
  · exact .throw _

/-- So do logarithms. -/
theorem atomic_logarithm : Atomic s (logarithm.perform host words) := by
  refine .look (host.still_expand flat) fun words => ?_
  split
  · exact .ofExcept fun value => .of_sure (sure_say _)
  · refine .ofExcept fun operands => ?_
    obtain ⟨value, base⟩ := operands
    dsimp only
    split
    · exact .of_sure (sure_say _)
    · exact .throw _

/-- So does drawing a number, which is drawn when its bound is known. -/
theorem atomic_random : Atomic s (random.perform host words) := by
  refine .look (host.still_expand flat) fun words => ?_
  have draws : ∀ bound, Atomic s (do
      let n ← Run.draw bound
      say (Decimal.ofNat n)) := fun bound => .of_sure (.next rfl rfl (sure_say _))
  split
  · exact draws _
  · dsimp only
    split
    · exact .throw _
    · exact draws _

/-- So do comparisons. -/
theorem atomic_compareBy (c : Comparison) : Atomic s ((compareBy c).perform host words) := by
  refine .look (host.still_expand flat) fun words => ?_
  split
  · exact .of_sure (sure_say _)
  · exact .throw _

/-- So does giving a variable a value. -/
theorem atomic_assign : Atomic s (assign.perform host words) := by
  refine .look (host.still_expand flat) fun words => ?_
  split
  · split
    · exact .ofExcept fun _ => .of_sure (sure_setVariable _ _ _)
    · exact .throw _
  · exact .throw _

/-- So does taking a variable away. -/
theorem atomic_unassign : Atomic s (unassign.perform host words) := by
  refine .look (host.still_expand flat) fun words => ?_
  refine .ofExcept fun _ => .session ?_
  split
  · exact .of_sure (.next rfl rfl (.next rfl rfl (.pure _)))
  · exact .of_sure (.printLine (.pure _))

/-- So does asking for a value: where it fails behind its prompt there was no line to read. -/
theorem atomic_input : Atomic s (input.perform host words) := by
  refine .look (host.still_parse _ _ flat) fun parsed => ?_
  refine .ofExcept fun _ => .session (.print ?_)
  generalize s.print _ = t
  have read : (liftM Run.readLine : Act (Option Text)).run t
      = some (.ok t.readLine.1, t.readLine.2) := rfl
  rcases h : t.readLine.1 with _ | reply
  · rw [h] at read
    exact .next read (.closed h) rfl (.throw _)
  · rw [h] at read
    exact .of_sure (.next read rfl (sure_setVariable _ _ _))

/-- So do jumps. -/
theorem atomic_goto : Atomic s (goto.perform host words) := by
  refine .look (host.still_expand flat) fun words => ?_
  split
  · split
    · exact .pure _
    · exact .throw _
  · exact .throw _

/-- So does listing the program. -/
theorem atomic_list : Atomic s (list.perform host words) := by
  refine .look (host.still_expand flat) fun words => ?_
  refine .ofExcept fun first => .ofExcept fun last => ?_
  exact .of_sure (.session (sure_printListing _))

/-- So does saving the program under an alias. -/
theorem atomic_save : Atomic s (save.perform host words) := by
  refine .ensureIdle (.look (host.still_expand flat) fun words => ?_)
  split
  · dsimp only
    split
    · exact .throw _
    · exact .of_sure (.next rfl rfl (.next rfl rfl (.pure _)))
  · exact .throw _

/-- So do the actions on aliases, if no program is run. -/
theorem atomic_aliases
    (stays : 2 ≤ words.length → ∀ parsed, (host.parse .standard {} words).run s = some (.ok parsed, s) →
      AliasAction.ofParsed? parsed = none →
      s.session.aliases.get? (Text.upper parsed.name) = none) :
    Atomic s (aliases.perform host words) := by
  show Atomic s (if words.length < 2 then _ else _)
  split
  · exact .of_sure sure_listAliases
  · next long =>
    refine .lookAt (host.still_parse _ _ flat) fun parsed parses => .session ?_
    dsimp only
    split
    · next none_asked =>
      rw [stays (Nat.not_lt.mp long) parsed parses none_asked]
      exact .of_sure sure_listAliases
    · split
      · exact .of_sure (.printLine (.pure _))
      · split
        · exact .of_sure (sure_aliasAction _ _ _)
        · exact .of_sure (.printLine (.pure _))

/-- So does moving a line. -/
theorem atomic_move : Atomic s (move.perform host words) := by
  refine .ensureIdle (.look (host.still_expand flat) fun words => ?_)
  split
  · refine .ofExcept fun lines => ?_
    obtain ⟨source, target⟩ := lines
    refine .session ?_
    split
    · exact .throw _
    · exact .of_sure (.next rfl rfl (.next rfl rfl (sure_say _)))
  · exact .throw _

/-- So does deleting a line. -/
theorem atomic_delete : Atomic s (delete.perform host words) := by
  refine .ensureIdle (.look (host.still_expand flat) fun words => ?_)
  split
  · refine .ofExcept fun n => .session ?_
    split
    · exact .throw _
    · exact .of_sure (.next rfl rfl (.next rfl rfl (sure_say _)))
  · exact .throw _

/-- So does writing the listing to a store in memory. -/
theorem atomic_download {values : Table Text Text} (memory : s.store = .memory values) :
    Atomic s (download.perform host words) := by
  refine .look (host.still_expand flat) fun words => ?_
  refine .session ?_
  dsimp only
  generalize words.getD 1 listingKey = key, Json.quote _ = value
  have saved : (Act.saveUnder key value).run s
      = some ((s.saveUnder key value).1, (s.saveUnder key value).2) := rfl
  rcases h : (s.saveUnder key value).1 with f | ok
  · rw [h] at saved
    exact .fault saved (.refused memory h)
  · rw [h] at saved
    exact .of_sure (.next saved rfl (.printLine (.pure _)))

end

end Command

/-- **A built-in command fails as a whole** in a line without parentheses, over a store in
memory, if it neither repeats a line nor runs a program. -/
theorem Builtin.atomic_perform {host : Host} {line : Text} {s : Terminal} (b : Builtin)
    {values : Table Text Text} (memory : s.store = .memory values) (flat : '(' ∉ line)
    (repeats : b ≠ .repeatEach) (runs : b ≠ .run)
    (stays : b = .aliases → 2 ≤ (Text.words line).length → ∀ parsed,
      (host.parse .standard {} (Text.words line)).run s = some (.ok parsed, s) →
      Command.AliasAction.ofParsed? parsed = none →
      s.session.aliases.get? (Text.upper parsed.name) = none) :
    Act.Atomic s (b.command.perform host (Text.words line)) := by
  have whole : '(' ∉ Text.unwords (Text.words line) := by
    rwa [Text.unwords_words]
  have flatWords : ∀ w ∈ Text.words line, '(' ∉ w :=
    fun w hw mem => flat (subset_of_mem_cut hw mem)
  cases b with
  | print => exact Command.atomic_print whole
  | help => exact Command.atomic_help whole
  | clear => exact .of_sure (.next rfl rfl (.pure _))
  | clr => exact .of_sure (.next rfl rfl (.pure _))
  | cls => exact .of_sure (.next rfl rfl (.pure _))
  | color => exact Command.atomic_color whole
  | theme => exact Command.atomic_theme whole
  | setCursor => exact Command.atomic_setCursor whole
  | system => exact Command.atomic_system whole
  | arithmetic op => exact Command.atomic_arithmetic whole op
  | sqrt => exact Command.atomic_sqrt whole
  | logarithm => exact Command.atomic_logarithm whole
  | random => exact Command.atomic_random whole
  | compare c => exact Command.atomic_compareBy whole c
  | assign => exact Command.atomic_assign whole
  | unassign => exact Command.atomic_unassign whole
  | vars => exact .of_sure (.session (.print (.pure _)))
  | input => exact Command.atomic_input whole
  | choose => exact .of_still (Command.still_choose flatWords)
  | repeatEach => exact absurd rfl repeats
  | goto => exact Command.atomic_goto whole
  | exit => exact .pure _
  | list => exact Command.atomic_list whole
  | run => exact absurd rfl runs
  | new => exact .of_sure (.next rfl rfl (.printLine (.next rfl rfl (.pure _))))
  | save => exact Command.atomic_save whole
  | aliases => exact Command.atomic_aliases whole (stays rfl)
  | move => exact Command.atomic_move whole
  | delete => exact Command.atomic_delete whole
  | download => exact Command.atomic_download whole memory

namespace Registry

/-- The program that a trimmed line runs under an alias: the one under its first word, if this
names no command, or the one under the name behind the command for aliases, if no action is
asked for. -/
def aliasRun? (bound : Nat) (line : Text) (t : Terminal) : Option Program :=
  match Builtin.ofLine? line with
  | none => t.session.aliases.get? (Text.upper (Text.firstWord line))
  | some .aliases =>
    if (Text.words line).length < 2 then none
    else match ((builtin.host bound).parse .standard {} (Text.words line)).run (entered t line) with
      | some (.ok parsed, u) =>
        if (Command.AliasAction.ofParsed? parsed).isNone
        then u.session.aliases.get? (Text.upper parsed.name) else none
      | _ => none
  | some _ => none

/-- **A simple line that fails changes nothing.**  Let a line have no opening parenthesis, and
neither begin with the word of the command that repeats a line or of the one that runs the
program, nor run a program under an alias.  If it ends with a status other than zero over a
store in memory, then the variables, the program, the aliases, the display, the flags, the
settings, the store, the random numbers and the lines that are still to be read are as they
were, and the cursor is where the printed texts lead. -/
theorem dispatch_spares {bound : Nat} {line : Text} {s u : Terminal} {output : Output}
    {values : Table Text Text} (memory : s.store = .memory values) (flat : '(' ∉ line)
    (repeats : Builtin.ofLine? (Text.strip line) ≠ some .repeatEach)
    (runs : Builtin.ofLine? (Text.strip line) ≠ some .run)
    (stays : aliasRun? bound (Text.strip line) s = none)
    (h : builtin.dispatch (bound + 1) line s = some (output, u))
    (failed : u.session.status ≠ 0) : s.Spared u := by
  by_cases blank : Text.strip line = []
  · rw [dispatch_blank builtin bound blank] at h
    cases h
    exact .note s rfl
  rw [dispatch_eq_map blank, Option.map_eq_some_iff] at h
  obtain ⟨⟨output', t⟩, ht, hu⟩ := h
  cases hu
  let began := entered s (Text.strip line)
  have noted : s.Spared (s.note (.entered (Text.strip line))) := .note s rfl
  have before : s.Spared began := noted.trans (.status _ 0)
  have after : t.Spared (t.note (.left t.session.status)) := .note t rfl
  suffices spared : began.Spared t from (before.trans spared).trans after
  have flat' : '(' ∉ Text.strip line := fun mem => flat ((Text.isInfix_strip line).subset mem)
  -- a command, an alias, a line of the program, or a word that names nothing
  rcases carryOut_cases ht with ⟨b, hb, ht⟩ | ⟨hb, ⟨p, hp, ht⟩ | ⟨hp, ⟨n, hn, ht⟩ | ⟨-, ht⟩⟩⟩
  · have named : Builtin.ofLine? (Text.strip line) = some b := hb
    have atomic : Act.Atomic began
        (b.command.perform (builtin.host bound) (Text.words (Text.strip line))) := by
      refine b.atomic_perform memory flat' ?_ ?_ fun aliases long parsed parses unasked => ?_
      · rintro rfl
        exact repeats named
      · rintro rfl
        exact runs named
      · subst aliases
        rw [aliasRun?, named] at stays
        dsimp only at stays
        rw [if_neg (Nat.not_lt.mpr long)] at stays
        rw [parses] at stays
        dsimp only at stays
        rwa [unasked] at stays
    rcases settle_cases ht with done | ⟨f, v, failed', rfl, -⟩
    · exact absurd (atomic.2 _ _ done) failed
    · exact (atomic.1 f v failed').trans (.report v f)
  · have unnamed : Builtin.ofLine? (Text.strip line) = none := hb
    rw [aliasRun?, unnamed] at stays
    cases stays.symm.trans hp
  · cases ht
    exact absurd rfl failed
  · cases ht
    exact (Terminal.Spared.status began 1).trans (.print _ _)

/-- A request for a value prints its prompt and finds no line to read; the program, a variable
and an alias are as they were. -/
theorem dispatch_spares_input :
    let line := "INPUT -P $NAME X".toList
    let start := Terminal.ofSettings {} (.recorder { grid := ⟨60, 25⟩ }) (.memory .empty) ⟨0⟩
    let p := Program.setLine .empty 10 "PRINT A".toList
    let s := (start.update fun t => { t with
      program := p
      bindings := t.bindings.insert "NAME".toList "Name".toList
      aliases := t.aliases.insert "P".toList p }).save
    '(' ∉ line ∧ aliasRun? 2 (Text.strip line) s = none ∧
      ∃ output u, builtin.dispatch 3 line s = some (output, u) ∧ u.session.status ≠ 0 ∧
        s.Spared u := by
  intro line start p s
  have flat : '(' ∉ line := by decide
  have named : Builtin.ofLine? (Text.strip line) = some .input := by decide +kernel
  have stays : aliasRun? 2 (Text.strip line) s = none := by
    rw [aliasRun?, named]
  have ran : (builtin.dispatch 3 line s).any (fun r => decide (r.2.session.status ≠ 0)) = true := by
    decide +kernel
  obtain ⟨⟨output, u⟩, h, failed⟩ := (Option.any_eq_true _ _).mp ran
  have failed : u.session.status ≠ 0 := of_decide_eq_true failed
  refine ⟨flat, stays, output, u, h, failed, ?_⟩
  have memory : s.store = .memory _ := rfl
  refine dispatch_spares memory flat ?_ ?_ stays h failed
  · rw [named]
    decide
  · rw [named]
    decide

end Registry

end Teletype
