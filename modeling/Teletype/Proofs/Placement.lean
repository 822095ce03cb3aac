/-
# Where the cursor stands

A recorder scrolls once behind a text, a pair of streams behind each character, and it prints
a text line by line or, if it waits between them, character by character.  None of this makes
a difference to the cursor once it stands on the screen, and nothing that a terminal does
takes it off the screen: what is printed wraps and scrolls, a line that is read ends on a row
of the screen, a cleared screen has a corner, and only places on the screen are moved to.
The main statement is that **the cursor is led to the same place by both consoles, whole or
in pieces, and stays on the screen in every session** (`Registry.cursor_onScreen`).
-/
import Mathlib.Data.List.SplitBy
import Teletype.Proofs.Address
import Teletype.Proofs.Prompt

namespace Teletype

/-! ## Grids -/

namespace Grid

variable {g : Grid} {c : Cursor}

/-- A screen that scrolls holds a cursor in one of its columns. -/
theorem holds_scroll (column : c.column < g.columns) (rows : 0 < g.rows) :
    g.Holds (g.scroll c) := by
  refine ⟨column, ?_⟩
  show min c.row (g.rows - 1) < g.rows
  omega

/-- A screen that scrolls leaves a cursor that it holds. -/
theorem Holds.scroll_eq (h : g.Holds c) : g.scroll c = c := by
  have row : min c.row (g.rows - 1) = c.row := by
    have := h.2
    omega
  rw [scroll, row]

/-- A screen that holds a cursor holds one in its corner. -/
theorem Holds.home (h : g.Holds c) : g.Holds .home :=
  ⟨Nat.zero_lt_of_lt h.1, Nat.zero_lt_of_lt h.2⟩

/-- A character leads to one of the columns. -/
theorem column_step (h : c.column < g.columns) (ch : Char) :
    (g.step c ch).column < g.columns := by
  unfold step
  split
  · exact Nat.zero_lt_of_lt h
  · next inside =>
    show c.column + 1 < g.columns
    omega

/-- So does a text. -/
theorem column_foldl_step (h : c.column < g.columns) (t : Text) :
    (t.foldl g.step c).column < g.columns := by
  induction t generalizing c with
  | nil => exact h
  | cons ch t ih => exact ih (column_step h ch)

/-- **The cursor stays on the screen.** -/
theorem Holds.advance (h : g.Holds c) (t : Text) : g.Holds (g.advance c t) :=
  holds_scroll (column_foldl_step h.1 t) (Nat.zero_lt_of_lt h.2)

/-- From a place on the screen it makes no difference how often the screen scrolls. -/
theorem Holds.advanceEach_eq (h : g.Holds c) (t : Text) :
    g.advanceEach c t = g.advance c t := by
  cases t with
  | nil => exact h.scroll_eq.symm
  | cons ch t => exact g.advanceEach_cons c ch t

/-- A text behind another leads on from where the other led. -/
theorem advance_append (g : Grid) (c : Cursor) (t u : Text) :
    g.advance c (t ++ u) = g.advance (g.advance c t) u := by
  calc g.advance c (t ++ u) = g.advance (t.foldl g.step c) u := by
        rw [advance, advance, List.foldl_append]
    _ = g.advance (g.advance c t) u := (g.advance_scroll _ u).symm

end Grid

/-! ## Consoles -/

namespace Stream

/-- The pieces in which a text is printed: its lines, each with its line feed, or its characters
if the stream waits behind each of them. -/
def pieces (delay : Nat) (t : Text) : List Text :=
  if delay = 0 then t.splitBy fun ch _ => ch ≠ '\n' else t.map fun ch => [ch]

/-- Print a text piece by piece. -/
def printPieces (s : Stream) (delay : Nat) (t : Text) : Stream := (pieces delay t).foldl print s

/-- No character is lost between the pieces. -/
theorem flatten_pieces (delay : Nat) (t : Text) : (pieces delay t).flatten = t := by
  unfold pieces
  split
  · exact List.flatten_splitBy _ t
  · induction t with
    | nil => rfl
    | cons ch t ih => rw [List.map_cons, List.flatten_cons, ih, List.singleton_append]

/-- Pieces that are printed one after the other are printed as a whole. -/
theorem foldl_print (s : Stream) (ts : List Text) : ts.foldl print s = s.print ts.flatten := by
  induction ts generalizing s with
  | nil => simp [print, Grid.advanceEach]
  | cons t ts ih =>
    rw [List.foldl_cons, ih, List.flatten_cons]
    simp [print, Grid.advanceEach, List.append_assoc]

/-- **What is printed piece by piece is printed as a whole**, however long the stream waits. -/
theorem printPieces_eq (s : Stream) (delay : Nat) (t : Text) : s.printPieces delay t = s.print t := by
  rw [printPieces, foldl_print, flatten_pieces]

end Stream

namespace Console

variable {c : Console}

/-- **A text leads the cursor to the same place on both consoles.** -/
theorem cursor_print (h : c.grid.Holds c.cursor) (t : Text) :
    (c.print t).cursor = c.grid.advance c.cursor t := by
  cases c with
  | recorder r => rfl
  | stream s => exact h.advanceEach_eq t

/-- A console on whose screen the cursor is keeps it there when a text is printed. -/
theorem holds_print (h : c.grid.Holds c.cursor) (t : Text) :
    (c.print t).grid.Holds (c.print t).cursor := by
  rw [grid_print, cursor_print h]
  exact h.advance t

/-- **A text in pieces leads the cursor where the whole text does.** -/
theorem cursor_foldl_print (h : c.grid.Holds c.cursor) (ts : List Text) :
    (ts.foldl print c).cursor = (c.print ts.flatten).cursor := by
  rw [cursor_print h]
  induction ts generalizing c with
  | nil => exact h.scroll_eq.symm
  | cons t ts ih =>
    rw [List.foldl_cons, ih (holds_print h t), grid_print, cursor_print h, List.flatten_cons,
      Grid.advance_append]

/-- Reading leaves the size of the screen. -/
theorem grid_read (c : Console) : c.read.2.grid = c.grid := by
  cases c with
  | recorder r =>
    obtain ⟨grid, cursor, output, theme, input, prints, stopAfter⟩ := r
    cases input <;> rfl
  | stream s =>
    obtain ⟨grid, cursor, input, output⟩ := s
    rcases input with _ | ⟨_ | line, lines⟩ <;> rfl

/-- A line that is read leaves the cursor on the screen. -/
theorem holds_read (h : c.grid.Holds c.cursor) : c.read.2.grid.Holds c.read.2.cursor := by
  cases c with
  | recorder r =>
    obtain ⟨grid, cursor, output, theme, input, prints, stopAfter⟩ := r
    cases input <;> exact h
  | stream s =>
    obtain ⟨grid, cursor, input, output⟩ := s
    rcases input with _ | ⟨_ | line, lines⟩
    · exact h
    · exact h
    · -- the cursor goes to the head of the next row, on a screen that scrolls
      exact Grid.holds_scroll (Nat.zero_lt_of_lt h.1) (Nat.zero_lt_of_lt h.2)

/-- Asking whether to stop leaves the screen and the cursor. -/
theorem takeStop_same (c : Console) :
    c.takeStop.2.grid = c.grid ∧ c.takeStop.2.cursor = c.cursor := by
  cases c with
  | stream s => exact ⟨rfl, rfl⟩
  | recorder r =>
    show r.takeStop.2.grid = r.grid ∧ r.takeStop.2.cursor = r.cursor
    unfold Recorder.takeStop
    split <;> exact ⟨rfl, rfl⟩

end Console

/-! ## Terminals -/

namespace Terminal

/-- The cursor is on the screen. -/
def OnScreen (t : Terminal) : Prop := t.console.grid.Holds t.console.cursor

/-- Between two terminals the screen stayed as large as it was, and the cursor stayed on it. -/
structure KeepsCursor (s u : Terminal) : Prop where
  /-- The size of the screen is the same. -/
  grid : u.console.grid = s.console.grid
  /-- The cursor is on the screen if it was. -/
  onScreen : s.OnScreen → u.OnScreen

namespace KeepsCursor

variable {s t u : Terminal}

/-- Nothing was done with the console. -/
theorem of_console (h : u.console = s.console) : s.KeepsCursor u :=
  ⟨congrArg Console.grid h, fun hs => by rwa [OnScreen, h]⟩

/-- One thing was done after another. -/
theorem trans (h : s.KeepsCursor t) (h' : t.KeepsCursor u) : s.KeepsCursor u :=
  ⟨h'.grid.trans h.grid, fun hs => h'.onScreen (h.onScreen hs)⟩

/-- It was asked whether to stop. -/
theorem of_takeStop (h : u.console = s.console.takeStop.2) : s.KeepsCursor u := by
  obtain ⟨grid, cursor⟩ := s.console.takeStop_same
  rw [← h] at grid cursor
  exact ⟨grid, fun hs => by rwa [OnScreen, grid, cursor]⟩

/-- A text was printed. -/
theorem print (s : Terminal) (text : Text) : s.KeepsCursor (s.print text) := by
  unfold Terminal.print
  split
  · exact .of_console rfl
  · have asked : s.KeepsCursor { s with console := s.console.takeStop.2 } := .of_takeStop rfl
    split
    · next hc =>
      rw [hc] at asked
      exact asked.trans (.of_console rfl)
    · next console hc =>
      rw [hc] at asked
      have printed : ({ s with console } : Terminal).KeepsCursor
          { s with console := console.print text } :=
        ⟨console.grid_print text, fun hs => Console.holds_print hs text⟩
      exact (asked.trans printed).trans (.of_console rfl)

/-- A line was read. -/
theorem read (s : Terminal) : s.KeepsCursor s.readLine.2 :=
  ⟨s.console.grid_read, Console.holds_read⟩

/-- The cursor was moved to a place that the screen holds if it holds any. -/
theorem move {c : Cursor} (h : s.OnScreen → s.console.grid.Holds c) : s.KeepsCursor (s.moveTo c) := by
  obtain ⟨settings, session, console, store, dice, trace⟩ := s
  cases console with
  | recorder r => exact ⟨rfl, h⟩
  | stream s => exact ⟨rfl, h⟩

/-- The screen was cleared, and its corner is on it. -/
theorem clear (s : Terminal) : s.KeepsCursor s.clear := by
  obtain ⟨settings, session, console, store, dice, trace⟩ := s
  cases console with
  | recorder r => exact ⟨rfl, Grid.Holds.home⟩
  | stream s => exact ⟨rfl, Grid.Holds.home⟩

/-- The screen was given a theme. -/
theorem theme (s : Terminal) (theme : Theme) : s.KeepsCursor (s.setTheme theme) := by
  obtain ⟨settings, session, console, store, dice, trace⟩ := s
  cases console with
  | recorder r => exact ⟨rfl, id⟩
  | stream s => exact ⟨rfl, id⟩

/-- A step was taken that commands may take. -/
theorem simple (h : s.Simple u) : s.KeepsCursor u := by
  cases h with
  | print => exact .print s _
  | read => exact .read s
  | clear => exact .clear s
  | move place =>
    refine .move fun hs => ?_
    rcases place with rfl | held
    · exact hs.home
    · exact held
  | theme => exact .theme s _
  | draw | save | reached => exact .of_console rfl

/-- A request to stop was noticed. -/
theorem stop (s : Terminal) : s.KeepsCursor s.takeStop.2 := by
  refine .of_takeStop ?_
  unfold Terminal.takeStop
  dsimp only
  split <;> rfl

/-- A built-in command made a change. -/
theorem edit {manual : Manual} {b : Builtin} (h : b.Edit manual s u) : s.KeepsCursor u := by
  cases h with
  | clear =>
    have cleared : s.KeepsCursor (s.update fun t => { t with program := .empty }) :=
      .of_console rfl
    exact cleared.trans ((print _ _).trans (.of_console rfl))
  | _ => exact .of_console rfl

end KeepsCursor

end Terminal

/-- What commands do about the cursor. -/
def placing : Conduct := fun _ s u => s.KeepsCursor u

/-- What commands do about the cursor is steady. -/
theorem placing.steady : Conduct.Steady placing where
  refl _ := .of_console rfl
  trans h h' := h.trans h'
  settled h := h
  faulted h := h
  well h _ := h
  simple step h := h.trans (.simple step)
  scope {m s u} k h := by
    have entered : s.KeepsCursor (s.update k.enter) := .of_console rfl
    have left : u.KeepsCursor (u.update (k.leave s.session)) := .of_console rfl
    exact (entered.trans h).trans left
  stop {_ _ t} h := h.trans (.stop t)
  run {m s u} _ h := by
    have opened : s.KeepsCursor (Runner.opened s) := .of_console rfl
    have closed : u.KeepsCursor (Runner.closed s.session u) := .of_console rfl
    exact (opened.trans h).trans closed

/-- **Dispatched lines keep the cursor on the screen.** -/
theorem Registry.placing_hosts (bound : Nat) : placing.Hosts (builtin.dispatch bound) :=
  hosts_of_bears placing.steady (fun _ _ _ _ edit => .edit edit) (fun _ _ => .of_console rfl)
    (fun _ _ _ => .of_console rfl) (fun _ _ _ => .of_console rfl) bound

/-! ## The input loop -/

namespace InputLoop

variable {dispatch : Text → Run Output} {s t : Terminal}

/-- **The loop keeps the cursor on the screen** if dispatched lines do. -/
theorem Visits.keepsCursor (H : placing.Hosts dispatch) (h : Visits dispatch s t) :
    s.KeepsCursor t := by
  induction h with
  | start => exact .of_console rfl
  | @next t u _ turned ih =>
    have calmed : t.KeepsCursor (t.update fun s => { s with stopping := false }) :=
      .of_console rfl
    have asked : t.KeepsCursor (prompted t) := calmed.trans (.print _ _)
    have took : (prompted t).KeepsCursor u :=
      turn_keeps Terminal.KeepsCursor.trans .print .read H turned
    exact ih.trans (asked.trans took)

end InputLoop

/-! ## What is told of the cursor -/

/-- A parameter is found by its name. -/
theorem Command.Parameter.ofWord?_name (p : Parameter) : ofWord? p.name = some p := by
  cases p <;> decide +kernel

/-- The name of a parameter is a literal word, and is not the word for all of them. -/
theorem Command.Parameter.literal_name (p : Parameter) :
    p.name.Literal ∧ Text.upper p.name ≠ "LIST".toList := by
  refine ⟨.of_isLiteral ?_, ?_⟩
  · cases p <;> decide +kernel
  · cases p <;> decide +kernel

/-- A parameter is told if the words of the line stand for themselves. -/
theorem Command.run_system {host : Host} {s : Terminal} (p : Parameter)
    (expanded : host.expand ["SYSTEM".toList, p.name] = pure ["SYSTEM".toList, p.name]) :
    (system.perform host ["SYSTEM".toList, p.name]).run s
      = some (.ok (.text (p.read s)), s.printLine (p.read s)) := by
  show (host.expand _ >>= _ : Act Output).run s = _
  have word : ["SYSTEM".toList, p.name].getD 1 "LIST".toList = p.name := rfl
  rw [expanded, pure_bind, word, if_neg p.literal_name.2, p.ofWord?_name]
  rfl

namespace Registry

variable {bound : Nat} {s : Terminal}

/-- The line that asks for a parameter. -/
def systemLine (p : Command.Parameter) : Text := Text.unwords ["SYSTEM".toList, p.name]

/-- **A parameter is told as it is when its line begins.** -/
theorem dispatch_system (bound : Nat) (s : Terminal) (p : Command.Parameter) :
    ∃ u, builtin.dispatch (bound + 2) (systemLine p) s
      = some (.text (p.read (entered s (systemLine p))), u) := by
  have literal : ∀ w ∈ [p.name], w.Literal := List.forall_mem_singleton.mpr p.literal_name.1
  have expanded : (builtin.host (bound + 1)).expand ["SYSTEM".toList, p.name] = pure _ :=
    expand_literal (literal_page .system literal) (List.cons_ne_nil _ _) (Nat.succ_pos bound)
  exact ⟨_, dispatch_of_run .system literal (Command.run_system p expanded)⟩

/-- On a screen of a size the cursor is told to be in one of its columns and rows. -/
def TellsCursor (g : Grid) (s : Terminal) : Prop :=
  s.console.grid = g ∧ ∃ x y, s.console.cursor = ⟨x, y⟩ ∧ x < g.columns ∧ y < g.rows ∧
    ∀ bound, (∃ u, builtin.dispatch (bound + 2) "SYSTEM X".toList s
        = some (.text (Decimal.ofNat x), u)) ∧
      ∃ u, builtin.dispatch (bound + 2) "SYSTEM Y".toList s = some (.text (Decimal.ofNat y), u)

/-- A cursor that was kept on the screen is told to be there. -/
theorem tellsCursor_of_keeps {u : Terminal} (held : s.OnScreen) (h : s.KeepsCursor u) :
    TellsCursor s.console.grid u := by
  obtain ⟨column, row⟩ := h.onScreen held
  rw [h.grid] at column row
  exact ⟨h.grid, _, _, rfl, column, row,
    fun bound => ⟨dispatch_system bound u .x, dispatch_system bound u .y⟩⟩

/-- **The cursor is led alike and stays on the screen.**  From any place on any screen a text
leads the cursor to the same place on a recorder and on a pair of streams, which may wait
behind each character or not; a text that is printed in pieces leads it where the whole text
does, on both; and however many lines are dispatched one after the other, or read and
dispatched by the loop, the screen stays as large as it was and the column and the row that
are told are on it. -/
theorem cursor_onScreen (g : Grid) (c : Cursor) (held : g.Holds c) :
    (∀ (r : Recorder) (s : Stream), r.grid = g → r.cursor = c → s.grid = g → s.cursor = c →
      ∀ delay text, (s.printPieces delay text).cursor = (r.print text).cursor ∧
        s.printPieces delay text = s.print text) ∧
    (∀ console : Console, console.grid = g → console.cursor = c →
      ∀ pieces : List Text,
        (pieces.foldl Console.print console).cursor = (console.print pieces.flatten).cursor) ∧
    ∀ s : Terminal, s.console.grid = g → s.console.cursor = c →
      (∀ lines u, builtin.Carries s lines u → TellsCursor g u) ∧
      ∀ bound u, InputLoop.Visits (builtin.dispatch bound) s u → TellsCursor g u := by
  refine ⟨?_, ?_, ?_⟩
  · rintro r s rfl rfl grid cursor delay text
    have onScreen : (Console.stream s).grid.Holds (Console.stream s).cursor := by
      show s.grid.Holds s.cursor
      rwa [grid, cursor]
    refine ⟨?_, s.printPieces_eq delay text⟩
    calc (s.printPieces delay text).cursor = s.grid.advance s.cursor text := by
          rw [s.printPieces_eq]
          exact Console.cursor_print onScreen text
      _ = (r.print text).cursor := by
          rw [grid, cursor]
          rfl
  · rintro console rfl rfl pieces
    exact Console.cursor_foldl_print held pieces
  · rintro s rfl rfl
    constructor
    · intro lines u carried
      exact tellsCursor_of_keeps held
        (carried.keeps placing.steady.toOrderly placing_hosts fun _ _ h => h)
    · intro bound u visited
      exact tellsCursor_of_keeps held (visited.keepsCursor (placing_hosts bound))

/-- A line feed behind the last place on the screen, and a line that is printed there by a
session. -/
theorem cursor_onScreen_corner :
    let g : Grid := ⟨8, 2⟩
    let last : Cursor := ⟨7, 1⟩
    let s := Terminal.ofSettings {} (.stream { grid := g, cursor := last }) (.memory .empty) ⟨0⟩
    g.Holds last ∧
      (Stream.printPieces { grid := g, cursor := last } 5 "a\nb".toList).cursor = ⟨1, 1⟩ ∧
      ∃ u, builtin.Carries s ["PRINT A".toList, "SETCURSOR 3 0".toList] u ∧
        u.console.cursor = ⟨3, 0⟩ ∧ TellsCursor g u := by
  intro g last s
  have held : g.Holds last := by decide
  obtain ⟨alike, -, session⟩ := cursor_onScreen g last held
  have there : (Recorder.print { grid := g, cursor := last } "a\nb".toList).cursor = ⟨1, 1⟩ := by
    decide
  refine ⟨held, (alike _ _ rfl rfl rfl rfl 5 _).1.trans there, ?_⟩
  have ends : (builtin.dispatch 3 "PRINT A".toList s).any (fun r =>
      (builtin.dispatch 3 "SETCURSOR 3 0".toList r.2).any fun r' =>
        decide (r'.2.console.cursor = ⟨3, 0⟩)) = true := by
    decide +kernel
  obtain ⟨⟨output, t⟩, first, checked⟩ := (Option.any_eq_true _ _).mp ends
  obtain ⟨⟨output', u⟩, second, checked⟩ := (Option.any_eq_true _ _).mp checked
  have carried : builtin.Carries s ["PRINT A".toList, "SETCURSOR 3 0".toList] u :=
    .cons first (.cons second (.nil u))
  exact ⟨u, carried, of_decide_eq_true checked, (session s rfl rfl).1 _ u carried⟩

end Registry

end Teletype
