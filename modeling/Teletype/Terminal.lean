/-
# Terminals

A terminal has a session, a console, a store and settings, and draws random numbers.  It
keeps a trace of what it did.  This file holds what it does in one step: printing, unless
it is silent or a stop was asked for; reading; reporting a fault; saving and restoring.
-/
import Teletype.Console
import Teletype.Output
import Teletype.Snapshot
import Teletype.Store

namespace Teletype

/-! ## Traces -/

/-- One thing that a terminal did. -/
inductive Event
  /-- A text was printed on the console. -/
  | printed (text : Text) (delay : Nat) (color : Color)
  /-- The console was asked for a line. -/
  | asked (reply : Option Text)
  /-- The screen was cleared. -/
  | cleared
  /-- The cursor was moved. -/
  | moved (cursor : Cursor)
  /-- The screen was given a theme. -/
  | themed (theme : Theme)
  /-- The console's request to stop was noticed. -/
  | stopSeen
  /-- The dispatch of a line began. -/
  | entered (line : Text)
  /-- The dispatch that began last and has not ended ended with a status. -/
  | left (status : Int)
  /-- A blank line was dispatched, which left the status as it was. -/
  | blank (status : Int)
  /-- The run of a program began; this many programs run inside one another. -/
  | began (depth : Nat)
  /-- A running program came to a line and dispatched it. -/
  | reached (line : LineNumber)
  /-- The run of a program ended. -/
  | ended
  /-- The store was asked to save a text under a key. -/
  | saved (key : Text)
  deriving DecidableEq, Repr

/-! ## Random numbers -/

/-- The state of the random numbers.  It stands for a generator that is no part of the
terminal, of which only this is told: what is drawn lies between zero and a bound, both
included.  The generator written out below is one of this kind, so that terminals can be
run.  Which numbers it draws is of no account; `draw_le` is all that is known of them. -/
structure Dice where
  /-- A word that every draw changes. -/
  state : UInt64
  deriving DecidableEq, Repr

namespace Dice

/-- The dice after a throw. -/
def next (d : Dice) : Dice := ⟨d.state * 6364136223846793005 + 1442695040888963407⟩

/-- Draw a number from zero up to a bound, the bound included. -/
def draw (d : Dice) (bound : Nat) : Nat × Dice :=
  ((d.next.state >>> 11).toNat % (bound + 1), d.next)

/-- A number that was drawn is within the bound. -/
theorem draw_le (d : Dice) (bound : Nat) : (d.draw bound).1 ≤ bound :=
  Nat.le_of_lt_succ (Nat.mod_lt _ (Nat.succ_pos bound))

end Dice

/-! ## Terminals -/

/-- A terminal. -/
structure Terminal where
  /-- What it was set up with. -/
  settings : Settings
  /-- What it remembers. -/
  session : Session
  /-- What it prints on and reads from. -/
  console : Console
  /-- Where it saves its session. -/
  store : Store
  /-- Where it draws numbers from. -/
  dice : Dice
  /-- What it did, the last thing first. -/
  trace : List Event
  deriving DecidableEq

namespace Terminal

/-- A terminal that was just set up. -/
def ofSettings (settings : Settings) (console : Console) (store : Store) (dice : Dice) :
    Terminal where
  settings
  session := .ofSettings settings
  console
  store
  dice
  trace := []

/-- Note a thing that was done. -/
def note (t : Terminal) (e : Event) : Terminal := { t with trace := e :: t.trace }

/-- Change the session. -/
def update (t : Terminal) (f : Session → Session) : Terminal := { t with session := f t.session }

/-- Print a text, unless a command runs for its value or a stop was asked for.  A request
of the console to stop is noticed here. -/
def print (t : Terminal) (text : Text) : Terminal :=
  if t.session.silent || t.session.stopping then t
  else match t.console.takeStop with
    | (true, console) =>
      { t with console, session := { t.session with stopping := true } }.note .stopSeen
    | (false, console) =>
      let display := t.session.display
      { t with console := console.print text }.note
        (.printed text display.delay display.textColor)

/-- Print a text and a line feed. -/
def printLine (t : Terminal) (text : Text) : Terminal := t.print (text ++ ['\n'])

/-- Print what asks for a line. -/
def printPrompt (t : Terminal) : Terminal := t.print t.session.display.promptText

/-- Report a fault: keep its status and print its message. -/
def report (t : Terminal) (f : Fault) : Terminal :=
  (t.update fun s => { s with status := f.status }).printLine f.message

/-- Read a line. -/
def readLine (t : Terminal) : Option Text × Terminal :=
  let (reply, console) := t.console.read
  (reply, { t with console }.note (.asked reply))

/-- Clear the screen. -/
def clear (t : Terminal) : Terminal := { t with console := t.console.clear }.note .cleared

/-- Move the cursor. -/
def moveTo (t : Terminal) (c : Cursor) : Terminal :=
  { t with console := t.console.moveTo c }.note (.moved c)

/-- Give the screen a theme. -/
def setTheme (t : Terminal) (theme : Theme) : Terminal :=
  { t with console := t.console.setTheme theme }.note (.themed theme)

/-- Whether a stop was asked for, now or while printing.  The request is then over. -/
def takeStop (t : Terminal) : Bool × Terminal :=
  let (asked, console) := t.console.takeStop
  let noted := { t with console, session := { t.session with stopping := false } }
  (asked || t.session.stopping, if asked then noted.note .stopSeen else noted)

/-- Save a text under a key. -/
def saveUnder (t : Terminal) (key value : Text) : Except Fault Unit × Terminal :=
  let (result, store) := t.store.save key value
  (result, { t with store }.note (.saved key))

/-- Save the session.  A store that refuses does not hold up the terminal. -/
def save (t : Terminal) : Terminal :=
  (t.saveUnder t.settings.storageKey t.session.snapshot.render).2

/-- The snapshot that is saved in the store, if one is. -/
def saved? (t : Terminal) : Except Fault (Option Snapshot) :=
  match t.store.load t.settings.storageKey with
  | .error f => .error f
  | .ok none => .ok none
  | .ok (some document) =>
    match Snapshot.read? document with
    | none => .error (.badSnapshot "not the document of a session".toList)
    | some snapshot => .ok (some snapshot)

/-- Put back what was saved, and tell whether anything was. -/
def restore (t : Terminal) : Except Fault Bool × Terminal :=
  match t.saved? with
  | .error f => (.error f, t)
  | .ok none => (.ok false, t)
  | .ok (some snapshot) => (.ok true, t.update fun s => s.restore snapshot)

/-- **A silent terminal prints nothing.** -/
theorem print_of_silent {t : Terminal} (h : t.session.silent = true) (text : Text) :
    t.print text = t := by
  simp [print, h]

end Terminal

end Teletype
