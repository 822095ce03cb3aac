/-
# Trees of settings documents

What a document says is a tree: tables hold values and tables under keys.  A table may be
written in several parts of the document, and it depends on how it came to be which parts
may still add to it.  A step that is not allowed, such as giving a key twice, gives no
tree.
-/
import Teletype.Text

namespace Teletype

namespace Toml

/-- How a table came to be. -/
inductive Origin
  /-- It has a header of its own. -/
  | header
  /-- A header leads through it to another table. -/
  | passage
  /-- A key with dots leads through it. -/
  | dotted
  /-- It stands as a value between braces. -/
  | braces
  deriving DecidableEq, Repr

/-- What stands under a key. -/
inductive Node
  /-- A whole number. -/
  | integer (i : Int)
  /-- A number with a fraction or an exponent, or none. -/
  | fraction
  /-- A truth value. -/
  | truth (b : Bool)
  /-- A string. -/
  | text (t : Text)
  /-- A day, a time of day, or both. -/
  | moment
  /-- A list of values. -/
  | array (items : List Node)
  /-- Values and tables under keys. -/
  | table (origin : Origin) (members : List (Text × Node))
  /-- Tables one after the other, each with a header of its own; the last one is apart. -/
  | tables (earlier : List (List (Text × Node))) (last : List (Text × Node))

/-- What stands under the keys of a table. -/
abbrev Members := List (Text × Node)

namespace Members

/-- What stands under a key. -/
def find? (m : Members) (key : Text) : Option Node := m.lookup key

/-- Change what stands under a key, or put something there, if that is allowed. -/
def change (key : Text) (f : Option Node → Option Node) : Members → Option Members
  | [] => (f none).map fun node => [(key, node)]
  | e :: rest =>
    if e.1 = key then (f (some e.2)).map fun node => (key, node) :: rest
    else (change key f rest).map (e :: ·)

/-- Put a value under a key with or without dots, unless something stands there.  A table
that the key leads through has to be one that keys with dots made, or be made here; only
then is it open for a value right below it. -/
def addValue (value : Node) : Bool → List Text → Members → Option Members
  | _, [], _ => none
  | isOpen, [key], m =>
    m.change key fun old => if isOpen ∧ old.isNone then some value else none
  | _, key :: next :: rest, m => m.change key fun
    | none => (addValue value true (next :: rest) []).map (.table .dotted)
    | some (.table .dotted below) =>
      (addValue value true (next :: rest) below).map (.table .dotted)
    | some (.table .passage below) =>
      (addValue value false (next :: rest) below).map (.table .passage)
    | some (.tables earlier last) =>
      (addValue value false (next :: rest) last).map (.tables earlier)
    | some _ => none

/-- Change the table that the path of a header leads to.  Tables that are missing on the
way are made, and of tables one after the other the last is taken. -/
def within (f : Members → Option Members) : List Text → Members → Option Members
  | [], m => f m
  | key :: rest, m => m.change key fun
    | none => (within f rest []).map (.table .passage)
    | some (.table .braces _) => none
    | some (.table origin below) => (within f rest below).map (.table origin)
    | some (.tables earlier last) => (within f rest last).map (.tables earlier)
    | some _ => none

/-- Make the table that a header names.  It must not be there yet, unless other headers
led through it. -/
def addTable (path : List Text) (m : Members) : Option Members := do
  let key ← path.getLast?
  m.within (change key fun
    | none => some (.table .header [])
    | some (.table .passage below) => some (.table .header below)
    | some _ => none) path.dropLast

/-- Make one more of the tables that a header names. -/
def addElement (path : List Text) (m : Members) : Option Members := do
  let key ← path.getLast?
  m.within (change key fun
    | none => some (.tables [] [])
    | some (.tables earlier last) => some (.tables (earlier ++ [last]) [])
    | some _ => none) path.dropLast

/-- What a change gives stands under the key afterwards; if it gives nothing it is not
allowed. -/
theorem find?_change (key : Text) (f : Option Node → Option Node) (m : Members) :
    (m.change key f).map (·.find? key) = (f (m.find? key)).map some := by
  induction m with
  | nil => cases hf : f none <;> simp [change, find?, hf]
  | cons e rest ih =>
    obtain ⟨k, node⟩ := e
    unfold change
    split
    · next hk => cases hf : f (some node) <;> simp [find?, ← hk, hf]
    · next hk =>
      have other : (key == k) = false := by simpa using fun he => hk he.symm
      simpa [find?, List.lookup_cons, other, Function.comp_def] using ih

/-- **A value that was put under a key stands there, and nothing stood there before.** -/
theorem find?_addValue {value : Node} {key : Text} {m n : Members}
    (h : m.addValue value true [key] = some n) :
    n.find? key = some value ∧ m.find? key = none := by
  have found := find?_change key (fun old => if true ∧ old.isNone then some value else none) m
  rw [addValue] at h
  rw [h] at found
  cases hm : m.find? key with
  | none => simpa [hm] using found
  | some old => simp [hm] at found

end Members

end Toml

end Teletype
