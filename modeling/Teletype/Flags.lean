/-
# Actions and flags

The words behind the word of a command may name an action, such as `LIST`, in the first
place, and set flags, such as `-dl`, anywhere; a letter of a flag cluster may take the
next word as its value.  The words that are left make up a name.  The words are first
sorted into items, and everything else is read off the items.
-/
import Teletype.Table
import Teletype.Text.UpperCase

namespace Teletype

namespace Flags

/-! ## Grammar -/

/-- An action and the words that select it. -/
structure Action where
  /-- What the action is called. -/
  name : Text
  /-- The words for it, in capitals. -/
  spellings : List Text
  deriving DecidableEq, Repr

/-- The actions and the flag letters of a command. -/
structure Grammar where
  /-- The actions, in the order in which they are tried. -/
  actions : List Action
  /-- The flag letters, in capitals. -/
  modifiers : List Char

/-- How the words of a command are read. -/
structure Options where
  /-- Placeholders are resolved first. -/
  evaluate : Bool := true
  /-- The word behind the command may be an action. -/
  lookForAction : Bool := true
  /-- The letters that take the next word as their value. -/
  withArgument : List Char := []

/-- The actions to list, recall and delete, and the letters of the commands that use
them. -/
def Grammar.standard : Grammar where
  actions :=
    [⟨"list".toList, ["--LIST".toList, "LIST".toList, "L".toList]⟩,
      ⟨"recall".toList, ["--RECALL".toList, "RECALL".toList, "R".toList]⟩,
      ⟨"delete".toList, ["--DELETE".toList, "DELETE".toList, "D".toList]⟩]
  modifiers := ['D', 'L', 'P', 'R', 'U']

/-- The action that a word selects. -/
def Grammar.action? (g : Grammar) (word : Text) : Option Text :=
  (g.actions.find? fun a => Text.upper word ∈ a.spellings).map Action.name

/-- The word is a cluster of flags: a hyphen in front of one or more flag letters. -/
def Grammar.isCluster (g : Grammar) (word : Text) : Bool :=
  match Text.upper word with
  | '-' :: letter :: letters => (letter :: letters).all (· ∈ g.modifiers)
  | _ => false

/-- The letters of a cluster, ASCII ones as capitals. -/
def letters (cluster : Text) : List Char := (cluster.drop 1).map Char.toUpper

/-- The cluster has a letter that takes a value. -/
def Options.takesValue (o : Options) (cluster : Text) : Bool :=
  (letters cluster).any (· ∈ o.withArgument)

/-! ## Items -/

/-- What a word behind the command and the action is. -/
inductive Item
  /-- A word of the name. -/
  | word (w : Text)
  /-- A cluster whose letters take no value. -/
  | cluster (c : Text)
  /-- A cluster with a letter that takes a value, and the word behind it. -/
  | valued (c : Text) (value : Option Text)
  deriving DecidableEq, Repr

/-- Sort words into items. -/
def items (g : Grammar) (o : Options) : List Text → List Item
  | [] => []
  | w :: rest =>
    if g.isCluster w then
      if o.takesValue w then
        match rest with
        | [] => [.valued w none]
        | v :: rest => .valued w (some v) :: items g o rest
      else .cluster w :: items g o rest
    else .word w :: items g o rest

/-- The words that an item was made of. -/
def Item.source : Item → List Text
  | word w => [w]
  | cluster c => [c]
  | valued c value => c :: value.toList

/-- The words of the name that an item holds. -/
def Item.nameWords : Item → List Text
  | word w => [w]
  | _ => []

/-- The number of words that an item takes out of the name, a missing value included. -/
def Item.width : Item → Nat
  | word _ => 0
  | cluster _ => 1
  | valued _ _ => 2

/-- No word is lost, doubled or moved when words are sorted into items. -/
theorem flatMap_source_items (g : Grammar) (o : Options) (words : List Text) :
    (items g o words).flatMap Item.source = words := by
  fun_induction items g o words <;> simp_all [Item.source]

/-! ## Flags -/

/-- What a flag was given as. -/
inductive Value
  /-- The letter stood in a cluster. -/
  | set
  /-- The letter took a value. -/
  | text (t : Text)
  deriving DecidableEq, Repr

/-- The flags of a cluster, one for each letter; a letter that takes a value takes the
empty one if there is none. -/
def clusterFlags (o : Options) (cluster : Text) (value : Option Text) :
    List (Char × Value) :=
  (letters cluster).map fun l =>
    (l, if l ∈ o.withArgument then .text (value.getD []) else .set)

/-- The flags that an item sets, in order. -/
def Item.flags (o : Options) : Item → List (Char × Value)
  | word _ => []
  | cluster c => clusterFlags o c none
  | valued c value => clusterFlags o c value

/-! ## Reading the words of a command -/

/-- The words of a command, sorted. -/
structure Parsed where
  /-- The word of the command in capitals. -/
  command : Text
  /-- The action, if one was named. -/
  action : Option Text
  /-- The flags; the last cluster with a letter decides. -/
  flags : Table Char Value
  /-- The words of the name. -/
  name : Text
  /-- The number of words that are not part of the name, the word of the command
  included. -/
  start : Nat

/-- The action that stands first among words, and the words behind it. -/
def splitAction (g : Grammar) (o : Options) : List Text → Option Text × List Text
  | [] => (none, [])
  | w :: rest =>
    if o.lookForAction then
      match g.action? w with
      | some a => (some a, rest)
      | none => (none, w :: rest)
    else (none, w :: rest)

/-- Sort the words of a command. -/
def parse (g : Grammar) (o : Options) (words : List Text) : Parsed :=
  let (action, rest) := splitAction g o (words.drop 1)
  let sorted := items g o rest
  { command := Text.upper (words.headD [])
    action
    flags := Table.ofList (sorted.flatMap (Item.flags o))
    name := Text.unwords (sorted.flatMap Item.nameWords)
    start := 1 + action.toList.length + sorted.foldl (fun n item => n + item.width) 0 }

namespace Parsed

/-- The flag was set. -/
def has (p : Parsed) (letter : Char) : Bool := p.flags.contains letter

/-- The value that a flag took. -/
def value? (p : Parsed) (letter : Char) : Option Text :=
  match p.flags.get? letter with
  | some (.text t) => some t
  | _ => none

/-- The action was named, or its flag was set. -/
def wants (p : Parsed) (action : Text) (letter : Char) : Bool :=
  p.action = some action || p.has letter

end Parsed

/-- An action takes the first word or none. -/
theorem splitAction_words (g : Grammar) (o : Options) (words : List Text) :
    (splitAction g o words).2 = words.drop (splitAction g o words).1.toList.length := by
  cases words with
  | nil => rfl
  | cons w rest =>
    simp only [splitAction]
    split
    · split <;> rfl
    · rfl

end Flags

end Teletype
