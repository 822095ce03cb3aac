/-
# Commands that decide what is carried out

Choices, repetitions, jumps and the end of a program.  A choice and a repetition are cut
at their keywords before their parts are looked at, and a keyword inside a parenthesis or
a quote cuts nothing.
-/
import Teletype.Command.Variable
import Teletype.Number

namespace Teletype

namespace Command

/-! ## Nesting -/

/-- Where a place in a line stands: how many parentheses are open there, and whether a
quote is. -/
structure Nesting where
  /-- How many parentheses are open. -/
  depth : Int := 0
  /-- A quote is open. -/
  quoted : Bool := false
  deriving DecidableEq, Repr

namespace Nesting

/-- The nesting behind a character.  Parentheses inside a quote do not count. -/
def step (n : Nesting) (c : Char) : Nesting :=
  if c = '"' then { n with quoted := !n.quoted }
  else if n.quoted then n
  else if c = '(' then { n with depth := n.depth + 1 }
  else if c = ')' then { n with depth := n.depth - 1 }
  else n

/-- The nesting behind a text. -/
def after (n : Nesting) (t : Text) : Nesting := t.foldl step n

/-- Nothing is open. -/
def isTop (n : Nesting) : Bool := n.depth = 0 && !n.quoted

/-- The nesting behind two texts is reached through the first. -/
theorem after_append (n : Nesting) (a b : Text) : n.after (a ++ b) = (n.after a).after b :=
  List.foldl_append

end Nesting

/-- The words before and behind the first keyword at which nothing is open. -/
def splitKeyword (keyword : Text) : Nesting → List Text → Option (List Text × List Text)
  | _, [] => none
  | n, word :: words =>
    if n.isTop ∧ Text.sameAscii word keyword then some ([], words)
    else (splitKeyword keyword (n.after word) words).map fun (before, behind) =>
      (word :: before, behind)

/-- A split loses only the keyword. -/
theorem splitKeyword_words {keyword : Text} {n : Nesting} {words before behind : List Text}
    (h : splitKeyword keyword n words = some (before, behind)) :
    ∃ word, Text.sameAscii word keyword = true ∧ words = before ++ word :: behind := by
  induction words generalizing n before with
  | nil => cases h
  | cons word words ih =>
    unfold splitKeyword at h
    split at h
    · next top =>
      cases h
      exact ⟨word, top.2, rfl⟩
    · obtain ⟨⟨before', behind'⟩, hs, he⟩ := Option.map_eq_some_iff.mp h
      cases he
      obtain ⟨w, hw, rfl⟩ := ih hs
      exact ⟨w, hw, rfl⟩

/-! ## Operands -/

/-- A part of a choice. -/
inductive Operand
  /-- A text that stands for itself. -/
  | text (t : Text)
  /-- A line to carry out. -/
  | line (t : Text)
  deriving DecidableEq, Repr

/-- The first text, of those that words make up one after the other behind a text, that is
closed. -/
def firstClosed (closed : Text → Bool) : Text → List Text → Option Text
  | t, [] => if closed t then some t else none
  | t, word :: words =>
    if closed t then some t else firstClosed closed (t ++ ' ' :: word) words

/-- The text is a parenthesis from its first to its last character. -/
def closesParen (t : Text) : Bool := (Nesting.after {} t).isTop && t.getLast? = some ')'

/-- The text is a quote from its first to its last character. -/
def closesQuote (t : Text) : Bool := 1 < t.length && t.getLast? = some '"'

/-- A text without its first and its last character. -/
def inside (t : Text) : Text := (t.drop 1).dropLast

/-- The word begins an operand that is more than a word. -/
def beginsOperand (word : Text) : Bool :=
  match word with
  | c :: _ => c = '(' || c = '"' || c = '$'
  | [] => false

/-- The operand that words make up: what the first of them that begins one begins, or else
the last word. -/
def operand (bindings : Table Text Text) (words : List Text) : Except Fault Operand :=
  match words.dropWhile fun word => !beginsOperand word with
  | [] => .ok (.text (words.getLast?.getD []))
  | head :: rest =>
    match head with
    | '$' :: name =>
      match bindings.get? name with
      | some value => .ok (.text value)
      | none => .error (.unbound name)
    | '(' :: _ =>
      match firstClosed closesParen head rest with
      | some t => .ok (.line (inside t))
      | none => .error (.malformed "missing closing parenthesis.".toList)
    | _ =>
      match firstClosed closesQuote head rest with
      | some t => .ok (.text (inside t))
      | none => .error (.malformed "missing closing double quote.".toList)

/-- What an operand comes to when the lines in it are carried out without printing. -/
def Operand.value (host : Host) : Operand → Act Output
  | text t => pure (.text t)
  | line t => host.valueOf t

/-- What an operand comes to when the lines in it are carried out. -/
def Operand.perform (host : Host) : Operand → Act Output
  | text t => pure (.text t)
  | line t => do
    let output ← host.dispatch t
    if (← Run.status) ≠ 0 then throw (.runtime "expression evaluation failed.".toList)
    else pure output

/-! ## Choices -/

/-- The parts of a choice. -/
structure Choice where
  /-- What decides. -/
  condition : List Text
  /-- What is carried out if it is true. -/
  positive : List Text
  /-- What is carried out if it is false. -/
  negative : Option (List Text)
  deriving DecidableEq, Repr

/-- Cut the words of a choice, the word of the command included, at the keywords. -/
def Choice.read (words : List Text) : Except Fault Choice :=
  match splitKeyword "THEN".toList {} (words.drop 1) with
  | none => .error (.malformed "THEN argument is required for IF statement.".toList)
  | some ([], _) => .error (.malformed "missing conditional after IF.".toList)
  | some (_, []) => .error (.malformed "missing expression after THEN argument.".toList)
  | some (condition, branches) =>
    match splitKeyword "ELSE".toList {} branches with
    | none => .ok ⟨condition, branches, none⟩
    | some (_, []) => .error (.malformed "missing expression after ELSE argument.".toList)
    | some (positive, negative) => .ok ⟨condition, positive, some negative⟩

/-- Carry out the operand that words make up, reading variables as they are now. -/
def performWords (host : Host) (words : List Text) : Act Output := do
  let operand ← Act.ofExcept (operand (← Run.session).bindings words)
  operand.perform host

/-- Carry out one of two branches. -/
def choose : Command where
  page := { name := "IF".toList,
            hints := ["condition".toList, "THEN".toList, "expression".toList, "ELSE".toList,
              "expression".toList],
            help := ("Runs the THEN expression when the condition is TRUE or a number above "
              ++ "zero, otherwise the optional ELSE expression.").toList,
            forPrograms := true }
  perform host words := do
    let choice ← Act.ofExcept (Choice.read words)
    let condition ← Act.ofExcept (operand (← Run.session).bindings choice.condition)
    let result ← condition.value host
    if Number.isTruthy result.value then performWords host choice.positive
    else match choice.negative with
      | some words => performWords host words
      | none => pure .none

/-! ## Repetitions -/

/-- The parts of a repetition. -/
structure Repetition where
  /-- The words up to the body, the word of the command included. -/
  head : List Text
  /-- The line that is carried out for each item. -/
  body : Text
  deriving DecidableEq, Repr

/-- Cut the words of a repetition, the word of the command included, at the keywords. -/
def Repetition.read (words : List Text) : Except Fault Repetition :=
  match splitKeyword "IN".toList {} (words.drop 1) with
  | none => .error (.malformed "IN argument is required with FOR statement.".toList)
  | some (names, rest) =>
    match splitKeyword "DO".toList {} rest with
    | none => .error (.malformed "DO argument is required with FOR statement.".toList)
    | some (list, body) =>
      match names with
      | [] => .error (.malformed "missing variable name.".toList)
      | [_] => .ok ⟨words.take (names.length + list.length + 2), Text.unwords body⟩
      | _ => .error (.malformed "FOR requires one variable name before IN.".toList)

/-- Carry out a line for each item, with the item in a variable, and gather the texts that
it gives back.  A jump or an exit ends the repetition and is its output; a failure ends it
with a fault, and a request to stop ends it with the texts so far. -/
def repeatFor (host : Host) (name body : Text) : List Text → List Text → Act Output
  | done, [] => pure (.text (Text.unlines done.reverse))
  | done, item :: items => do
    setVariable name item
    let output ← host.dispatch body
    let status ← Run.status
    if status ≠ 0 then throw (.lineFailed status)
    else match output with
      | .text t => do
        if ← Run.takeStop then pure (.text (Text.unlines (t :: done).reverse))
        else repeatFor host name body (t :: done) items
      | control => pure control

/-- Carry out a line for each line of a list. -/
def repeatEach : Command where
  page := { name := "FOR".toList,
            hints := ["name".toList, "IN".toList, "list".toList, "DO".toList, "command".toList],
            help := ("Runs a command once per line of a newline-separated list, with the line "
              ++ "stored in the named variable.").toList,
            forPrograms := true }
  perform host words := do
    let repetition ← Act.ofExcept (Repetition.read words)
    let head ← host.expand repetition.head
    let name := head.getD 1 []
    Act.ofExcept (checkName name)
    let list := Text.unwords (head.drop 3)
    if list = [] then pure .none
    else Act.asProgram (repeatFor host name repetition.body [] (Text.lines list))

/-! ## Jumps and exits -/

/-- Go on at a line of the running program. -/
def goto : Command where
  page := { name := "GOTO".toList, hints := ["line".toList],
            help := "Continues the running program at the given line.".toList,
            hidden := true, forPrograms := true }
  perform host words := do
    let refusal := Fault.malformed "GOTO requires one integer argument.".toList
    match ← host.expand words with
    | [_, line] =>
      match Number.readIndex line with
      | .ok n => pure (.jump n)
      | .error _ => throw refusal
    | _ => throw refusal

/-- End the running program. -/
def exit : Command where
  page := { name := "EXIT".toList, help := "Ends the running program.".toList,
            hidden := true, forPrograms := true }
  perform _ _ := pure .exit

end Command

end Teletype
