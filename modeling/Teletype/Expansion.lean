/-
# Expansion

Before a command looks at its words, the spans of the line are replaced by what they stand
for: a variable by its value, a quote by its characters with the spans in it replaced, and
a parenthesis by the output of the command in it, which is carried out without printing.
Spans are replaced from left to right, and what is put in their place is not looked at
again.
-/
import Teletype.Terminal.Act
import Teletype.Token

namespace Teletype

namespace Expansion

/-- Carry out a line for its output. -/
def valueOf (dispatch : Text → Run Output) (line : Text) : Act Output :=
  Act.silently do
    let output ← dispatch line
    if (← Run.status) ≠ 0 then throw (.runtime "expression evaluation failed.".toList)
    else pure output

/-- The value of a variable. -/
def lookUp (name : Text) : Act Text := do
  match (← Run.session).bindings.get? name with
  | some value => pure value
  | none => throw (.unbound name)

/-- The text that pieces make up when every item among them is replaced. -/
def fill (replace : Token → Act Text) : List (Piece Token) → Act Text
  | [] => pure []
  | .plain c :: pieces => do
    let rest ← fill replace pieces
    pure (c :: rest)
  | .item token :: pieces => do
    let value ← replace token
    let rest ← fill replace pieces
    pure (value ++ rest)

/-- A text with the tokens in it replaced.  The first argument bounds how deep tokens may
stand inside one another. -/
def expand (dispatch : Text → Run Output) (tokens : List Token) : Nat → Text → Act Text
  | 0, _ => Run.endless
  | bound + 1, text =>
    fill (fun token => match token.kind with
      | .variable => lookUp token.raw
      | .quote => expand dispatch tokens bound token.raw
      | .paren => do
        let line ← expand dispatch tokens bound token.raw
        let output ← valueOf dispatch line
        pure output.value) (scanTokens tokens 0 text)

/-- The words that a line stands for. -/
def expandLine (dispatch : Text → Run Output) (bound : Nat) (line : Text) : Act (List Text) :=
  match tokenize line with
  | .error imbalance => throw (.malformed imbalance.message)
  | .ok tokenized => tokenized.words.mapM (expand dispatch tokenized.tokens bound)

/-- Characters that stay are kept. -/
theorem fill_plain (replace : Token → Act Text) (text : Text) :
    fill replace (text.map .plain) = pure text := by
  induction text with
  | nil => rfl
  | cons c rest ih => simp [fill, ih]

end Expansion

end Teletype
