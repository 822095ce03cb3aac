/-
# Documents

Values of the JSON notation, written without blanks and read with blanks between the
marks.  Strings are kept as letters, because a document may hold strings that stand for
no text in places where nobody reads them.
-/
import Teletype.Json.Quoted
import Teletype.Decimal.Natural

namespace Teletype

/-- A value of a document. -/
inductive Json
  /-- The value that stands for no value. -/
  | null
  /-- A truth value. -/
  | bool (b : Bool)
  /-- A number as it is written. -/
  | number (numeral : Text)
  /-- A string. -/
  | string (letters : List Json.Letter)
  /-- A list of values. -/
  | array (items : List Json)
  /-- Values under names, in the order in which they are written. -/
  | object (members : List (List Json.Letter × Json))

namespace Json

/-! ## Writing -/

mutual

/-- The text of a value. -/
def render : Json → Text
  | null => "null".toList
  | bool true => "true".toList
  | bool false => "false".toList
  | number numeral => numeral
  | string ls => quoteLetters ls
  | array items => '[' :: Text.join ',' (renderItems items) ++ [']']
  | object members => '\x7b' :: Text.join ',' (renderMembers members) ++ ['\x7d']

/-- The texts of the items of a list. -/
def renderItems : List Json → List Text
  | [] => []
  | item :: items => render item :: renderItems items

/-- The texts of the members of an object. -/
def renderMembers : List (List Letter × Json) → List Text
  | [] => []
  | (name, value) :: members => (quoteLetters name ++ ':' :: render value) :: renderMembers members

end

/-! ## Numbers -/

/-- The whole part of a number at the head of a text, without leading zeros, and what
follows. -/
def wholePart? : Text → Option (Text × Text)
  | [] => none
  | c :: rest =>
    if c = '0' then some ([c], rest)
    else if Decimal.isDigit c then
      some (c :: rest.takeWhile Decimal.isDigit, rest.dropWhile Decimal.isDigit)
    else none

/-- One or more digits at the head of a text, and what follows. -/
def digits? (t : Text) : Option (Text × Text) :=
  match t.takeWhile Decimal.isDigit with
  | [] => none
  | ds => some (ds, t.dropWhile Decimal.isDigit)

/-- The fraction at the head of a text, if a point stands there, and what follows. -/
def fractionPart? : Text → Option (Text × Text)
  | [] => some ([], [])
  | c :: rest =>
    if c = '.' then (digits? rest).map fun (ds, rest) => (c :: ds, rest) else some ([], c :: rest)

/-- The sign at the head of a text, if one of the given signs stands there. -/
def signPart (signs : List Char) : Text → Text × Text
  | [] => ([], [])
  | c :: rest => if c ∈ signs then ([c], rest) else ([], c :: rest)

/-- The exponent at the head of a text, if its mark stands there, and what follows. -/
def exponentPart? : Text → Option (Text × Text)
  | [] => some ([], [])
  | c :: rest =>
    if c = 'e' ∨ c = 'E' then
      let (sign, rest) := signPart ['+', '-'] rest
      (digits? rest).map fun (ds, rest) => (c :: sign ++ ds, rest)
    else some ([], c :: rest)

/-- The number at the head of a text, and what follows. -/
def number? (t : Text) : Option (Text × Text) := do
  let (sign, t) := signPart ['-'] t
  let (whole, t) ← wholePart? t
  let (fraction, t) ← fractionPart? t
  let (exponent, t) ← exponentPart? t
  pure (sign ++ whole ++ fraction ++ exponent, t)

/-! ## Reading -/

/-- The characters that may stand between the marks of a document. -/
def isGap (c : Char) : Bool := c = ' ' || c = '\n' || c = '\t' || c = '\r'

/-- A text without the gap at its head. -/
def skipGap (t : Text) : Text := t.dropWhile isGap

/-- The values that are written as words. -/
def words : List (Text × Json) :=
  [("null".toList, null), ("true".toList, bool true), ("false".toList, bool false)]

/-- The word at the head of a text, and what follows. -/
def word? (t : Text) : Option (Json × Text) :=
  (words.find? fun w => w.1.isPrefixOf t).map fun w => (w.2, t.drop w.1.length)

/-- Nothing, if the mark that closes a list stands at the head of a text; else what is
read from there. -/
def orClosed {α : Type} (close : Char) (read : Text → Option (List α × Text)) (t : Text) :
    Option (List α × Text) :=
  match skipGap t with
  | [] => none
  | c :: rest => if c = close then some ([], rest) else read (c :: rest)

/-- What follows an item of a list: the next items behind a comma, or none behind the mark
that closes the list. -/
def orMore {α : Type} (close : Char) (read : Text → Option (List α × Text)) (t : Text) :
    Option (List α × Text) :=
  match skipGap t with
  | [] => none
  | c :: rest => if c = close then some ([], rest) else if c = ',' then read rest else none

mutual

/-- The value at the head of a text, and what follows.  The first argument bounds the
depth of the reading. -/
def value? : Nat → Text → Option (Json × Text)
  | 0, _ => none
  | bound + 1, t =>
    match skipGap t with
    | [] => none
    | c :: rest =>
      if c = '"' then (closing? rest).map fun (ls, rest) => (string ls, rest)
      else if c = '[' then
        (orClosed ']' (items? bound) rest).map fun (items, rest) => (array items, rest)
      else if c = '\x7b' then
        (orClosed '\x7d' (members? bound) rest).map fun (members, rest) => (object members, rest)
      else if c = '-' ∨ Decimal.isDigit c then
        (number? (c :: rest)).map fun (numeral, rest) => (number numeral, rest)
      else word? (c :: rest)

/-- The items from the head of a text to the end of their list, and what follows. -/
def items? : Nat → Text → Option (List Json × Text)
  | 0, _ => none
  | bound + 1, t => do
    let (item, t) ← value? bound t
    let (items, t) ← orMore ']' (items? bound) t
    pure (item :: items, t)

/-- The members from the head of a text to the end of their object, and what follows. -/
def members? : Nat → Text → Option (List (List Letter × Json) × Text)
  | 0, _ => none
  | bound + 1, t =>
    match skipGap t with
    | [] => none
    | quote :: t =>
      if quote = '"' then do
        let (name, t) ← closing? t
        match skipGap t with
        | [] => none
        | colon :: t =>
          if colon = ':' then do
            let (value, t) ← value? bound t
            let (members, t) ← orMore '\x7d' (members? bound) t
            pure ((name, value) :: members, t)
          else none
      else none

end

/-- The value that a text holds, with gaps around it.  Every second step of the reading
takes a character away, which bounds its depth. -/
def parse? (t : Text) : Option Json :=
  match value? (2 * t.length + 2) t with
  | some (value, rest) => if skipGap rest = [] then some value else none
  | none => none

end Json

end Teletype
