/-
# Settings documents

The TOML notation that settings are written in: lines with a key and a value, and headers
that name the table to which the lines below them belong.  A text is read as the members
of its outermost table; a text with a line that is anything else, or that gives a key
twice, is no document.
-/
import Teletype.Toml.Node
import Teletype.Toml.Word

namespace Teletype

namespace Toml

/-- The most parts that a key may have, and the most lists and tables between braces that
may stand inside one another. -/
def nestingLimit : Nat := 79

/-! ## Keys -/

/-- The character may stand in a key without quotes. -/
def isBare (c : Char) : Bool := c.isAlphanum || c = '_' || c = '-'

/-- A key without dots at the head of a text, and what follows. -/
def simpleKey? (t : Text) : Option (Text × Text) :=
  match t with
  | [] => none
  | c :: rest =>
    if c = Quoting.quote ∨ c = Quoting.apostrophe then line? c rest
    else match t.takeWhile isBare with
      | [] => none
      | key => some (key, t.dropWhile isBare)

/-- A key at the head of a text, its parts between dots, and what follows.  The first
argument bounds the number of parts. -/
def parts? : Nat → Text → Option (List Text × Text)
  | 0, _ => none
  | bound + 1, t => do
    let (part, rest) ← simpleKey? (skipGap t)
    match skipGap rest with
    | '.' :: rest =>
      let (parts, rest) ← parts? bound rest
      pure (part :: parts, rest)
    | rest => pure ([part], rest)

/-- A key at the head of a text, its parts between dots, and what follows. -/
def key? (t : Text) : Option (List Text × Text) := parts? nestingLimit t

/-! ## Values -/

/-- The value that a word without quotes is. -/
def word? (t : Text) : Option Node :=
  if t = "true".toList then some (.truth true)
  else if t = "false".toList then some (.truth false)
  else if isMoment t then some .moment
  else match integer? t with
    | some i => some (.integer i)
    | none => if isFraction t then some .fraction else none

/-- The character may stand in a word. -/
def isInWord (c : Char) : Bool := c.isAlphanum || c ∈ ['_', '+', '-', '.', ':']

/-- The value without marks around it at the head of a text, and what follows.  A day and a
clock may have a space between them. -/
def plain? (t : Text) : Option (Node × Text) :=
  let word := t.takeWhile isInWord
  let rest := t.dropWhile isInWord
  let clock := (rest.drop 1).takeWhile isInWord
  if rest.head? = some ' ' ∧ isDate word ∧ isClock clock then
    some (.moment, (rest.drop 1).dropWhile isInWord)
  else (word? word).map fun node => (node, rest)

/-- The items of a list from the head of a text to the bracket that closes it, and what
follows.  The number bounds how many they are. -/
def items? (value? : Text → Option (Node × Text)) : Nat → Text → Option (List Node × Text)
  | 0, _ => none
  | bound + 1, t =>
    match skipLines t with
    | ']' :: rest => some ([], rest)
    | t => do
      let (item, t) ← value? t
      match skipLines t with
      | ']' :: rest => pure ([item], rest)
      | ',' :: rest =>
        let (items, rest) ← items? value? bound rest
        pure (item :: items, rest)
      | _ => none

/-- The key and the value at the head of a text, and what follows. -/
def pair? (value? : Text → Option (Node × Text)) (t : Text) :
    Option (List Text × Node × Text) := do
  let (key, t) ← key? t
  match t with
  | '=' :: t =>
    let (value, t) ← value? (skipGap t)
    pure (key, value, t)
  | _ => none

/-- The keys and values from the head of a text to the brace that closes their table, put
among members, and what follows.  The number bounds how many they are. -/
def members? (value? : Text → Option (Node × Text)) : Nat → Members → Text →
    Option (Members × Text)
  | 0, _, _ => none
  | bound + 1, m, t => do
    let (key, value, t) ← pair? value? t
    let m ← m.addValue value true key
    match skipGap t with
    | '\x7d' :: rest => pure (m, rest)
    | ',' :: rest => members? value? bound m rest
    | _ => none

/-- The value at the head of a text, and what follows.  The number bounds how many lists
and tables may stand inside one another. -/
def value? (depth : Nat) (t : Text) : Option (Node × Text) :=
  match t with
  | [] => none
  | c :: rest =>
    if c = Quoting.quote ∨ c = Quoting.apostrophe then
      (string? c rest).map fun (s, rest) => (.text s, rest)
    else match depth with
      | 0 => plain? t
      | depth + 1 =>
        if c = '[' then
          (items? (value? depth) (rest.length + 1) rest).map fun (items, rest) =>
            (.array items, rest)
        else if c = '\x7b' then
          match skipGap rest with
          | '\x7d' :: rest => some (.table .braces [], rest)
          | rest =>
            (members? (value? depth) (rest.length + 1) [] rest).map fun (m, rest) =>
              (.table .braces m, rest)
        else plain? t

/-! ## Documents -/

/-- A document that is being read. -/
structure Reading where
  /-- The members of the outermost table so far. -/
  members : Members := []
  /-- The path of the table that the next lines belong to. -/
  path : List Text := []

namespace Reading

/-- Read what stands on a line, up to its gap or comment at the end. -/
def line? (r : Reading) (t : Text) : Option (Reading × Text) :=
  match skipGap t with
  | '[' :: '[' :: rest => do
    let (path, rest) ← key? rest
    match rest with
    | ']' :: ']' :: rest => (r.members.addElement path).map fun m => (⟨m, path⟩, rest)
    | _ => none
  | '[' :: rest => do
    let (path, rest) ← key? rest
    match rest with
    | ']' :: rest => (r.members.addTable path).map fun m => (⟨m, path⟩, rest)
    | _ => none
  | t =>
    if (lineEnd? t).isSome then some (r, t)
    else do
      let (key, value, t) ← pair? (value? nestingLimit) t
      (r.members.within (Members.addValue value true key) r.path).map fun m => (⟨m, r.path⟩, t)

/-- Read the lines of a text.  The number bounds how many they are. -/
def lines? : Nat → Reading → Text → Option Reading
  | 0, _, _ => none
  | bound + 1, r, t => do
    let (r, t) ← r.line? t
    match ← lineEnd? t with
    | [] => pure r
    | rest => lines? bound r rest

/-- A line with nothing but a gap and a comment leaves what was read. -/
theorem line?_of_lineEnd {r : Reading} {t : Text} (h : (lineEnd? t).isSome) :
    r.line? t = some (r, skipGap t) := by
  unfold line?
  split
  · next bracket => simp [lineEnd?, bracket, skipComment, newline?] at h
  · next bracket => simp [lineEnd?, bracket, skipComment, newline?] at h
  · rw [lineEnd?_skipGap, if_pos h]

/-- **A line with nothing but a gap and a comment is passed over.** -/
theorem lines?_of_lineEnd {r : Reading} {t rest : Text} (h : lineEnd? t = some rest) (bound : Nat) :
    lines? (bound + 1) r t = if rest = [] then some r else lines? bound r rest := by
  have whole : (lineEnd? t).isSome := by rw [h, Option.isSome_some]
  simp only [lines?, line?_of_lineEnd whole, Option.bind_eq_bind, Option.bind_some,
    lineEnd?_skipGap, h]
  cases rest <;> rfl

end Reading

/-- A text without the mark of its encoding. -/
def withoutMark (t : Text) : Text :=
  match t with
  | '\ufeff' :: rest => rest
  | _ => t

/-- The members of the outermost table of the document that a text is. -/
def read? (t : Text) : Option Members :=
  let t := withoutMark t
  (Reading.lines? (t.length + 1) {} t).map Reading.members

end Toml

end Teletype
