/-
# Tokens

Before its words are read, a line is tokenized: every variable reference, then every
quoted span, then every innermost parenthesis, again and again until none is left, is
taken out of the line and a placeholder is put where it stood.  The words of what remains
are the words of the line, and the spans are its tokens.

Each of the three steps first cuts the line into pieces, characters that stay and spans
that go, and then numbers the spans from left to right.
-/
import Teletype.Text
import Teletype.Decimal.Natural

namespace Teletype

/-! ## Tokens and their placeholders -/

/-- What a span is. -/
inductive Token.Kind
  | variable | quote | paren
  deriving DecidableEq, Repr

/-- The word for a kind in a placeholder. -/
def Token.Kind.tag : Token.Kind → Text
  | .variable => "var".toList
  | .quote => "quote".toList
  | .paren => "paren".toList

/-- A span taken out of a line. -/
structure Token where
  /-- What the span is. -/
  kind : Token.Kind
  /-- Its number among the spans of its kind. -/
  index : Nat
  /-- Its characters, without the delimiters. -/
  raw : Text
  deriving DecidableEq, Repr

/-- The text that stands for a token in the line. -/
def Token.placeholder (t : Token) : Text :=
  '%' :: t.kind.tag ++ '%' :: Decimal.ofNat t.index ++ '%' :: t.kind.tag ++ ['%']

/-- A placeholder is not empty. -/
theorem Token.placeholder_ne_nil (t : Token) : t.placeholder ≠ [] := by
  simp [placeholder]

/-- How the delimiters of a line fail to pair up. -/
inductive Imbalance
  /-- A quote is opened and not closed. -/
  | quote
  /-- A parenthesis is opened and not closed. -/
  | opening
  /-- A parenthesis is closed that was not opened. -/
  | closing
  deriving DecidableEq, Repr

/-- The message that reports the imbalance. -/
def Imbalance.message : Imbalance → Text
  | quote => "Unmatched opening double quote.".toList
  | opening => "Unmatched opening parenthesis.".toList
  | closing => "Unmatched closing parenthesis.".toList

/-- A line after its spans were taken out. -/
structure Tokenized where
  /-- The words, with placeholders in them. -/
  words : List Text
  /-- The tokens: parentheses, then quotes, then variables. -/
  tokens : List Token
  deriving DecidableEq, Repr

/-! ## Pieces -/

/-- A piece of a text: a character that stays, or an item that stands in its place. -/
inductive Piece (α : Type)
  | plain (c : Char)
  | item (a : α)
  deriving DecidableEq, Repr

namespace Piece

/-- The piece is an item. -/
def isItem {α : Type} : Piece α → Bool
  | plain _ => false
  | item _ => true

end Piece

/-- Number the spans among the pieces from `n` on and put their placeholders in their
places. -/
def numberSpans (kind : Token.Kind) (n : Nat) : List (Piece Text) → Text × List Token
  | [] => ([], [])
  | .plain c :: pieces =>
    let (line, tokens) := numberSpans kind n pieces
    (c :: line, tokens)
  | .item raw :: pieces =>
    let token : Token := ⟨kind, n, raw⟩
    let (line, tokens) := numberSpans kind (n + 1) pieces
    (token.placeholder ++ line, token :: tokens)

/-- The tokens are the spans in order. -/
theorem raw_numberSpans (kind : Token.Kind) (n : Nat) (pieces : List (Piece Text)) :
    (numberSpans kind n pieces).2.map Token.raw
      = pieces.filterMap fun p => match p with
        | .plain _ => none
        | .item raw => some raw := by
  induction pieces generalizing n with
  | nil => rfl
  | cons p pieces ih =>
    cases p with
    | plain c => simp [numberSpans, ih]
    | item raw => simp [numberSpans, ih]

/-! ## Variables -/

/-- The character may stand in the name of a variable. -/
def isNameChar (c : Char) : Bool := c.isAlphanum || c = '_'

/-- The name at the head of the pieces, and the pieces behind it. -/
def splitName : List (Piece Text) → Text × List (Piece Text)
  | .plain c :: pieces =>
    if isNameChar c then
      let (name, rest) := splitName pieces
      (c :: name, rest)
    else ([], .plain c :: pieces)
  | pieces => ([], pieces)

/-- The pieces of a line whose spans are the names behind a `$`.  A `$` without a name
stays. -/
def variablePieces : Text → List (Piece Text)
  | [] => []
  | c :: rest =>
    let pieces := variablePieces rest
    if c = '$' then
      match splitName pieces with
      | ([], _) => .plain c :: pieces
      | (name, behind) => .item name :: behind
    else .plain c :: pieces

/-- A character other than `$` stays. -/
theorem variablePieces_cons {c : Char} (h : c ≠ '$') (rest : Text) :
    variablePieces (c :: rest) = .plain c :: variablePieces rest := by
  simp [variablePieces, h]

/-- A line without a `$` has no variables. -/
theorem variablePieces_eq_map {line : Text} (h : '$' ∉ line) :
    variablePieces line = line.map .plain := by
  induction line with
  | nil => rfl
  | cons c rest ih =>
    simp only [List.mem_cons, not_or] at h
    rw [variablePieces_cons (Ne.symm h.1), ih h.2, List.map_cons]

/-! ## Quotes -/

/-- Every second text as a span; a text that opens a quote must be followed by another. -/
def alternate : List Text → Option (List (Piece Text))
  | [] => none
  | [outside] => some (outside.map .plain)
  | outside :: quoted :: rest =>
    (alternate rest).map fun pieces => outside.map .plain ++ .item quoted :: pieces

/-- The pieces of a line whose spans stand between two quotes, if the quotes pair up. -/
def quotePieces (line : Text) : Option (List (Piece Text)) := alternate (Text.cut '"' line)

/-- Texts alternate when their number is odd. -/
theorem alternate_isSome (texts : List Text) :
    (alternate texts).isSome = (texts.length % 2 == 1) := by
  fun_induction alternate texts with
  | case1 => rfl
  | case2 => rfl
  | case3 outside quoted rest ih =>
    simp only [Option.isSome_map, ih, List.length_cons]
    congr 1
    omega

/-! ## Parentheses -/

/-- The characters up to the first closing parenthesis and the pieces behind it, if no
other parenthesis and no span comes before. -/
def splitClosing? : List (Piece Text) → Option (Text × List (Piece Text))
  | .plain ')' :: pieces => some ([], pieces)
  | .plain '(' :: _ => none
  | .plain c :: pieces => (splitClosing? pieces).map fun (inside, rest) => (c :: inside, rest)
  | _ => none

/-- The pieces of a line whose spans are its innermost parentheses. -/
def parenPieces : Text → List (Piece Text)
  | [] => []
  | c :: rest =>
    let pieces := parenPieces rest
    if c = '(' then
      match splitClosing? pieces with
      | some (inside, behind) => .item inside :: behind
      | none => .plain c :: pieces
    else .plain c :: pieces

/-- Take out innermost parentheses until there are none, numbering them from `n` on. -/
def extractParens (n : Nat) (line : Text) : Nat → Text × List Token
  | 0 => (line, [])
  | rounds + 1 =>
    let pieces := parenPieces line
    if pieces.any Piece.isItem then
      let (next, tokens) := numberSpans .paren n pieces
      let (last, more) := extractParens (n + tokens.length) next rounds
      (last, tokens ++ more)
    else (line, [])

/-! ## Tokenizing -/

/-- Take the spans out of a line.  Each round takes out at least one parenthesis, so as
many rounds as there are opening ones are enough. -/
def tokenize (line : Text) : Except Imbalance Tokenized :=
  let (line, bindings) := numberSpans .variable 0 (variablePieces line)
  match quotePieces line with
  | none => .error .quote
  | some pieces =>
    let (line, quotes) := numberSpans .quote 0 pieces
    let (line, parens) := extractParens 0 line (line.count '(')
    if '(' ∈ line then .error .opening
    else if ')' ∈ line then .error .closing
    else .ok ⟨Text.words line, parens ++ quotes ++ bindings⟩

/-- The pieces of a text whose items are the tokens whose placeholders stand in it; `skip`
characters belong to a placeholder already found. -/
def scanTokens (tokens : List Token) : (skip : Nat) → Text → List (Piece Token)
  | _, [] => []
  | skip + 1, _ :: rest => scanTokens tokens skip rest
  | 0, c :: rest =>
    match tokens.find? fun t => t.placeholder.isPrefixOf (c :: rest) with
    | some t => .item t :: scanTokens tokens (t.placeholder.length - 1) rest
    | none => .plain c :: scanTokens tokens 0 rest

/-- Without tokens every character stays. -/
theorem scanTokens_nil (text : Text) : scanTokens [] 0 text = text.map .plain := by
  induction text with
  | nil => rfl
  | cons c rest ih => simp [scanTokens, ih]

end Teletype
