/-
# Quoted strings

The strings of a JSON document.  Between its quotes a string is a row of letters: plain
characters, characters behind a backslash, and code units in four hexadecimal digits.
Two code units may make up one character, and a lone half of such a pair makes up none.
The main statement is that a text written as a string is read back as the text.
-/
import Teletype.Text

namespace Teletype

namespace Json

/-- What stands for a character, or for half of one, in a string. -/
inductive Letter
  /-- The character itself. -/
  | plain (c : Char)
  /-- A backslash and another character stand for the character. -/
  | short (c : Char)
  /-- A code unit in hexadecimal. -/
  | unit (code : Nat)
  deriving DecidableEq, Repr

/-! ## Writing -/

/-- The character that follows the backslash in the short form of a character. -/
def shortForm? (c : Char) : Option Char :=
  if c = '"' then some '"'
  else if c = '\\' then some '\\'
  else if c = '\x08' then some 'b'
  else if c = '\x0c' then some 'f'
  else if c = '\n' then some 'n'
  else if c = '\r' then some 'r'
  else if c = '\t' then some 't'
  else none

/-- The letter that a character is written as. -/
def Letter.ofChar (c : Char) : Letter :=
  if (shortForm? c).isSome then .short c
  else if c.toNat < 0x20 then .unit c.toNat
  else .plain c

/-- The hexadecimal digit of a number below sixteen. -/
def hexDigit (n : Nat) : Char := Nat.digitChar n

/-- The text of a letter. -/
def Letter.text : Letter → Text
  | plain c => [c]
  | short c => ['\\', (shortForm? c).getD c]
  | unit code =>
    ['\\', 'u', hexDigit (code / 4096 % 16), hexDigit (code / 256 % 16),
      hexDigit (code / 16 % 16), hexDigit (code % 16)]

/-- The letters of a text. -/
def letters (t : Text) : List Letter := t.map .ofChar

/-- The letters between quotes. -/
def quoteLetters (ls : List Letter) : Text := '"' :: ls.flatMap Letter.text ++ ['"']

/-- The text as a string. -/
def quote (t : Text) : Text := quoteLetters (letters t)

/-! ## Reading -/

/-- The value of a hexadecimal digit, in either case. -/
def hexValue? (c : Char) : Option Nat :=
  if '0' ≤ c ∧ c ≤ '9' then some (c.toNat - '0'.toNat)
  else if 'a' ≤ c ∧ c ≤ 'f' then some (c.toNat - 'a'.toNat + 10)
  else if 'A' ≤ c ∧ c ≤ 'F' then some (c.toNat - 'A'.toNat + 10)
  else none

/-- The code unit at the head of a text, in four hexadecimal digits, and what follows. -/
def unit? : Text → Option (Nat × Text)
  | a :: b :: c :: d :: rest => do
    let a ← hexValue? a
    let b ← hexValue? b
    let c ← hexValue? c
    let d ← hexValue? d
    pure (a * 4096 + b * 256 + c * 16 + d, rest)
  | _ => none

/-- The character whose short form has a character behind the backslash. -/
def shortChar? (c : Char) : Option Char :=
  if c = '"' then some '"'
  else if c = '\\' then some '\\'
  else if c = '/' then some '/'
  else if c = 'b' then some '\x08'
  else if c = 'f' then some '\x0c'
  else if c = 'n' then some '\n'
  else if c = 'r' then some '\r'
  else if c = 't' then some '\t'
  else none

/-- The letter at the head of a text that does not begin with a quote, and what follows. -/
def letter? : Text → Option (Letter × Text)
  | [] => none
  | c :: rest =>
    if c = '\\' then
      match rest with
      | [] => none
      | d :: rest =>
        if d = 'u' then (unit? rest).map fun (code, rest) => (.unit code, rest)
        else (shortChar? d).map fun c => (.short c, rest)
    else if c.toNat < 0x20 then none
    else some (.plain c, rest)

/-- What follows a letter is shorter. -/
theorem length_of_letter? {t rest : Text} {l : Letter} (h : letter? t = some (l, rest)) :
    rest.length < t.length := by
  unfold letter? at h
  split at h
  · cases h
  · split at h
    · split at h
      · cases h
      · split at h
        · obtain ⟨⟨code, r⟩, hu, he⟩ := Option.map_eq_some_iff.mp h
          cases he
          unfold unit? at hu
          split at hu
          · simp only [Option.bind_eq_bind, Option.bind_eq_some_iff] at hu
            obtain ⟨_, _, _, _, _, _, _, _, he⟩ := hu
            cases he
            simp only [List.length_cons]
            omega
          · cases hu
        · obtain ⟨_, _, he⟩ := Option.map_eq_some_iff.mp h
          cases he
          simp only [List.length_cons]
          omega
    · split at h
      · cases h
      · cases h
        simp only [List.length_cons]
        omega

/-- The letters up to the closing quote, and what follows it. -/
def closing? (t : Text) : Option (List Letter × Text) :=
  match t with
  | [] => none
  | c :: rest =>
    if c = '"' then some ([], rest)
    else
      match _h : letter? (c :: rest) with
      | none => none
      | some (l, behind) => (closing? behind).map fun (ls, last) => (l :: ls, last)
  termination_by t.length
  decreasing_by exact length_of_letter? (by assumption)

/-! ## Meaning -/

/-- The code unit is the first half of a pair. -/
def isLeading (code : Nat) : Bool := 0xD800 ≤ code && code ≤ 0xDBFF

/-- The code unit is the second half of a pair. -/
def isTrailing (code : Nat) : Bool := 0xDC00 ≤ code && code ≤ 0xDFFF

/-- The character that two halves make up. -/
def pairChar (first second : Nat) : Char :=
  Char.ofNat (0x10000 + (first - 0xD800) * 1024 + (second - 0xDC00))

/-- The text that letters stand for, unless there is a lone half of a pair. -/
def textOf? : List Letter → Option Text
  | [] => some []
  | .plain c :: rest => (textOf? rest).map (c :: ·)
  | .short c :: rest => (textOf? rest).map (c :: ·)
  | .unit code :: rest =>
    if isLeading code then
      match rest with
      | .unit next :: rest =>
        if isTrailing next then (textOf? rest).map (pairChar code next :: ·) else none
      | _ => none
    else if isTrailing code then none
    else (textOf? rest).map (Char.ofNat code :: ·)

/-- **The letters of a text stand for the text.** -/
theorem textOf?_letters (t : Text) : textOf? (letters t) = some t := by
  induction t with
  | nil => rfl
  | cons c rest ih =>
    rw [letters, List.map_cons, ← letters, Letter.ofChar]
    split
    · simp [textOf?, ih]
    · split
      · next low =>
        have lead : isLeading c.toNat = false := by simp [isLeading]; omega
        have trail : isTrailing c.toNat = false := by simp [isTrailing]; omega
        rw [textOf?.eq_def]
        simp [lead, trail, ih]
      · simp [textOf?, ih]

/-! ## Reading what was written -/

/-- A letter is one that reading can give: its short form exists, a code unit fits into
four digits, and a plain character needs no backslash. -/
def Letter.Readable : Letter → Prop
  | plain c => c ≠ '"' ∧ c ≠ '\\' ∧ 0x20 ≤ c.toNat
  | short c => (shortForm? c).isSome
  | unit code => code < 0x10000

/-- The short form of a character stands for the character. -/
theorem shortChar?_shortForm? {c d : Char} (h : shortForm? c = some d) :
    shortChar? d = some c ∧ d ≠ 'u' := by
  unfold shortForm? at h
  repeat' split at h
  all_goals cases h
  all_goals simp_all [shortChar?]

/-- A hexadecimal digit is read as the number it was written for. -/
theorem hexValue?_hexDigit {n : Nat} (h : n < 16) : hexValue? (hexDigit n) = some n := by
  have all : ∀ m : Fin 16, hexValue? (hexDigit m.val) = some m.val := by decide
  exact all ⟨n, h⟩

/-- A letter is read back from its text. -/
theorem letter?_text {l : Letter} (h : l.Readable) (rest : Text) :
    letter? (l.text ++ rest) = some (l, rest) ∧ (l.text ++ rest).head? ≠ some '"' := by
  cases l with
  | plain c =>
    obtain ⟨hq, hb, hc⟩ := h
    simp [Letter.text, letter?, hq, hb, Nat.not_lt.mpr hc]
  | short c =>
    obtain ⟨d, hd⟩ := Option.isSome_iff_exists.mp h
    obtain ⟨hs, hu⟩ := shortChar?_shortForm? hd
    simp [Letter.text, letter?, hd, hs, hu]
  | unit code =>
    have hc : code < 0x10000 := h
    have digit : ∀ n : Nat, hexValue? (hexDigit (n % 16)) = some (n % 16) := fun n =>
      hexValue?_hexDigit (Nat.mod_lt _ (by omega))
    simp only [Letter.text, letter?, unit?, digit, List.cons_append, List.nil_append]
    simp only [if_true, Option.bind_eq_bind, Option.bind_some, Option.pure_def, Option.map_some]
    simp only [List.head?_cons]
    refine ⟨?_, by decide⟩
    congr 3
    omega

/-- Letters are read back from their text up to the closing quote. -/
theorem closing?_flatMap_text {ls : List Letter} (h : ∀ l ∈ ls, l.Readable) (rest : Text) :
    closing? (ls.flatMap Letter.text ++ '"' :: rest) = some (ls, rest) := by
  induction ls with
  | nil => simp [closing?]
  | cons l ls ih =>
    obtain ⟨hl, hq⟩ := letter?_text (h l List.mem_cons_self)
      (ls.flatMap Letter.text ++ '"' :: rest)
    rw [List.flatMap_cons, List.append_assoc]
    have ih := ih fun x hx => h x (List.mem_cons_of_mem _ hx)
    generalize hr : ls.flatMap Letter.text ++ '"' :: rest = behind at *
    generalize l.text ++ behind = t at *
    match t, hq, hl with
    | c :: tail, hq, hl =>
      have hc : c ≠ '"' := fun e => hq (by rw [e]; rfl)
      rw [closing?, if_neg hc]
      split
      · next hn => rw [hl] at hn; cases hn
      · next hn => rw [hl] at hn; cases hn; simp [ih]

/-- A character is written as a letter that can be read. -/
theorem readable_ofChar (c : Char) : (Letter.ofChar c).Readable := by
  unfold Letter.ofChar
  split
  · assumption
  · next hs =>
    split
    · next hl => exact Nat.lt_trans hl (by decide)
    · next hl =>
      refine ⟨?_, ?_, Nat.le_of_not_lt hl⟩ <;> rintro rfl <;> exact hs rfl

/-- **A text written as a string is read back as its letters.** -/
theorem closing?_quote (t rest : Text) :
    closing? ((quote t).drop 1 ++ rest) = some (letters t, rest) := by
  have readable : ∀ l ∈ letters t, l.Readable := fun l hl => by
    obtain ⟨c, _, rfl⟩ := List.mem_map.mp hl
    exact readable_ofChar c
  simpa [quote, quoteLetters] using closing?_flatMap_text readable rest

end Json

end Teletype
