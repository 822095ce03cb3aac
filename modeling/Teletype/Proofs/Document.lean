/-
# Documents are read back

What a session is saved as is a document of strings and objects, written without blanks.
The main statements are that **such a document is read back as the value that it was
written for** (`Json.parse?_render`), and from it that **a snapshot is read back from its
document** (`Snapshot.read?_render`): the escapes of strings, the digits of line numbers
and the order of the entries of a table all survive.
-/
import Teletype.Snapshot

namespace Teletype

namespace Json

/-! ## Marks -/

/-- No gap stands in front of a mark. -/
theorem skipGap_of_not_gap {c : Char} (h : isGap c = false) (rest : Text) :
    skipGap (c :: rest) = c :: rest := by
  rw [skipGap, List.dropWhile_cons, h]
  exact if_neg Bool.false_ne_true

variable {α : Type} {close : Char} {read : Text → Option (List α × Text)}

/-- A list may end at once. -/
theorem orClosed_close (h : isGap close = false) (rest : Text) :
    orClosed close read (close :: rest) = some ([], rest) := by
  simp [orClosed, skipGap_of_not_gap h]

/-- A list that begins with another mark than the closing one has items. -/
theorem orClosed_open {c : Char} (h : isGap c = false) (hc : c ≠ close) (rest : Text) :
    orClosed close read (c :: rest) = read (c :: rest) := by
  simp [orClosed, skipGap_of_not_gap h, hc]

/-- A list may end behind an item. -/
theorem orMore_close (h : isGap close = false) (rest : Text) :
    orMore close read (close :: rest) = some ([], rest) := by
  simp [orMore, skipGap_of_not_gap h]

/-- A list goes on behind a comma. -/
theorem orMore_comma (h : ',' ≠ close) (rest : Text) :
    orMore close read (',' :: rest) = read rest := by
  have mark : isGap ',' = false := by decide
  simp [orMore, skipGap_of_not_gap mark, h]

/-! ## Values -/

/-- A value that is made of strings and objects alone, with letters that can be read. -/
inductive Written : Json → Prop
  /-- A string. -/
  | string {ls : List Letter} (h : ∀ l ∈ ls, l.Readable) : Written (.string ls)
  /-- An object. -/
  | object {members : List (List Letter × Json)} (names : ∀ m ∈ members, ∀ l ∈ m.1, l.Readable)
      (values : ∀ m ∈ members, Written m.2) : Written (.object members)

/-- The text of the members of an object, without the marks around it. -/
def memberText (members : List (List Letter × Json)) : Text := Text.join ',' (renderMembers members)

variable {name : List Letter} {value : Json} {members : List (List Letter × Json)} {bound : Nat}

/-- The text of an object. -/
theorem render_object (members : List (List Letter × Json)) :
    render (.object members) = '\x7b' :: memberText members ++ ['\x7d'] := rfl

/-- The text of one member. -/
theorem memberText_one :
    memberText [(name, value)] = quoteLetters name ++ ':' :: render value := rfl

/-- The text of more members than one. -/
theorem memberText_more {next : List Letter × Json} :
    memberText ((name, value) :: next :: members)
      = quoteLetters name ++ ':' :: render value ++ ',' :: memberText (next :: members) := rfl

/-- Members begin with a quote. -/
theorem memberText_head (m : List Letter × Json) (members : List (List Letter × Json)) :
    ∃ rest, memberText (m :: members) = '"' :: rest := by
  obtain ⟨name, value⟩ := m
  cases members with
  | nil => exact ⟨_, rfl⟩
  | cons next members => exact ⟨_, rfl⟩

/-- A string is read back from its text. -/
theorem value?_string {ls : List Letter} (h : ∀ l ∈ ls, l.Readable) (rest : Text) :
    value? (bound + 1) (quoteLetters ls ++ rest) = some (.string ls, rest) := by
  have mark : isGap '"' = false := by decide
  have text : quoteLetters ls ++ rest = '"' :: (ls.flatMap Letter.text ++ '"' :: rest) := by
    simp [quoteLetters]
  rw [text, value?, skipGap_of_not_gap mark]
  simp [closing?_flatMap_text h]

/-- An object is read back from its text if its members are. -/
theorem value?_object {rest : Text}
    (h : members ≠ [] → members? bound (memberText members ++ '\x7d' :: rest)
      = some (members, rest)) :
    value? (bound + 1) (render (.object members) ++ rest) = some (.object members, rest) := by
  have opened : isGap '\x7b' = false := by decide
  have closed : isGap '\x7d' = false := by decide
  have quote : isGap '"' = false := by decide
  have text : render (.object members) ++ rest
      = '\x7b' :: (memberText members ++ '\x7d' :: rest) := by
    simp [render_object]
  have inner : orClosed '\x7d' (members? bound) (memberText members ++ '\x7d' :: rest)
      = some (members, rest) := by
    cases members with
    | nil => exact orClosed_close closed rest
    | cons m members =>
      obtain ⟨behind, head⟩ := memberText_head m members
      rw [← h (List.cons_ne_nil _ _), head, List.cons_append, orClosed_open quote (by decide)]
  rw [text, value?, skipGap_of_not_gap opened]
  simp [inner]

/-- Members are read back one after the other. -/
theorem members?_member (hname : ∀ l ∈ name, l.Readable) {behind rest : Text}
    (hvalue : value? bound (render value ++ behind) = some (value, behind))
    (hmore : orMore '\x7d' (members? bound) behind = some (members, rest)) :
    members? (bound + 1) (quoteLetters name ++ ':' :: render value ++ behind)
      = some ((name, value) :: members, rest) := by
  have quote : isGap '"' = false := by decide
  have colon : isGap ':' = false := by decide
  have text : quoteLetters name ++ ':' :: render value ++ behind
      = '"' :: (name.flatMap Letter.text ++ '"' :: ':' :: (render value ++ behind)) := by
    simp [quoteLetters]
  rw [text, members?, skipGap_of_not_gap quote]
  simp [closing?_flatMap_text hname, skipGap_of_not_gap colon, hvalue, hmore]

/-- Values and members are read back with twice as many steps as they have characters. -/
theorem read_render (bound : Nat) :
    (∀ value rest, Written value → 2 * (render value).length ≤ bound →
      value? bound (render value ++ rest) = some (value, rest)) ∧
    (∀ m members rest, (∀ x ∈ m :: members, ∀ l ∈ x.1, l.Readable) →
      (∀ x ∈ m :: members, Written x.2) → 2 * (memberText (m :: members)).length ≤ bound →
      members? bound (memberText (m :: members) ++ '\x7d' :: rest)
        = some (m :: members, rest)) := by
  -- on the bound, as the readers call each other with one step less
  induction bound with
  | zero =>
    constructor
    · intro value rest h hb
      cases h <;> simp [render, quoteLetters] at hb
    · intro m members rest _ _ hb
      obtain ⟨behind, head⟩ := memberText_head m members
      simp [head] at hb
  | succ bound ih =>
    obtain ⟨ihValue, ihMembers⟩ := ih
    constructor
    · intro value rest h hb
      cases h with
      | string hl => exact value?_string hl rest
      | @object members names values =>
        refine value?_object fun hne => ?_
        obtain ⟨m, others, rfl⟩ := List.exists_cons_of_ne_nil hne
        refine ihMembers m others rest names values ?_
        rw [render_object] at hb
        simp only [List.length_append, List.length_cons] at hb
        omega
    · rintro ⟨name, value⟩ members rest names values hb
      have hname : ∀ l ∈ name, l.Readable := names _ List.mem_cons_self
      have hvalue : Written value := values _ List.mem_cons_self
      cases members with
      | nil =>
        rw [memberText_one] at hb ⊢
        simp only [List.length_append, List.length_cons] at hb
        have closed : isGap '\x7d' = false := by decide
        exact members?_member hname (ihValue value _ hvalue (by omega)) (orMore_close closed rest)
      | cons next members =>
        rw [memberText_more] at hb ⊢
        simp only [List.length_append, List.length_cons] at hb
        rw [List.append_assoc, List.cons_append]
        refine members?_member hname (ihValue value _ hvalue (by omega)) ?_
        rw [orMore_comma (by decide)]
        exact ihMembers next members rest (fun x hx => names x (List.mem_cons_of_mem _ hx))
          (fun x hx => values x (List.mem_cons_of_mem _ hx)) (by omega)

/-- **A document of strings and objects is read back as the value it was written for.** -/
theorem parse?_render {value : Json} (h : Written value) : parse? (render value) = some value := by
  have read := (read_render (2 * (render value).length + 2)).1 value [] h (by omega)
  rw [List.append_nil] at read
  simp [parse?, read, skipGap]

end Json

/-! ## Snapshots -/

namespace Snapshot

open Json (Letter)

/-- The letters of a text can be read. -/
theorem readable_letters (t : Text) : ∀ l ∈ Json.letters t, l.Readable := by
  intro l hl
  obtain ⟨c, -, rfl⟩ := List.mem_map.mp hl
  exact Json.readable_ofChar c

/-- Texts are written as strings. -/
theorem written_textJson (t : Text) : (textJson t).Written := .string (readable_letters t)

/-- Tables are written as objects. -/
theorem written_tableJson {κ ν : Type} [Ord κ] {key : κ → Text} {value : ν → Json}
    (h : ∀ v, (value v).Written) (t : Table κ ν) : (tableJson key value t).Written := by
  refine .object (fun m hm => ?_) (fun m hm => ?_)
  · obtain ⟨e, -, rfl⟩ := List.mem_map.mp hm
    exact readable_letters _
  · obtain ⟨e, -, rfl⟩ := List.mem_map.mp hm
    exact h e.2

/-- Snapshots are written as strings and objects. -/
theorem written_toJson (s : Snapshot) : s.toJson.Written := by
  have program : ∀ p, (programJson p).Written := written_tableJson written_textJson
  refine .object (fun m hm => ?_) (fun m hm => ?_)
  · simp only [List.mem_cons, List.not_mem_nil, or_false] at hm
    rcases hm with rfl | rfl | rfl <;> exact readable_letters _
  · simp only [List.mem_cons, List.not_mem_nil, or_false] at hm
    rcases hm with rfl | rfl | rfl
    · exact program s.program
    · exact written_tableJson written_textJson s.bindings
    · exact written_tableJson program s.aliases

/-- A text is read back from its string. -/
theorem textOf?_textJson (t : Text) : textOf? (textJson t) = some t := Json.textOf?_letters t

/-- What is read back from each item is read back from the list. -/
theorem mapM_map_eq_some {α β : Type} {f : α → Option β} {g : β → α} (h : ∀ b, f (g b) = some b)
    (l : List β) : (l.map g).mapM f = some l := by
  induction l with
  | nil => rfl
  | cons b l ih =>
    rw [List.map_cons, List.mapM_cons, h, ih]
    rfl

/-- **A table is read back from its object**, if its keys and values are. -/
theorem tableOf?_tableJson {κ ν : Type} [Ord κ] [Std.TransOrd κ] [Std.LawfulEqOrd κ]
    {key : κ → Text} {value : ν → Json} {key? : List Letter → Option κ} {value? : Json → Option ν}
    (hkey : ∀ k, key? (Json.letters (key k)) = some k) (hvalue : ∀ v, value? (value v) = some v)
    (t : Table κ ν) : tableOf? key? value? (tableJson key value t) = some t := by
  rw [tableJson, tableOf?, mapM_map_eq_some (fun e => ?_), Option.map_some, Table.ofList_entries]
  rw [hkey, hvalue]
  rfl

/-- A digit is written as itself. -/
theorem ofChar_of_isDigit {c : Char} (h : Decimal.isDigit c = true) :
    Letter.ofChar c = .plain c := by
  have short : Json.shortForm? c = none := by
    unfold Json.shortForm?
    repeat' split
    all_goals first | rfl | (subst c; revert h; decide)
  have large : ¬ c.toNat < 0x20 := by
    obtain ⟨low, -⟩ := Bool.and_eq_true_iff.mp h
    have low : '0'.toNat ≤ c.toNat := of_decide_eq_true low
    exact Nat.not_lt.mpr (Nat.le_trans (by decide) low)
  rw [Letter.ofChar, short, if_neg (by decide), if_neg large]

/-- **A line number is read back from its digits.** -/
theorem lineNumber?_text (n : LineNumber) : lineNumber? (Json.letters n.text) = some n := by
  obtain ⟨-, digits, -⟩ := Decimal.value_ofNat n.toNat
  have plain : Json.letters n.text = n.text.map .plain :=
    List.map_congr_left fun c hc => ofChar_of_isDigit (List.all_eq_true.mp digits c hc)
  have itself : ∀ c, plain? (Letter.plain c) = some c := fun _ => rfl
  have read : (n.text.map Letter.plain).mapM plain? = some n.text := mapM_map_eq_some itself _
  rw [lineNumber?, plain, read]
  simp [LineNumber.text, Decimal.toNat?_ofNat, n.toNat_lt_size]

/-- A program is read back from its object. -/
theorem programOf?_programJson (p : Program) : programOf? (programJson p) = some p :=
  tableOf?_tableJson lineNumber?_text textOf?_textJson p

/-- **A snapshot is read back from its value.** -/
theorem ofJson?_toJson (s : Snapshot) : ofJson? s.toJson = some s := by
  have bindings : bindingsOf? (tableJson id textJson s.bindings) = some s.bindings :=
    tableOf?_tableJson Json.textOf?_letters textOf?_textJson _
  have aliases : aliasesOf? (tableJson id programJson s.aliases) = some s.aliases :=
    tableOf?_tableJson Json.textOf?_letters programOf?_programJson _
  -- the three names differ, so each field is found once
  have names : programField ≠ bindingsField ∧ programField ≠ aliasesField ∧
      bindingsField ≠ aliasesField := by decide
  obtain ⟨hpb, hpa, hba⟩ := names
  simp [toJson, ofJson?, Json.textOf?_letters, fieldNames, hpb, hpa, hba, hpb.symm, hpa.symm,
    hba.symm, ofFields?, orEmpty, programOf?_programJson, bindings, aliases]

/-- **A snapshot is read back from its document.** -/
theorem read?_render (s : Snapshot) : read? s.render = some s := by
  rw [read?, render, Json.parse?_render s.written_toJson, Option.bind_some, ofJson?_toJson]

/-- No snapshot is read from the document of a string. -/
theorem read?_quote (t : Text) : read? (Json.quote t) = none := by
  have string : Json.parse? (Json.quote t) = some (.string (Json.letters t)) :=
    Json.parse?_render (.string (readable_letters t))
  rw [read?, string]
  rfl

end Snapshot

end Teletype
