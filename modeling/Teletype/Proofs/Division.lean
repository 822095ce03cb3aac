/-
# How the words of a command are divided

The words behind the word of a command are divided into an action, which may stand first,
clusters of flags, the values that clusters take, and the words of the name.  A division says
which words are which; it is told by the grammar alone whether it fits the words.  The main
statement is that **words whose clusters are written in ASCII have exactly one division that
fits them, everything that is read off the words is read off the division, and a cluster and a
word of the name that are neighbours can trade places** (`Flags.parse_division`): the name is
made of its words in order, the count of the other words is exact, and of the clusters that name
a flag the last one decides.
-/
import Mathlib.Algebra.Ring.Nat
import Teletype.Flags

namespace Teletype

/-- Every character of the text is one of ASCII. -/
def Text.IsAscii (t : Text) : Prop := ∀ c ∈ t, c.toNat < 128

instance (t : Text) : Decidable t.IsAscii := List.decidableBAll (fun c : Char => c.toNat < 128) t

namespace Flags

/-! ## What items name and give -/

/-- The letters of a cluster in capitals. -/
def capitals (cluster : Text) : List Char := (Text.upper cluster).drop 1

/-- In ASCII the letters of a cluster are taken as their capitals. -/
theorem letters_eq_capitals {c : Text} (ascii : c.IsAscii) : letters c = capitals c := by
  rw [letters, capitals, Text.upper_of_ascii ascii, List.map_drop]

namespace Item

/-- The cluster of an item. -/
def cluster? : Item → Option Text
  | word _ => none
  | cluster c => some c
  | valued c _ => some c

/-- The item is a cluster with the letter of a flag in it. -/
def names (letter : Char) (item : Item) : Bool := item.cluster?.any fun c => letter ∈ capitals c

/-- What an item gives to a flag that it names. -/
def given (o : Options) (letter : Char) : Item → Value
  | valued _ value => if letter ∈ o.withArgument then .text (value.getD []) else .set
  | _ => .set

/-- The words of an item are what a grammar takes them for: a word of the name is no cluster,
and a cluster takes a value if one of its letters does. -/
def Fits (g : Grammar) (o : Options) : Item → Prop
  | word w => g.isCluster w = false
  | cluster c => g.isCluster c = true ∧ ∀ l ∈ capitals c, l ∉ o.withArgument
  | valued c _ => g.isCluster c = true ∧ ∃ l ∈ capitals c, l ∈ o.withArgument

/-- Of two items one is a word of the name, and the other a cluster with the value that it
takes, if it takes one. -/
def Trades : Item → Item → Prop
  | word _, cluster _ => True
  | word _, valued _ (some _) => True
  | cluster _, word _ => True
  | valued _ (some _), word _ => True
  | _, _ => False

/-- The words of an item are what they are sorted as. -/
def Sorted (g : Grammar) (o : Options) : Item → Prop
  | word w => g.isCluster w = false
  | cluster c => g.isCluster c = true ∧ o.takesValue c = false
  | valued c _ => g.isCluster c = true ∧ o.takesValue c = true

variable {g : Grammar} {o : Options} {item x y : Item} {c : Text} {letter : Char}

/-- The cluster of an item is one of its words. -/
theorem mem_source (h : item.cluster? = some c) : c ∈ item.source := by
  cases item with
  | word => cases h
  | _ =>
    cases h
    exact List.mem_cons_self

/-- The cluster of an item that fits is a cluster. -/
theorem Fits.isCluster (fits : item.Fits g o) (h : item.cluster? = some c) :
    g.isCluster c = true := by
  cases item with
  | word => cases h
  | _ =>
    cases h
    exact fits.1

/-- The cluster of an item that is sorted so is a cluster. -/
theorem Sorted.isCluster (sorted : item.Sorted g o) (h : item.cluster? = some c) :
    g.isCluster c = true := by
  cases item with
  | word => cases h
  | _ =>
    cases h
    exact sorted.1

/-- A cluster in ASCII takes a value exactly if one of its capitals does. -/
theorem takesValue_iff (ascii : c.IsAscii) :
    o.takesValue c = true ↔ ∃ l ∈ capitals c, l ∈ o.withArgument := by
  rw [Options.takesValue, letters_eq_capitals ascii]
  simp only [List.any_eq_true, decide_eq_true_eq]

/-- In ASCII items fit exactly if they are sorted so. -/
theorem fits_iff_sorted (ascii : ∀ c, item.cluster? = some c → c.IsAscii) :
    item.Fits g o ↔ item.Sorted g o := by
  cases item with
  | word w => rfl
  | cluster c =>
    rw [Fits, Sorted, ← Bool.not_eq_true, takesValue_iff (ascii c rfl)]
    simp only [not_exists, not_and]
  | valued c value => rw [Fits, Sorted, takesValue_iff (ascii c rfl)]

/-- A letter of a cluster is found among the flags that the cluster sets. -/
theorem find?_clusterFlags (ascii : c.IsAscii) (value : Option Text) :
    ((clusterFlags o c value).reverse.find? fun e => e.1 = letter).map Prod.snd
      = if letter ∈ capitals c then
          some (if letter ∈ o.withArgument then .text (value.getD []) else .set)
        else none := by
  have first : ∀ l : List Char,
      (l.find? fun x => x = letter) = if letter ∈ l then some letter else none := by
    intro l
    induction l with
    | nil => rfl
    | cons x l ih =>
      rw [List.find?_cons, ih]
      by_cases hx : x = letter
      · simp [hx]
      · have other : letter ≠ x := fun h => hx h.symm
        simp [hx, other]
  rw [clusterFlags, letters_eq_capitals ascii, ← List.map_reverse, List.find?_map]
  show (((capitals c).reverse.find? fun x => x = letter).map _).map Prod.snd = _
  rw [first]
  simp only [List.mem_reverse]
  split <;> rfl

/-- A letter that an item names is found among the flags that the item sets. -/
theorem find?_flags (fits : item.Fits g o) (ascii : ∀ c, item.cluster? = some c → c.IsAscii) :
    ((item.flags o).reverse.find? fun e => e.1 = letter).map Prod.snd
      = if item.names letter then some (item.given o letter) else none := by
  cases item with
  | word w => rfl
  | cluster c =>
    rw [flags, find?_clusterFlags (ascii c rfl)]
    by_cases mem : letter ∈ capitals c
    · have plain : letter ∉ o.withArgument := fits.2 letter mem
      simp [names, cluster?, given, mem, plain]
    · simp [names, cluster?, mem]
  | valued c value =>
    rw [flags, find?_clusterFlags (ascii c rfl)]
    simp [names, cluster?, given]

/-- Items that can trade places set the same flags in both orders. -/
theorem Trades.flags (h : x.Trades y) : x.flags o ++ y.flags o = y.flags o ++ x.flags o := by
  match x, y, h with
  | .word _, .cluster _, _ => exact (List.append_nil _).symm
  | .word _, .valued _ (some _), _ => exact (List.append_nil _).symm
  | .cluster _, .word _, _ => exact List.append_nil _
  | .valued _ (some _), .word _, _ => exact List.append_nil _

/-- They hold the same words of the name. -/
theorem Trades.nameWords (h : x.Trades y) :
    x.nameWords ++ y.nameWords = y.nameWords ++ x.nameWords := by
  match x, y, h with
  | .word _, .cluster _, _ => rfl
  | .word _, .valued _ (some _), _ => rfl
  | .cluster _, .word _, _ => rfl
  | .valued _ (some _), .word _, _ => rfl

/-- No value is missing in them. -/
theorem Trades.ne_missing (h : x.Trades y) (c : Text) :
    valued c none ≠ x ∧ valued c none ≠ y := by
  match x, y, h with
  | .word _, .cluster _, _ => exact ⟨nofun, nofun⟩
  | .word _, .valued _ (some _), _ => exact ⟨nofun, nofun⟩
  | .cluster _, .word _, _ => exact ⟨nofun, nofun⟩
  | .valued _ (some _), .word _, _ => exact ⟨nofun, nofun⟩

/-- An item with all its words takes as many words as it is made of. -/
theorem width_add_nameWords (h : ∀ c, item ≠ valued c none) :
    item.width + item.nameWords.length = item.source.length := by
  match item with
  | .word _ => rfl
  | .cluster _ => rfl
  | .valued _ (some _) => rfl
  | .valued c none => exact absurd rfl (h c)

end Item

/-- The clusters of some items are in ASCII. -/
def AsciiClusters (l : List Item) : Prop :=
  ∀ item ∈ l, ∀ c, item.cluster? = some c → c.IsAscii

/-- The last of some items is a cluster that takes a value, and there is none. -/
def lacksValue (l : List Item) : Bool :=
  match l.getLast? with
  | some (.valued _ none) => true
  | _ => false

/-- The items of the words behind those of a command and its action. -/
def itemsBehind (g : Grammar) (o : Options) (words : List Text) : List Item :=
  items g o (splitAction g o (words.drop 1)).2

/-! ## Divisions -/

/-- A division of the words of a command. -/
structure Division where
  /-- The word of the command. -/
  command : Text
  /-- The word of the action, if there is one. -/
  action : Option Text
  /-- The items that the other words make up. -/
  items : List Item
  deriving DecidableEq

namespace Division

/-- The words that are divided. -/
def words (d : Division) : List Text :=
  d.command :: (d.action.toList ++ d.items.flatMap Item.source)

/-- The words of the name. -/
def nameWords (d : Division) : List Text := d.items.flatMap Item.nameWords

/-- The division is one by a grammar. -/
structure Fits (g : Grammar) (o : Options) (d : Division) : Prop where
  /-- The word of the action selects one. -/
  action : ∀ w ∈ d.action, o.lookForAction = true ∧ (g.action? w).isSome
  /-- Without an action the first word selects none, if actions are looked for. -/
  bare : d.action = none → o.lookForAction = true →
    ∀ w ∈ (d.items.flatMap Item.source).head?, g.action? w = none
  /-- The items are what their words are. -/
  items : ∀ item ∈ d.items, item.Fits g o
  /-- A value is missing only behind the last word. -/
  complete : ∀ c, Item.valued c none ∉ d.items.dropLast

end Division

/-! ## Items are found in their words -/

section

variable {g : Grammar} {o : Options} {l : List Item}

/-- The words of an item that is sorted so are sorted into that item. -/
theorem items_source_append {item : Item} {rest : List Text} (sorted : item.Sorted g o)
    (last : ∀ c, item = .valued c none → rest = []) :
    items g o (item.source ++ rest) = item :: items g o rest := by
  cases item with
  | word w =>
    have word : g.isCluster w = false := sorted
    show items g o (w :: rest) = _
    rw [items.eq_def]
    simp only [word, if_neg Bool.false_ne_true]
  | cluster c =>
    show items g o (c :: rest) = _
    rw [items.eq_def]
    simp only [sorted.1, sorted.2, if_true, if_neg Bool.false_ne_true]
  | valued c value =>
    cases value with
    | some v =>
      show items g o (c :: v :: rest) = _
      rw [items.eq_def]
      simp only [sorted.1, sorted.2, if_true]
    | none =>
      rw [last c rfl]
      show items g o [c] = _
      rw [items.eq_def]
      simp only [sorted.1, sorted.2, if_true]
      rfl

/-- A value is missing in the last item alone, and behind it are no words. -/
theorem complete_cons {item : Item} (complete : ∀ c, Item.valued c none ∉ (item :: l).dropLast) :
    (∀ c, item = .valued c none → l.flatMap Item.source = []) ∧
      ∀ c, Item.valued c none ∉ l.dropLast := by
  cases l with
  | nil => exact ⟨fun _ _ => rfl, fun _ => List.not_mem_nil⟩
  | cons next l =>
    refine ⟨fun c same => ?_, fun c mem => complete c (List.mem_cons_of_mem _ mem)⟩
    exact absurd (same ▸ List.mem_cons_self) (complete c)

/-- Items that are sorted so are the items of their words. -/
theorem items_flatMap_source (sorted : ∀ item ∈ l, item.Sorted g o)
    (complete : ∀ c, Item.valued c none ∉ l.dropLast) :
    items g o (l.flatMap Item.source) = l := by
  induction l with
  | nil => rfl
  | cons item l ih =>
    obtain ⟨here, sorted⟩ := List.forall_mem_cons.mp sorted
    obtain ⟨last, complete⟩ := complete_cons complete
    rw [List.flatMap_cons, items_source_append here last, ih sorted complete]

/-- Items that fit have their clusters in ASCII if the items of their words have. -/
theorem ascii_of_flatMap_source (fits : ∀ item ∈ l, item.Fits g o)
    (complete : ∀ c, Item.valued c none ∉ l.dropLast)
    (ascii : AsciiClusters (items g o (l.flatMap Item.source))) : AsciiClusters l := by
  induction l with
  | nil => exact fun _ mem => absurd mem List.not_mem_nil
  | cons item l ih =>
    obtain ⟨fit, fits⟩ := List.forall_mem_cons.mp fits
    obtain ⟨last, complete⟩ := complete_cons complete
    rw [List.flatMap_cons] at ascii
    -- however the words are sorted, the first of them is the cluster of an item
    have here : ∀ c, item.cluster? = some c → c.IsAscii := by
      intro c hc
      obtain ⟨rest, front⟩ : ∃ rest, item.source = c :: rest := by
        cases item <;> cases hc <;> exact ⟨_, rfl⟩
      rw [front, List.cons_append, items.eq_def] at ascii
      simp only [fit.isCluster hc, if_true] at ascii
      split at ascii
      · split at ascii <;> exact ascii _ List.mem_cons_self c rfl
      · exact ascii _ List.mem_cons_self c rfl
    rw [items_source_append ((Item.fits_iff_sorted here).mp fit) last] at ascii
    have behind := ih fits complete fun item mem => ascii item (List.mem_cons_of_mem _ mem)
    exact List.forall_mem_cons.mpr ⟨here, behind⟩

/-- The items of words are sorted so. -/
theorem sorted_of_mem_items (words : List Text) : ∀ item ∈ items g o words, item.Sorted g o := by
  fun_induction items g o words with
  | case1 => exact fun _ h => absurd h List.not_mem_nil
  | case2 w hw takes => exact List.forall_mem_singleton.mpr ⟨hw, takes⟩
  | case3 w hw takes v rest ih => exact List.forall_mem_cons.mpr ⟨⟨hw, takes⟩, ih⟩
  | case4 w rest hw takes ih =>
    exact List.forall_mem_cons.mpr ⟨⟨hw, Bool.eq_false_iff.mpr takes⟩, ih⟩
  | case5 w rest hw ih => exact List.forall_mem_cons.mpr ⟨Bool.eq_false_iff.mpr hw, ih⟩

/-- They fit if their clusters are in ASCII. -/
theorem fits_of_mem_items {words : List Text} (ascii : AsciiClusters (items g o words)) :
    ∀ item ∈ items g o words, item.Fits g o := fun item mem =>
  (Item.fits_iff_sorted (ascii item mem)).mpr (sorted_of_mem_items words item mem)

/-- A value is missing only in the last of the items of words. -/
theorem missing_not_mem_items (words : List Text) (c : Text) :
    Item.valued c none ∉ (items g o words).dropLast := by
  have behind : ∀ {item : Item} {l : List Item}, item ≠ .valued c none →
      Item.valued c none ∉ l.dropLast → Item.valued c none ∉ (item :: l).dropLast := by
    intro item l other rest mem
    cases l with
    | nil => exact absurd mem List.not_mem_nil
    | cons next l =>
      rcases List.mem_cons.mp mem with same | mem
      · exact other same.symm
      · exact rest mem
  fun_induction items g o words with
  | case1 => exact List.not_mem_nil
  | case2 => exact List.not_mem_nil
  | case3 w _ _ v rest ih => exact behind (by rintro ⟨⟩) ih
  | case4 w rest _ _ ih => exact behind (by rintro ⟨⟩) ih
  | case5 w rest _ ih => exact behind (by rintro ⟨⟩) ih

/-- The widths of items and the words of the name among them count their words, and a missing
value. -/
theorem sum_width (complete : ∀ c, Item.valued c none ∉ l.dropLast) :
    (l.map Item.width).sum + (l.flatMap Item.nameWords).length
      = (l.flatMap Item.source).length + (if lacksValue l then 1 else 0) := by
  induction l with
  | nil => rfl
  | cons item l ih =>
    rw [List.map_cons, List.sum_cons, List.flatMap_cons, List.flatMap_cons, List.length_append,
      List.length_append]
    cases l with
    | nil =>
      match item with
      | .word _ => rfl
      | .cluster _ => rfl
      | .valued _ (some _) => rfl
      | .valued _ none => rfl
    | cons next l =>
      have whole : ∀ c, item ≠ .valued c none := fun c same =>
        complete c (same ▸ List.mem_cons_self)
      have one := Item.width_add_nameWords whole
      have more := ih fun c mem => complete c (List.mem_cons_of_mem _ mem)
      have same : lacksValue (item :: next :: l) = lacksValue (next :: l) := by
        rw [lacksValue, List.getLast?_cons_cons, lacksValue]
      rw [same]
      omega

/-- The number of words that items take out of the name. -/
theorem foldl_width (l : List Item) :
    l.foldl (fun n item => n + item.width) 0 = (l.map Item.width).sum := by
  rw [List.sum_eq_foldl, List.foldl_map]

end

/-- The first of some words is an action, or there is none in front of them. -/
theorem splitAction_cases (g : Grammar) (o : Options) (words : List Text) :
    (∃ w, o.lookForAction = true ∧ (g.action? w).isSome ∧ words = w :: (splitAction g o words).2) ∨
      (o.lookForAction = true → ∀ w ∈ words.head?, g.action? w = none) ∧
        (splitAction g o words).2 = words := by
  cases words with
  | nil => exact .inr ⟨nofun, rfl⟩
  | cons w rest =>
    by_cases looked : o.lookForAction = true
    · cases found : g.action? w with
      | some a =>
        refine .inl ⟨w, looked, by rw [found]; rfl, ?_⟩
        simp [splitAction, looked, found]
      | none =>
        refine .inr ⟨fun _ w' hw => ?_, by simp [splitAction, looked, found]⟩
        cases hw
        exact found
    · exact .inr ⟨fun h => absurd h looked, by simp [splitAction, looked]⟩

/-! ## What is read off a division -/

namespace Division

variable {g : Grammar} {o : Options} {d : Division} {before after : List Item} {x y : Item}

/-- The items of a division are sorted so. -/
theorem Fits.sorted (fits : d.Fits g o) (ascii : AsciiClusters d.items) :
    ∀ item ∈ d.items, item.Sorted g o := fun item mem =>
  (Item.fits_iff_sorted (ascii item mem)).mp (fits.items item mem)

/-- The action and the other words of a division are found in its words. -/
theorem Fits.splitAction (fits : d.Fits g o) :
    splitAction g o (d.action.toList ++ d.items.flatMap Item.source)
      = (d.action.bind g.action?, d.items.flatMap Item.source) := by
  cases ha : d.action with
  | some w =>
    obtain ⟨looked, selects⟩ := fits.action w ha
    obtain ⟨a, ha⟩ := Option.isSome_iff_exists.mp selects
    simp [Flags.splitAction, looked, ha]
  | none =>
    have bare := fits.bare ha
    cases hw : d.items.flatMap Item.source with
    | nil => rfl
    | cons w rest =>
      rw [hw] at bare
      show Flags.splitAction g o (w :: rest) = _
      by_cases looked : o.lookForAction = true
      · simp [Flags.splitAction, looked, bare looked w rfl]
      · simp [Flags.splitAction, looked]

/-- **Everything that is read off the words of a division is read off the division.** -/
theorem Fits.parse_words (fits : d.Fits g o) (ascii : AsciiClusters d.items) :
    parse g o d.words
      = { command := Text.upper d.command
          action := d.action.bind g.action?
          flags := Table.ofList (d.items.flatMap (Item.flags o))
          name := Text.unwords d.nameWords
          start := 1 + (d.action.bind g.action?).toList.length
            + (d.items.map Item.width).sum } := by
  have sorted := items_flatMap_source (fits.sorted ascii) fits.complete
  have body : d.words.drop 1 = d.action.toList ++ d.items.flatMap Item.source := rfl
  rw [parse, body, fits.splitAction]
  simp only [sorted, foldl_width]
  rfl

/-- The words behind the word of a command have a division. -/
theorem exists_fits {words : List Text} (nonempty : words ≠ [])
    (ascii : AsciiClusters (itemsBehind g o words)) :
    ∃ d : Division, d.words = words ∧ d.items = itemsBehind g o words ∧ d.Fits g o := by
  obtain ⟨command, rest, rfl⟩ := List.exists_cons_of_ne_nil nonempty
  have fit : ∀ item ∈ itemsBehind g o (command :: rest), item.Fits g o := fits_of_mem_items ascii
  have complete : ∀ c, Item.valued c none ∉ (itemsBehind g o (command :: rest)).dropLast :=
    missing_not_mem_items _
  have source : (itemsBehind g o (command :: rest)).flatMap Item.source
      = (splitAction g o rest).2 := flatMap_source_items g o _
  rcases splitAction_cases g o rest with ⟨w, looked, selects, whole⟩ | ⟨bare, whole⟩
  · refine ⟨⟨command, some w, itemsBehind g o (command :: rest)⟩, ?_, rfl, ?_, nofun, fit, complete⟩
    · rw [words, source]
      exact congrArg (List.cons command) whole.symm
    · rintro w' same
      cases same
      exact ⟨looked, selects⟩
  · refine ⟨⟨command, none, itemsBehind g o (command :: rest)⟩, ?_, rfl, nofun, ?_, fit, complete⟩
    · rw [words, source, whole]
      rfl
    · intro _ looked w hw
      rw [source, whole] at hw
      exact bare looked w hw

/-- Words have one division that fits them. -/
theorem Fits.unique {d' : Division} (fits : d.Fits g o) (fits' : d'.Fits g o)
    (same : d'.words = d.words)
    (ascii : AsciiClusters d.items) : d' = d := by
  obtain ⟨command, rest⟩ := List.cons.inj same
  -- the action is the one that is looked for, and the items are those of the other words
  have parts := fits'.splitAction
  rw [rest, fits.splitAction] at parts
  obtain ⟨actions, sources⟩ := Prod.mk.inj parts
  have items : d'.items = d.items := by
    have found := items_flatMap_source (fits.sorted ascii) fits.complete
    rw [sources] at found
    have ascii' := ascii_of_flatMap_source fits'.items fits'.complete (found ▸ ascii)
    rw [← found, items_flatMap_source (fits'.sorted ascii') fits'.complete]
  have action : d'.action = d.action := by
    rw [sources] at rest
    have lists := List.append_cancel_right rest
    cases ha : d.action <;> cases ha' : d'.action <;> simp_all
  cases d
  cases d'
  simp_all

/-- Of the items that name a flag the last one decides. -/
theorem get?_flags (fits : ∀ item ∈ before, item.Fits g o)
    (ascii : AsciiClusters before) (letter : Char) :
    (Table.ofList (before.flatMap (Item.flags o))).get? letter
      = (before.reverse.find? (Item.names letter)).map (Item.given o letter) := by
  rw [Table.get?_ofList]
  induction before with
  | nil => rfl
  | cons item l ih =>
    obtain ⟨fit, fits⟩ := List.forall_mem_cons.mp fits
    obtain ⟨plain, ascii⟩ := List.forall_mem_cons.mp ascii
    rw [List.flatMap_cons, List.reverse_append, List.find?_append, Option.map_or, ih fits ascii,
      Item.find?_flags fit plain, List.reverse_cons, List.find?_append, Option.map_or,
      List.find?_singleton]
    congr 1
    split <;> rfl

/-- Neighbours that can trade places can do so in a division, if no word that may be an action
comes or goes. -/
theorem Fits.trade (fits : d.Fits g o) (whole : d.items = before ++ x :: y :: after)
    (trades : x.Trades y)
    (apart : o.lookForAction = false ∨ 2 ≤ ({ d with items := before } : Division).words.length) :
    ({ d with items := before ++ y :: x :: after } : Division).Fits g o := by
  refine ⟨fits.action, fun bare looked w hw => ?_, fun item mem => ?_, fun c mem => ?_⟩
  · -- the first word is one of an item before
    have far : 2 ≤ ({ d with items := before } : Division).words.length := by
      rcases apart with off | far
      · rw [looked] at off
        cases off
      · exact far
    have none : d.action = none := bare
    obtain ⟨first, rest, front⟩ : ∃ first rest, before.flatMap Item.source = first :: rest := by
      refine List.exists_cons_of_ne_nil fun nothing => ?_
      have alone : ({ d with items := before } : Division).words = [d.command] := by
        simp [words, none, nothing]
      rw [alone, List.length_singleton] at far
      omega
    refine fits.bare none looked w ?_
    rw [List.flatMap_append, front] at hw
    rw [whole, List.flatMap_append, front]
    exact hw
  · have order : (before ++ x :: y :: after).Perm (before ++ y :: x :: after) :=
      (List.Perm.swap y x after).append_left before
    exact fits.items item (whole ▸ order.mem_iff.mpr mem)
  · obtain ⟨other, other'⟩ := trades.ne_missing c
    refine fits.complete c ?_
    rw [whole]
    cases after with
    | nil => simp_all
    | cons z after => simp_all

/-- Neighbours that trade places leave everything that is read off the words. -/
theorem Fits.parse_trade (fits : d.Fits g o) (ascii : AsciiClusters d.items)
    (whole : d.items = before ++ x :: y :: after) (trades : x.Trades y)
    (apart : o.lookForAction = false ∨ 2 ≤ ({ d with items := before } : Division).words.length) :
    parse g o ({ d with items := before ++ y :: x :: after } : Division).words
      = parse g o d.words := by
  have order : (before ++ x :: y :: after).Perm (before ++ y :: x :: after) :=
    (List.Perm.swap y x after).append_left before
  have traded := (fits.trade whole trades apart).parse_words
    fun item mem => ascii item (whole ▸ order.mem_iff.mpr mem)
  have same : ∀ {α : Type} (f : Item → List α), f x ++ f y = f y ++ f x →
      (before ++ y :: x :: after).flatMap f = d.items.flatMap f := by
    intro α f hf
    rw [whole, List.flatMap_append, List.flatMap_append, List.flatMap_cons, List.flatMap_cons,
      List.flatMap_cons, List.flatMap_cons, ← List.append_assoc (f y), ← hf, List.append_assoc]
  have widths : ((before ++ y :: x :: after).map Item.width).sum
      = (d.items.map Item.width).sum := by
    simp only [whole, List.map_append, List.map_cons, List.sum_append, List.sum_cons]
    omega
  rw [traded, fits.parse_words ascii, nameWords, nameWords, same _ trades.flags,
    same _ trades.nameWords, widths]

/-- The words that are not part of the name are counted, a missing value included. -/
theorem Fits.start (fits : d.Fits g o) (ascii : AsciiClusters d.items) :
    (parse g o d.words).start + d.nameWords.length
      = d.words.length + (if lacksValue d.items then 1 else 0) := by
  have action : (d.action.bind g.action?).toList.length = d.action.toList.length := by
    cases ha : d.action with
    | none => rfl
    | some w =>
      obtain ⟨-, selects⟩ := fits.action w ha
      obtain ⟨a, found⟩ := Option.isSome_iff_exists.mp selects
      rw [Option.bind_some, found]
      rfl
  have counted := sum_width fits.complete
  rw [fits.parse_words ascii, action, words, List.length_cons, List.length_append, nameWords]
  show 1 + d.action.toList.length + (d.items.map Item.width).sum + _ = _
  omega

end Division

/-- The clusters among the items are in ASCII if all words are that could be clusters. -/
theorem itemsBehind_ascii {g : Grammar} {o : Options} {words : List Text}
    (ascii : ∀ w ∈ words, g.isCluster w = true → w.IsAscii) :
    AsciiClusters (itemsBehind g o words) := by
  intro item mem c hc
  have part : c ∈ (itemsBehind g o words).flatMap Item.source :=
    List.mem_flatMap.mpr ⟨item, mem, Item.mem_source hc⟩
  rw [itemsBehind, flatMap_source_items, splitAction_words] at part
  exact ascii c (List.mem_of_mem_drop (List.mem_of_mem_drop part))
    ((sorted_of_mem_items _ item mem).isCluster hc)

/-- **Words whose clusters are in ASCII have one division, and everything is read off it.**  The
words are those of the command, of an action in the first place behind it, and of items: words of
the name, clusters, and clusters with the word behind them as their value, which may be missing
at the end.  The name is made of its words in order; the words that are not part of it are
counted, with one more if the last word is a cluster that lacks its value; and a flag has what
the last cluster gives it that names it.  Where a cluster, with its value, stands next to a word
of the name, they can trade places, unless this would touch the place of an action. -/
theorem parse_division (g : Grammar) (o : Options) {words : List Text} (nonempty : words ≠ [])
    (ascii : AsciiClusters (itemsBehind g o words)) :
    ∃ d : Division, d.words = words ∧ d.Fits g o ∧
      (∀ d' : Division, d'.words = words → d'.Fits g o → d' = d) ∧
      let p := parse g o words
      p.command = Text.upper d.command ∧
      p.action = d.action.bind g.action? ∧
      p.name = Text.unwords d.nameWords ∧
      p.start + d.nameWords.length = words.length + (if lacksValue d.items then 1 else 0) ∧
      (∀ letter, p.flags.get? letter
        = (d.items.reverse.find? (Item.names letter)).map (Item.given o letter)) ∧
      ∀ before x y after, d.items = before ++ x :: y :: after → x.Trades y →
        (o.lookForAction = false ∨ 2 ≤ ({ d with items := before } : Division).words.length) →
        parse g o ({ d with items := before ++ y :: x :: after } : Division).words = p := by
  obtain ⟨d, rfl, behind, fits⟩ := Division.exists_fits nonempty ascii
  have plain : AsciiClusters d.items := behind ▸ ascii
  have read := fits.parse_words plain
  refine ⟨d, rfl, fits, fun d' same fits' => fits.unique fits' same plain, ?_, ?_, ?_,
    fits.start plain, fun letter => ?_, fun before x y after whole trades apart =>
      fits.parse_trade plain whole trades apart⟩
  · rw [read]
  · rw [read]
  · rw [read]
  · rw [read]
    exact Division.get?_flags fits.items plain letter

/-- An action, a cluster whose value looks like a cluster, and one that lacks its value; the
first cluster trades places with the words next to it. -/
theorem parse_division_values :
    let o : Options := { withArgument := ['P'] }
    let words : List Text := ["INPUT", "list", "a", "-up", "-l", "b", "-P"].map String.toList
    let d : Division := ⟨"INPUT".toList, some "list".toList,
      [.word "a".toList, .valued "-up".toList (some "-l".toList), .word "b".toList,
        .valued "-P".toList none]⟩
    words ≠ [] ∧ (∀ w ∈ words, Grammar.standard.isCluster w = true → w.IsAscii) ∧
    d.words = words ∧ d.Fits .standard o ∧
    (parse .standard o words).start + 2 = 8 ∧
    (parse .standard o words).value? 'P' = some [] ∧
    parse .standard o (["INPUT", "list", "-up", "-l", "a", "b", "-P"].map String.toList)
      = parse .standard o words ∧
    parse .standard o (["INPUT", "list", "a", "b", "-up", "-l", "-P"].map String.toList)
      = parse .standard o words := by
  intro o words d
  have nonempty : words ≠ [] := by decide
  have ascii : ∀ w ∈ words, Grammar.standard.isCluster w = true → w.IsAscii := by decide
  have fits : d.Fits .standard o := by
    refine ⟨fun w hw => ?_, nofun, ?_, fun c mem => ?_⟩
    · cases hw
      exact ⟨rfl, by decide⟩
    · have up : (Item.valued "-up".toList (some "-l".toList)).Fits .standard o :=
        ⟨by decide, 'P', by decide, by decide⟩
      have p : (Item.valued "-P".toList none).Fits .standard o :=
        ⟨by decide, 'P', by decide, by decide⟩
      have a : Grammar.standard.isCluster "a".toList = false := by decide
      have b : Grammar.standard.isCluster "b".toList = false := by decide
      simp only [d, List.forall_mem_cons]
      exact ⟨a, up, b, p, fun _ h => absurd h List.not_mem_nil⟩
    · simp [d] at mem
  obtain ⟨d', same, -, unique, -, -, -, start, flags, trade⟩ :=
    parse_division .standard o nonempty (itemsBehind_ascii ascii)
  obtain rfl : d = d' := unique d rfl fits
  refine ⟨nonempty, ascii, rfl, fits, start, ?_, ?_, ?_⟩
  · rw [Parsed.value?, flags]
    rfl
  · exact trade [] _ _ _ rfl trivial (.inr (by decide))
  · exact trade [_] _ _ _ rfl trivial (.inr (by decide))

end Flags

end Teletype
