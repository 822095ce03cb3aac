/-
# Names of aliases are completed

A line for an alias that is not finished is completed to its first words, as many as are not
part of the name, and the name of the one alias that extends what there is of the name.  The main
statement is that **the completed line has the action and the flags of the line and the name of
the alias exactly if no flags stand behind the words that are taken over, and no word of the name
is read as flags or as an action** (`Registry.complete_alias`).  Flags that stand behind a word of
the name are lost (`Registry.complete_alias_behind`).
-/
import Teletype.Completion
import Teletype.Proofs.Dispatch
import Teletype.Proofs.Division

namespace Teletype

namespace Flags

/-! ## Clusters and other words -/

namespace Grammar

/-- The clusters among words. -/
def clusters (g : Grammar) (words : List Text) : List Text := words.filter g.isCluster

/-- The other ones. -/
def others (g : Grammar) (words : List Text) : List Text := words.filter fun w => !g.isCluster w

variable {g : Grammar} {words : List Text}

/-- The clusters among words are those among their parts. -/
theorem clusters_append (a b : List Text) : g.clusters (a ++ b) = g.clusters a ++ g.clusters b :=
  List.filter_append a b

/-- So are the other words. -/
theorem others_append (a b : List Text) : g.others (a ++ b) = g.others a ++ g.others b :=
  List.filter_append a b

/-- Words without a cluster. -/
theorem clusters_eq_nil_iff : g.clusters words = [] ↔ ∀ w ∈ words, g.isCluster w = false := by
  simp only [clusters, List.filter_eq_nil_iff, Bool.not_eq_true]

/-- They are all among the other words. -/
theorem others_eq_self_iff : g.others words = words ↔ ∀ w ∈ words, g.isCluster w = false := by
  simp only [others, List.filter_eq_self, Bool.not_eq_true']

/-- Words that are all clusters. -/
theorem clusters_eq_self_iff : g.clusters words = words ↔ ∀ w ∈ words, g.isCluster w = true :=
  List.filter_eq_self

/-- None of them is among the other words. -/
theorem others_eq_nil_iff : g.others words = [] ↔ ∀ w ∈ words, g.isCluster w = true := by
  simp only [others, List.filter_eq_nil_iff, Bool.not_eq_true', Bool.not_eq_false]

/-- As many first words as there are clusters are the clusters exactly if no cluster stands
behind them. -/
theorem others_take_eq_nil_iff (words : List Text) :
    g.others (words.take (g.clusters words).length) = [] ↔
      g.clusters (words.drop (g.clusters words).length) = [] := by
  have parts : (g.clusters (words.take (g.clusters words).length)).length
      + (g.clusters (words.drop (g.clusters words).length)).length
      = (g.clusters words).length := by
    rw [← List.length_append, ← clusters_append, List.take_append_drop]
  have few : (g.clusters words).length ≤ words.length := List.length_filter_le _ _
  have taken : (words.take (g.clusters words).length).length = (g.clusters words).length :=
    List.length_take_of_le few
  rw [others_eq_nil_iff, ← List.length_filter_eq_length_iff, taken, ← List.length_eq_zero_iff]
  show (g.clusters _).length = _ ↔ _
  omega

end Grammar

variable {g : Grammar} {words body name : List Text}

/-! ## Words where no letter takes a value -/

/-- The action is selected by the first word. -/
theorem splitAction_fst (words : List Text) :
    (splitAction g {} words).1 = words.head?.bind g.action? := by
  cases words with
  | nil => rfl
  | cons w rest => cases h : g.action? w <;> simp [splitAction, h]

/-- The flags that clusters set. -/
def setBy (clusters : List Text) : Table Char Value :=
  Table.ofList (clusters.flatMap fun c => clusterFlags {} c none)

/-- Clusters set the flags of the words among which they stand, and the other words are the
name. -/
theorem items_plain (words : List Text) :
    (items g {} words).flatMap (Item.flags {})
      = (g.clusters words).flatMap (fun c => clusterFlags {} c none) ∧
    (items g {} words).flatMap Item.nameWords = g.others words ∧
    ((items g {} words).map Item.width).sum = (g.clusters words).length := by
  induction words with
  | nil => exact ⟨rfl, rfl, rfl⟩
  | cons w rest ih =>
    obtain ⟨flags, names, widths⟩ := ih
    have none : ¬ Options.takesValue {} w = true := by simp [Options.takesValue]
    rw [items.eq_def]
    by_cases cluster : g.isCluster w = true
    · simp only [if_pos cluster, if_neg none, List.flatMap_cons, List.map_cons, List.sum_cons,
        flags, names, widths]
      refine ⟨?_, ?_, ?_⟩
      · simp [Grammar.clusters, cluster, Item.flags]
      · simp [Grammar.others, cluster, Item.nameWords]
      · simp [Grammar.clusters, cluster, Item.width, Nat.add_comm]
    · simp only [if_neg cluster, List.flatMap_cons, List.map_cons, List.sum_cons,
        flags, names, widths]
      refine ⟨?_, ?_, ?_⟩
      · simp [Grammar.clusters, cluster, Item.flags]
      · simp [Grammar.others, cluster, Item.nameWords]
      · simp [Grammar.clusters, cluster, Item.width]

/-- What is read off words where no letter takes a value. -/
theorem parse_plain (words : List Text) :
    let body := (splitAction g {} (words.drop 1)).2
    let p := parse g {} words
    p.flags = setBy (g.clusters body) ∧ p.name = Text.unwords (g.others body) ∧
    p.start = 1 + p.action.toList.length + (g.clusters body).length := by
  intro body p
  obtain ⟨flags, names, widths⟩ := items_plain (g := g) body
  refine ⟨congrArg Table.ofList flags, congrArg Text.unwords names, ?_⟩
  rw [← widths, ← foldl_width]
  rfl

/-! ## A name is put behind the first words -/

/-- A name is read back from what is not a cluster exactly if that is the name. -/
theorem unwords_others_eq_iff (spaceless : ∀ w ∈ words ++ name, ' ' ∉ w) (some : name ≠ []) :
    Text.unwords (g.others (words ++ name)) = Text.unwords name ↔
      g.others (words ++ name) = name := by
  refine ⟨fun same => ?_, fun same => by rw [same]⟩
  have right : Text.words (Text.unwords name) = name :=
    Text.words_unwords (fun w hw => spaceless w (List.mem_append_right _ hw)) some
  by_cases nothing : g.others (words ++ name) = []
  · -- no words make up the empty text, which has one word, and that is no cluster
    rw [nothing] at same
    rw [← same] at right
    rw [← right, Grammar.others_append] at nothing
    cases (List.append_eq_nil_iff.mp nothing).2
  · have left := Text.words_unwords (fun w hw => spaceless w (List.mem_filter.mp hw).1) nothing
    exact left.symm.trans ((congrArg Text.words same).trans right)

/-- **As many first words as there are clusters, with a name behind them, set the flags of all
words and are read as that name exactly if no cluster stands behind those first words or in the
name.** -/
theorem rebuilt_iff (spaceless : ∀ w ∈ body ++ name, ' ' ∉ w) (some : name ≠ []) :
    let kept := body.take (g.clusters body).length
    (setBy (g.clusters (kept ++ name)) = setBy (g.clusters body) ∧
      Text.unwords (g.others (kept ++ name)) = Text.unwords name) ↔
    (∀ w ∈ body.drop (g.clusters body).length, g.isCluster w = false) ∧
      ∀ w ∈ name, g.isCluster w = false := by
  intro kept
  have near : ∀ w ∈ kept ++ name, ' ' ∉ w := by
    intro w hw
    refine spaceless w (List.mem_append.mpr ?_)
    exact (List.mem_append.mp hw).imp_left List.mem_of_mem_take
  rw [unwords_others_eq_iff near some, ← Grammar.clusters_eq_nil_iff,
    ← Grammar.others_take_eq_nil_iff, Grammar.others_append]
  constructor
  · rintro ⟨-, same⟩
    have free : ∀ w ∈ name, g.isCluster w = false := by
      intro w hw
      rw [← same, ← Grammar.others_append] at hw
      simpa using (List.mem_filter.mp hw).2
    rw [Grammar.others_eq_self_iff.mpr free] at same
    exact ⟨List.append_left_eq_self.mp same, free⟩
  · rintro ⟨first, free⟩
    have behind := (Grammar.others_take_eq_nil_iff body).mp first
    have all := Grammar.clusters_eq_self_iff.mpr (Grammar.others_eq_nil_iff.mp first)
    have whole : g.clusters body = kept :=
      calc g.clusters body
          = g.clusters (kept ++ body.drop (g.clusters body).length) :=
            congrArg g.clusters (List.take_append_drop _ body).symm
        _ = kept := by rw [Grammar.clusters_append, all, behind, List.append_nil]
    constructor
    · rw [whole, Grammar.clusters_append, all, Grammar.clusters_eq_nil_iff.mpr free,
        List.append_nil]
    · rw [first, Grammar.others_eq_self_iff.mpr free, List.nil_append]

section

variable {rest : List Text} (more : rest ≠ [])

include more

/-- First words are kept, if there are any: the action is selected as before, or by the name. -/
theorem splitAction_fst_take (n : Nat) (whole : n = 0 → (splitAction g {} rest).1 = none) :
    (splitAction g {} (rest.take n ++ name)).1 = (splitAction g {} rest).1 ↔
      (n = 0 → name.head?.bind g.action? = none) := by
  rw [splitAction_fst] at whole
  rw [splitAction_fst, splitAction_fst]
  obtain ⟨w, ws, rfl⟩ := List.exists_cons_of_ne_nil more
  cases n with
  | zero =>
    rw [whole rfl]
    exact ⟨fun same _ => same, fun none => none rfl⟩
  | succ n => exact ⟨nofun, fun _ => rfl⟩

/-- Behind the same action the name stands behind the words that are kept. -/
theorem splitAction_snd_take {n k : Nat}
    (count : n = (splitAction g {} rest).1.toList.length + k)
    (same : (splitAction g {} (rest.take n ++ name)).1 = (splitAction g {} rest).1) :
    (splitAction g {} (rest.take n ++ name)).2 = (splitAction g {} rest).2.take k ++ name := by
  have one : (splitAction g {} rest).1.toList.length ≤ 1 := Option.length_toList_le
  have some : 0 < rest.length := List.length_pos_iff.mpr more
  have few : (splitAction g {} rest).1.toList.length ≤ (rest.take n).length := by
    rw [List.length_take]
    omega
  rw [splitAction_words, same, List.drop_append_of_le_length few, List.drop_take, splitAction_words,
    count, Nat.add_sub_cancel_left]

/-- **A name that is put behind the first words of a command, as many as are not part of the name,
is read back with the action and the flags of the command exactly if no cluster stands behind
those words or in the name, and the name does not begin with an action where nothing stands
before it.** -/
theorem parse_rebuilt (command : Text) (spaceless : ∀ w ∈ rest ++ name, ' ' ∉ w)
    (some : name ≠ []) :
    let words := command :: rest
    let p := parse g {} words
    let q := parse g {} (words.take p.start ++ name)
    (q.action = p.action ∧ q.flags = p.flags ∧ q.name = Text.unwords name) ↔
      (∀ w ∈ words.drop p.start, g.isCluster w = false) ∧ (∀ w ∈ name, g.isCluster w = false) ∧
        (p.start = 1 → name.head?.bind g.action? = none) := by
  intro words p q
  let body := (splitAction g {} rest).2
  let k := (g.clusters body).length
  let n := p.action.toList.length + k
  obtain ⟨flags, -, counted⟩ : p.flags = setBy (g.clusters body) ∧ p.name = _ ∧
    p.start = 1 + p.action.toList.length + k := parse_plain words
  have start : p.start = n + 1 := by omega
  have front : (words.take p.start ++ name).drop 1 = rest.take n ++ name := by rw [start]; rfl
  have dropped : body = rest.drop p.action.toList.length := splitAction_words g {} rest
  have back : words.drop p.start = body.drop k :=
    calc words.drop p.start = rest.drop n := by rw [start]; rfl
      _ = (rest.drop p.action.toList.length).drop k := List.drop_drop.symm
      _ = body.drop k := congrArg (List.drop k) dropped.symm
  have action : q.action = (splitAction g {} (rest.take n ++ name)).1 := by rw [← front]; rfl
  have selected : q.action = p.action ↔ (p.start = 1 → name.head?.bind g.action? = none) := by
    have zero : p.start = 1 ↔ n = 0 := by omega
    rw [action, zero]
    refine splitAction_fst_take more n fun nothing => ?_
    have empty : p.action.toList = [] := List.eq_nil_of_length_eq_zero (by omega)
    exact Option.toList_eq_nil_iff.mp empty
  have read (same : q.action = p.action) :
      (q.flags = p.flags ∧ q.name = Text.unwords name) ↔
        (∀ w ∈ body.drop k, g.isCluster w = false) ∧ ∀ w ∈ name, g.isCluster w = false := by
    have others := splitAction_snd_take more (n := n) rfl (action.symm.trans same)
    obtain ⟨flags', name', -⟩ := parse_plain (g := g) (words.take p.start ++ name)
    rw [front, others] at flags' name'
    rw [flags, flags', name']
    refine rebuilt_iff (fun w hw => spaceless w (List.mem_append.mpr ?_)) some
    refine (List.mem_append.mp hw).imp_left fun part => ?_
    rw [dropped] at part
    exact List.mem_of_mem_drop part
  rw [← selected, back]
  constructor
  · rintro ⟨same, rest⟩
    obtain ⟨behind, free⟩ := (read same).mp rest
    exact ⟨behind, free, same⟩
  · rintro ⟨behind, free, same⟩
    exact ⟨same, (read same).mpr ⟨behind, free⟩⟩

end

end Flags

/-! ## Lines for aliases -/

/-- The first words of a line, with a text behind them, have these words and those of the text. -/
theorem Text.words_take_append (line t : Text) {n : Nat} (some : n ≠ 0) :
    words (unwords ((words line).take n) ++ ' ' :: t) = (words line).take n ++ words t := by
  have taken : (words line).take n ≠ [] := by simp [some, words, cut_ne_nil]
  rw [words_append, words_unwords (fun w hw => ?_) taken]
  exact not_mem_of_mem_cut (List.mem_of_mem_take hw)

/-- The only one of some texts is the one that is among them. -/
theorem Command.mem_iff_of_only? {l : List Text} {t : Text} (h : only? l = some t) (x : Text) :
    x ∈ l ↔ x = t := by
  match l, h with
  | [_], rfl => exact List.mem_singleton

namespace Registry

variable {s : Session} {line c : Text}

/-- A line for an alias is completed by the command for aliases. -/
theorem complete_eq_completeAlias (first : Text.upper (Text.firstWord line) = "ALIAS".toList)
    (more : 2 ≤ (Text.words line).length) :
    builtin.complete s line = Command.completeAlias s (Text.words line) := by
  have named : Builtin.named? (Text.firstWord line) = some .aliases := by
    rw [Builtin.named?, first]
    decide +kernel
  have found := find?_builtin (Text.firstWord line)
  rw [named] at found
  obtain ⟨word, rest, hw⟩ := List.exists_cons_of_length_pos (Nat.lt_of_succ_lt more)
  rw [hw] at more
  obtain ⟨next, words, rfl⟩ := List.exists_cons_of_length_pos (Nat.lt_of_succ_lt_succ more)
  have whole : builtin.find? word = some Builtin.aliases.command := by
    rwa [Text.firstWord, hw] at found
  rw [complete, hw]
  show (builtin.find? word).bind _ = _
  rw [whole]
  rfl

/-- **A completed line for an alias has the action and the flags of the line and the name of the
alias exactly if no cluster of flags stands behind the words that are taken over, none stands in
the name, and the name does not begin with an action where it stands first.**  A line with more
than one word is completed only if one alias alone has a name that begins, in capitals, as the
name in the line does.  The completed line has the first words of the line, as many as are not
part of the name, and the name of that alias. -/
theorem complete_alias (first : Text.upper (Text.firstWord line) = "ALIAS".toList)
    (more : 2 ≤ (Text.words line).length) (completed : builtin.complete s line = some c) :
    let p := Flags.parse .standard {} (Text.words line)
    let q := Flags.parse .standard {} (Text.words c)
    ∃ name, (∀ key, key ∈ s.aliases.keys ∧ Text.upper p.name <+: key ↔ key = name) ∧
      c = Text.unwords ((Text.words line).take p.start) ++ ' ' :: name ∧
      ((q.action = p.action ∧ q.flags = p.flags ∧ q.name = name) ↔
        (∀ w ∈ (Text.words line).drop p.start, Flags.Grammar.standard.isCluster w = false) ∧
        (∀ w ∈ Text.words name, Flags.Grammar.standard.isCluster w = false) ∧
        (p.start = 1 → Flags.Grammar.standard.action? (Text.firstWord name) = none)) := by
  intro p q
  rw [complete_eq_completeAlias first more] at completed
  obtain ⟨name, only, rfl⟩ := Option.map_eq_some_iff.mp completed
  refine ⟨name, fun key => ?_, rfl, ?_⟩
  · rw [← Command.mem_iff_of_only? only, List.mem_filter, List.isPrefixOf_iff_prefix]
  · obtain ⟨command, rest, words⟩ : ∃ command rest, Text.words line = command :: rest :=
      List.exists_cons_of_ne_nil (Text.cut_ne_nil ' ' line)
    have behind : rest ≠ [] := by
      rintro rfl
      rw [words, List.length_singleton] at more
      omega
    have spaceless : ∀ w ∈ rest ++ Text.words name, ' ' ∉ w := by
      intro w hw
      rcases List.mem_append.mp hw with front | back
      · have among : w ∈ Text.words line := words ▸ List.mem_cons_of_mem _ front
        exact Text.not_mem_of_mem_cut among
      · exact Text.not_mem_of_mem_cut back
    have counted : p.start = _ := (Flags.parse_plain (Text.words line)).2.2
    have rebuilt := Text.words_take_append line name (n := p.start) (by omega)
    have read := Flags.parse_rebuilt (g := .standard) behind command spaceless
      (Text.cut_ne_nil ' ' name)
    rw [← words, Text.unwords_words, Text.head?_words] at read
    have same : q = Flags.parse .standard {} ((Text.words line).take p.start ++ Text.words name) :=
      congrArg (Flags.parse .standard {}) rebuilt
    rw [same]
    exact read

/-- Of two aliases one begins as the name does, and the flag stands before the name. -/
theorem complete_alias_flagged :
    let s : Session := { Session.ofSettings {} with
      aliases := (Table.empty.insert "FOO".toList .empty).insert "BAR".toList .empty }
    let line := "alias -d fo".toList
    let p := Flags.parse .standard {} (Text.words line)
    let q := Flags.parse .standard {} (Text.words "alias -d FOO".toList)
    Text.upper (Text.firstWord line) = "ALIAS".toList ∧ 2 ≤ (Text.words line).length ∧
    builtin.complete s line = some "alias -d FOO".toList ∧
    q.action = p.action ∧ q.flags = p.flags ∧ q.name = "FOO".toList := by
  intro s line p q
  have first : Text.upper (Text.firstWord line) = "ALIAS".toList := by decide
  have more : 2 ≤ (Text.words line).length := by decide
  have completed : builtin.complete s line = some "alias -d FOO".toList := by
    rw [complete_eq_completeAlias first more]
    decide +kernel
  have found : "FOO".toList ∈ s.aliases.keys ∧ Text.upper p.name <+: "FOO".toList := by
    decide +kernel
  obtain ⟨name, only, -, same⟩ := complete_alias first more completed
  have name_eq : "FOO".toList = name := (only "FOO".toList).mp found
  rw [← name_eq] at same
  refine ⟨first, more, completed, same.mpr ⟨?_, ?_, ?_⟩⟩ <;> decide +kernel

/-- A flag behind the name is lost, and what there was of the name stays.  The name of an alias
that is a word for an action is read as the action. -/
theorem complete_alias_behind :
    let named := fun name : Text =>
      { Session.ofSettings {} with aliases := Table.empty.insert name .empty }
    let read := fun line : String => Flags.parse .standard {} (Text.words line.toList)
    builtin.complete (named "FOO".toList) "ALIAS FO -d".toList = some "ALIAS FO FOO".toList ∧
    (read "ALIAS FO -d").name = "FO".toList ∧ (read "ALIAS FO -d").has 'D' = true ∧
    (read "ALIAS FO FOO").name = "FO FOO".toList ∧ (read "ALIAS FO FOO").has 'D' = false ∧
    builtin.complete (named "RECALL".toList) "ALIAS REC".toList = some "ALIAS RECALL".toList ∧
    (read "ALIAS REC").action = none ∧
    (read "ALIAS RECALL").action = some "recall".toList ∧ (read "ALIAS RECALL").name = [] := by
  decide +kernel

end Registry

end Teletype
