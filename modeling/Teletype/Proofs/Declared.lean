/-
# Flags that are declared

A word is taken for a cluster by its capitals, and among them are capitals that a character
outside ASCII has: the long s has `S`, the dotless i has `I`, and the ligatures of f have `F`
and more.  The letters that a cluster sets are its own characters, and of these only those in
ASCII are taken as capitals.  The main statement is that **where the letters of a grammar are
capitals of ASCII, all flags that are set are declared exactly if all clusters are in ASCII,
such a cluster sets its capitals and takes the value that one of them takes, and every cluster
is in ASCII exactly if none of F, I and S is a letter of the grammar** (`Flags.parse_declared`).
-/
import Teletype.Proofs.Division

namespace Teletype

/-! ## Capitals of characters outside ASCII -/

namespace Text

/-- A capital is one of ASCII by its code. -/
theorem isUpper_iff (c : Char) : c.isUpper = true ↔ 65 ≤ c.toNat ∧ c.toNat ≤ 90 := by
  have range : c.isUpper = decide ('A'.val ≤ c.val ∧ c.val ≤ 'Z'.val) := rfl
  rw [range, decide_eq_true_eq, UInt32.le_iff_toNat_le, UInt32.le_iff_toNat_le]
  rfl

/-- A code stands for its character, or for no character. -/
theorem toNat_ofNat (n : Nat) : (Char.ofNat n).toNat = n ∨ (Char.ofNat n).toNat = 0 := by
  by_cases valid : n.isValidChar
  · have own : Char.ofNat n = Char.ofNatAux n valid := dif_pos valid
    rw [own]
    exact .inl rfl
  · have other : Char.ofNat n = '\x00' := dif_neg valid
    rw [other]
    exact .inr rfl

/-- A character outside ASCII is its own ASCII capital. -/
theorem toUpper_of_foreign {c : Char} (foreign : 128 ≤ c.toNat) : c.toUpper = c := by
  refine dif_neg ?_
  rintro ⟨-, le⟩
  have small : c.toNat ≤ 122 := le
  omega

/-- The capitals of a character outside ASCII are given by codes.  No code is that of the
hyphen, and codes that are all capitals of ASCII have F, I or S among them. -/
theorem exists_codes {c : Char} (foreign : 128 ≤ c.toNat) :
    ∃ codes : List Nat, upperChar c = codes.map Char.ofNat ∧ 45 ∉ codes ∧
      ((∀ k ∈ codes, 65 ≤ k ∧ k ≤ 90) → 70 ∈ codes ∨ 73 ∈ codes ∨ 83 ∈ codes) := by
  have runs : ∀ r ∈ caseRuns, 65 ≤ r.image ∧
      (90 < r.image ∨ r.first = r.last ∧ (r.image = 73 ∨ r.image = 83)) := by decide +kernel
  have expanded : ∀ e ∈ expansions, 45 ∉ e.2 ∧
      ((∀ k ∈ e.2, 65 ≤ k ∧ k ≤ 90) → 70 ∈ e.2 ∨ 73 ∈ e.2 ∨ 83 ∈ e.2) := by decide +kernel
  have outside : ¬ c.toNat < 128 := Nat.not_lt.mpr foreign
  rw [upperChar, if_neg outside]
  split
  · next r found =>
    obtain ⟨low, high⟩ := runs r (List.mem_of_find?_eq_some found)
    have holds := List.find?_some found
    simp only [CaseRun.holds, Bool.and_eq_true, decide_eq_true_eq] at holds
    refine ⟨[r.capital c.toNat], rfl, ?_, fun letters => ?_⟩
    · simp only [List.mem_singleton, CaseRun.capital]
      omega
    · have letter := letters _ (List.mem_singleton.mpr rfl)
      simp only [List.mem_singleton, CaseRun.capital] at letter ⊢
      omega
  · split
    · next codes found =>
      obtain ⟨front, rest, whole, -⟩ := List.lookup_eq_some_iff.mp found
      have listed : (c.toNat, codes) ∈ expansions := by rw [whole]; simp
      exact ⟨codes, rfl, expanded _ listed⟩
    · refine ⟨[c.toNat], by simp, ?_, fun letters => ?_⟩
      · simp only [List.mem_singleton]
        omega
      · have letter := letters _ (List.mem_singleton.mpr rfl)
        omega

/-- The capitals of a character outside ASCII, if all are in ASCII, have F, I or S among them. -/
theorem mem_upperChar_of_foreign {c : Char} (foreign : 128 ≤ c.toNat)
    (capital : ∀ d ∈ upperChar c, d.isUpper = true) :
    'F' ∈ upperChar c ∨ 'I' ∈ upperChar c ∨ 'S' ∈ upperChar c := by
  obtain ⟨codes, same, -, letters⟩ := exists_codes foreign
  rw [same] at capital ⊢
  have small : ∀ k ∈ codes, 65 ≤ k ∧ k ≤ 90 := by
    intro k hk
    have upper := (isUpper_iff _).mp (capital _ (List.mem_map_of_mem hk))
    rcases toNat_ofNat k with code | code <;> rw [code] at upper
    · exact upper
    · omega
  rcases letters small with f | i | s
  · exact .inl (List.mem_map_of_mem f)
  · exact .inr (.inl (List.mem_map_of_mem i))
  · exact .inr (.inr (List.mem_map_of_mem s))

/-- Only the hyphen has a hyphen among its capitals. -/
theorem eq_hyphen_of_mem_upperChar {c : Char} (mem : '-' ∈ upperChar c) : c = '-' := by
  by_cases ascii : c.toNat < 128
  · rw [upperChar_of_ascii ascii, List.mem_singleton] at mem
    have hyphen : ∀ n < 128, '-' = (Char.ofNat n).toUpper → Char.ofNat n = '-' := by
      decide +kernel
    have same := hyphen c.toNat ascii
    rw [Char.ofNat_toNat] at same
    exact same mem
  · obtain ⟨codes, same, absent, -⟩ := exists_codes (Nat.not_lt.mp ascii)
    rw [same] at mem
    obtain ⟨k, hk, code⟩ := List.mem_map.mp mem
    have hyphen : (Char.ofNat k).toNat = 45 := congrArg Char.toNat code
    rcases toNat_ofNat k with same | same <;> rw [same] at hyphen
    · exact absurd (hyphen ▸ hk) absent
    · cases hyphen

/-- Capitals begin with a hyphen only if the text does. -/
theorem eq_hyphen_cons_of_upper {t rest : Text} (h : upper t = '-' :: rest) :
    ∃ more, t = '-' :: more ∧ upper more = rest := by
  cases t with
  | nil => cases h
  | cons c more =>
    obtain ⟨first, others, front⟩ := List.exists_cons_of_ne_nil (upperChar_ne_nil c)
    rw [upper_cons, front, List.cons_append] at h
    obtain ⟨rfl, -⟩ := List.cons.inj h
    obtain rfl : c = '-' := eq_hyphen_of_mem_upperChar (front ▸ List.mem_cons_self)
    cases front
    exact ⟨more, rfl, (List.cons.inj h).2⟩

end Text

namespace Flags

variable {g : Grammar} {o : Options} {c : Text} {x letter : Char} {words : List Text}

/-! ## The letters of a cluster -/

/-- A text is a cluster if its capitals are a hyphen and letters of the grammar. -/
theorem Grammar.isCluster_of_upper (letters : List Char) (h : Text.upper c = '-' :: letters)
    (some : letters ≠ []) (declared : ∀ l ∈ letters, l ∈ g.modifiers) : g.isCluster c = true := by
  obtain ⟨l, ls, rfl⟩ := List.exists_cons_of_ne_nil some
  rw [Grammar.isCluster, h]
  exact List.all_eq_true.mpr fun x mem => decide_eq_true (declared x mem)

/-- A cluster is a hyphen and characters whose capitals are letters of the grammar. -/
theorem Grammar.exists_of_isCluster (h : g.isCluster c = true) :
    ∃ rest, c = '-' :: rest ∧ capitals c = Text.upper rest ∧ ∀ l ∈ capitals c, l ∈ g.modifiers := by
  unfold Grammar.isCluster at h
  split at h
  · next l ls upper =>
    obtain ⟨rest, rfl, more⟩ := Text.eq_hyphen_cons_of_upper upper
    have capital : capitals ('-' :: rest) = l :: ls := by rw [capitals, upper]; rfl
    refine ⟨rest, rfl, capital.trans more.symm, ?_⟩
    rw [capital]
    simpa using h
  · cases h

/-- A character outside ASCII in a cluster is one of the letters that the cluster sets, and its
capitals are letters of the grammar. -/
theorem mem_letters_of_foreign (cluster : g.isCluster c = true) (mem : x ∈ c)
    (foreign : 128 ≤ x.toNat) : x ∈ letters c ∧ ∀ l ∈ Text.upperChar x, l ∈ g.modifiers := by
  obtain ⟨rest, rfl, capital, declared⟩ := Grammar.exists_of_isCluster cluster
  have behind : x ∈ rest := by
    rcases List.mem_cons.mp mem with rfl | behind
    · exact absurd foreign (by decide)
    · exact behind
  refine ⟨?_, fun l hl => declared l ?_⟩
  · have own : x.toUpper ∈ letters ('-' :: rest) := List.mem_map_of_mem behind
    rwa [Text.toUpper_of_foreign foreign] at own
  · rw [capital]
    exact List.mem_flatMap.mpr ⟨x, behind, hl⟩

section

variable (lettered : ∀ m ∈ g.modifiers, m.isUpper = true)

include lettered

/-- The letters that a cluster sets are letters of the grammar exactly if it is in ASCII. -/
theorem letters_declared_iff (cluster : g.isCluster c = true) :
    (∀ l ∈ letters c, l ∈ g.modifiers) ↔ c.IsAscii := by
  constructor
  · intro declared x mem
    refine Nat.lt_of_not_le fun foreign => ?_
    obtain ⟨own, -⟩ := mem_letters_of_foreign cluster mem foreign
    have small := (Text.isUpper_iff x).mp (lettered x (declared x own))
    omega
  · intro ascii
    obtain ⟨-, -, -, declared⟩ := Grammar.exists_of_isCluster cluster
    rwa [letters_eq_capitals ascii]

/-- They are its capitals exactly if it is in ASCII. -/
theorem letters_capitals_iff (cluster : g.isCluster c = true) :
    (∀ l, l ∈ letters c ↔ l ∈ capitals c) ↔ c.IsAscii := by
  constructor
  · intro same
    obtain ⟨-, -, -, declared⟩ := Grammar.exists_of_isCluster cluster
    exact (letters_declared_iff lettered cluster).mp fun l own => declared l ((same l).mp own)
  · intro ascii l
    rw [letters_eq_capitals ascii]

/-- All clusters are in ASCII exactly if none of F, I and S is a letter of the grammar. -/
theorem isAscii_of_isCluster_iff :
    (∀ c, g.isCluster c = true → c.IsAscii) ↔
      'F' ∉ g.modifiers ∧ 'I' ∉ g.modifiers ∧ 'S' ∉ g.modifiers := by
  constructor
  · intro ascii
    refine ⟨fun declared => ?_, fun declared => ?_, fun declared => ?_⟩
    · have cluster : g.isCluster "-ﬀ".toList = true :=
        Grammar.isCluster_of_upper ['F', 'F'] (by decide) nofun (by simp [declared])
      exact absurd (ascii _ cluster) (by decide)
    · have cluster : g.isCluster "-ı".toList = true :=
        Grammar.isCluster_of_upper ['I'] (by decide) nofun (by simp [declared])
      exact absurd (ascii _ cluster) (by decide)
    · have cluster : g.isCluster "-ſ".toList = true :=
        Grammar.isCluster_of_upper ['S'] (by decide) nofun (by simp [declared])
      exact absurd (ascii _ cluster) (by decide)
  · rintro ⟨f, i, s⟩ c cluster x mem
    refine Nat.lt_of_not_le fun foreign => ?_
    obtain ⟨-, among⟩ := mem_letters_of_foreign cluster mem foreign
    rcases Text.mem_upperChar_of_foreign foreign fun d hd => lettered d (among d hd) with h | h | h
    · exact f (among _ h)
    · exact i (among _ h)
    · exact s (among _ h)

end

/-! ## The flags of a command -/

/-- The letters that an item sets are those of its cluster. -/
theorem Item.map_fst_flags (item : Item) :
    (item.flags o).map Prod.fst = item.cluster?.toList.flatMap letters := by
  cases item <;> simp [flags, cluster?, clusterFlags, Function.comp_def]

/-- The flags of a command are the letters of its clusters. -/
theorem mem_keys_parse :
    letter ∈ (parse g o words).flags.keys ↔
      ∃ item ∈ itemsBehind g o words, ∃ c, item.cluster? = some c ∧ letter ∈ letters c := by
  show letter ∈ (Table.ofList ((itemsBehind g o words).flatMap (Item.flags o))).keys ↔ _
  simp only [Table.mem_keys_ofList, List.map_flatMap, Item.map_fst_flags, List.mem_flatMap,
    Option.mem_toList]

/-- A letter that takes a value takes it if the cluster sets the letter. -/
theorem Item.Sorted.takes {item : Item} (sorted : item.Sorted g o) (h : item.cluster? = some c)
    (own : letter ∈ letters c) (takes : letter ∈ o.withArgument) :
    ∃ value, item = .valued c value ∧ (letter, .text (value.getD [])) ∈ item.flags o := by
  have takesValue : o.takesValue c = true :=
    List.any_eq_true.mpr ⟨letter, own, decide_eq_true takes⟩
  cases item with
  | word => cases h
  | cluster =>
    cases h
    rw [sorted.2] at takesValue
    cases takesValue
  | valued _ value =>
    cases h
    refine ⟨value, rfl, List.mem_map.mpr ⟨letter, own, ?_⟩⟩
    rw [if_pos takes]

/-- **Where the letters of a grammar are capitals of ASCII, flags are declared as far as
clusters are in ASCII.**  All flags that words set are letters of the grammar exactly if all
clusters among the words are in ASCII.  A cluster sets its capitals exactly if it is in ASCII,
and then each of them that takes a value takes the word behind the cluster, or the empty text if
there is none.  Every cluster is in ASCII exactly if none of F, I and S is a letter of the
grammar. -/
theorem parse_declared (lettered : ∀ m ∈ g.modifiers, m.isUpper = true) (o : Options)
    (words : List Text) :
    ((∀ letter ∈ (parse g o words).flags.keys, letter ∈ g.modifiers) ↔
      AsciiClusters (itemsBehind g o words)) ∧
    (∀ item ∈ itemsBehind g o words, ∀ c, item.cluster? = some c →
      ((∀ letter, letter ∈ (item.flags o).map Prod.fst ↔ letter ∈ capitals c) ↔ c.IsAscii) ∧
      (c.IsAscii → ∀ letter ∈ capitals c, letter ∈ o.withArgument →
        ∃ value, item = .valued c value ∧ (letter, .text (value.getD [])) ∈ item.flags o)) ∧
    ((∀ c, g.isCluster c = true → c.IsAscii) ↔
      'F' ∉ g.modifiers ∧ 'I' ∉ g.modifiers ∧ 'S' ∉ g.modifiers) := by
  have sorted : ∀ item ∈ itemsBehind g o words, item.Sorted g o := sorted_of_mem_items _
  refine ⟨?_, fun item mem c hc => ⟨?_, fun ascii letter capital takes => ?_⟩,
    isAscii_of_isCluster_iff lettered⟩
  · simp only [mem_keys_parse]
    constructor
    · intro declared item mem c hc
      have cluster := (sorted item mem).isCluster hc
      exact (letters_declared_iff lettered cluster).mp fun l own =>
        declared l ⟨item, mem, c, hc, own⟩
    · rintro ascii l ⟨item, mem, c, hc, own⟩
      have cluster := (sorted item mem).isCluster hc
      exact (letters_declared_iff lettered cluster).mpr (ascii item mem c hc) l own
  · have own : (item.flags o).map Prod.fst = letters c := by simp [Item.map_fst_flags, hc]
    rw [own]
    exact letters_capitals_iff lettered ((sorted item mem).isCluster hc)
  · rw [← letters_eq_capitals ascii] at capital
    exact (sorted item mem).takes hc capital takes

/-- A cluster with its value, and the letters of the standard grammar. -/
theorem parse_declared_standard :
    let o : Options := { withArgument := ['P'] }
    let words : List Text := ["INPUT", "-up", "Name?", "n"].map String.toList
    (∀ m ∈ Grammar.standard.modifiers, m.isUpper = true) ∧
    (∀ letter ∈ (parse .standard o words).flags.keys, letter ∈ Grammar.standard.modifiers) ∧
    ('P', .text "Name?".toList) ∈ (Item.valued "-up".toList (some "Name?".toList)).flags o ∧
    Grammar.standard.isCluster "-ſ".toList = false := by
  intro o words
  have lettered : ∀ m ∈ Grammar.standard.modifiers, m.isUpper = true :=
    List.all_eq_true.mp (by decide)
  obtain ⟨declared, each, always⟩ := parse_declared lettered o words
  have ascii := always.mpr (by decide)
  obtain ⟨-, taken⟩ := each (.valued "-up".toList (some "Name?".toList)) (by decide) _ rfl
  obtain ⟨value, same, mem⟩ := taken (by decide) 'P' (by decide) (by decide)
  refine ⟨lettered, declared.mpr fun item mem c hc => ascii c ?_, ?_, ?_⟩
  · exact (sorted_of_mem_items _ item mem).isCluster hc
  · cases same
    exact mem
  · refine Bool.eq_false_iff.mpr fun cluster => ?_
    exact absurd (ascii _ cluster) (by decide)

/-- The long s passes for the letter S, but it sets a flag of its own, and takes no value where S
takes one. -/
theorem parse_declared_foreign :
    let g : Grammar := ⟨[], ['S']⟩
    let words : List Text := ["LS", "-ſ", "x"].map String.toList
    (∀ m ∈ g.modifiers, m.isUpper = true) ∧
    g.isCluster "-ſ".toList = true ∧ capitals "-ſ".toList = ['S'] ∧
    ¬ (∀ letter ∈ (parse g {} words).flags.keys, letter ∈ g.modifiers) ∧
    (parse g {} words).has 'S' = false ∧
    (parse g { withArgument := ['S'] } words).value? 'S' = none ∧
    (parse g { withArgument := ['S'] } words).name = "x".toList := by
  intro g words
  have lettered : ∀ m ∈ g.modifiers, m.isUpper = true := List.all_eq_true.mp (by decide)
  have undeclared : ¬ ∀ letter ∈ (parse g {} words).flags.keys, letter ∈ g.modifiers := by
    intro declared
    have own : 'ſ' ∈ (parse g {} words).flags.keys := by decide
    exact absurd (declared _ own) (by decide)
  exact ⟨lettered, by decide, by decide, undeclared, by decide, by decide, by decide⟩

end Flags

end Teletype
