/-
# Trees of files

A folder holds files and folders under names, and they make up a tree.  A path leads from
a folder to what stands below it, name by name.  The main statements are that what was put
in the place of something stands there, and that nothing beside its path is touched.
-/
import Teletype.Text

namespace Teletype

/-- The way from a folder to a file or folder below it: the names that lead there. -/
abbrev Path := List Text

/-- The path as a text. -/
def Path.text (p : Path) : Text := Text.join '/' p

/-- A file, or a folder with all that stands below it. -/
inductive Tree
  /-- A file and its bytes. -/
  | file (bytes : ByteArray)
  /-- A folder and what stands in it under names. -/
  | folder (members : List (Text × Tree))

namespace Tree

/-- A folder in which nothing stands. -/
def empty : Tree := folder []

/-- What stands right below under a name. -/
def member? : Tree → Text → Option Tree
  | file _, _ => none
  | folder members, name => members.lookup name

/-- What stands at a path. -/
def find? : Tree → Path → Option Tree
  | t, [] => some t
  | t, name :: rest => (t.member? name).bind fun below => below.find? rest

/-- Put a tree under a name among the members of a folder, in place of the one there. -/
def putMember (name : Text) (new : Tree) : List (Text × Tree) → List (Text × Tree)
  | [] => [(name, new)]
  | m :: rest => if m.1 = name then (name, new) :: rest else m :: putMember name new rest

/-- Put a tree at a path, with the folders that lead there.  Below a file nothing can be
put. -/
def put : Tree → Path → Tree → Tree
  | _, [], new => new
  | file bytes, _ :: _, _ => file bytes
  | folder members, name :: rest, new =>
    folder (putMember name (put ((members.lookup name).getD empty) rest new) members)

mutual

/-- The files of a tree with their paths. -/
def files : Tree → List (Path × ByteArray)
  | file bytes => [([], bytes)]
  | folder members => filesOf members

/-- The files of the members of a folder with their paths. -/
def filesOf : List (Text × Tree) → List (Path × ByteArray)
  | [] => []
  | (name, t) :: rest => t.files.map (fun e => (name :: e.1, e.2)) ++ filesOf rest

end

/-- Looking a name up among members, one member at a time. -/
theorem lookup_cons (name other : Text) (t : Tree) (members : List (Text × Tree)) :
    List.lookup other ((name, t) :: members) =
      if other = name then some t else members.lookup other := by
  by_cases h : other = name
  · simp [h]
  · have : (other == name) = false := by simpa using h
    simp [List.lookup_cons, h, this]

/-- A tree that was put under a name stands there, and other names are not touched. -/
theorem lookup_putMember (name other : Text) (new : Tree) (members : List (Text × Tree)) :
    (putMember name new members).lookup other =
      if other = name then some new else members.lookup other := by
  induction members with
  | nil => exact lookup_cons name other new []
  | cons m rest ih =>
    obtain ⟨key, t⟩ := m
    unfold putMember
    split
    · next hk => subst hk; simp only [lookup_cons]; split <;> rfl
    · next hk => simp only [lookup_cons, ih]; grind

/-- **What was put in the place of something stands there.** -/
theorem find?_put {old : Tree} {path : Path} {t : Tree} (h : t.find? path = some old)
    (new : Tree) : (t.put path new).find? path = some new := by
  induction path generalizing t with
  | nil => rfl
  | cons name rest ih =>
    cases t with
    | file bytes => simp [find?, member?] at h
    | folder members =>
      obtain ⟨below, hb, ho⟩ := Option.bind_eq_some_iff.mp h
      have hb : members.lookup name = some below := hb
      simp [put, find?, member?, lookup_putMember, hb, ih ho]

/-- Nothing stands below an empty folder. -/
theorem find?_empty {path : Path} (h : path ≠ []) : empty.find? path = none := by
  cases path with
  | nil => exact absurd rfl h
  | cons name rest => rfl

/-- **What lies beside a path is not touched by what is put at the path.** -/
theorem find?_put_of_beside {path other : Path} (below : ¬ path <+: other)
    (above : ¬ other <+: path) (t new : Tree) : (t.put path new).find? other = t.find? other := by
  induction path generalizing other t with
  | nil => exact absurd List.nil_prefix below
  | cons name rest ih =>
    cases other with
    | nil => exact absurd List.nil_prefix above
    | cons first others =>
      cases t with
      | file bytes => rfl
      | folder members =>
        simp only [put, find?, member?, lookup_putMember]
        split
        · next same =>
          subst same
          rw [List.cons_prefix_cons] at below above
          have below : ¬ rest <+: others := fun h => below ⟨rfl, h⟩
          have above : ¬ others <+: rest := fun h => above ⟨rfl, h⟩
          have deeper : others ≠ [] := fun h => above (h ▸ List.nil_prefix)
          rw [Option.bind_some, ih below above]
          cases members.lookup first with
          | none => exact find?_empty deeper
          | some tree => rfl
        · rfl

end Tree

end Teletype
