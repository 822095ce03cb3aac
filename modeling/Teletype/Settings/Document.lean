/-
# Settings in documents

The settings that a document gives.  A setting that is not given has its default; one of
the wrong kind makes the document unreadable, and this comes before any rule that the
settings break.  Keys that are no settings are ignored.  The main statement is that no
settings come from a file that break a rule.
-/
import Teletype.Settings
import Teletype.Store.Folder
import Teletype.Toml

namespace Teletype

namespace Settings

/-- What a key gives: the default if it is not there, and what is read from what stands
under it if that is of the right kind. -/
def setting? {α : Type} (m : Toml.Members) (key : String) (missing : α)
    (read : Toml.Node → Option α) : Option α :=
  match m.find? key.toList with
  | none => some missing
  | some node => read node

/-- A number that is not below zero. -/
def natural? : Toml.Node → Option Nat
  | .integer i => if 0 ≤ i then some i.toNat else none
  | _ => none

/-- A string. -/
def text? : Toml.Node → Option Text
  | .text t => some t
  | _ => none

/-- A truth value. -/
def truth? : Toml.Node → Option Bool
  | .truth b => some b
  | _ => none

/-- The name of one of several choices: a string, or the only key of a table in which
nothing stands under it. -/
def choice? : Toml.Node → Option Text
  | .text t => some t
  | .table _ [(name, .table _ [])] => some name
  | .table _ [(name, .array [])] => some name
  | _ => none

/-- The settings that the members of a document give, whether or not they break a rule. -/
def ofMembers? (m : Toml.Members) : Option Settings := do
  let base : Settings := {}
  let columns ← setting? m "columns" base.columns natural?
  let rows ← setting? m "rows" base.rows natural?
  let prompt ← setting? m "prompt" base.prompt text?
  let account ← setting? m "account" base.account text?
  let path ← setting? m "path" base.path text?
  let color ← setting? m "color" base.color fun node => (choice? node).bind Color.ofName?
  let theme ← setting? m "theme" base.theme fun node => (choice? node).bind Theme.ofName?
  let delay ← setting? m "print_delay_ms" base.delay natural?
  let jumpBudget ← setting? m "jump_budget" base.jumpBudget natural?
  let storageKey ← setting? m "storage_key" base.storageKey text?
  let dataFolder ← setting? m "data_dir" base.dataFolder text?
  let debug ← setting? m "debug" base.debug truth?
  pure { columns, rows, prompt, account, path, color, theme, delay, jumpBudget, storageKey,
         dataFolder, debug }

/-- The settings that a text gives. -/
def read (t : Text) : Except Fault Settings :=
  match (Toml.read? t).bind ofMembers? with
  | none => .error (.badSettings "not a document of settings".toList)
  | some s => s.check

/-- The settings that a file gives; without a file they are the defaults. -/
def load : Option Entry → Except Fault Settings
  | none => .ok {}
  | some .folder => .error (.fileSystem Refusal.isFolder.text)
  | some (.file bytes) =>
    match Text.ofBytes? bytes with
    | none => .error (.fileSystem Refusal.notText.text)
    | some t => read t

/-- **Settings that are loaded break no rule**, those of a document and the defaults alike. -/
theorem breach?_of_load {e : Option Entry} {s : Settings} (h : load e = .ok s) :
    s.breach? = none := by
  cases e with
  | none =>
    cases h
    decide
  | some entry =>
    cases entry with
    | folder => cases h
    | file bytes =>
      simp only [load] at h
      split at h
      · cases h
      · simp only [read] at h
        split at h
        · cases h
        · obtain ⟨rfl, whole⟩ := check_eq_ok_iff.mp h
          exact whole

end Settings

end Teletype
