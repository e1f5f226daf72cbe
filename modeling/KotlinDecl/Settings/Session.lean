import KotlinDecl.Edit
import KotlinDecl.Layout
import KotlinDecl.Settings.Basic
import KotlinDecl.Settings.Yaml

namespace KotlinDecl

/-- As much of either format as plain settings need. -/
def Settings.Codecs.simple : Codecs where
  yaml := ⟨fun text => (Yaml.read? text).elim (.error .malformedYaml) .ok, Yaml.writeEntries 0⟩
  json := ⟨fun text => (Json.read? text).elim (.error .malformedJson) .ok,
    fun entries => Json.write 0 (.map entries)⟩

inductive Shared
  | unset
  | own (s : Settings)
  | current
  deriving Repr

structure Session where
  codecs : Settings.Codecs := .simple
  directory : Directory := {}
  override : String := ""
  current : Option Settings := none
  shared : Shared := .unset

namespace Session

def write (file text : String) : Edit Session Unit :=
  modify fun s => { s with directory := s.directory.write file text }

def setOverride (value : Option String) : Edit Session Unit :=
  modify fun s => { s with override := value.getD "" }

/-- New settings at hand. Shared settings stay the ones they were. -/
def replaceCurrent (new : Settings) : Edit Session Unit :=
  modify fun s => { s with
    current := some new
    shared :=
      match s.shared, s.current with
      | .current, some old => .own old
      | shared, _ => shared }

def load (file : Option String) : Edit Session Settings := do
  let s ← get
  let settings ← Edit.require (Settings.load s.codecs s.directory s.override file)
  replaceCurrent settings
  return settings

def currentSettings : Edit Session Settings := do
  Edit.require ((← get).current.elim (.error .lacking) .ok)

def setIndentSize (size : Datum) : Edit Session Settings := do
  let changed := { ← currentSettings with indentSize := size }
  modify fun s => { s with current := some changed }
  return changed

def save : Edit Session String := do
  let settings ← currentSettings
  let s ← get
  let d ← Edit.require (settings.save s.codecs s.directory)
  modify fun s => { s with directory := d }
  return settings.text s.codecs

def share (use : Bool) : Edit Session Unit :=
  modify fun s => { s with shared := if use && s.current.isSome then .current else .unset }

def sharedSettings : Edit Session (Settings × Bool) := do
  let s ← get
  match s.shared, s.current with
  | .own settings, _ => return (settings, false)
  | .current, some settings => return (settings, true)
  | _, _ => do
    let settings ← Edit.require (Settings.load s.codecs s.directory s.override none)
    modify fun s => { s with shared := .own settings }
    return (settings, false)

def unit : Edit Session String := do
  Edit.require (← sharedSettings).1.unit

/-- Carries out something that may need the indentation unit. The shared settings are looked at
only if it does. -/
def demand {α : Type} (f : IndentUnit → Except Error α) : Edit Session α := do
  match f (.error .noUnit) with
  | .error .noUnit => do Edit.require (f (.ok (← unit)))
  | r => Edit.require r

end Session

end KotlinDecl
