import KotlinDecl.Directory
import KotlinDecl.Error
import KotlinDecl.Settings.Datum
import KotlinDecl.Text.Digit

namespace KotlinDecl

structure Settings where
  file : String
  indentSize : Datum
  deriving Repr

namespace Settings

/-- A format that files are kept in, with whatever reads and writes it. -/
structure Codec where
  read : String → Except Error Datum
  write : List (String × Datum) → String

structure Codecs where
  yaml : Codec
  json : Codec

def defaultIndentSize : Datum := .int 2

def yamlFile : String := "declgen_config.yaml"

def jsonFile : String := "declgen_config.json"

def fileFor (d : Directory) (asked : Option String) : String :=
  match asked with
  | some file => if file.isEmpty then usual else file
  | none => usual
where
  usual : String := if d.contains yamlFile then yamlFile else jsonFile

def isYaml (file : String) : Bool :=
  let ending := String.ofList ((Directory.suffix file).map Char.toLower)
  ending = ".yaml" || ending = ".yml"

def Codecs.forFile (codecs : Codecs) (file : String) : Codec :=
  if isYaml file then codecs.yaml else codecs.json

/-- What a file says. A missing file, and one that says nothing, is an empty mapping. -/
def readData (codecs : Codecs) (d : Directory) (file : String) : Except Error Datum :=
  match d.read? file with
  | none => .ok (.map [])
  | some text => do
    let data ← (codecs.forFile file).read text
    return if data.isTrue then data else .map []

def entriesOf : Datum → Except Error (List (String × Datum))
  | .map entries => .ok entries
  | _ => .error .lacking

def sizeIn (data : Datum) : Except Error Datum := do
  let render ← entriesOf ((Datum.get? "render" (← entriesOf data)).getD (.map []))
  return (Datum.get? "indent_size" render).getD defaultIndentSize

/-- The size that the environment variable asks for. It counts only if it is all digits, and then
each of them has to be a decimal one. -/
def sizeFrom (override : String) : Except Error (Option Datum) :=
  let cs := override.toList
  if cs.isEmpty || !cs.all Text.isDigit then .ok none
  else
    match Text.decimalNumber? cs with
    | some n => .ok (some (.int n))
    | none => .error .notNumeral

def ofData (file : String) (data : Datum) (override : String) : Except Error Settings := do
  let size ← sizeIn data
  return ⟨file, (← sizeFrom override).getD size⟩

def load (codecs : Codecs) (d : Directory) (override : String) (asked : Option String) :
    Except Error Settings := do
  let file := fileFor d asked
  ofData file (← readData codecs d file) override

def unit (s : Settings) : Except Error String := s.indentSize.blanks?.elim (.error .unsuited) .ok

def text (codecs : Codecs) (s : Settings) : String :=
  (codecs.forFile s.file).write
    [("version", .str "1.0"), ("description", .str "declgen configuration"),
      ("render", .map [("indent_size", s.indentSize)])]

def save (codecs : Codecs) (s : Settings) (d : Directory) : Except Error Directory :=
  if d.hasFolderOf s.file then .ok (d.write s.file (s.text codecs)) else .error .noSuchFile

end Settings

end KotlinDecl
