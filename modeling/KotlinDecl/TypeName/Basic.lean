import KotlinDecl.Rendering
import KotlinDecl.Name
import KotlinDecl.Text.Dotted
import KotlinDecl.Text.Upper

namespace KotlinDecl

def Value.asName (unit : IndentUnit) (place : NamePlace) (v : Value) : Except Error String := do
  match v with
  | .str s => if isName s then return s
  | _ => pure ()
  .error (.configuration (.invalidName place (← v.text unit)) none)

namespace TypeName

def ofNames (unit : IndentUnit) (package : Option String) (names : List Value) (nullable : Bool) :
    Except Error TypeName := do
  if names.isEmpty then .error (.configuration .noSimpleName none)
  return .named package (← names.mapM (·.asName unit .className)) nullable

def isCapitalized : List Char → Bool
  | [] => false
  | c :: _ => Text.isUpper c

/-- Splits a dotted name in front of its first capitalized piece. -/
def guess (unit : IndentUnit) (v : Value) : Except Error TypeName :=
  match v with
  | .str s =>
    let pieces := Text.splitDots s.toList
    let package := pieces.takeWhile (!isCapitalized ·)
    match pieces.dropWhile (!isCapitalized ·) with
    | [] => .error (.configuration (.noGuess s) none)
    | names =>
      ofNames unit (some (Text.dotted (package.map String.ofList)))
        (names.map fun n => .str (String.ofList n)) false
  | _ => .error .lacking

def nested (unit : IndentUnit) (v name : Value) : Except Error TypeName :=
  match v with
  | .type (.named package names _) => ofNames unit package (names.map .str ++ [name]) false
  | _ => .error .lacking

def applied (unit : IndentUnit) (raw : Value) (args : List Value) (nullable : Bool) :
    Except Error TypeName := do
  if args.isEmpty then .error (.configuration (.noTypeArguments (← raw.text unit)) none)
  return .generic raw args nullable

/-- Only a type with a name of its own takes type arguments. -/
def parameterizedBy (unit : IndentUnit) (raw : Value) (args : List Value) : Except Error TypeName :=
  match raw with
  | .type (.named ..) => applied unit raw args false
  | _ => .error .lacking

def varianceOf (unit : IndentUnit) : Value → Except Error (Option Variance)
  | .null => .ok none
  | .modifier .inVariance => .ok (some .contravariant)
  | .modifier .outVariance => .ok (some .covariant)
  | v => do .error (.configuration (.notVariance (← v.text unit)) none)

def ofVariable (unit : IndentUnit) (name : Value) (bounds : List Value) (variance : Value)
    (reified nullable : Bool) : Except Error TypeName := do
  let name ← name.asName unit .typeVariable
  return .typeVar name bounds (← varianceOf unit variance) reified nullable

def canonicalName (package : Option String) (names : List String) : String :=
  match package with
  | some p => if p.isEmpty then Text.dotted names else Text.dotted (p :: names)
  | none => Text.dotted names

def standard : List (String × TypeName) :=
  [("ANY", "Any"), ("UNIT", "Unit"), ("BOOLEAN", "Boolean"), ("INT", "Int"), ("LONG", "Long"),
    ("DOUBLE", "Double"), ("STRING", "String")].map fun (key, name) =>
      (key, .named (some "kotlin") [name] false)

end TypeName

def Value.withNullable (nullable : Bool) : Value → Except Error TypeName
  | .type t => .ok (t.withNullable nullable)
  | _ => .error .lacking

end KotlinDecl
