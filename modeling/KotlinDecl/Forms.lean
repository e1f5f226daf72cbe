import KotlinDecl.Key
import KotlinDecl.Layout

namespace KotlinDecl

open Layout (text ofText fail)

def bracketed (items : List String) : String := "[" ++ ", ".intercalate items ++ "]"

structure Mention where
  value : Value
  lazyText : LazyText
  lazyInspected : LazyText
  key : Key

namespace Mention

def text (m : Mention) : Except Error String := m.lazyText.get

def inspected (m : Mention) : Except Error String := m.lazyInspected.get

end Mention

/-- Something that is told to a value when it is asked to write itself. What the value makes of it
is up to the value: a label, a flag, or modifiers that go without saying. -/
structure Argument where
  isNone : Bool
  isTrue : Bool
  label : Layout
  implied : Except Error (List Modifier)

namespace Argument

def nothing : Argument := ⟨true, false, text "null", .error .unsuited⟩

def flag (b : Bool) : Argument := ⟨false, b, text (if b then "true" else "false"), .error .unsuited⟩

def noModifiers : Argument := ⟨false, false, text "set()", .ok []⟩

def ofModifiers (ms : List Modifier) : Argument :=
  ⟨false, !ms.isEmpty, text (Kind.inspectedSet ms), .ok ms⟩

def label? (a : Argument) : Option Layout := if a.isNone then none else some a.label

end Argument

structure Forms extends Mention where
  /-- The value in the place of a literal. -/
  literal : Layout
  string : Layout
  /-- What the value writes when it is asked to write itself. -/
  written : List Argument → Layout
  bounds : List Mention

namespace Forms

def untold (d : Layout) : List Argument → Layout
  | [] => d
  | _ => fail .unsuited

def plain (value : Value) (text inspected : LazyText) (key : Key) (literal : Layout) : Forms where
  value := value
  lazyText := text
  lazyInspected := inspected
  key := key
  literal := literal
  string := fail .unsuited
  written := fun _ => fail .lacking
  bounds := []

def known (value : Value) (shown inspected : String) (key : Key) : Forms :=
  plain value (.pure (.ok shown)) (.pure (.ok inspected)) key (text shown)

def null : Forms :=
  { known .null "None" "None" .null with
    literal := text "null"
    string := text (Text.stringLiteral none) }

def bool (b : Bool) : Forms :=
  let shown := if b then "True" else "False"
  { known (.bool b) shown shown (.bool b) with literal := text (if b then "true" else "false") }

def int (n : Int) : Forms := known (.int n) (toString n) (toString n) (.int n)

def str (s : String) : Forms :=
  { known (.str s) s (Text.quoted s) (.str s) with string := text (Text.stringLiteral (some s)) }

def modifier (m : Modifier) : Forms := known (.modifier m) m.shown m.inspected (.modifier m)

def kind (k : Kind) : Forms := known (.kind k) k.name k.inspected (.kind k)

def asCharacter (f : Forms) : Except Error String := do
  let _ ← f.key.hash
  match f.value with
  | .str s => (Text.escapeSingle? s).elim (.error .unsuited) .ok
  | _ => .error .unsuited

def asString (items : List Forms) : Except Error String := do
  return "\"" ++ String.join (← items.mapM asCharacter) ++ "\""

def list (value : Value) (items : List Forms) : Forms :=
  let shown : Except Error String := do return bracketed (← items.mapM (·.inspected))
  { plain value shown shown (.list (items.map (·.key))) (ofText shown) with
    string := ofText (asString items) }

def type (t : TypeName) (names : Except Error String) (key : Key) (bounds : List Mention) : Forms :=
  let shown : Except Error String := do return (← names) ++ if t.isNullable then "?" else ""
  let form := match t with
    | .named .. => "ClassName("
    | .generic .. => "ParameterizedTypeName("
    | .typeVar .. => "TypeVariableName("
  let inspected : Except Error String := do return form ++ (← shown) ++ ")"
  { plain (.type t) shown inspected key (ofText shown) with
    written := untold (ofText shown)
    bounds := bounds }

def named (package : Option String) (names : List String) (nullable : Bool) : Forms :=
  type (.named package names nullable) (.ok (".".intercalate names)) (.named package names nullable)
    []

/-- A type with arguments, which are shown before the type that takes them. -/
def generic (t : TypeName) (raw : Forms) (args : List Forms) (nullable : Bool) : Forms :=
  let names : Except Error String := do
    let shown ← args.mapM (·.text)
    return (← raw.text) ++ "<" ++ ", ".intercalate shown ++ ">"
  type t names (.generic raw.key (args.map (·.key)) nullable) []

def typeVar (t : TypeName) (name : String) (bounds : List Forms) (variance : Option Variance)
    (reified nullable : Bool) : Forms :=
  type t (.ok name) (.typeVar name (bounds.map (·.key)) variance reified nullable)
    (bounds.map (·.toMention))

/-- Parts put together again, unless one of them came apart. -/
def spelling (parts : List Part) : Except Error String := do
  return String.join (← parts.mapM fun
    | .split _ => .error .unsuited
    | p => .ok p.spelling)

def inspectedCode (parts : List Part) (args : List Forms) : Except Error String := do
  let format ← spelling parts
  return "CodeBlock(" ++ Text.quoted format ++ ", args=" ++
    bracketed (← args.mapM (·.inspected)) ++ ")"

def code (unit : IndentUnit) (c : CodeBlock) (args : List Forms) (layout : Layout) : Forms :=
  let shown : LazyText := layout.alone unit
  plain (.code c) shown (inspectedCode c.parts args) (.code c.parts (args.map (·.key)) shown) layout

def fleeting : String := "<declaration" ++ Text.placeMark ++ ">"

def decl (unit : IndentUnit) (serial : Option Nat) (d : Decl) (whole : Layout)
    (written : List Argument → Layout) : Forms :=
  let shown : LazyText := whole.alone unit
  { plain (.decl serial d) shown (.pure (.ok fleeting)) (.decl serial d.sort shown) whole with
    written := written }

def inspectedType (kind : Mention) (name : Option String) : Except Error String := do
  return "TypeSpec(" ++ (← kind.text) ++ ", " ++ (name.map Text.quoted).getD "None" ++ ")"

def argument (f : Forms) : Placeholder → Layout
  | .literal => f.literal
  | .string => f.string
  | .type => f.written []
  | .name =>
    match f.value with
    | .str s => text s
    | _ => fail .lacking

end Forms

end KotlinDecl
