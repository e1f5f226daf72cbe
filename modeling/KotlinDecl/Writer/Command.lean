import KotlinDecl.TypeDecl.Build

namespace KotlinDecl

namespace Value

def asInt : Value → Except Error Int
  | .int n => .ok n
  | .bool b => .ok (if b then 1 else 0)
  | _ => .error .unsuited

def setItems (unit : IndentUnit) (v : Value) : Except Error (List Value) := do
  let items ← v.items
  Key.checkSet (items.map (·.key unit))
  return items

def impliedModifiers (unit : IndentUnit) (v : Value) : Except Error (List Modifier) := do
  return (← v.setItems unit).filterMap fun | .modifier m => some m | _ => none

def modifierItems (unit : IndentUnit) (v : Value) : Except Error (List Modifier) := do
  (← v.setItems unit).mapM fun | .modifier m => .ok m | _ => .error .absent

def asArgument (unit : IndentUnit) (v : Value) : Argument where
  isNone := v.isNull
  isTrue := v.isTrue
  label := (v.forms unit).literal
  implied := v.impliedModifiers unit

def writtenWith (unit : IndentUnit) (v : Value) (args : List Value) : Layout :=
  (v.forms unit).written (args.map (·.asArgument unit))

end Value

inductive Command
  | indent (levels : Value)
  | unindent (levels : Value)
  | pushScope (v : Value)
  | popScope
  | text (v : Value)
  | code (format : Value) (args : List Value)
  | kdoc (v : Value)
  | annotations (vs inline : Value)
  | modifiers (vs implied : Value)
  | typeVariables (vs : Value)
  | whereClause (vs : Value)
  | value (v : Value) (args : List Value)
  | defaultValue (v : Value)
  | parameters (vs : Value)
  | codes (vs : Value)
  | setStatement (n : Int)
  | setComment (b : Bool)

namespace Command

open Layout (orFail)

def defaultLayout (unit : IndentUnit) : Value → Layout
  | .decl _ (.parameter p) => (p.pieces unit).valueLayout
  | _ => .fail .lacking

def kdocLayout (unit : IndentUnit) : Value → Layout
  | .code c => .kdoc c.isEmpty (c.layout unit)
  | _ => .fail .lacking

def textLayout : Value → Layout
  | .str s => .text s
  | _ => .fail .lacking

def parenthesizedItems (vs : Value) (item : Value → Layout) : Layout :=
  .text "(" ++ orFail (do return .separated (.text ", ") ((← vs.items).map item)) ++ .text ")"

def codeLayout (unit : IndentUnit) (format : Value) (args : List Value) : Layout :=
  orFail do return (← CodeBlock.ofFormatOrBlock unit format args).layout unit

def layout? (unit : IndentUnit) : Command → Option Layout
  | text v => some (textLayout v)
  | code format args => some (codeLayout unit format args)
  | kdoc v => some (kdocLayout unit v)
  | annotations vs inline => some <| orFail do
    return .annotated (inline.asArgument unit) (Value.formsAll unit (← vs.items))
  | modifiers vs implied => some <| orFail do
    let implied ← implied.impliedModifiers unit
    return .modifiers ⟨← vs.modifierItems unit⟩ implied
  | typeVariables vs => some <| orFail do
    return .typeVariables (Value.formsAll unit (← vs.items))
  | whereClause vs => some <| orFail do
    return .whereClause true (Value.formsAll unit (← vs.items))
  | value v args => some (v.writtenWith unit args)
  | defaultValue v => some (defaultLayout unit v)
  | parameters vs => some (parenthesizedItems vs (·.writtenWith unit []))
  | codes vs => some (parenthesizedItems vs (codeLayout unit · []))
  | _ => none

def unindentBy (unit : IndentUnit) (levels : Value) (w : Writer) : Written :=
  match (do return (← levels.asInt, ← levels.text unit)) with
  | .ok (n, shown) => w.unindentBy n shown
  | .error e => w.failed e

def run (unit : IndentUnit) (c : Command) (w : Writer) : Written :=
  match c with
  | indent levels =>
    match levels.asInt with
    | .ok n => (w.indent n).quiet
    | .error e => w.failed e
  | unindent levels => unindentBy unit levels w
  | pushScope v => (w.pushScope v).quiet
  | popScope => w.popScope
  | setStatement n => { w with statement := n }.quiet
  | setComment b => { w with comment := b }.quiet
  | c =>
    match c.layout? unit with
    | some d => d.run w
    | none => w.quiet

end Command

end KotlinDecl
