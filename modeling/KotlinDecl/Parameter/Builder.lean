import KotlinDecl.AnnotationUse.Builder

namespace KotlinDecl.Parameter

def allowedModifiers : List Modifier := [.vararg, .noinline, .crossinline]

def start (unit : IndentUnit) (name type : Value) : Except Error Parameter := do
  return plain (← name.asName unit .parameter) type

def annotate (v : Value) : Edit Parameter Unit :=
  modify fun p => { p with annotations := p.annotations ++ [v.asAnnotationUse] }

def addAnnotations (vs : Value) : Edit Parameter Unit := do
  Edit.forEach annotate (← Edit.require vs.items)

def checkModifier (unit : IndentUnit) (v : Value) : Except Error Modifier := do
  let _ ← (v.key unit).hash
  match v with
  | .modifier m => if m ∈ allowedModifiers then return m
  | _ => pure ()
  .error (.configuration (.parameterModifier (← v.text unit)) none)

def addModifiers (unit : IndentUnit) (vs : List Value) : Edit Parameter Unit :=
  Edit.forEach (fun v => do
    let m ← Edit.require (checkModifier unit v)
    modify fun p => { p with modifiers := p.modifiers.insert m }) vs

def setDefault (unit : IndentUnit) (format : Value) (args : List Value) : Edit Parameter Unit := do
  let c ← Edit.require (CodeBlock.ofFormatOrBlock unit format args)
  modify fun p => { p with defaultValue := some c }

inductive Call
  | annotate (v : Value)
  | addAnnotations (vs : Value)
  | addModifiers (vs : List Value)
  | defaultValue (format : Value) (args : List Value)

def Call.apply (unit : IndentUnit) : Call → Edit Parameter Unit
  | annotate v => Parameter.annotate v
  | addAnnotations vs => Parameter.addAnnotations vs
  | addModifiers vs => Parameter.addModifiers unit vs
  | defaultValue format args => setDefault unit format args

def ofName (unit : IndentUnit) (name type : Value) (modifiers : List Value) :
    Except Error Parameter := do
  match addModifiers unit modifiers (← start unit name type) with
  | .ok _ p => .ok p
  | .error e _ => .error e

def toBuilder (unit : IndentUnit) (p : Parameter) (name type : Value) : Except Error Parameter := do
  let b ← start unit (if name.isTrue then name else .str p.name)
    (if type.isTrue then type else p.type)
  return { b with
    annotations := b.annotations ++ p.annotations
    modifiers := b.modifiers.insertMany p.modifiers.toList
    defaultValue := p.defaultValue }

end KotlinDecl.Parameter
