import KotlinDecl.FunDecl.Builder

namespace KotlinDecl.PropertyDecl

def start (unit : IndentUnit) (name type : Value) : Except Error PropertyDecl := do
  return plain (← name.asName unit .property) type

def onKdoc : Edit CodeBlock Unit → Edit PropertyDecl Unit :=
  Edit.on kdoc fun c p => { p with kdoc := c }

def setMutable (v : Value) : Edit PropertyDecl Unit := modify fun p => { p with mutable := v }

def annotate (v : Value) : Edit PropertyDecl Unit :=
  modify fun p => { p with annotations := p.annotations ++ [v.asAnnotationUse] }

def addAnnotations (vs : Value) : Edit PropertyDecl Unit := do
  Edit.forEach annotate (← Edit.require vs.items)

def addModifiers (unit : IndentUnit) (vs : List Value) : Edit PropertyDecl Unit :=
  Edit.on modifiers (fun ms p => { p with modifiers := ms }) (ModifierSet.addAll unit vs)

def setInitializer (unit : IndentUnit) (delegated : Bool) (format : Value) (args : List Value) :
    Edit PropertyDecl Unit := do
  if (← get).initializer.isSome then throw (.configuration .initializerTwice none)
  let c ← Edit.require (CodeBlock.ofFormatOrBlock unit format args)
  modify fun p => { p with initializer := some c, delegated := delegated }

def checkAccessor (name : String) (violation : String → Violation) (v : Value) :
    Except Error Unit := do
  let carried ← v.carriedName
  if carried ≠ some name then .error (.configuration (violation (ownerText carried)) none)

def setGetter (v : Value) : Edit PropertyDecl Unit := do
  Edit.require (checkAccessor FunDecl.getterName .notGetter v)
  modify fun p => { p with getter := some v }

def setSetter (v : Value) : Edit PropertyDecl Unit := do
  Edit.require (checkAccessor FunDecl.setterName .notSetter v)
  if !(← get).mutable.isTrue then throw (.configuration .setterOfConstant none)
  modify fun p => { p with setter := some v }

inductive Call
  | mutable (v : Value)
  | addKdoc (format : Value) (args : List Value)
  | annotate (v : Value)
  | addAnnotations (vs : Value)
  | addModifiers (vs : List Value)
  | initializer (format : Value) (args : List Value)
  | delegate (format : Value) (args : List Value)
  | getter (v : Value)
  | setter (v : Value)

def Call.apply (unit : IndentUnit) : Call → Edit PropertyDecl Unit
  | mutable v => setMutable v
  | addKdoc format args => onKdoc (CodeBlock.add unit format args)
  | annotate v => PropertyDecl.annotate v
  | addAnnotations vs => PropertyDecl.addAnnotations vs
  | addModifiers vs => PropertyDecl.addModifiers unit vs
  | initializer format args => setInitializer unit false format args
  | delegate format args => setInitializer unit true format args
  | getter v => setGetter v
  | setter v => setSetter v

def ofName (unit : IndentUnit) (name type : Value) (modifiers : List Value) :
    Except Error PropertyDecl := do
  match addModifiers unit modifiers (← start unit name type) with
  | .ok _ p => .ok p
  | .error e _ => .error e

def toBuilder (unit : IndentUnit) (p : PropertyDecl) : Except Error PropertyDecl := do
  let b ← start unit (.str p.name) p.type
  return { b with
    mutable := p.mutable
    kdoc := b.kdoc ++ p.kdoc
    annotations := b.annotations ++ p.annotations
    modifiers := b.modifiers.insertMany p.modifiers.toList
    initializer := p.initializer
    delegated := p.delegated
    getter := p.getter
    setter := p.setter }

end KotlinDecl.PropertyDecl
