import KotlinDecl.Parameter.Builder

namespace KotlinDecl.FunDecl

def start (unit : IndentUnit) (name : Value) : Except Error FunDecl := do
  return plain (← name.asName unit .function)

def onKdoc : Edit CodeBlock Unit → Edit FunDecl Unit := Edit.on kdoc fun c f => { f with kdoc := c }

def onBody : Edit CodeBlock Unit → Edit FunDecl Unit := Edit.on body fun c f => { f with body := c }

def annotate (v : Value) : Edit FunDecl Unit :=
  modify fun f => { f with annotations := f.annotations ++ [v.asAnnotationUse] }

def addAnnotations (vs : Value) : Edit FunDecl Unit := do
  Edit.forEach annotate (← Edit.require vs.items)

def addModifiers (unit : IndentUnit) (vs : List Value) : Edit FunDecl Unit :=
  Edit.on modifiers (fun ms f => { f with modifiers := ms }) (ModifierSet.addAll unit vs)

def checkOrdinary (what : String) : Edit FunDecl Unit := do
  let f ← get
  if f.isConstructor || f.isAccessor then
    throw (.configuration (.notInFunctionShape f.name what) none)

def addTypeVariable (v : Value) : Edit FunDecl Unit := do
  checkOrdinary "type variables"
  modify fun f => { f with typeVariables := f.typeVariables ++ [v] }

def setReceiver (v : Value) : Edit FunDecl Unit := do
  checkOrdinary "a receiver type"
  modify fun f => { f with receiver := v.toOption }

def setReturns (v : Value) : Edit FunDecl Unit := do
  checkOrdinary "a return type"
  modify fun f => { f with returns := v.toOption }

def asParameter (unit : IndentUnit) (v type : Value) (modifiers : List Value) :
    Except Error Parameter :=
  match v with
  | .decl _ (.parameter p) => .ok p
  | v => Parameter.ofName unit v type modifiers

def checkAccessorParameters (f : FunDecl) : Except Error Unit :=
  if f.name = getterName then .error (.configuration .getterParameter none)
  else if f.name = setterName && !f.parameters.isEmpty then
    .error (.configuration .secondSetterParameter none)
  else .ok ()

def addParameter (unit : IndentUnit) (v type : Value) (modifiers : List Value) :
    Edit FunDecl Unit := do
  let p ← Edit.require (asParameter unit v type modifiers)
  Edit.require (← get).checkAccessorParameters
  modify fun f => { f with parameters := f.parameters ++ [p] }

def addParameters (unit : IndentUnit) (vs : Value) : Edit FunDecl Unit := do
  Edit.forEach (addParameter unit · .null []) (← Edit.require vs.items)

def delegate (unit : IndentUnit) (target : Delegation) (args : List Value) : Edit FunDecl Unit := do
  if !(← get).isConstructor then
    throw (.configuration .delegationOutsideConstructor none)
  modify fun f => { f with delegation := some target }
  let codes ← Edit.require (args.mapM (CodeBlock.ofFormatOrBlock unit · []))
  modify fun f => { f with delegationArgs := codes }

inductive Call
  | addKdoc (format : Value) (args : List Value)
  | annotate (v : Value)
  | addAnnotations (vs : Value)
  | addModifiers (vs : List Value)
  | addTypeVariable (v : Value)
  | receiver (v : Value)
  | returns (v : Value)
  | addParameter (v type : Value) (modifiers : List Value)
  | addParameters (vs : Value)
  | delegate (target : Delegation) (args : List Value)
  | body (call : CodeBlock.Call)

def Call.apply (unit : IndentUnit) : Call → Edit FunDecl Unit
  | addKdoc format args => onKdoc (CodeBlock.add unit format args)
  | annotate v => FunDecl.annotate v
  | addAnnotations vs => FunDecl.addAnnotations vs
  | addModifiers vs => FunDecl.addModifiers unit vs
  | addTypeVariable v => FunDecl.addTypeVariable v
  | receiver v => setReceiver v
  | returns v => setReturns v
  | addParameter v type modifiers => FunDecl.addParameter unit v type modifiers
  | addParameters vs => FunDecl.addParameters unit vs
  | delegate target args => FunDecl.delegate unit target args
  | body call => onBody (call.apply unit)

def toBuilder (unit : IndentUnit) (f : FunDecl) : Except Error FunDecl := do
  let b ← start unit (.str f.name)
  return { b with
    kdoc := b.kdoc ++ f.kdoc
    annotations := b.annotations ++ f.annotations
    modifiers := b.modifiers.insertMany f.modifiers.toList
    typeVariables := b.typeVariables ++ f.typeVariables
    receiver := f.receiver
    returns := f.returns
    parameters := b.parameters ++ f.parameters
    body := b.body ++ f.body
    delegation := f.delegation
    delegationArgs := b.delegationArgs ++ f.delegationArgs }

end KotlinDecl.FunDecl
