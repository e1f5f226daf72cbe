import KotlinDecl.TypeDecl.Builder

namespace KotlinDecl.TypeDecl

def defective (d : TypeDecl) (defect : Defect) : Except Error Unit :=
  .error (.validation defect d.name)

/-- A declaration that says what it is: enums have constants, and only companions lack a name. -/
def checkIdentity (d : TypeDecl) : Except Error Unit := do
  if d.isKind .enumKind && d.constants.isEmpty then d.defective .noConstants
  if d.name.isNone && d.anonymous.isNone && !d.modifiers.contains .companion then
    d.defective .unnamed

def checkAbstract (d : TypeDecl) : Except Error Unit := do
  if d.isKind .classKind && !d.modifiers.contains .abstractDecl then
    d.functions.forM fun v => do
      let ms ← v.carriedModifiers
      if ms.contains .abstractDecl then d.defective (.abstractFunction (← v.shownName))

def hasSecondaryConstructor : List Value → Except Error Bool
  | [] => .ok false
  | v :: rest => do
    if (← v.asFunction).isConstructor then return true else hasSecondaryConstructor rest

/-- The arguments of the superclass are given once: by the header or by the constructors. -/
def checkConstructors (d : TypeDecl) : Except Error Unit := do
  if d.primaryConstructor.isNone then
    let secondary ← hasSecondaryConstructor d.functions
    if secondary && !d.superclassArgs.isEmpty then d.defective .secondaryConstructor

def checkExpectedProperty (unit : IndentUnit) (d : TypeDecl) (p : PropertyDecl) :
    Except Error Unit := do
  if p.initializer.isSome then d.defective (.expectInitializer (← d.kind.text unit) p.name)
  if hasAccessor p then d.defective (.expectAccessor (← d.kind.text unit) p.name)

/-- Members may come before the modifier that forbids them something. -/
def checkExpected (unit : IndentUnit) (d : TypeDecl) : Except Error Unit := do
  if d.isExpected then
    d.properties.forM (checkExpectedProperty unit d)
    d.functions.forM fun v => do
      let body ← v.carriedBody
      if !body.isEmpty then
        let name ← v.shownName
        d.defective (.expectFunctionBody (← d.kind.text unit) name)
    if !d.initializer.isEmpty then d.defective (.expectInitializerBlock (← d.kind.text unit))

/-- An annotation class has no body, so each of its properties has to fold. -/
def checkAnnotationClass (unit : IndentUnit) (d : TypeDecl) : Except Error Unit := do
  if d.isKind .annotationKind then
    let names ← d.foldedNames unit
    d.properties.forM fun p => do
      if !names.contains p.name then d.defective (.notConstructorProperty .annotationKind p.name)

def record (unit : IndentUnit) (d : TypeDecl) : Except Error String := do
  return "Built " ++ (← d.kind.text unit) ++ " " ++ d.name.getD "<anonymous>" ++ " (" ++
    toString d.properties.length ++ " properties, " ++ toString d.functions.length ++
    " functions, " ++ toString d.types.length ++ " nested types)"

def build (unit : IndentUnit) (d : TypeDecl) : Except Error TypeDecl := do
  d.checkIdentity
  d.checkAbstract
  d.checkConstructors
  d.checkExpected unit
  d.checkAnnotationClass unit
  let _ ← d.record unit
  return d

def records (unit : IndentUnit) (d : TypeDecl) : List String := (d.record unit).toOption.toList

/-- The lines that a call logs: a constant without a body gets one built for it. -/
def Call.records (unit : IndentUnit) (d : TypeDecl) : Call → List String
  | .addConstant _ body =>
    if d.isKind .enumKind && body.isNull then emptyConstant.records unit else []
  | _ => []

end KotlinDecl.TypeDecl
