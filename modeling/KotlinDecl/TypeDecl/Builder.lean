import KotlinDecl.PropertyDecl.Builder

namespace KotlinDecl.TypeDecl

def simpleName : Value → Value
  | .type (.named _ names _) => .str (names.getLastD "")
  | v => v

def shownKind (unit : IndentUnit) (kind : Value) : Except Error (Option String) :=
  kind.toOption.mapM (·.text unit)

def start (unit : IndentUnit) (kind name : Value) (anonymous : Option Value) :
    Except Error TypeDecl :=
  match name with
  | .null => .ok (plain kind none anonymous)
  | .str s =>
    if !isName s then refused (.invalidName .typeDecl s)
    else if anonymous.isSome then refused (.namedAnonymous s)
    else .ok (plain kind (some s) none)
  | v => do refused (.invalidName .typeDecl (← v.text unit))
where
  refused (v : Violation) : Except Error TypeDecl := do
    .error (.configuration v (← shownKind unit kind))

def startNamed (unit : IndentUnit) (kind : Kind) (name : Value) : Except Error TypeDecl :=
  start unit (.kind kind) (simpleName name) none

def startExpected (unit : IndentUnit) (name : Value) : Except Error TypeDecl := do
  let d ← startNamed unit .classKind name
  return { d with modifiers := d.modifiers.insert .expect }

def startCompanion (unit : IndentUnit) (name : Value) : Except Error TypeDecl := do
  let d ← start unit (.kind .objectKind) name none
  return { d with modifiers := d.modifiers.insert .companion }

def startAnonymous (unit : IndentUnit) (format : Value) (args : List Value) :
    Except Error TypeDecl := do
  start unit (.kind .classKind) .null (some (.code (← CodeBlock.ofFormat unit format args)))

def refuse (unit : IndentUnit) (v : Violation) : Edit TypeDecl Unit := do
  throw (.configuration v (← Edit.require (shownKind unit (← get).kind)))

def require (unit : IndentUnit) (feature : Feature) : Edit TypeDecl Unit := do
  let kind ← Edit.require (← get).knownKind
  if !kind.accepts feature then refuse unit (.featureRefused kind feature)

def checkNotAnonymous (unit : IndentUnit) (what : String) : Edit TypeDecl Unit := do
  if (← get).isAnonymous then refuse unit (.onAnonymous what)

def onKdoc : Edit CodeBlock Unit → Edit TypeDecl Unit :=
  Edit.on kdoc fun c d => { d with kdoc := c }

def onInitializer : Edit CodeBlock Unit → Edit TypeDecl Unit :=
  Edit.on initializer fun c d => { d with initializer := c }

def annotate (v : Value) : Edit TypeDecl Unit :=
  modify fun d => { d with annotations := d.annotations ++ [v.asAnnotationUse] }

def addAnnotations (vs : Value) : Edit TypeDecl Unit := do
  Edit.forEach annotate (← Edit.require vs.items)

def addModifiers (unit : IndentUnit) (vs : List Value) : Edit TypeDecl Unit := do
  checkNotAnonymous unit "modifiers"
  Edit.on modifiers (fun ms d => { d with modifiers := ms }) (ModifierSet.addAll unit vs)

def addTypeVariable (unit : IndentUnit) (v : Value) : Edit TypeDecl Unit := do
  checkNotAnonymous unit "type variables"
  modify fun d => { d with typeVariables := d.typeVariables ++ [v] }

def addTypeVariables (unit : IndentUnit) (vs : Value) : Edit TypeDecl Unit := do
  Edit.forEach (addTypeVariable unit) (← Edit.require vs.items)

def setCompanion (unit : IndentUnit) (v : Value) : Edit TypeDecl Unit := do
  require unit .companion
  let c ← Edit.require v.asTypeDecl
  if !c.isKind .objectKind || !c.modifiers.contains .companion then
    let shown ← Edit.require (c.kind.text unit)
    refuse unit (.notCompanion shown (ownerText c.name))
  modify fun d => { d with companion := some c }

def asConstructor : Value → Except Error (Option FunDecl)
  | .null => .ok none
  | v => do return some (← v.asFunction)

def setPrimaryConstructor (unit : IndentUnit) (v : Value) : Edit TypeDecl Unit := do
  require unit .primaryConstructor
  let f ← Edit.require (asConstructor v)
  if let some f := f then
    if !f.isConstructor then refuse unit (.notConstructor f.name)
  modify fun d => { d with primaryConstructor := f }

def setSuperclass (unit : IndentUnit) (v : Value) : Edit TypeDecl Unit := do
  require unit .superclass
  let d ← get
  if !d.superclass.isNamed .anyType then
    let present ← Edit.require (d.superclass.text unit)
    refuse unit (.superclassTwice present)
  modify fun d => { d with superclass := v }

def addSuperclassArg (unit : IndentUnit) (format : Value) (args : List Value) :
    Edit TypeDecl Unit := do
  require unit .superclass
  let c ← Edit.require (CodeBlock.ofFormatOrBlock unit format args)
  modify fun d => { d with superclassArgs := d.superclassArgs ++ [c] }

def superinterfaceIndex (unit : IndentUnit) (type : Value) (ss : List Superinterface) :
    Except Error (Option Nat) :=
  (type.key unit).indexIn (ss.map (·.type.key unit))

def declareSuperinterface (unit : IndentUnit) (type : Value) (ss : List Superinterface) :
    Except Error (List Superinterface) := do
  match ← superinterfaceIndex unit type ss with
  | some _ => return ss
  | none => return ss ++ [⟨type, none⟩]

/-- Gives a superinterface its delegate, in the place that it has or else at the end. -/
def putSuperinterface (unit : IndentUnit) (ss : List Superinterface) (s : Superinterface) :
    Except Error (List Superinterface) := do
  match ← superinterfaceIndex unit s.type ss with
  | some n => return ss.modify n ({ · with delegate := s.delegate })
  | none => return ss ++ [s]

/-- Nothing and an empty block delegate to nobody. -/
def asDelegate : Value → Except Error (Option CodeBlock)
  | .null => .ok none
  | .code c => .ok (if c.isEmpty then none else some c)
  | _ => .error .lacking

def asType : Value → Except Error TypeName
  | .type t => .ok t
  | _ => .error .lacking

def presentDelegate (unit : IndentUnit) (type : Value) (ss : List Superinterface) :
    Except Error (Option CodeBlock) := do
  match ← superinterfaceIndex unit type ss with
  | some n => return (ss[n]?).bind (·.delegate)
  | none => return none

def delegateSuperinterface (unit : IndentUnit) (type : Value) (delegate : CodeBlock) :
    Edit TypeDecl Unit := do
  require unit .delegation
  let d ← get
  if d.isAnonymous then
    let shown ← Edit.require (type.text unit)
    let code ← Edit.require (delegate.text unit)
    refuse unit (.anonymousDelegate shown code)
  let t ← Edit.require (asType type)
  if t.isNullable then
    let shown ← Edit.require ((t.withNullable false).text unit)
    refuse unit (.nullableDelegate shown)
  if let some present ← Edit.require (presentDelegate unit type d.superinterfaces) then
    let shown ← Edit.require (t.text unit)
    let code ← Edit.require (delegate.text unit)
    let present ← Edit.require (present.text unit)
    refuse unit (.delegateTwice (ownerText d.name) shown code present)
  let ss ← Edit.require (putSuperinterface unit d.superinterfaces ⟨type, some delegate⟩)
  modify fun d => { d with superinterfaces := ss }

def addSuperinterface (unit : IndentUnit) (type delegate : Value) : Edit TypeDecl Unit := do
  match ← Edit.require (asDelegate delegate) with
  | none => do
    let ss ← Edit.require (declareSuperinterface unit type (← get).superinterfaces)
    modify fun d => { d with superinterfaces := ss }
  | some c => delegateSuperinterface unit type c

def addSuperinterfaces (unit : IndentUnit) (vs : Value) : Edit TypeDecl Unit := do
  Edit.forEach (addSuperinterface unit · .null) (← Edit.require vs.items)

def parameterNamed (f : FunDecl) : Value → Option String
  | .str s => (f.parameter? s).map (·.name)
  | _ => none

def addSuperinterfaceByParameter (unit : IndentUnit) (type parameter : Value) :
    Edit TypeDecl Unit := do
  let d ← get
  match d.primaryConstructor with
  | none => refuse unit .delegateWithoutConstructor
  | some f =>
    match parameterNamed f parameter with
    | none => do
      let shown ← Edit.require (parameter.text unit)
      refuse unit (.noSuchParameter shown (ownerText d.name))
    | some name => addSuperinterface unit type (.code ⟨[.argument .name], [.str name]⟩)

def emptyConstant : TypeDecl := plain (.kind .classKind) none (some (.code .empty))

def constantBody : Value → Except Error TypeDecl
  | .null => .ok emptyConstant
  | v => v.asTypeDecl

/-- Sets the constant `name`, which keeps its place if it has one. -/
def putConstant (name : String) (body : TypeDecl) : List EnumConstant → List EnumConstant
  | [] => [⟨name, body⟩]
  | c :: rest => if c.name = name then ⟨name, body⟩ :: rest else c :: putConstant name body rest

def addConstant (unit : IndentUnit) (name body : Value) : Edit TypeDecl Unit := do
  require unit .enumConstants
  let body ← Edit.require (constantBody body)
  if !body.isAnonymous then refuse unit .constantBody
  match name with
  | .str s =>
    if isName s then
      modify fun d => { d with constants := putConstant s body d.constants }
    else refuse unit (.constantName s)
  | v => do
    let shown ← Edit.require (v.text unit)
    refuse unit (.constantName shown)

def propertyOf (unit : IndentUnit) (v type : Value) (modifiers : List Value) :
    Except Error PropertyDecl :=
  match v with
  | .decl _ (.property p) => .ok p
  | v => PropertyDecl.ofName unit v type modifiers

def hasAccessor (p : PropertyDecl) : Bool := p.getter.isSome || p.setter.isSome

def addProperty (unit : IndentUnit) (v type : Value) (modifiers : List Value) :
    Edit TypeDecl Unit := do
  let p ← Edit.require (propertyOf unit v type modifiers)
  let d ← get
  if d.isExpected then
    if p.initializer.isSome then refuse unit .expectInitializer
    if hasAccessor p then refuse unit .expectAccessor
  if d.isKind .annotationKind && hasAccessor p then
    refuse unit (.accessorInAnnotationClass .annotationKind (ownerText d.name) p.name)
  modify fun d => { d with properties := d.properties ++ [p] }

def addProperties (unit : IndentUnit) (vs : Value) : Edit TypeDecl Unit := do
  Edit.forEach (addProperty unit · .null []) (← Edit.require vs.items)

def addInitializerBlock (unit : IndentUnit) (block : Value) : Edit TypeDecl Unit := do
  require unit .initializerBlock
  let d ← get
  let kind ← Edit.require d.knownKind
  if d.isExpected then refuse unit (.expectInitializerBlock kind)
  onInitializer do
    CodeBlock.addPart (.text "init \x7b\n")
    CodeBlock.addPart .indent
    CodeBlock.add unit block []
    CodeBlock.addPart .unindent
    CodeBlock.addPart (.text "\x7d\n")

/-- The modifiers that an interface refuses on its functions, in the order of the checks. -/
def hiddenModifiers : List Modifier := [.internalVis, .protectedVis]

def checkInterfaceFunction (unit : IndentUnit) (v : Value) : Edit TypeDecl Unit := do
  let d ← get
  let ms ← Edit.require v.carriedModifiers
  let name ← Edit.require v.shownName
  if let some m := hiddenModifiers.find? ms.contains then
    refuse unit (.interfaceVisibility .interfaceKind (ownerText d.name) name m)
  if ms.contains .abstractDecl && ms.contains .privateVis then
    refuse unit (.abstractAndPrivate .interfaceKind (ownerText d.name) name)

def checkAnnotationFunction (unit : IndentUnit) (v : Value) : Edit TypeDecl Unit := do
  let d ← get
  let ms ← Edit.require v.carriedModifiers
  let name ← Edit.require v.shownName
  if Modifier.canonical ms.toList ≠ Modifier.canonical Kind.annotationKind.functionModifiers then
    refuse unit (.annotationFunctionModifiers .annotationKind (ownerText d.name) name)
  let body ← Edit.require v.carriedBody
  if !body.isEmpty then
    refuse unit (.annotationFunctionBody .annotationKind (ownerText d.name) name)

def addFunction (unit : IndentUnit) (v : Value) : Edit TypeDecl Unit := do
  let d ← get
  match d.kind with
  | .kind .interfaceKind => checkInterfaceFunction unit v
  | .kind .annotationKind => checkAnnotationFunction unit v
  | _ => pure ()
  if d.isExpected then
    let body ← Edit.require v.carriedBody
    if !body.isEmpty then refuse unit .expectFunctionBody
  modify fun d => { d with functions := d.functions ++ [v] }

def addFunctions (unit : IndentUnit) (vs : Value) : Edit TypeDecl Unit := do
  Edit.forEach (addFunction unit) (← Edit.require vs.items)

def addType (unit : IndentUnit) (v : Value) : Edit TypeDecl Unit := do
  let d ← get
  if d.isKind .annotationKind then
    refuse unit (.nestedInAnnotationClass .annotationKind (ownerText d.name))
  modify fun d => { d with types := d.types ++ [v] }

def addTypes (unit : IndentUnit) (vs : Value) : Edit TypeDecl Unit := do
  Edit.forEach (addType unit) (← Edit.require vs.items)

inductive Call
  | addKdoc (format : Value) (args : List Value)
  | annotate (v : Value)
  | addAnnotations (vs : Value)
  | addModifiers (vs : List Value)
  | addTypeVariable (v : Value)
  | addTypeVariables (vs : Value)
  | companion (v : Value)
  | primaryConstructor (v : Value)
  | superclass (v : Value)
  | addSuperclassArg (format : Value) (args : List Value)
  | addSuperinterface (type delegate : Value)
  | addSuperinterfaces (vs : Value)
  | addSuperinterfaceByParameter (type parameter : Value)
  | addConstant (name body : Value)
  | addProperty (v type : Value) (modifiers : List Value)
  | addProperties (vs : Value)
  | addInitializerBlock (block : Value)
  | addFunction (v : Value)
  | addFunctions (vs : Value)
  | addType (v : Value)
  | addTypes (vs : Value)

def Call.apply (unit : IndentUnit) : Call → Edit TypeDecl Unit
  | addKdoc format args => onKdoc (CodeBlock.add unit format args)
  | annotate v => TypeDecl.annotate v
  | addAnnotations vs => TypeDecl.addAnnotations vs
  | addModifiers vs => TypeDecl.addModifiers unit vs
  | addTypeVariable v => TypeDecl.addTypeVariable unit v
  | addTypeVariables vs => TypeDecl.addTypeVariables unit vs
  | companion v => setCompanion unit v
  | primaryConstructor v => setPrimaryConstructor unit v
  | superclass v => setSuperclass unit v
  | addSuperclassArg format args => TypeDecl.addSuperclassArg unit format args
  | addSuperinterface type delegate => TypeDecl.addSuperinterface unit type delegate
  | addSuperinterfaces vs => TypeDecl.addSuperinterfaces unit vs
  | addSuperinterfaceByParameter type parameter =>
    TypeDecl.addSuperinterfaceByParameter unit type parameter
  | addConstant name body => TypeDecl.addConstant unit name body
  | addProperty v type modifiers => TypeDecl.addProperty unit v type modifiers
  | addProperties vs => TypeDecl.addProperties unit vs
  | addInitializerBlock block => TypeDecl.addInitializerBlock unit block
  | addFunction v => TypeDecl.addFunction unit v
  | addFunctions vs => TypeDecl.addFunctions unit vs
  | addType v => TypeDecl.addType unit v
  | addTypes vs => TypeDecl.addTypes unit vs

def toBuilder (unit : IndentUnit) (d : TypeDecl) : Except Error TypeDecl := do
  let b ← start unit d.kind (match d.name with | some n => .str n | none => .null) d.anonymous
  let superinterfaces ← d.superinterfaces.foldlM (putSuperinterface unit) b.superinterfaces
  return { b with
    kdoc := b.kdoc ++ d.kdoc
    annotations := b.annotations ++ d.annotations
    modifiers := b.modifiers.insertMany d.modifiers.toList
    typeVariables := b.typeVariables ++ d.typeVariables
    companion := d.companion
    primaryConstructor := d.primaryConstructor
    superclass := d.superclass
    superclassArgs := b.superclassArgs ++ d.superclassArgs
    superinterfaces
    constants := b.constants ++ d.constants
    properties := b.properties ++ d.properties
    initializer := b.initializer ++ d.initializer
    functions := b.functions ++ d.functions
    types := b.types ++ d.types }

end KotlinDecl.TypeDecl
