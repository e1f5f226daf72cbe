import KotlinDecl.Folding
import KotlinDecl.Forms

namespace KotlinDecl

open Layout (text empty indent unindent openStatement closeStatement freshLine separated concat
  ofText orFail fail)

namespace Mention

def checkType (format : String) (m : Mention) : Except Error Unit :=
  match m.value with
  | .type _ => .ok ()
  | _ => do .error (.codeFormat (.notType (← m.inspected)) (some (Text.quoted format)))

def between (format front back : String) (m : Mention) : Layout :=
  match m.checkType format with
  | .ok _ => Layout.text front ++ ofText m.text ++ Layout.text back
  | .error e => fail e

end Mention

namespace Layout

def modifiers (ms : ModifierSet) (implied : List Modifier) : Layout :=
  concat (((Modifier.canonical ms.toList).filter (· ∉ implied)).map fun m =>
    text (m.keyword ++ " "))

def parenthesized (ds : List Layout) : Layout :=
  text "(" ++ separated (text ", ") ds ++ text ")"

def kdoc (isEmpty : Bool) (code : Layout) : Layout :=
  if isEmpty then empty
  else text "/**\n" ++ comment (code ++ freshLine) ++ text " */\n"

def block (code : Layout) : Layout :=
  text " \x7b\n" ++ indent ++ code ++ freshLine ++ unindent ++ text "\x7d\n"

def ofOption (d : Option Layout) : Layout := d.getD empty

/-- Annotations, which are told whether they stand in one line with what they annotate. -/
def annotated (inline : Argument) : List Forms → Layout
  | [] => empty
  | a :: rest =>
    a.written [inline] ++ text (if inline.isTrue then " " else "\n") ++ annotated inline rest

/-- Members with an empty line between neighbours. A member that cannot be told what it is ends
the list at once. -/
def members (first : Bool) : List (Except Error Layout) → Layout
  | [] => empty
  | .error e :: _ => fail e
  | .ok d :: rest => Layout.when (!first) (text "\n") ++ d ++ members false rest

/-- A type parameter between angle brackets, with its bound if it has exactly one. The bound that
every type satisfies is left out. -/
def typeVariable (f : Forms) : Layout :=
  match f.value with
  | .type (.typeVar name _ variance reified _) =>
    ofOption (variance.map fun v => text (v.modifier.keyword ++ " ")) ++
      when reified (text "reified ") ++ text name ++
      match f.bounds with
      | [bound] =>
        if bound.value.isNamed (TypeName.anyType.withNullable true) then empty
        else bound.between " : %T" " : " ""
      | _ => empty
  | _ => fail .lacking

def typeVariables (vs : List Forms) : Layout :=
  if vs.isEmpty then empty
  else text "<" ++ separated (text ", ") (vs.map typeVariable) ++ text ">"

/-- The bounds of one type parameter as entries of a `where` clause; a lone bound is no entry. -/
def whereEntries (first : Bool) (name : String) : List Mention → Layout
  | [] => empty
  | bound :: rest =>
    text (if first then " where " else ", ") ++ bound.between "%L : %T" (name ++ " : ") "" ++
      whereEntries false name rest

def whereClause (first : Bool) : List Forms → Layout
  | [] => empty
  | f :: rest =>
    match f.value with
    | .type (.typeVar name ..) =>
      if f.bounds.length < 2 then whereClause first rest
      else whereEntries first name f.bounds ++ whereClause false rest
    | _ => fail .lacking

end Layout

open Layout (modifiers parenthesized kdoc block ofOption annotated)

def Layout.code : List Part → List (Placeholder → Layout) → Layout
  | [], _ => .empty
  | .text s :: ps, args => .text s ++ code ps args
  | .argument p :: ps, a :: args => a p ++ code ps args
  | .argument _ :: _, [] => .fail .argumentsExhausted
  | .percent :: ps, args => .text "%" ++ code ps args
  | .wrap :: ps, args => .text " " ++ code ps args
  | .indent :: ps, args => .indent ++ code ps args
  | .unindent :: ps, args => .unindent ++ code ps args
  | .openStatement :: ps, args => .openStatement ++ code ps args
  | .closeStatement :: ps, args => .closeStatement ++ code ps args
  | .split _ :: _, _ => .fail .lacking

/-- A code block with its arguments laid out, each for whatever placeholder it meets. -/
structure CodePieces where
  parts : List Part
  args : List (Placeholder → Layout)

namespace CodePieces

def layout (c : CodePieces) : Layout := .code c.parts c.args

instance : Append CodePieces := ⟨fun c d => ⟨c.parts ++ d.parts, c.args ++ d.args⟩⟩

def fixed (parts : List Part) : CodePieces := ⟨parts, []⟩

def joined (sep : CodePieces) : List CodePieces → CodePieces
  | [] => fixed []
  | [c] => c
  | c :: rest => c ++ sep ++ joined sep rest

def codeArgument (code : Layout) : Placeholder → Layout
  | .literal => code
  | .name | .type => .fail .lacking
  | .string => .fail .unsuited

end CodePieces

structure ParameterPieces where
  decl : Parameter
  type : Mention
  annotations : List Forms
  defaultValue : Option Layout

namespace ParameterPieces

def valueLayout (p : ParameterPieces) : Layout :=
  ofOption (p.defaultValue.map (text " = " ++ ·))

def layout (p : ParameterPieces) (withType : Bool) : Layout :=
  annotated (.flag true) p.annotations ++ modifiers p.decl.modifiers [] ++
    (if withType then p.type.between "%N: %T" (p.decl.name ++ ": ") "" else text p.decl.name) ++
    p.valueLayout

def written (p : ParameterPieces) : List Argument → Layout
  | [] => p.layout true
  | [withType] => p.layout withType.isTrue
  | _ => fail .unsuited

end ParameterPieces

structure AnnotationPieces where
  type : Mention
  members : List Layout

namespace AnnotationPieces

def layout (a : AnnotationPieces) : Layout :=
  a.type.between "@%T" "@" "" ++ Layout.when (!a.members.isEmpty) (parenthesized a.members)

/-- An annotation is told whether it stands in one line with what it annotates, to which it is
indifferent. -/
def written (a : AnnotationPieces) : List Argument → Layout
  | [_] => a.layout
  | _ => fail .unsuited

end AnnotationPieces

structure FunPieces where
  decl : FunDecl
  kdoc : Layout
  annotations : List Forms
  typeVariables : List Forms
  receiver : Option Mention
  returns : Option Mention
  parameters : List ParameterPieces
  body : Layout
  delegationArgs : List Layout

namespace FunPieces

def parameterList (f : FunPieces) (withType : Bool) : Layout :=
  parenthesized (f.parameters.map (·.layout withType))

def constructorSignature (f : FunPieces) : Layout :=
  text FunDecl.constructorName ++ f.parameterList true ++
    ofOption (f.decl.delegation.map fun d =>
      text (" : " ++ d.keyword) ++ parenthesized f.delegationArgs)

def accessorSignature (f : FunPieces) : Layout := text f.decl.name ++ f.parameterList false

def returnType (f : FunPieces) : Layout :=
  match f.returns with
  | none => empty
  | some t => if t.value.isNamed .unitType then empty else t.between ": %T" ": " ""

def functionSignature (f : FunPieces) : Layout :=
  text "fun " ++
    Layout.when (!f.typeVariables.isEmpty) (Layout.typeVariables f.typeVariables ++ text " ") ++
    ofOption (f.receiver.map (·.between "%T." "" ".")) ++
    text f.decl.name ++ f.parameterList true ++ f.returnType ++
    Layout.whereClause true f.typeVariables

def signature (f : FunPieces) : Layout :=
  if f.decl.isConstructor then f.constructorSignature
  else if f.decl.isAccessor then f.accessorSignature
  else f.functionSignature

/-- Abstract, external and expected functions have no body, nor has an empty constructor. -/
def omitsBody (f : FunPieces) (implied : List Modifier) : Bool :=
  f.decl.modifiers.contains .abstractDecl || f.decl.modifiers.contains .external ||
    f.decl.modifiers.contains .expect || implied.contains .expect ||
    (f.decl.isConstructor && f.decl.body.isEmpty)

def layout (f : FunPieces) (implied : List Modifier) : Layout :=
  f.kdoc ++ annotated (.flag false) f.annotations ++ modifiers f.decl.modifiers implied ++
    f.signature ++ if f.omitsBody implied then text "\n" else block f.body

def whole (f : FunPieces) : Layout := f.layout [.publicVis]

def written (f : FunPieces) : List Argument → Layout
  | [] => f.layout []
  | [implied] => orFail (implied.implied.map f.layout)
  | _ => fail .unsuited

end FunPieces

structure PropertyPieces where
  decl : PropertyDecl
  type : Mention
  kdoc : Layout
  annotations : List Forms
  initializer : Option Layout
  getter : Option Forms
  setter : Option Forms

namespace PropertyPieces

def core (p : PropertyPieces) (implied : List Modifier) : Layout :=
  modifiers p.decl.modifiers implied ++ text (if p.decl.mutable.isTrue then "var " else "val ") ++
    p.type.between "%N: %T" (p.decl.name ++ ": ") ""

def initializerLayout (p : PropertyPieces) : Layout :=
  ofOption (p.initializer.map fun code =>
    text (if p.decl.delegated then " by " else " = ") ++ openStatement ++ code ++ closeStatement)

def accessor (implied : Argument) (f : Option Forms) : Layout :=
  ofOption (f.map fun f => indent ++ f.written [implied] ++ unindent)

/-- A property on lines of its own, or on one line without comment and accessors. The implied
modifiers count from the modifiers on, and the accessors are told them too. -/
def layout (p : PropertyPieces) (implied : Argument) (withInitializer : Bool) (inline : Argument) :
    Layout :=
  Layout.when (!inline.isTrue) p.kdoc ++ annotated inline p.annotations ++
    orFail (implied.implied.map p.core) ++ Layout.when withInitializer p.initializerLayout ++
    Layout.when (!inline.isTrue)
      (text "\n" ++ accessor implied p.getter ++ accessor implied p.setter)

def memberLayout (p : PropertyPieces) (implied : Argument) : Layout :=
  p.layout implied true (.flag false)

def whole (p : PropertyPieces) : Layout := p.memberLayout .noModifiers

def foldedLayout (p : PropertyPieces) : Layout :=
  p.layout (.ofModifiers [.publicVis]) false (.flag true)

/-- A property is told the modifiers that go without saying, whether to show its initializer, and
whether it stands in a line with others. -/
def written (p : PropertyPieces) : List Argument → Layout
  | [implied] => p.memberLayout implied
  | [implied, withInitializer] => p.layout implied withInitializer.isTrue (.flag false)
  | [implied, withInitializer, inline] => p.layout implied withInitializer.isTrue inline
  | _ => fail .unsuited

end PropertyPieces

structure TypePieces where
  decl : TypeDecl
  kind : Mention
  kdoc : Layout
  annotations : List Forms
  anonymous : Option Forms
  typeVariables : List Forms
  primaryConstructor : Option FunPieces
  superclass : Forms
  superclassArgs : List CodePieces
  superinterfaces : List (Forms × Option CodePieces)
  constants : List Layout
  properties : List PropertyPieces
  initializer : Layout
  functions : List (Option FunPieces)
  types : List Layout
  companion : Option Layout

namespace TypePieces

def constructorParameters (d : TypePieces) : List (String × Key) :=
  match d.primaryConstructor with
  | none => []
  | some f => f.parameters.map fun p => (p.decl.name, p.type.key)

def folded (d : TypePieces) : Except Error (List (String × PropertyPieces)) :=
  KotlinDecl.folded (·.decl.name) (fun p => p.decl.foldsInto p.type.key d.constructorParameters) []
    d.properties

def constructorParameter (fs : List (String × PropertyPieces)) (p : ParameterPieces) : Layout :=
  match fs.lookup p.decl.name with
  | none => p.layout true
  | some property => property.foldedLayout ++ p.valueLayout

/-- The keyword is needed only behind annotations or modifiers. -/
def primaryLayout (fs : List (String × PropertyPieces)) (f : FunPieces) : Layout :=
  Layout.when (!f.annotations.isEmpty || !f.decl.modifiers.toList.isEmpty)
      (text " " ++ annotated (.flag true) f.annotations ++ modifiers f.decl.modifiers [] ++
        text FunDecl.constructorName) ++
    parenthesized (f.parameters.map (constructorParameter fs))

def hasConstructor : List (Option FunPieces) → Except Error Bool
  | [] => .ok false
  | none :: _ => .error .lacking
  | some f :: rest => if f.decl.isConstructor then .ok true else hasConstructor rest

def hasSuperclass (d : TypePieces) : Bool := !d.decl.superclass.isNamed .anyType

def superclassCode (d : TypePieces) : CodePieces :=
  .joined (.fixed [.text ", "]) d.superclassArgs

/-- The superclass with its arguments, or without them where secondary constructors give them. -/
def superclassPieces (d : TypePieces) : Except Error (List CodePieces) :=
  if d.hasSuperclass then do
    let secondary ← hasConstructor d.functions
    if d.primaryConstructor.isSome || !secondary then
      d.superclass.checkType "%T(%L)"
      return [⟨[.argument .type, .text "(", .argument .literal, .text ")"],
        [d.superclass.argument, CodePieces.codeArgument d.superclassCode.layout]⟩]
    else
      d.superclass.checkType "%T"
      return [⟨[.argument .type], [d.superclass.argument]⟩]
  else .ok []

def superinterfacePieces : List (Forms × Option CodePieces) → Except Error (List CodePieces)
  | [] => .ok []
  | (f, none) :: rest => do
    f.checkType "%T"
    return ⟨[.argument .type], [f.argument]⟩ :: (← superinterfacePieces rest)
  | (f, some delegate) :: rest => do
    f.checkType "%T by "
    return (⟨[.argument .type, .text " by "], [f.argument]⟩ ++ delegate) ::
      (← superinterfacePieces rest)

/-- Superclass and superinterfaces behind a colon, as one block: a delegate with too few or too
many arguments upsets whatever follows it. -/
def supertypes (d : TypePieces) : Layout :=
  match (do return (← d.superclassPieces) ++ (← superinterfacePieces d.superinterfaces)) with
  | .error e => fail e
  | .ok [] => empty
  | .ok cs =>
    (CodePieces.fixed [.text " : "] ++ .joined (.fixed [.text ",", .wrap]) cs).layout

def namedHeader (d : TypePieces) (fs : List (String × PropertyPieces)) : Layout :=
  d.kdoc ++ annotated (.flag false) d.annotations ++ modifiers d.decl.modifiers [.publicVis] ++
    orFail (do return text (← d.decl.knownKind).keyword) ++
    ofOption (d.decl.name.map fun n => text " " ++ text n) ++
    Layout.typeVariables d.typeVariables ++ Layout.whereClause true d.typeVariables ++
    ofOption (d.primaryConstructor.map (primaryLayout fs)) ++ d.supertypes

/-- The supertypes of an object expression; its arguments go to the superclass. -/
def anonymousSupertypes (d : TypePieces) (arguments : Forms) : Except Error (List Layout) := do
  let superclass ←
    if d.hasSuperclass then do
      d.superclass.checkType " %T(%L)"
      pure [text " " ++ d.superclass.argument .type ++ text "(" ++ arguments.literal ++ text ")"]
    else .ok []
  let interfaces ← d.superinterfaces.mapM fun s => do
    s.1.checkType " %T"
    return text " " ++ s.1.argument .type
  return superclass ++ interfaces

def anonymousHeader (d : TypePieces) (arguments : Forms) : Layout :=
  text "object" ++
    match d.anonymousSupertypes arguments with
    | .error e => fail e
    | .ok [] => empty
    | .ok ds => text " :" ++ separated (text ",") ds

def constantArguments (d : TypePieces) : Layout :=
  match d.anonymous with
  | none => fail .lacking
  | some arguments =>
    match arguments.value with
    | .code c => Layout.when (!c.isEmpty) (text "(" ++ arguments.literal ++ text ")")
    | _ => fail .lacking

def constantHeader (d : TypePieces) (label : Layout) : Layout :=
  d.kdoc ++ annotated (.flag false) d.annotations ++ label ++ d.constantArguments

def constantMembers (more : Bool) : List Layout → List Layout
  | [] => []
  | [c] => [c ++ text (if more then ";\n" else "\n")]
  | c :: rest => (c ++ text ",\n") :: constantMembers more rest

def constructorMembers (implied : Except Error (List Modifier)) :
    List (Option FunPieces) → List (Except Error Layout)
  | [] => []
  | none :: _ => [.error .lacking]
  | some f :: rest =>
    if f.decl.isConstructor then
      .ok (orFail (implied.map f.layout)) :: constructorMembers implied rest
    else constructorMembers implied rest

def functionMembers (implied : Except Error (List Modifier)) (fs : List (Option FunPieces)) :
    List Layout :=
  (fs.filterMap id).filterMap fun f =>
    if f.decl.isConstructor then none else some (orFail (implied.map f.layout))

def memberList (d : TypePieces) (names : List String) : List (Except Error Layout) :=
  (constantMembers (d.decl.hasMembersAfterConstants names) d.constants).map .ok ++
    ((d.properties.filter fun p => !names.contains p.decl.name).map fun p =>
      .ok (orFail (d.decl.propertyModifiers.map fun ms => p.memberLayout (.ofModifiers ms)))) ++
    (match d.primaryConstructor with
      | some f => if f.decl.body.isEmpty then [] else [.ok (text "init" ++ block f.body)]
      | none => []) ++
    (if d.decl.initializer.isEmpty then [] else [.ok d.initializer]) ++
    constructorMembers d.decl.functionModifiers d.functions ++
    (functionMembers d.decl.functionModifiers d.functions).map .ok ++
    d.types.map .ok ++
    d.companion.toList.map .ok

def bodyLayout (d : TypePieces) (names : List String) (close : Layout) : Layout :=
  text " \x7b\n" ++
    .body (.decl none (.typeDecl d.decl)) (Layout.members true (d.memberList names)) ++
    text "\x7d" ++ close

/-- A declaration with the properties `fs` folded, in one of its three forms: as the enum constant
`label`, as an object expression, or under its own name. -/
def foldedLayout (d : TypePieces) (label : Option Layout) (fs : List (String × PropertyPieces)) :
    Layout :=
  let names := fs.map (·.1)
  match label, d.anonymous with
  | some label, _ =>
    d.constantHeader label ++ if d.decl.hasNoBody names then empty else d.bodyLayout names empty
  | none, some arguments =>
    d.anonymousHeader arguments ++
      if d.decl.hasNoBody names then text " \x7b \x7d" else d.bodyLayout names empty
  | none, none =>
    d.namedHeader fs ++
      if d.decl.hasNoBody names then text "\n" else d.bodyLayout names (text "\n")

/-- Which properties fold is settled before anything is written. -/
def layout (d : TypePieces) (label : Option Layout) : Layout :=
  .declaration (orFail (d.folded.map (d.foldedLayout label)))

def written (d : TypePieces) : List Argument → Layout
  | [] => d.layout none
  | [label] => d.layout label.label?
  | _ => fail .unsuited

end TypePieces

end KotlinDecl
