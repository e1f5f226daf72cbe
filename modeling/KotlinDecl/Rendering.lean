import KotlinDecl.Layout.Pieces

namespace KotlinDecl

mutual

def Value.forms (unit : IndentUnit) : Value → Forms
  | .null => .null
  | .bool b => .bool b
  | .int n => .int n
  | .str s => .str s
  | .list items => .list (.list items) (Value.formsAll unit items)
  | .modifier m => .modifier m
  | .kind k => .kind k
  | .type t => t.forms unit
  | .code c => c.forms unit
  | .decl serial d => d.forms unit serial
termination_by structural v => v

def Value.formsAll (unit : IndentUnit) : List Value → List Forms
  | [] => []
  | v :: rest => v.forms unit :: Value.formsAll unit rest

def Value.forms? (unit : IndentUnit) : Option Value → Option Forms
  | none => none
  | some v => some (v.forms unit)

def TypeName.forms (unit : IndentUnit) : TypeName → Forms
  | .named package names nullable => .named package names nullable
  | .generic raw args nullable =>
    .generic (.generic raw args nullable) (raw.forms unit) (Value.formsAll unit args) nullable
  | .typeVar name bounds variance reified nullable =>
    .typeVar (.typeVar name bounds variance reified nullable) name (Value.formsAll unit bounds)
      variance reified nullable

def CodeBlock.forms (unit : IndentUnit) : CodeBlock → Forms
  | ⟨parts, args⟩ =>
    let fs := Value.formsAll unit args
    .code unit ⟨parts, args⟩ fs (.code parts (fs.map Forms.argument))

def CodeBlock.pieces (unit : IndentUnit) : CodeBlock → CodePieces
  | ⟨parts, args⟩ => ⟨parts, (Value.formsAll unit args).map Forms.argument⟩

def CodeBlock.piecesAll (unit : IndentUnit) : List CodeBlock → List CodePieces
  | [] => []
  | c :: rest => c.pieces unit :: CodeBlock.piecesAll unit rest

def CodeBlock.pieces? (unit : IndentUnit) : Option CodeBlock → Option CodePieces
  | none => none
  | some c => some (c.pieces unit)

/-- A declaration. A parameter in the place of a literal is written as the text that it has on its
own, all others in place. -/
def Decl.forms (unit : IndentUnit) (serial : Option Nat) : Decl → Forms
  | .annotationUse a =>
    let ps := a.pieces unit
    .decl unit serial (.annotationUse a) ps.layout ps.written
  | .parameter p =>
    let ps := p.pieces unit
    let f := Forms.decl unit serial (.parameter p) (ps.layout true) ps.written
    { f with literal := .ofText f.text }
  | .property p =>
    let ps := p.pieces unit
    .decl unit serial (.property p) ps.whole ps.written
  | .function f =>
    let ps := f.pieces unit
    .decl unit serial (.function f) ps.whole ps.written
  | .typeDecl d =>
    let ps := d.pieces unit
    { Forms.decl unit serial (.typeDecl d) (ps.layout none) ps.written with
      lazyInspected := Forms.inspectedType ps.kind d.name }

def AnnotationUse.pieces (unit : IndentUnit) : AnnotationUse → AnnotationPieces
  | ⟨type, members⟩ =>
    ⟨(type.forms unit).toMention, (CodeBlock.piecesAll unit members).map CodePieces.layout⟩

def Value.functionPieces (unit : IndentUnit) : Value → Option FunPieces
  | .decl _ d => d.functionPieces unit
  | _ => none

def Decl.functionPieces (unit : IndentUnit) : Decl → Option FunPieces
  | .function f => some (f.pieces unit)
  | _ => none

def Value.functionPiecesAll (unit : IndentUnit) : List Value → List (Option FunPieces)
  | [] => []
  | v :: rest => v.functionPieces unit :: Value.functionPiecesAll unit rest

def Parameter.pieces (unit : IndentUnit) : Parameter → ParameterPieces
  | ⟨name, type, annotations, modifiers, defaultValue⟩ =>
    { decl := ⟨name, type, annotations, modifiers, defaultValue⟩
      type := (type.forms unit).toMention
      annotations := Value.formsAll unit annotations
      defaultValue := (CodeBlock.pieces? unit defaultValue).map CodePieces.layout }

def Parameter.piecesAll (unit : IndentUnit) : List Parameter → List ParameterPieces
  | [] => []
  | p :: rest => p.pieces unit :: Parameter.piecesAll unit rest

def FunDecl.pieces (unit : IndentUnit) : FunDecl → FunPieces
  | ⟨name, kdoc, annotations, modifiers, typeVariables, receiver, returns, parameters, body,
      delegation, delegationArgs⟩ =>
    { decl := ⟨name, kdoc, annotations, modifiers, typeVariables, receiver, returns, parameters,
        body, delegation, delegationArgs⟩
      kdoc := .kdoc kdoc.isEmpty (kdoc.pieces unit).layout
      annotations := Value.formsAll unit annotations
      typeVariables := Value.formsAll unit typeVariables
      receiver := (Value.forms? unit receiver).map Forms.toMention
      returns := (Value.forms? unit returns).map Forms.toMention
      parameters := Parameter.piecesAll unit parameters
      body := (body.pieces unit).layout
      delegationArgs := (CodeBlock.piecesAll unit delegationArgs).map CodePieces.layout }

def FunDecl.pieces? (unit : IndentUnit) : Option FunDecl → Option FunPieces
  | none => none
  | some f => some (f.pieces unit)

def PropertyDecl.pieces (unit : IndentUnit) : PropertyDecl → PropertyPieces
  | ⟨name, type, mutable, kdoc, annotations, modifiers, initializer, delegated, getter, setter⟩ =>
    { decl := ⟨name, type, mutable, kdoc, annotations, modifiers, initializer, delegated, getter,
        setter⟩
      type := (type.forms unit).toMention
      kdoc := .kdoc kdoc.isEmpty (kdoc.pieces unit).layout
      annotations := Value.formsAll unit annotations
      initializer := (CodeBlock.pieces? unit initializer).map CodePieces.layout
      getter := Value.forms? unit getter
      setter := Value.forms? unit setter }

def PropertyDecl.piecesAll (unit : IndentUnit) : List PropertyDecl → List PropertyPieces
  | [] => []
  | p :: rest => p.pieces unit :: PropertyDecl.piecesAll unit rest

def Superinterface.pieces (unit : IndentUnit) : Superinterface → Forms × Option CodePieces
  | ⟨type, delegate⟩ => (type.forms unit, CodeBlock.pieces? unit delegate)

def Superinterface.piecesAll (unit : IndentUnit) :
    List Superinterface → List (Forms × Option CodePieces)
  | [] => []
  | s :: rest => s.pieces unit :: Superinterface.piecesAll unit rest

def EnumConstant.layout (unit : IndentUnit) : EnumConstant → Layout
  | ⟨name, body⟩ => (body.pieces unit).layout (some (.text name))

def EnumConstant.layouts (unit : IndentUnit) : List EnumConstant → List Layout
  | [] => []
  | c :: rest => c.layout unit :: EnumConstant.layouts unit rest

def TypeDecl.pieces (unit : IndentUnit) : TypeDecl → TypePieces
  | ⟨kind, name, anonymous, kdoc, annotations, modifiers, typeVariables, companion,
      primaryConstructor, superclass, superclassArgs, superinterfaces, constants, properties,
      initializer, functions, types⟩ =>
    { decl := ⟨kind, name, anonymous, kdoc, annotations, modifiers, typeVariables, companion,
        primaryConstructor, superclass, superclassArgs, superinterfaces, constants, properties,
        initializer, functions, types⟩
      kind := (kind.forms unit).toMention
      kdoc := .kdoc kdoc.isEmpty (kdoc.pieces unit).layout
      annotations := Value.formsAll unit annotations
      anonymous := Value.forms? unit anonymous
      typeVariables := Value.formsAll unit typeVariables
      primaryConstructor := FunDecl.pieces? unit primaryConstructor
      superclass := superclass.forms unit
      superclassArgs := CodeBlock.piecesAll unit superclassArgs
      superinterfaces := Superinterface.piecesAll unit superinterfaces
      constants := EnumConstant.layouts unit constants
      properties := PropertyDecl.piecesAll unit properties
      initializer := (initializer.pieces unit).layout
      functions := Value.functionPiecesAll unit functions
      types := (Value.formsAll unit types).map (·.written [.nothing])
      companion := TypeDecl.layout? unit companion }

def TypeDecl.layout? (unit : IndentUnit) : Option TypeDecl → Option Layout
  | none => none
  | some d => some ((d.pieces unit).layout none)

end

def CodeBlock.layout (unit : IndentUnit) (c : CodeBlock) : Layout := (c.pieces unit).layout

def Value.text (unit : IndentUnit) (v : Value) : Except Error String := (v.forms unit).text

def Value.inspected (unit : IndentUnit) (v : Value) : Except Error String :=
  (v.forms unit).inspected

def Value.key (unit : IndentUnit) (v : Value) : Key := (v.forms unit).key

def CodeBlock.text (unit : IndentUnit) (c : CodeBlock) : Except Error String :=
  (c.layout unit).alone unit

def TypeName.text (unit : IndentUnit) (t : TypeName) : Except Error String := (t.forms unit).text

namespace TypeDecl

def foldedNames (unit : IndentUnit) (d : TypeDecl) : Except Error (List String) := do
  return (← (d.pieces unit).folded).map (·.1)

def isBodiless (unit : IndentUnit) (d : TypeDecl) : Except Error Bool := do
  if d.isKind .annotationKind then return true
  return d.hasNoBody (← d.foldedNames unit)

end TypeDecl

end KotlinDecl
