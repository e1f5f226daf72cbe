import KotlinDecl.Error

namespace KotlinDecl

inductive Placeholder
  | literal
  | string
  | name
  | type
  deriving DecidableEq, Repr

def Placeholder.letter : Placeholder → Char
  | literal => 'L'
  | string => 'S'
  | name => 'N'
  | type => 'T'

inductive Part
  | text (s : String)
  | argument (p : Placeholder)
  | percent
  | wrap
  | indent
  | unindent
  | openStatement
  | closeStatement
  /-- A percent sign and a letter that came apart, which no writer can put together. -/
  | split (letter : Char)
  deriving DecidableEq, Repr

def Part.ofLetter? : Char → Option Part
  | 'L' => some (.argument .literal)
  | 'S' => some (.argument .string)
  | 'N' => some (.argument .name)
  | 'T' => some (.argument .type)
  | '%' => some .percent
  | 'W' => some .wrap
  | '>' => some .indent
  | '<' => some .unindent
  | '[' => some .openStatement
  | ']' => some .closeStatement
  | _ => none

def Part.spelling : Part → String
  | text s => s
  | argument p => "%" ++ p.letter.toString
  | percent => "%%"
  | wrap => "%W"
  | indent => "%>"
  | unindent => "%<"
  | openStatement => "%["
  | closeStatement => "%]"
  | split c => "%" ++ c.toString

def Part.ofSpelling (s : String) : Part :=
  match s.toList with
  | ['%', c] => (Part.ofLetter? c).getD (.text s)
  | _ => .text s

inductive Variance
  | contravariant
  | covariant
  deriving DecidableEq, Repr

def Variance.modifier : Variance → Modifier
  | contravariant => .inVariance
  | covariant => .outVariance

inductive Delegation
  | toThis
  | toSuper
  deriving DecidableEq, Repr

def Delegation.keyword : Delegation → String
  | toThis => "this"
  | toSuper => "super"

mutual

/-- Anything that can be given to a builder or bound to a placeholder. Numbers and their numerals
are of any size and nesting of any depth, here and wherever something is read or written: limits
of the machine are left out. -/
inductive Value
  | null
  | bool (b : Bool)
  | int (n : Int)
  | str (s : String)
  | list (items : List Value)
  | modifier (m : Modifier)
  | kind (k : Kind)
  | type (t : TypeName)
  | code (c : CodeBlock)
  /-- A finished declaration. Those with the same serial number are one and the same; one without
  a number is the same as no other. -/
  | decl (serial : Option Nat) (d : Decl)

inductive Decl
  | annotationUse (a : AnnotationUse)
  | parameter (p : Parameter)
  | property (p : PropertyDecl)
  | function (f : FunDecl)
  | typeDecl (d : TypeDecl)

inductive TypeName
  | named (package : Option String) (names : List String) (nullable : Bool)
  | generic (raw : Value) (args : List Value) (nullable : Bool)
  | typeVar (name : String) (bounds : List Value) (variance : Option Variance)
      (reified nullable : Bool)

/-- Code in parts, with the arguments that its placeholders take in order. -/
structure CodeBlock where
  parts : List Part
  args : List Value

structure AnnotationUse where
  type : TypeName
  members : List CodeBlock

structure Parameter where
  name : String
  type : Value
  annotations : List Value
  modifiers : ModifierSet
  defaultValue : Option CodeBlock

/-- A function, a constructor or an accessor, told apart by its name. -/
structure FunDecl where
  name : String
  kdoc : CodeBlock
  annotations : List Value
  modifiers : ModifierSet
  typeVariables : List Value
  receiver : Option Value
  returns : Option Value
  parameters : List Parameter
  body : CodeBlock
  delegation : Option Delegation
  delegationArgs : List CodeBlock

/-- A property. Anything true makes it mutable, and anything of the right name is an accessor. -/
structure PropertyDecl where
  name : String
  type : Value
  mutable : Value
  kdoc : CodeBlock
  annotations : List Value
  modifiers : ModifierSet
  initializer : Option CodeBlock
  delegated : Bool
  getter : Option Value
  setter : Option Value

structure Superinterface where
  type : Value
  delegate : Option CodeBlock

structure EnumConstant where
  name : String
  body : TypeDecl

/-- A class, object, interface, enum or annotation class. One with `anonymous` arguments has no
name and is an object expression or the body of an enum constant. -/
structure TypeDecl where
  kind : Value
  name : Option String
  anonymous : Option Value
  kdoc : CodeBlock
  annotations : List Value
  modifiers : ModifierSet
  typeVariables : List Value
  companion : Option TypeDecl
  primaryConstructor : Option FunDecl
  superclass : Value
  superclassArgs : List CodeBlock
  superinterfaces : List Superinterface
  constants : List EnumConstant
  properties : List PropertyDecl
  initializer : CodeBlock
  functions : List Value
  types : List Value

end

namespace CodeBlock

def empty : CodeBlock := ⟨[], []⟩

def isEmpty (c : CodeBlock) : Bool := c.parts.isEmpty

def append (c d : CodeBlock) : CodeBlock := ⟨c.parts ++ d.parts, c.args ++ d.args⟩

instance : Append CodeBlock := ⟨append⟩

end CodeBlock

def Parameter.plain (name : String) (type : Value) : Parameter := ⟨name, type, [], .empty, none⟩

namespace FunDecl

def plain (name : String) : FunDecl :=
  ⟨name, .empty, [], .empty, [], none, none, [], .empty, none, []⟩

def constructorName : String := "constructor"

def getterName : String := "get"

def setterName : String := "set"

def isConstructor (f : FunDecl) : Bool := f.name = constructorName

def isAccessor (f : FunDecl) : Bool := f.name = getterName || f.name = setterName

def parameter? (f : FunDecl) (name : String) : Option Parameter :=
  f.parameters.find? (·.name = name)

end FunDecl

def PropertyDecl.plain (name : String) (type : Value) : PropertyDecl :=
  ⟨name, type, .bool false, .empty, [], .empty, none, false, none, none⟩

namespace TypeName

def anyType : TypeName := .named (some "kotlin") ["Any"] false

def unitType : TypeName := .named (some "kotlin") ["Unit"] false

end TypeName

namespace TypeDecl

def plain (kind : Value) (name : Option String) (anonymous : Option Value) : TypeDecl :=
  ⟨kind, name, anonymous, .empty, [], .empty, [], none, none, .type .anyType, [], [], [], [],
    .empty, [], []⟩

def isAnonymous (d : TypeDecl) : Bool := d.anonymous.isSome

def isExpected (d : TypeDecl) : Bool := d.modifiers.contains .expect

def isKind (d : TypeDecl) (k : Kind) : Bool :=
  match d.kind with
  | .kind k' => k' = k
  | _ => false

def knownKind (d : TypeDecl) : Except Error Kind :=
  match d.kind with
  | .kind k => .ok k
  | _ => .error .lacking

def propertyModifiers (d : TypeDecl) : Except Error (List Modifier) := do
  return (← d.knownKind).propertyModifiers ++ if d.isExpected then [.expect] else []

def functionModifiers (d : TypeDecl) : Except Error (List Modifier) := do
  return (← d.knownKind).functionModifiers ++ if d.isExpected then [.expect] else []

end TypeDecl

inductive DeclSort
  | annotationUse
  | parameter
  | property
  | function
  | typeDecl
  deriving DecidableEq, Repr

def Decl.sort : Decl → DeclSort
  | annotationUse _ => .annotationUse
  | parameter _ => .parameter
  | property _ => .property
  | function _ => .function
  | typeDecl _ => .typeDecl

namespace Value

def isNull : Value → Bool
  | null => true
  | _ => false

/-- Nothing, zero, and what is empty is false; all else is true. -/
def isTrue : Value → Bool
  | null => false
  | bool b => b
  | int n => n ≠ 0
  | str s => !s.isEmpty
  | list items => !items.isEmpty
  | _ => true

def isNamed (v : Value) (t : TypeName) : Bool :=
  match v, t with
  | .type (.named p ns n), .named p' ns' n' => p = p' && ns = ns' && n = n'
  | _, _ => false

def toOption : Value → Option Value
  | null => none
  | v => some v

end Value

namespace TypeName

def withNullable (nullable : Bool) : TypeName → TypeName
  | .named package names _ => .named package names nullable
  | .generic raw args _ => .generic raw args nullable
  | .typeVar name bounds variance reified _ => .typeVar name bounds variance reified nullable

def isNullable : TypeName → Bool
  | .named _ _ nullable => nullable
  | .generic _ _ nullable => nullable
  | .typeVar _ _ _ _ nullable => nullable

end TypeName

end KotlinDecl
