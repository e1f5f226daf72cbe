import KotlinDecl.Modifier

namespace KotlinDecl

inductive Kind
  | classKind
  | objectKind
  | interfaceKind
  | enumKind
  | annotationKind
  deriving DecidableEq, Repr

inductive Feature
  | superclass
  | delegation
  | companion
  | primaryConstructor
  | initializerBlock
  | enumConstants
  deriving DecidableEq, Repr

namespace Feature

def all : List Feature :=
  [superclass, delegation, companion, primaryConstructor, initializerBlock, enumConstants]

def name : Feature → String
  | superclass => "SUPERCLASS"
  | delegation => "DELEGATION"
  | companion => "COMPANION"
  | primaryConstructor => "PRIMARY_CONSTRUCTOR"
  | initializerBlock => "INITIALIZER_BLOCK"
  | enumConstants => "ENUM_CONSTANTS"

def phrase : Feature → String
  | superclass => "superclass"
  | delegation => "delegation"
  | companion => "companion object"
  | primaryConstructor => "primary constructor"
  | initializerBlock => "initializer blocks"
  | enumConstants => "enum constants"

def rule (f : Feature) : String := f.name.toLower

end Feature

namespace Kind

def all : List Kind := [classKind, objectKind, interfaceKind, enumKind, annotationKind]

def name : Kind → String
  | classKind => "CLASS"
  | objectKind => "OBJECT"
  | interfaceKind => "INTERFACE"
  | enumKind => "ENUM"
  | annotationKind => "ANNOTATION"

def ofName? (s : String) : Option Kind := all.find? (·.name = s)

def keyword : Kind → String
  | classKind => "class"
  | objectKind => "object"
  | interfaceKind => "interface"
  | enumKind => "enum class"
  | annotationKind => "annotation class"

def propertyModifiers : Kind → List Modifier
  | annotationKind => []
  | _ => [.publicVis]

def functionModifiers : Kind → List Modifier
  | interfaceKind | annotationKind => [.publicVis, .abstractDecl]
  | _ => [.publicVis]

def accepts : Kind → Feature → Bool
  | classKind, f => f ≠ .enumConstants
  | objectKind, f => f = .superclass ∨ f = .initializerBlock
  | interfaceKind, f => f = .companion
  | enumKind, f => f = .primaryConstructor ∨ f = .initializerBlock ∨ f = .enumConstants
  | annotationKind, f => f = .primaryConstructor

def inspectedSet (ms : List Modifier) : String :=
  if ms.isEmpty then "frozenset()"
  else "frozenset(\x7b" ++ ", ".intercalate (ms.map Modifier.inspected) ++ "\x7d)"

def inspected (k : Kind) : String :=
  "<Kind." ++ k.name ++ ": ('" ++ k.keyword ++ "', " ++ inspectedSet k.propertyModifiers ++ ", " ++
    inspectedSet k.functionModifiers ++ ")>"

end Kind

end KotlinDecl
