import KotlinDecl.Edit
import KotlinDecl.TypeName.Basic

namespace KotlinDecl

namespace Value

def items : Value → Except Error (List Value)
  | .list items => .ok items
  | .str s => .ok (s.toList.map fun c => .str c.toString)
  | _ => .error .unsuited

/-- The name that a named thing carries; a type declaration may carry none. A text is not a named
thing. -/
def carriedName : Value → Except Error (Option String)
  | .modifier m => .ok m.name
  | .kind k => .ok k.name
  | .type (.typeVar name _ _ _ _) => .ok name
  | .decl _ (.parameter p) => .ok p.name
  | .decl _ (.property p) => .ok p.name
  | .decl _ (.function f) => .ok f.name
  | .decl _ (.typeDecl d) => .ok d.name
  | _ => .error .lacking

def shownName (v : Value) : Except Error String := do
  return ownerText (← v.carriedName)

def carriedType : Value → Except Error Value
  | .decl _ (.parameter p) => .ok p.type
  | .decl _ (.property p) => .ok p.type
  | _ => .error .lacking

def carriedModifiers : Value → Except Error ModifierSet
  | .decl _ (.parameter p) => .ok p.modifiers
  | .decl _ (.property p) => .ok p.modifiers
  | .decl _ (.function f) => .ok f.modifiers
  | .decl _ (.typeDecl d) => .ok d.modifiers
  | _ => .error .lacking

def carriedBody : Value → Except Error CodeBlock
  | .decl _ (.function f) => .ok f.body
  | _ => .error .lacking

def asFunction : Value → Except Error FunDecl
  | .decl _ (.function f) => .ok f
  | _ => .error .lacking

def asProperty : Value → Except Error PropertyDecl
  | .decl _ (.property p) => .ok p
  | _ => .error .lacking

def asTypeDecl : Value → Except Error TypeDecl
  | .decl _ (.typeDecl d) => .ok d
  | _ => .error .lacking

/-- A type stands for the annotation of that type without members. -/
def asAnnotationUse : Value → Value
  | .type t => .decl none (.annotationUse ⟨t, []⟩)
  | v => v

def asModifier (unit : IndentUnit) : Value → Except Error Modifier
  | .modifier m => .ok m
  | v => do .error (.notModifier (← v.inspected unit))

end Value

namespace ModifierSet

/-- Adds modifiers one by one, up to the first value that is none. -/
def addAll (unit : IndentUnit) (vs : List Value) : Edit ModifierSet Unit :=
  Edit.forEach (fun v => do
    let m ← Edit.require (v.asModifier unit)
    modify (·.insert m)) vs

end ModifierSet

end KotlinDecl
