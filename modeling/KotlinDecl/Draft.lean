import KotlinDecl.TypeDecl.Build

namespace KotlinDecl

inductive Draft
  | code (c : CodeBlock)
  | annotationUse (a : AnnotationUse)
  | parameter (p : Parameter)
  | function (f : FunDecl)
  | property (p : PropertyDecl)
  | typeDecl (d : TypeDecl)

namespace Draft

def ofCopy (unit : IndentUnit) (v : Value) (changes : List Value) : Except Error Draft :=
  match v, changes with
  | .code c, [] => .ok (.code (.empty ++ c))
  | .decl _ (.annotationUse a), [] => return .annotationUse a.toBuilder
  | .decl _ (.parameter p), [] => return .parameter (← p.toBuilder unit .null .null)
  | .decl _ (.parameter p), [name] => return .parameter (← p.toBuilder unit name .null)
  | .decl _ (.parameter p), [name, type] => return .parameter (← p.toBuilder unit name type)
  | .decl _ (.function f), [] => return .function (← f.toBuilder unit)
  | .decl _ (.property p), [] => return .property (← p.toBuilder unit)
  | .decl _ (.typeDecl d), [] => return .typeDecl (← d.toBuilder unit)
  | .code _, _ | .decl .., _ => .error .unsuited
  | _, _ => .error .lacking

/-- The finished value, which gets a serial number if it is a declaration. -/
def build (unit : IndentUnit) (serial : Option Nat) : Draft → Except Error Value
  | .code c => .ok (.code c)
  | .annotationUse a => .ok (.decl serial (.annotationUse a))
  | .parameter p => .ok (.decl serial (.parameter p))
  | .function f => .ok (.decl serial (.function f))
  | .property p => .ok (.decl serial (.property p))
  | .typeDecl d => do return .decl serial (.typeDecl (← d.build unit))

def records (unit : IndentUnit) : Draft → List String
  | .typeDecl d => d.records unit
  | _ => []

end Draft

def Value.copy (unit : IndentUnit) (v : Value) : Except Error Value := do
  (← Draft.ofCopy unit v []).build unit none

end KotlinDecl
