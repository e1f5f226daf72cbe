import KotlinDecl.CodeBlock.Builder
import KotlinDecl.Value.Parts

namespace KotlinDecl.AnnotationUse

def start (unit : IndentUnit) : Value → Except Error AnnotationUse
  | .type t => .ok ⟨t, []⟩
  | v => do .error (.configuration (.notAnnotationType (← v.inspected unit)) none)

def addMember (unit : IndentUnit) (format : Value) (args : List Value) :
    Edit AnnotationUse Unit := do
  let c ← Edit.require (CodeBlock.ofFormatOrBlock unit format args)
  modify fun a => { a with members := a.members ++ [c] }

inductive Call
  | addMember (format : Value) (args : List Value)

def Call.apply (unit : IndentUnit) : Call → Edit AnnotationUse Unit
  | addMember format args => AnnotationUse.addMember unit format args

def toBuilder (a : AnnotationUse) : AnnotationUse := ⟨a.type, [] ++ a.members⟩

end KotlinDecl.AnnotationUse
