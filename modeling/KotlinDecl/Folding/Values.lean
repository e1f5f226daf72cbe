import KotlinDecl.Format
import KotlinDecl.Value.Parts

namespace KotlinDecl.Value

def foldsInto (unit : IndentUnit) (constructor v : Value) : Except Error Bool := do
  let f ← constructor.asFunction
  match (← v.carriedName).bind f.parameter? with
  | none => return false
  | some p =>
    let type ← v.carriedType
    if ← (p.type.key unit).equal false (type.key unit) then return (← v.asProperty).isStored
    else return false

def foldedInto (unit : IndentUnit) (constructor : Value) (vs : List Value) :
    Except Error (List (String × Value)) :=
  match constructor with
  | .null => .ok []
  | c => folded (·.name?.getD "") (foldsInto unit c) [] vs

end KotlinDecl.Value
