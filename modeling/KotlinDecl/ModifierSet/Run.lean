import KotlinDecl.Value.Parts

namespace KotlinDecl.ModifierSet

inductive Answer
  | nothing
  | flag (b : Bool)
  | flags (bs : List Bool)
  | member (m : Modifier)
  | members (ms : List Modifier)
  | text (s : String)
  deriving DecidableEq, Repr

/-- What a set is combined with: itself, a set made of the items of a value beforehand, or the items
of a value as they come. -/
inductive Operand
  | itself
  | made (v : Value)
  | items (v : Value)

instance : Coe Value Operand := ⟨.made⟩

inductive Call
  | add (v : Value)
  | discard (v : Value)
  | remove (v : Value)
  | update (vs : Value)
  | clear
  | pop
  | contains (v : Value)
  | inspect
  | sorted
  | isDisjoint (other : Operand)
  | compare (other : Operand)
  | union (other : Operand)
  | inter (other : Operand)
  | diff (other : Operand)
  | symmDiff (other : Operand)
  | unionWith (other : Operand)
  | interWith (other : Operand)
  | diffWith (other : Operand)
  | symmDiffWith (other : Operand)

def ofValue (unit : IndentUnit) (v : Value) : Except Error ModifierSet := do
  return ofList (← (← v.items).mapM (·.asModifier unit))

/-- The modifier that a value is; whatever is none is simply no member. Only what can be hashed can
be looked for. -/
def member? (unit : IndentUnit) (v : Value) : Except Error (Option Modifier) := do
  let _ ← (v.key unit).hash
  match v with
  | .modifier m => return some m
  | _ => return none

/-- Equal, different, subset, proper subset, superset, proper superset. -/
def comparisons (s t : ModifierSet) : List Bool :=
  [s.sameMembers t, !s.sameMembers t, s.subset t, s.subset t && s.size ≠ t.size, t.subset s,
    t.subset s && s.size ≠ t.size]

namespace Operand

def values (unit : IndentUnit) (s : ModifierSet) : Operand → Except Error (List Value)
  | itself => .ok (s.toList.map .modifier)
  | made v => do return (← ofValue unit v).toList.map .modifier
  | items v => v.items

def toSet (unit : IndentUnit) (s : ModifierSet) : Operand → Except Error ModifierSet
  | itself => .ok s
  | made v => ofValue unit v
  | items v => ofValue unit v

end Operand

def meetsNone (unit : IndentUnit) (s : ModifierSet) : List Value → Except Error Bool
  | [] => .ok true
  | v :: rest => do
    if (← member? unit v).any s.contains then return false
    meetsNone unit s rest

def unionOf (unit : IndentUnit) (s : ModifierSet) (other : Operand) : Except Error ModifierSet := do
  return s.insertMany (← (← other.values unit s).mapM (·.asModifier unit))

/-- The items of the operand that are members. Whatever else is among them is left out. -/
def interOf (unit : IndentUnit) (s : ModifierSet) (other : Operand) : Except Error ModifierSet := do
  return s.inter (← (← other.values unit s).mapM (member? unit)).reduceOption

def diffOf (unit : IndentUnit) (s : ModifierSet) (other : Operand) : Except Error ModifierSet := do
  return s.diff (← other.toSet unit s)

def symmDiffOf (unit : IndentUnit) (s : ModifierSet) (other : Operand) :
    Except Error ModifierSet := do
  return s.symmDiff (← other.toSet unit s)

def consult (f : ModifierSet → Except Error Answer) : Edit ModifierSet Answer := do
  Edit.require (f (← get))

def combine (unit : IndentUnit) (f : ModifierSet → ModifierSet → ModifierSet) (other : Operand) :
    Edit ModifierSet Unit := do
  let t ← Edit.require (other.toSet unit (← get))
  modify (f · t)

/-- In an empty set nothing is looked for. -/
def discard (unit : IndentUnit) (v : Value) : Edit ModifierSet Unit := do
  if !(← get).toList.isEmpty then
    if let some m ← Edit.require (member? unit v) then modify (·.erase m)

def Call.apply (unit : IndentUnit) : Call → Edit ModifierSet Answer
  | add v => do addAll unit [v]; return .nothing
  | discard v => do ModifierSet.discard unit v; return .nothing
  | remove v => do
    match ← Edit.require (member? unit v) with
    | some m =>
      if (← get).contains m then modify (·.erase m) else throw .absent
    | none => throw .absent
    return .nothing
  | update vs => do addAll unit (← Edit.require vs.items); return .nothing
  | clear => do set empty; return .nothing
  | pop => do
    match (← get).popFirst? with
    | some (m, rest) => do set rest; return .member m
    | none => throw .absent
  | contains v => do
    match ← Edit.require (member? unit v) with
    | some m => return .flag ((← get).contains m)
    | none => return .flag false
  | inspect => do return .text (← get).inspected
  | sorted => do return .members (Modifier.canonical (← get).toList)
  | isDisjoint other => consult fun s => do
    return .flag (← s.meetsNone unit (← other.values unit s))
  | compare (.items _) => throw .unsuited
  | compare other => consult fun s => do return .flags (s.comparisons (← other.toSet unit s))
  | union other => consult fun s => do return .members (← s.unionOf unit other).toList
  | inter other => consult fun s => do return .members (← s.interOf unit other).toList
  | diff other => consult fun s => do return .members (← s.diffOf unit other).toList
  | symmDiff other => consult fun s => do return .members (← s.symmDiffOf unit other).toList
  | unionWith other => do
    addAll unit (← Edit.require (other.values unit (← get)))
    return .nothing
  | interWith other => do combine unit keepOnly other; return .nothing
  | diffWith .itself => do set empty; return .nothing
  | diffWith other => do
    Edit.forEach (ModifierSet.discard unit) (← Edit.require (other.values unit (← get)))
    return .nothing
  | symmDiffWith .itself => do set empty; return .nothing
  | symmDiffWith other => do combine unit toggleMany other; return .nothing

end KotlinDecl.ModifierSet
