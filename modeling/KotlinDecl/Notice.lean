import KotlinDecl.Folding
import KotlinDecl.Rendering

namespace KotlinDecl

inductive Detail
  | value (v : Value)
  | table (entries : List (String × Value))

namespace Detail

/-- A table from entries, of which a later one takes the place of an earlier one. -/
def ofEntries (entries : List (String × Value)) : Detail :=
  .table (entries.foldl (fun found e => setEntry e.1 e.2 found) [])

def isTrue : Detail → Bool
  | value v => v.isTrue
  | table entries => !entries.isEmpty

def inspected (unit : IndentUnit) : Detail → Except Error String
  | value v => v.inspected unit
  | table entries => do
    let shown ← entries.mapM fun e => do
      return Text.quoted e.1 ++ ": " ++ (← e.2.inspected unit)
    return "\x7b" ++ ", ".intercalate shown ++ "\x7d"

def text (unit : IndentUnit) : Detail → Except Error String
  | value v => v.text unit
  | d => d.inspected unit

end Detail

structure Notice where
  message : Detail
  details : List (String × Detail)

namespace Notice

def ofDetails (message : Detail) : Detail → Except Error Notice
  | .table entries => .ok ⟨message, entries.map fun e => (e.1, .value e.2)⟩
  | .value v => if v.isTrue then .error .lacking else .ok ⟨message, []⟩

def rule (d : Detail) : List (String × Detail) := if d.isTrue then [("rule", d)] else []

def given (key : String) : Detail → List (String × Detail)
  | .value .null => []
  | d => [(key, d)]

def configuration (message kind rule : Detail) : Notice :=
  ⟨message, given "kind" kind ++ Notice.rule rule⟩

def validation (message name rule : Detail) : Notice :=
  ⟨message, given "name" name ++ Notice.rule rule⟩

def codeFormat (unit : IndentUnit) (message format : Detail) : Except Error Notice := do
  if format.isTrue then return ⟨message, [("format", .value (.str (← format.inspected unit)))]⟩
  else return ⟨message, []⟩

def detailTexts (unit : IndentUnit) (n : Notice) : Except Error (List (String × String)) :=
  n.details.mapM fun d => do return (d.1, ← d.2.text unit)

/-- The whole text. A message that is no text can only stand in front of details. -/
def text (unit : IndentUnit) (n : Notice) : Except Error String := do
  match n.details, n.message with
  | [], .value (.str s) => return s
  | [], _ => throw .unsuited
  | _, m =>
    let details ← n.detailTexts unit
    return Report.text ⟨← m.text unit, details⟩

end Notice

end KotlinDecl
