import KotlinDecl.Edit
import KotlinDecl.Format

namespace KotlinDecl

namespace CodeBlock

def ofFormat (unit : IndentUnit) (format : Value) (args : List Value) : Except Error CodeBlock :=
  match format with
  | .code c => if args.isEmpty then .ok c else .error (.codeFormat .blockWithArguments none)
  | format => Format.parse unit format args

def ofFormatOrBlock (unit : IndentUnit) (format : Value) (args : List Value) :
    Except Error CodeBlock :=
  match format with
  | .code c => .ok c
  | v => ofFormat unit v args

def add (unit : IndentUnit) (format : Value) (args : List Value) : Edit CodeBlock Unit := do
  let c ← Edit.require (ofFormat unit format args)
  modify (· ++ c)

def addPart (p : Part) : Edit CodeBlock Unit := modify (· ++ ⟨[p], []⟩)

def addStatement (unit : IndentUnit) (format : Value) (args : List Value) :
    Edit CodeBlock Unit := do
  addPart .openStatement
  add unit format args
  add unit (.str "\n%]") []

def addHead (unit : IndentUnit) (front : String) (head : Value) (args : List Value) :
    Edit CodeBlock Unit := do
  match head with
  | .str s => add unit (.str (front ++ s ++ " \x7b\n")) args
  | _ => throw .unsuited

def beginControlFlow (unit : IndentUnit) (head : Value) (args : List Value) :
    Edit CodeBlock Unit := do
  addHead unit "" head args
  addPart .indent

def nextControlFlow (unit : IndentUnit) (head : Value) (args : List Value) :
    Edit CodeBlock Unit := do
  addPart .unindent
  addHead unit "\x7d " head args
  addPart .indent

def endControlFlow : Edit CodeBlock Unit := do
  addPart .unindent
  addPart (.text "\x7d\n")

inductive Call
  | add (format : Value) (args : List Value)
  | addStatement (format : Value) (args : List Value)
  | beginControlFlow (head : Value) (args : List Value)
  | nextControlFlow (head : Value) (args : List Value)
  | endControlFlow
  | indent
  | unindent

def Call.apply (unit : IndentUnit) : Call → Edit CodeBlock Unit
  | add format args => CodeBlock.add unit format args
  | addStatement format args => CodeBlock.addStatement unit format args
  | beginControlFlow head args => CodeBlock.beginControlFlow unit head args
  | nextControlFlow head args => CodeBlock.nextControlFlow unit head args
  | endControlFlow => CodeBlock.endControlFlow
  | indent => addPart .indent
  | unindent => addPart .unindent

def joinRest (unit : IndentUnit) (separator : Value) : List Value → Edit CodeBlock Unit
  | [] => pure ()
  | block :: rest => do
    add unit separator []
    add unit block []
    joinRest unit separator rest

/-- `blocks` with `separator` between neighbours, between `front` and `back`. All of them may be
format strings. -/
def joinEdit (unit : IndentUnit) (blocks : List Value) (separator front back : Value) :
    Edit CodeBlock Unit := do
  add unit front []
  match blocks with
  | [] => pure ()
  | block :: rest => do
    add unit block []
    joinRest unit separator rest
  add unit back []

def join (unit : IndentUnit) (blocks : List Value) (separator front back : Value) :
    Except Error CodeBlock :=
  match joinEdit unit blocks separator front back .empty with
  | .ok _ c => .ok c
  | .error e _ => .error e

end CodeBlock

end KotlinDecl
