import KotlinDecl.Rendering

namespace KotlinDecl

def Value.name? : Value → Option String
  | .str s => some s
  | .modifier m => some m.name
  | .kind k => some k.name
  | .type (.typeVar name _ _ _ _) => some name
  | .decl _ (.parameter p) => some p.name
  | .decl _ (.property p) => some p.name
  | .decl _ (.function f) => some f.name
  | .decl _ (.typeDecl d) => d.name
  | _ => none

namespace Format

inductive Step
  | part (p : Part)
  /-- A placeholder of a list, which takes its argument but is not written. -/
  | loose (letter : Char) (p : Option Placeholder)
  | fault (f : FormatFault)
  | error (e : Error)

/-- Puts a character in front of steps, into the text they begin with if they do. -/
def consChar (c : Char) : List Step → List Step
  | .part (.text s) :: rest => .part (.text (c.toString ++ s)) :: rest
  | steps => .part (.text c.toString) :: steps

/-- The parts up to the end or up to a percent sign that begins no placeholder. -/
def scan : List Char → List Step
  | [] => []
  | '%' :: rest =>
    match rest with
    | [] => [.fault .dangling]
    | c :: rest =>
      match Part.ofLetter? c with
      | none => [.fault (.invalidPlaceholder c.toString)]
      | some p => .part p :: scan rest
  | c :: rest => consChar c (scan rest)

def placeholder? (c : Char) : Option Placeholder :=
  match Part.ofLetter? c with
  | some (.argument p) => some p
  | _ => none

def looseStep (f : Forms) : Step :=
  match f.key.hash with
  | .error e => .error e
  | .ok _ =>
    match f.value, f.text with
    | .str s, _ =>
      match s.toList with
      | [c] =>
        if (Part.ofLetter? c).isSome then .loose c (placeholder? c)
        else .fault (.invalidPlaceholder s)
      | _ => .fault (.invalidPlaceholder s)
    | _, .ok s => .fault (.invalidPlaceholder s)
    | _, .error e => .error e

/-- The steps of a list. Text that is no placeholder cannot be searched for the next one. -/
def scanItems : List Forms → List Step
  | [] => []
  | [f] =>
    match f.value with
    | .str "%" => [.fault .dangling]
    | _ => [.error .lacking]
  | f :: g :: rest =>
    match f.value with
    | .str "%" => looseStep g :: scanItems rest
    | _ => [.error .lacking]

def faulty {α : Type} (format : Except Error (Option String)) (fault : FormatFault) :
    Except Error α := do
  .error (.codeFormat fault (← format))

def bindOne (format : Except Error (Option String)) : Placeholder → Forms → Except Error Value
  | .literal, f => .ok f.value
  | .string, f =>
    match f.value with
    | .null => .ok .null
    | .str s => .ok (.str s)
    | _ => do return .str (← f.text)
  | .name, f =>
    match f.value.name? with
    | some s => .ok (.str s)
    | none => do faulty format (.notName (← f.inspected))
  | .type, f =>
    match f.value with
    | .type t => .ok (.type t)
    | _ => do faulty format (.notType (← f.inspected))

def take (format : Except Error (Option String)) (index : Nat) (p : Placeholder) :
    List Forms → Except Error (Value × List Forms)
  | [] => faulty format (.outOfRange index p.letter)
  | f :: args => do return (← bindOne format p f, args)

/-- The code of some steps. Arguments may not be left over. -/
def bind (format : Except Error (Option String)) (index : Nat) :
    List Step → List Forms → Except Error CodeBlock
  | [], args =>
    if args.isEmpty then .ok .empty else faulty format (.unusedArguments args.length)
  | .part (.argument p) :: steps, args => do
    let (v, args) ← take format index p args
    return ⟨[.argument p], [v]⟩ ++ (← bind format (index + 1) steps args)
  | .part p :: steps, args => do return ⟨[p], []⟩ ++ (← bind format index steps args)
  | .loose c (some p) :: steps, args => do
    let (v, args) ← take format index p args
    return ⟨[.split c], [v]⟩ ++ (← bind format (index + 1) steps args)
  | .loose c none :: steps, args => do return ⟨[.split c], []⟩ ++ (← bind format index steps args)
  | .fault f :: _, _ => faulty format f
  | .error e :: _, _ => .error e

def listed (f : Forms) : Except Error (Option String) :=
  if f.value.isTrue then do return some (← f.inspected) else .ok none

def steps (unit : IndentUnit) : Value → Except Error (List Step)
  | .str s => .ok (scan s.toList)
  | .list items => .ok (scanItems (Value.formsAll unit items))
  | _ => .error .unsuited

/-- Reads a format with its arguments. `unit` indents an argument that has to be written to become
a string. -/
def parse (unit : IndentUnit) (format : Value) (args : List Value) : Except Error CodeBlock := do
  bind (listed (format.forms unit)) 0 (← steps unit format) (Value.formsAll unit args)

end Format

end KotlinDecl
