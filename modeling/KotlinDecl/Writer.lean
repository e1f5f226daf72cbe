import KotlinDecl.Value

namespace KotlinDecl

structure Writer where
  unit : String
  level : Int
  comment : Bool
  lineStart : Bool
  /-- The line breaks written since the statement began, or -1 outside a statement. -/
  statement : Int
  /-- The declarations whose bodies are being written, innermost first. -/
  scopes : List Value

namespace Writer

def fresh (unit : String) : Writer := ⟨unit, 0, false, true, -1, []⟩

def continuation : Int := 2

def indentation (w : Writer) : List Char :=
  (List.replicate w.level.toNat w.unit.toList).flatten

/-- The state after a line break. The first one in a statement deepens the lines that follow. -/
def broken (w : Writer) : Writer :=
  { w with
    lineStart := true
    level := if w.statement = 0 then w.level + continuation else w.level
    statement := if w.statement = -1 then -1 else w.statement + 1 }

def put (w : Writer) (c : Char) : List Char × Writer :=
  if c = '\n' then
    (if w.comment && w.lineStart then w.indentation ++ [' ', '*', '\n'] else ['\n'], w.broken)
  else if w.lineStart then
    (w.indentation ++ (if w.comment then [' ', '*', ' '] else []) ++ [c],
      { w with lineStart := false })
  else ([c], w)

def emit (w : Writer) : List Char → List Char × Writer
  | [] => ([], w)
  | c :: rest =>
    let first := w.put c
    let others := first.2.emit rest
    (first.1 ++ others.1, others.2)

end Writer

/-- What a writing step leaves behind: the text, the state after it, and the error that ended it
early, if any. -/
structure Written where
  text : List Char
  writer : Writer
  error : Option Error

namespace Writer

def wrote (r : List Char × Writer) : Written := ⟨r.1, r.2, none⟩

def failed (w : Writer) (e : Error) : Written := ⟨[], w, some e⟩

def quiet (w : Writer) : Written := ⟨[], w, none⟩

def indent (w : Writer) (levels : Int) : Writer := { w with level := w.level + levels }

def unindentBy (w : Writer) (levels : Int) (shown : String) : Written :=
  if w.level - levels < 0 then w.failed (.codeFormat (.unindent shown w.level) none)
  else { w with level := w.level - levels }.quiet

def unindent (w : Writer) (levels : Int) : Written := w.unindentBy levels (toString levels)

def openStatement (w : Writer) : Written :=
  if w.statement ≠ -1 then w.failed (.codeFormat .statementTwice none)
  else { w with statement := 0 }.quiet

/-- Ends the statement. One of several lines gives back the levels of its continuation lines. -/
def closeStatement (w : Writer) : Written :=
  if w.statement = -1 then w.failed (.codeFormat .statementNotOpen none)
  else
    let r := if 0 < w.statement then w.unindent continuation else w.quiet
    if r.error.isSome then r else { r with writer := { r.writer with statement := -1 } }

def freshLine (w : Writer) : Written := if w.lineStart then w.quiet else wrote (w.emit ['\n'])

def pushScope (w : Writer) (v : Value) : Writer := { w with scopes := v :: w.scopes }

def popScope (w : Writer) : Written :=
  match w.scopes with
  | [] => w.failed .emptyStack
  | _ :: rest => { w with scopes := rest }.quiet

end Writer

namespace Written

def andThen (r : Written) (k : Writer → Written) : Written :=
  match r.error with
  | some _ => r
  | none =>
    let s := k r.writer
    ⟨r.text ++ s.text, s.writer, s.error⟩

end Written

end KotlinDecl
