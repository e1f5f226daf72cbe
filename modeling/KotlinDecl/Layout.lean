import KotlinDecl.Writer

namespace KotlinDecl

inductive Layout
  | empty
  | text (s : String)
  | seq (a b : Layout)
  | indent
  | unindent
  | openStatement
  | closeStatement
  /-- A line break unless a line has just begun. -/
  | freshLine
  /-- Contents of a documentation comment. -/
  | comment (contents : Layout)
  /-- A declaration: statements around it do not reach into it. -/
  | declaration (contents : Layout)
  /-- Members of `scope`, one level deeper. -/
  | body (scope : Value) (contents : Layout)
  | fail (e : Error)

namespace Layout

instance : Append Layout := ⟨seq⟩

def concat (ds : List Layout) : Layout := ds.foldr seq empty

def separated (sep : Layout) : List Layout → Layout
  | [] => empty
  | [d] => d
  | d :: rest => d ++ sep ++ separated sep rest

def when (b : Bool) (d : Layout) : Layout := if b then d else empty

def ofText (s : Except Error String) : Layout :=
  match s with
  | .ok s => text s
  | .error e => fail e

def orFail (d : Except Error Layout) : Layout :=
  match d with
  | .ok d => d
  | .error e => fail e

def run : Layout → Writer → Written
  | empty, w => w.quiet
  | text s, w => Writer.wrote (w.emit s.toList)
  | seq a b, w => (a.run w).andThen b.run
  | indent, w => (w.indent 1).quiet
  | unindent, w => w.unindent 1
  | openStatement, w => w.openStatement
  | closeStatement, w => w.closeStatement
  | freshLine, w => w.freshLine
  | comment d, w =>
    let r := d.run { w with comment := true }
    { r with writer := { r.writer with comment := false } }
  | declaration d, w =>
    let r := d.run { w with statement := -1 }
    { r with writer := { r.writer with statement := w.statement } }
  | body scope d, w =>
    let r := d.run ((w.pushScope scope).indent 1)
    { r with writer := { r.writer with level := w.level, scopes := r.writer.scopes.tail } }
  | fail e, w => w.failed e

def render (unit : String) (d : Layout) : Except Error String :=
  let r := d.run (Writer.fresh unit)
  match r.error with
  | some e => .error e
  | none => .ok (String.ofList r.text)

end Layout

/-- The indentation unit of whatever is written on its own, if it is known. -/
abbrev IndentUnit := Except Error String

/-- The text of a layout. It takes a writer, and so the unit, even where nothing is indented. -/
def Layout.alone (unit : IndentUnit) (d : Layout) : Except Error String := do
  d.render (← unit)

end KotlinDecl
