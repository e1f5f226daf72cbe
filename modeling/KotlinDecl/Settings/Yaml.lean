import KotlinDecl.Settings.Json

namespace KotlinDecl.Settings.Yaml

def isBlank (c : Char) : Bool := c = ' ' || c = '\t'

def nulls : List String := ["", "~", "null", "Null", "NULL"]

def yes : List String := ["yes", "Yes", "YES", "true", "True", "TRUE", "on", "On", "ON"]

def no : List String := ["no", "No", "NO", "false", "False", "FALSE", "off", "Off", "OFF"]

def number (base : Nat) (ds : List Char) : Nat :=
  ds.foldl (fun n c => base * n + (Json.hexValue? c).getD 0) 0

def digits? (base : Nat) (cs : List Char) : Option Nat :=
  if !cs.isEmpty && cs.all fun c => c = '_' || (Json.hexValue? c).any (· < base) then
    some (number base (cs.filter (· ≠ '_')))
  else none

def sixtieth? : List Char → Option Nat
  | [a] => if a.isDigit then some (number 10 [a]) else none
  | [a, b] => if '0' ≤ a && a ≤ '5' && b.isDigit then some (number 10 [a, b]) else none
  | _ => none

def groups (cs : List Char) : List (List Char) :=
  cs.foldr (fun c gs => if c = ':' then [] :: gs else
    match gs with
    | g :: gs => (c :: g) :: gs
    | [] => [[c]]) [[]]

def sexagesimal? (cs : List Char) : Option Nat :=
  match groups cs with
  | g :: g' :: gs => do
    let n ← digits? 10 g
    (g' :: gs).foldlM (fun n g => do return 60 * n + (← sixtieth? g)) n
  | _ => none

/-- A number without its sign. A leading zero calls for base eight, `0x` for sixteen and `0b` for
two. -/
def magnitude? : List Char → Option Nat
  | ['0'] => some 0
  | '0' :: 'b' :: cs => digits? 2 cs
  | '0' :: 'x' :: cs => digits? 16 cs
  | '0' :: cs => digits? 8 cs
  | c :: cs =>
    if c.isDigit then (digits? 10 (c :: cs)).or (sexagesimal? (c :: cs)) else none
  | [] => none

def int? : List Char → Option Int
  | '-' :: cs => (magnitude? cs).map fun n => -(n : Int)
  | '+' :: cs => (magnitude? cs).map Int.ofNat
  | cs => (magnitude? cs).map Int.ofNat

def isReal (cs : List Char) : Bool :=
  let cs := match cs with
    | '-' :: rest => rest
    | '+' :: rest => rest
    | cs => cs
  let whole := cs.takeWhile Char.isDigit
  match cs.drop whole.length with
  | '.' :: rest =>
    let f := rest.takeWhile Char.isDigit
    (!whole.isEmpty || !f.isEmpty) &&
      match rest.drop f.length with
      | [] => true
      | e :: s :: ds =>
        (e = 'e' || e = 'E') && (s = '+' || s = '-') && !ds.isEmpty && ds.all Char.isDigit
      | _ => false
  | _ => false

def resolve (cs : List Char) : Datum :=
  let s := String.ofList cs
  if nulls.contains s then .null
  else if yes.contains s then .bool true
  else if no.contains s then .bool false
  else
    match int? cs with
    | some n => .int n
    | none => if isReal cs then .real s else .str s

def indicators : List Char :=
  [',', '[', ']', '\x7b', '\x7d', '#', '&', '*', '!', '|', '>', '\x27', '\x22', '%', '@', '\x60']

/-- A dash, a question mark or a colon starts an unquoted scalar only if no blank follows, and a
blank never does. -/
def startsPlain : List Char → Bool
  | [] => false
  | c :: rest =>
    if c = '-' || c = '?' || c = ':' then
      match rest with
      | [] => false
      | d :: _ => !isBlank d
    else !isBlank c && !indicators.contains c

def single? : List Char → Option (List Char × List Char)
  | [] => none
  | '\x27' :: '\x27' :: rest => do
    let (s, rest) ← single? rest
    return ('\x27' :: s, rest)
  | c :: rest =>
    if c = '\x27' then some ([], rest)
    else do
      let (s, rest) ← single? rest
      return (c :: s, rest)

def quoted? : List Char → Option (String × List Char)
  | '\x22' :: rest => Json.string? rest
  | '\x27' :: rest => (single? rest).map fun r => (String.ofList r.1, r.2)
  | _ => none

def isQuote (c : Char) : Bool := c = '\x22' || c = '\x27'

def isFlowMark (c : Char) : Bool := [',', '[', ']', '\x7b', '\x7d'].contains c

/-- An unquoted scalar inside a flow collection ends at a mark of the collection or at a colon
with a blank, a mark or nothing after it. -/
def flowPlain : List Char → List Char × List Char
  | [] => ([], [])
  | ':' :: rest =>
    match rest with
    | [] => ([], [':'])
    | d :: _ =>
      if isBlank d || isFlowMark d then ([], ':' :: rest)
      else
        let (s, rest) := flowPlain rest
        (':' :: s, rest)
  | c :: rest =>
    if isFlowMark c then ([], c :: rest)
    else
      let (s, rest) := flowPlain rest
      (c :: s, rest)

def dropBlanks (cs : List Char) : List Char := cs.dropWhile isBlank

def trimEnd (cs : List Char) : List Char := (cs.reverse.dropWhile isBlank).reverse

mutual

def flow? (fuel : Nat) (cs : List Char) : Option (Datum × List Char) :=
  match fuel with
  | 0 => none
  | fuel + 1 =>
    match dropBlanks cs with
    | '\x7b' :: rest => (flowEntries? fuel rest).map fun r => (.map r.1, r.2)
    | '[' :: rest => (flowItems? fuel rest).map fun r => (.list r.1, r.2)
    | [] => none
    | c :: rest =>
      if isQuote c then (quoted? (c :: rest)).map fun r => (.str r.1, r.2)
      else if c = ',' || c = ']' || c = '\x7d' then some (.null, c :: rest)
      else if startsPlain (c :: rest) then
        let (s, rest) := flowPlain (c :: rest)
        some (resolve (trimEnd s), rest)
      else none

def flowItems? (fuel : Nat) (cs : List Char) : Option (List Datum × List Char) :=
  match fuel with
  | 0 => none
  | fuel + 1 =>
    match dropBlanks cs with
    | ']' :: rest => some ([], rest)
    | ',' :: _ => none
    | cs => do
      let (d, rest) ← flow? fuel cs
      match dropBlanks rest with
      | ',' :: rest => do
        let (ds, rest) ← flowItems? fuel rest
        return (d :: ds, rest)
      | ']' :: rest => return ([d], rest)
      | _ => none

def flowEntries? (fuel : Nat) (cs : List Char) : Option (List (String × Datum) × List Char) :=
  match fuel with
  | 0 => none
  | fuel + 1 =>
    match dropBlanks cs with
    | '\x7d' :: rest => some ([], rest)
    | ',' :: _ => none
    | cs => do
      let (key, rest) ← flowKey? cs
      let (d, rest) ← match dropBlanks rest with
        | ':' :: rest => flow? fuel rest
        | rest => some (.null, rest)
      match dropBlanks rest with
      | ',' :: rest => do
        let (ds, rest) ← flowEntries? fuel rest
        return ((key, d) :: ds, rest)
      | '\x7d' :: rest => return ([(key, d)], rest)
      | _ => none
where
  flowKey? (cs : List Char) : Option (String × List Char) :=
    match cs with
    | [] => none
    | c :: rest =>
      if isQuote c then quoted? (c :: rest)
      else if startsPlain (c :: rest) then
        let (s, rest) := flowPlain (c :: rest)
        some (String.ofList (trimEnd s), rest)
      else none

end

structure Line where
  indent : Nat
  text : List Char
  deriving Repr

/-- What is kept of a line of text. `quote` is the quote that is open, `before` the character
before; a quote opens only where a scalar can start, and a comment only after a blank. -/
def uncomment (quote : Option Char) (before : Char) : List Char → List Char
  | [] => []
  | c :: rest =>
    match quote with
    | some q => c :: uncomment (if c = q && before ≠ '\\' then none else quote) c rest
    | none =>
      if c = '#' && isBlank before then []
      else
        let opens := isQuote c && (isBlank before || isFlowMark before || before = ':')
        c :: uncomment (if opens then some c else none) c rest

def line (cs : List Char) : Line :=
  let spaces := (cs.takeWhile (· = ' ')).length
  ⟨spaces, trimEnd (uncomment none ' ' (cs.drop spaces))⟩

def linesOf (text : String) : List Line :=
  let raw := text.toList.foldr (fun c ls => if c = '\n' then [] :: ls else
    match ls with
    | l :: ls => (if c = '\r' && l.isEmpty then l else c :: l) :: ls
    | [] => [[c]]) [[]]
  (raw.map line).filter fun l => !l.text.isEmpty

def splitKey? (cs : List Char) : Option (String × List Char) :=
  match cs with
  | [] => none
  | c :: rest =>
    if isQuote c then do
      let (key, rest) ← quoted? (c :: rest)
      match dropBlanks rest with
      | ':' :: rest => if startsValue rest then some (key, dropBlanks rest) else none
      | _ => none
    else if startsPlain (c :: rest) then do
      let (key, rest) ← plainKey? (c :: rest)
      return (String.ofList (trimEnd key), dropBlanks rest)
    else none
where
  startsValue : List Char → Bool
    | [] => true
    | c :: _ => isBlank c
  plainKey? : List Char → Option (List Char × List Char)
    | [] => none
    | ':' :: rest =>
      if startsValue rest then some ([], rest)
      else do
        let (key, rest) ← plainKey? rest
        return (':' :: key, rest)
    | c :: rest => do
      let (key, rest) ← plainKey? rest
      return (c :: key, rest)

def isItem (cs : List Char) : Bool :=
  match cs with
  | ['-'] => true
  | '-' :: c :: _ => isBlank c
  | _ => false

def flowOver (text : List Char) : List Line → Option (Datum × List Line)
  | [] => (whole text).map (·, [])
  | l :: ls =>
    match whole text with
    | some d => some (d, l :: ls)
    | none => flowOver (text ++ ' ' :: l.text) ls
where
  whole (text : List Char) : Option Datum :=
    match flow? (2 * text.length + 2) text with
    | some (d, rest) => if (dropBlanks rest).isEmpty then some d else none
    | none => none

def plainOver (outer : Option Nat) (text : List Char) : List Line → Option (Datum × List Line)
  | [] => (scalar text).map (·, [])
  | l :: ls =>
    if outer.all (· < l.indent) then plainOver outer (text ++ ' ' :: l.text) ls
    else (scalar text).map (·, l :: ls)
where
  scalar (text : List Char) : Option Datum :=
    if (splitKey? text).isSome then none else some (resolve text)

def inline? (outer : Option Nat) (text : List Char) (ls : List Line) :
    Option (Datum × List Line) :=
  match text with
  | [] => some (.null, ls)
  | c :: rest =>
    if c = '\x7b' || c = '[' then flowOver (c :: rest) ls
    else if isQuote c then do
      let (s, rest) ← quoted? (c :: rest)
      if (dropBlanks rest).isEmpty then some (.str s, ls) else none
    else if startsPlain (c :: rest) then plainOver outer (c :: rest) ls
    else none

mutual

def node? (fuel : Nat) (outer : Option Nat) (ls : List Line) : Option (Datum × List Line) :=
  match fuel, ls with
  | 0, _ => none
  | _, [] => some (.null, [])
  | fuel + 1, l :: ls =>
    if isItem l.text then
      (items? fuel l.indent (l :: ls)).map fun r => (.list r.1, r.2)
    else if (splitKey? l.text).isSome then
      (entries? fuel l.indent (l :: ls)).map fun r => (.map r.1, r.2)
    else inline? outer l.text ls

def items? (fuel : Nat) (indent : Nat) (ls : List Line) : Option (List Datum × List Line) :=
  match fuel, ls with
  | 0, _ => none
  | _, [] => some ([], [])
  | fuel + 1, l :: ls =>
    if l.indent < indent || (l.indent = indent && !isItem l.text) then some ([], l :: ls)
    else if l.indent > indent then none
    else do
      let rest := l.text.drop 1
      let text := dropBlanks rest
      let (d, ls) ←
        if text.isEmpty then below fuel indent ls
        else node? fuel (some indent) (⟨indent + 1 + (rest.length - text.length), text⟩ :: ls)
      let (ds, ls) ← items? fuel indent ls
      return (d :: ds, ls)

def entries? (fuel : Nat) (indent : Nat) (ls : List Line) :
    Option (List (String × Datum) × List Line) :=
  match fuel, ls with
  | 0, _ => none
  | _, [] => some ([], [])
  | fuel + 1, l :: ls =>
    if l.indent < indent then some ([], l :: ls)
    else if l.indent > indent then none
    else do
      let (key, text) ← splitKey? l.text
      let (d, ls) ←
        if text.isEmpty then
          match ls with
          | m :: _ =>
            if m.indent = indent && isItem m.text then node? fuel (some indent) ls
            else below fuel indent ls
          | [] => some (.null, [])
        else inline? (some indent) text ls
      let (ds, ls) ← entries? fuel indent ls
      return ((key, d) :: ds, ls)

def below (fuel : Nat) (indent : Nat) (ls : List Line) : Option (Datum × List Line) :=
  match fuel, ls with
  | 0, _ => none
  | _, [] => some (.null, [])
  | fuel + 1, l :: ls =>
    if l.indent > indent then node? fuel (some indent) (l :: ls) else some (.null, l :: ls)

end

/-- The lines of the one document that there is, without the marks in front of it and behind it. -/
def document? : List Line → Option (List Line)
  | [] => some []
  | l :: ls => if isMark '-' l then only ls else only (l :: ls)
where
  isMark (c : Char) (l : Line) : Bool := l.indent = 0 && l.text = [c, c, c]
  only (ls : List Line) : Option (List Line) :=
    let body := ls.takeWhile fun l => !isMark '-' l && !isMark '.' l
    if (ls.drop body.length).all (isMark '.') then some body else none

def read? (text : String) : Option Datum := do
  match node? (4 * text.length + 4) none (← document? (linesOf text)) with
  | some (d, []) => some d
  | _ => none

/-- Whether a text can stand without quotes and be read back as itself. -/
def isPlain (s : String) : Bool :=
  (match s.toList with
    | [] => false
    | c :: _ => c.isAlpha) &&
  (s.toList.all fun c => c.isAlphanum || c = ' ' || c = '_' || c = '-' || c = '.' || c = '/') &&
  !(s.toList.getLast? = some ' ') &&
  match resolve s.toList with
  | .str _ => true
  | _ => false

def quote (s : String) : String :=
  "'" ++ String.ofList (s.toList.flatMap fun c => if c = '\x27' then ['\x27', '\x27'] else [c]) ++
    "'"

mutual

def write (indent : Nat) : Datum → String
  | .null => " null\n"
  | .bool b => if b then " true\n" else " false\n"
  | .int n => " " ++ toString n ++ "\n"
  | .real written => " " ++ written ++ "\n"
  | .str s => " " ++ (if isPlain s then s else quote s) ++ "\n"
  | .list [] => " []\n"
  | .list (d :: ds) => "\n" ++ writeItems indent (d :: ds)
  | .map [] => " \x7b\x7d\n"
  | .map (e :: es) => "\n" ++ writeEntries (indent + 2) (e :: es)

def writeItems (indent : Nat) : List Datum → String
  | [] => ""
  | d :: ds => String.ofList (List.replicate indent ' ') ++ "-" ++ write (indent + 2) d ++
      writeItems indent ds

def writeEntries (indent : Nat) : List (String × Datum) → String
  | [] => ""
  | (key, d) :: es => String.ofList (List.replicate indent ' ') ++ key ++ ":" ++ write indent d ++
      writeEntries indent es

end

end KotlinDecl.Settings.Yaml
