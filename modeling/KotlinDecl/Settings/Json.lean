import KotlinDecl.Settings.Datum
import KotlinDecl.Text.Literal

namespace KotlinDecl.Settings.Json

def isBlank (c : Char) : Bool := c = ' ' || c = '\t' || c = '\n' || c = '\r'

def skip (cs : List Char) : List Char := cs.dropWhile isBlank

def hexValue? (c : Char) : Option Nat :=
  if c.isDigit then some (c.toNat - '0'.toNat)
  else if 'a' ≤ c && c ≤ 'f' then some (c.toNat - 'a'.toNat + 10)
  else if 'A' ≤ c && c ≤ 'F' then some (c.toNat - 'A'.toNat + 10)
  else none

def hexNumber? (cs : List Char) : Option Nat :=
  cs.foldl (fun n c => do return 16 * (← n) + (← hexValue? c)) (some 0)

def shortEscape? : Char → Option Char
  | '\x22' => some '\x22'
  | '\\' => some '\\'
  | '/' => some '/'
  | 'b' => some '\x08'
  | 'f' => some '\x0c'
  | 'n' => some '\n'
  | 'r' => some '\r'
  | 't' => some '\t'
  | _ => none

/-- The code units of a string up to its closing quote, and what follows. -/
def units? : List Char → Option (List Nat × List Char)
  | [] => none
  | '\x22' :: rest => some ([], rest)
  | '\\' :: 'u' :: a :: b :: c :: d :: rest => do
    let n ← hexNumber? [a, b, c, d]
    let (us, rest) ← units? rest
    return (n :: us, rest)
  | '\\' :: c :: rest => do
    let e ← shortEscape? c
    let (us, rest) ← units? rest
    return (e.toNat :: us, rest)
  | c :: rest => do
    if c = '\\' || c.toNat < 0x20 then none
    else
      let (us, rest) ← units? rest
      return (c.toNat :: us, rest)

/-- Characters from code units: a high and a low surrogate make one character, a lone one has no
character to stand for. -/
def ofUnits : List Nat → List Char
  | [] => []
  | h :: l :: rest =>
    if 0xD800 ≤ h && h < 0xDC00 && 0xDC00 ≤ l && l < 0xE000 then
      Char.ofNat (0x10000 + (h - 0xD800) * 0x400 + (l - 0xDC00)) :: ofUnits rest
    else (if 0xD800 ≤ h && h < 0xE000 then '�' else Char.ofNat h) :: ofUnits (l :: rest)
  | [h] => [if 0xD800 ≤ h && h < 0xE000 then '�' else Char.ofNat h]

def string? (cs : List Char) : Option (String × List Char) := do
  let (us, rest) ← units? cs
  return (String.ofList (ofUnits us), rest)

def digits? (cs : List Char) : Option (List Char × List Char) :=
  let ds := cs.takeWhile Char.isDigit
  if ds.isEmpty then none else some (ds, cs.drop ds.length)

def natural (ds : List Char) : Nat := ds.foldl (fun n c => 10 * n + (c.toNat - '0'.toNat)) 0

def whole? : List Char → Option (List Char × List Char)
  | '0' :: rest => some (['0'], rest)
  | cs => digits? cs

def fraction : List Char → List Char × List Char
  | '.' :: cs =>
    match digits? cs with
    | some (ds, rest) => ('.' :: ds, rest)
    | none => ([], '.' :: cs)
  | cs => ([], cs)

def exponent : List Char → List Char × List Char
  | [] => ([], [])
  | e :: cs =>
    if e = 'e' || e = 'E' then
      let sign := cs.takeWhile fun c => c = '+' || c = '-'
      match digits? (cs.drop sign.length) with
      | some (ds, rest) => if sign.length ≤ 1 then (e :: sign ++ ds, rest) else ([], e :: cs)
      | none => ([], e :: cs)
    else ([], e :: cs)

def number? (cs : List Char) : Option (Datum × List Char) := do
  let (sign, cs) := match cs with
    | '-' :: rest => (['-'], rest)
    | cs => ([], cs)
  let (ds, rest) ← whole? cs
  let (f, rest) := fraction rest
  let (e, rest) := exponent rest
  if f.isEmpty && e.isEmpty then
    return (.int (if sign.isEmpty then natural ds else -natural ds), rest)
  return (.real (String.ofList (sign ++ ds ++ f ++ e)), rest)

def after? (word : String) (cs : List Char) : Option (List Char) :=
  if word.toList.isPrefixOf cs then some (cs.drop word.length) else none

def words : List (String × Datum) :=
  [("null", .null), ("true", .bool true), ("false", .bool false), ("NaN", .real "NaN"),
    ("Infinity", .real "Infinity"), ("-Infinity", .real "-Infinity")]

def word? (cs : List Char) : Option (Datum × List Char) :=
  words.findSome? fun w => (after? w.1 cs).map (w.2, ·)

mutual

/-- One value and what follows it. Two units of `fuel` for each character are enough. -/
def value? (fuel : Nat) (cs : List Char) : Option (Datum × List Char) :=
  match fuel with
  | 0 => none
  | fuel + 1 =>
    match skip cs with
    | '\x7b' :: rest =>
      match skip rest with
      | '\x7d' :: rest => some (.map [], rest)
      | rest => (entries? fuel rest).map fun r => (.map r.1, r.2)
    | '[' :: rest =>
      match skip rest with
      | ']' :: rest => some (.list [], rest)
      | rest => (items? fuel rest).map fun r => (.list r.1, r.2)
    | '\x22' :: rest => (string? rest).map fun r => (.str r.1, r.2)
    | cs => (word? cs).or (number? cs)

def items? (fuel : Nat) (cs : List Char) : Option (List Datum × List Char) :=
  match fuel with
  | 0 => none
  | fuel + 1 => do
    let (d, rest) ← value? fuel cs
    match skip rest with
    | ',' :: rest => do
      let (ds, rest) ← items? fuel rest
      return (d :: ds, rest)
    | ']' :: rest => return ([d], rest)
    | _ => none

def entries? (fuel : Nat) (cs : List Char) : Option (List (String × Datum) × List Char) :=
  match fuel with
  | 0 => none
  | fuel + 1 =>
    match skip cs with
    | '\x22' :: rest => do
      let (key, rest) ← string? rest
      match skip rest with
      | ':' :: rest => do
        let (d, rest) ← value? fuel rest
        match skip rest with
        | ',' :: rest => do
          let (ds, rest) ← entries? fuel rest
          return ((key, d) :: ds, rest)
        | '\x7d' :: rest => return ([(key, d)], rest)
        | _ => none
      | _ => none
    | _ => none

end

def read? (text : String) : Option Datum :=
  match value? (2 * text.length + 2) text.toList with
  | some (d, rest) => if (skip rest).isEmpty then some d else none
  | none => none

def escape (c : Char) : String :=
  if c = '\x22' then "\\\""
  else if c = '\\' then "\\\\"
  else if c = '\n' then "\\n"
  else if c = '\r' then "\\r"
  else if c = '\t' then "\\t"
  else if c = '\x08' then "\\b"
  else if c = '\x0c' then "\\f"
  else if 0x20 ≤ c.toNat && c.toNat < 0x7f then c.toString
  else if c.toNat < 0x10000 then "\\u" ++ Text.hexDigits 4 c.toNat
  else
    let n := c.toNat - 0x10000
    "\\u" ++ Text.hexDigits 4 (0xD800 + n / 0x400) ++ "\\u" ++ Text.hexDigits 4 (0xDC00 + n % 0x400)

def quote (s : String) : String := "\"" ++ String.join (s.toList.map escape) ++ "\""

def newline (depth : Nat) : String := "\n" ++ String.ofList (List.replicate (2 * depth) ' ')

mutual

def write (depth : Nat) : Datum → String
  | .null => "null"
  | .bool b => if b then "true" else "false"
  | .int n => toString n
  | .real written => written
  | .str s => quote s
  | .list [] => "[]"
  | .list (d :: ds) =>
    "[" ++ newline (depth + 1) ++ write (depth + 1) d ++ writeItems (depth + 1) ds ++
      newline depth ++ "]"
  | .map [] => "\x7b\x7d"
  | .map (e :: es) => "\x7b" ++ newline (depth + 1) ++ quote e.1 ++ ": " ++ write (depth + 1) e.2 ++
      writeEntries (depth + 1) es ++ newline depth ++ "\x7d"

def writeItems (depth : Nat) : List Datum → String
  | [] => ""
  | d :: ds => "," ++ newline depth ++ write depth d ++ writeItems depth ds

def writeEntries (depth : Nat) : List (String × Datum) → String
  | [] => ""
  | (key, d) :: es =>
    "," ++ newline depth ++ quote key ++ ": " ++ write depth d ++ writeEntries depth es

end

end KotlinDecl.Settings.Json
