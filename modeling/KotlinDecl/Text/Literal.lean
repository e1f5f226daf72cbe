namespace KotlinDecl.Text

def shortEscape? : Char → Option String
  | '\\' => some "\\\\"
  | '\x22' => some "\\\""
  | '\n' => some "\\n"
  | '\r' => some "\\r"
  | '\t' => some "\\t"
  | '\x08' => some "\\b"
  | '$' => some "\\$"
  | _ => none

def hexDigits (width n : Nat) : String :=
  let digits := Nat.toDigits 16 n
  String.ofList (List.replicate (width - digits.length) '0' ++ digits)

def escapeChar (c : Char) : String :=
  match shortEscape? c with
  | some s => s
  | none => if c.toNat < 0x20 then "\\u" ++ hexDigits 4 c.toNat else c.toString

def escapeSingle? (s : String) : Option String :=
  match s.toList with
  | [c] => some (escapeChar c)
  | _ => none

def stringLiteral : Option String → String
  | none => "null"
  | some s => "\"" ++ String.join (s.toList.map escapeChar) ++ "\""

end KotlinDecl.Text
