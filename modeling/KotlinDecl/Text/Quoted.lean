import KotlinDecl.Text.Literal
import KotlinDecl.Text.Printable

namespace KotlinDecl.Text

/-- Double quotes are taken when the text has single quotes and no double ones. -/
def quoteFor (cs : List Char) : Char :=
  if cs.contains '\x27' && !cs.contains '\x22' then '\x22' else '\x27'

def quoteChar (q c : Char) : String :=
  if c = q || c = '\\' then "\\" ++ c.toString
  else if c = '\n' then "\\n"
  else if c = '\r' then "\\r"
  else if c = '\t' then "\\t"
  else if isPrintable c then c.toString
  else if c.toNat < 0x100 then "\\x" ++ hexDigits 2 c.toNat
  else if c.toNat < 0x10000 then "\\u" ++ hexDigits 4 c.toNat
  else "\\U" ++ hexDigits 8 c.toNat

def quoted (s : String) : String :=
  let q := quoteFor s.toList
  q.toString ++ String.join (s.toList.map (quoteChar q)) ++ q.toString

end KotlinDecl.Text
