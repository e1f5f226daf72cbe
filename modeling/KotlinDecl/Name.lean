namespace KotlinDecl

namespace Name

def reserved : List String :=
  ["as", "break", "class", "continue", "do", "else", "false", "for", "fun", "if", "in",
    "interface", "is", "null", "object", "package", "return", "super", "this", "throw", "true",
    "try", "typealias", "typeof", "val", "var", "when", "while"]

def isLetter (c : Char) : Bool := c.isAlpha || c = '_'

def isLetterOrDigit (c : Char) : Bool := c.isAlphanum || c = '_'

def isPlain : List Char → Bool
  | [] => false
  | c :: rest => isLetter c && rest.all isLetterOrDigit

def isQuotable (c : Char) : Bool := c ≠ '\x60' && c ≠ '\r' && c ≠ '\n'

/-- One or more quotable characters and the closing quote. -/
def closesQuote : List Char → Bool
  | [] => false
  | [_] => false
  | [c, q] => isQuotable c && q = '\x60'
  | c :: rest => isQuotable c && closesQuote rest

def isQuoted : List Char → Bool
  | [] => false
  | c :: rest => c = '\x60' && closesQuote rest

end Name

/-- Whether `s` can be declared: a plain identifier that is no reserved word, or a quoted name. -/
def isName (s : String) : Bool :=
  (Name.isPlain s.toList || Name.isQuoted s.toList) && !Name.reserved.contains s

end KotlinDecl
