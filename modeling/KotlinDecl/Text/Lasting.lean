namespace KotlinDecl.Text

def hasInfix (pattern : List Char) : List Char → Bool
  | [] => pattern.isEmpty
  | c :: rest => pattern.isPrefixOf (c :: rest) || hasInfix pattern rest

/-- What precedes a place in memory. -/
def placeMark : String := " at 0x"

/-- What precedes the members of a set without order. -/
def setMark : String := "frozenset("

def isLasting (s : String) : Bool :=
  !hasInfix placeMark.toList s.toList && !hasInfix setMark.toList s.toList

end KotlinDecl.Text
