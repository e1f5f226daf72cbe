namespace KotlinDecl.Text

def splitDots : List Char → List (List Char)
  | [] => [[]]
  | '.' :: rest => [] :: splitDots rest
  | c :: rest =>
    match splitDots rest with
    | piece :: pieces => (c :: piece) :: pieces
    | [] => [[c]]

def dotted (pieces : List String) : String := ".".intercalate pieces

end KotlinDecl.Text
