namespace KotlinDecl

inductive Datum
  | null
  | bool (b : Bool)
  | int (n : Int)
  /-- A number with a fraction or an exponent, as it was written. -/
  | real (written : String)
  | str (s : String)
  | list (items : List Datum)
  | map (entries : List (String × Datum))
  deriving Repr, Inhabited

namespace Datum

/-- Nothing, zero, false and whatever is empty count as no data. -/
def isTrue : Datum → Bool
  | null => false
  | bool b => b
  | int n => n ≠ 0
  | real written => (written.toList.takeWhile fun c => c ≠ 'e' && c ≠ 'E').any fun c =>
      c.isAlpha || (c.isDigit && c ≠ '0')
  | str s => !s.isEmpty
  | list items => !items.isEmpty
  | map entries => !entries.isEmpty

/-- The entry of a key; of repeated keys the last counts. -/
def get? (key : String) (entries : List (String × Datum)) : Option Datum :=
  entries.reverse.lookup key

def blanks? : Datum → Option String
  | int n => some (String.ofList (List.replicate n.toNat ' '))
  | bool b => some (if b then " " else "")
  | _ => none

end Datum

end KotlinDecl
