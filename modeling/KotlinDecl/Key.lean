import KotlinDecl.Value

namespace KotlinDecl

inductive HashKey
  | none
  | number (n : Int)
  | text (s : String)
  | group (keys : List HashKey)

namespace HashKey

/-- Whole numbers are hashed modulo the Mersenne prime `2 ^ 61 - 1`, and minus one like minus
two. -/
def ofInt (n : Int) : HashKey :=
  let m := n.tmod 2305843009213693951
  .number (if m = -1 then -2 else m)

def ofText (s : String) : HashKey := if s.isEmpty then .number 0 else .text s

def ofBool (b : Bool) : HashKey := .number (if b then 1 else 0)

mutual

def beq : HashKey → HashKey → Bool
  | .none, .none => true
  | .number a, .number b => a = b
  | .text a, .text b => a = b
  | .group as, .group bs => beqAll as bs
  | _, _ => false

def beqAll : List HashKey → List HashKey → Bool
  | [], [] => true
  | a :: as, b :: bs => a.beq b && beqAll as bs
  | _, _ => false

end

end HashKey

abbrev LazyText := Thunk (Except Error String)

/-- A value with the texts of its declarations filled in. -/
inductive Key
  | null
  | bool (b : Bool)
  | int (n : Int)
  | str (s : String)
  | list (items : List Key)
  | modifier (m : Modifier)
  | kind (k : Kind)
  | named (package : Option String) (names : List String) (nullable : Bool)
  | generic (raw : Key) (args : List Key) (nullable : Bool)
  | typeVar (name : String) (bounds : List Key) (variance : Option Variance)
      (reified nullable : Bool)
  | code (parts : List Part) (args : List Key) (text : LazyText)
  | decl (serial : Option Nat) (sort : DeclSort) (text : LazyText)

namespace Key

def sameText (a b : LazyText) : Except Error Bool := do
  let s ← a.get
  let t ← b.get
  return s = t

def sameSerial : Option Nat → Option Nat → Bool
  | some m, some n => m = n
  | _, _ => false

mutual

/-- Whether two values are equal. Truth values count as the numbers zero and one. A declaration
`inside` another value is equal to itself without being written; on its own only one of a type
is. -/
def equal (inside : Bool) : Key → Key → Except Error Bool
  | .null, .null => .ok true
  | .bool a, .bool b => .ok (a = b)
  | .int a, .int b => .ok (a = b)
  | .bool a, .int b => .ok ((if a then 1 else 0) = b)
  | .int a, .bool b => .ok (a = if b then 1 else 0)
  | .str a, .str b => .ok (a = b)
  | .list as, .list bs => if as.length = bs.length then equalAll as bs else .ok false
  | .modifier a, .modifier b => .ok (a = b)
  | .kind a, .kind b => .ok (a = b)
  | .named p ns n, .named p' ns' n' => .ok (p = p' && ns = ns' && n = n')
  | .generic r as n, .generic r' as' n' => do
    if ← equal true r r' then
      if ← equalAll as as' then return n = n' else return false
    else return false
  | .typeVar x bs v r n, .typeVar x' bs' v' r' n' => do
    if x = x' then
      if ← equalAll bs bs' then return v = v' && r = r' && n = n' else return false
    else return false
  | .code ps as _, .code qs bs _ => if ps = qs then equalAll as bs else .ok false
  | .decl m s t, .decl n s' t' =>
    if sameSerial m n && (inside || s = .typeDecl) then .ok true
    else if s = s' then sameText t t'
    else .ok false
  | _, _ => .ok false

/-- The first difference decides; failures behind it do not count. -/
def equalAll : List Key → List Key → Except Error Bool
  | [], [] => .ok true
  | a :: as, b :: bs => do
    if ← equal true a b then equalAll as bs else return false
  | _, _ => .ok false

end

mutual

def hash : Key → Except Error HashKey
  | .null => .ok .none
  | .bool b => .ok (.ofBool b)
  | .int n => .ok (.ofInt n)
  | .str s => .ok (.ofText s)
  | .list _ => .error .unsuited
  | .modifier m => .ok (.ofText m.name)
  | .kind k => .ok (.ofText k.name)
  | .named package names nullable =>
    .ok (.group [.text "named",
      .group [(package.map HashKey.ofText).getD .none, .group (names.map HashKey.ofText)],
      .ofBool nullable])
  | .generic raw args nullable => do
    return .group [.text "generic", .group [← raw.hash, .group (← hashAll args)], .ofBool nullable]
  | .typeVar name bounds variance reified nullable => do
    return .group [.text "variable",
      .group [.ofText name, .group (← hashAll bounds),
        (variance.map fun v => HashKey.ofText v.modifier.name).getD .none, .ofBool reified],
      .ofBool nullable]
  | .code _ _ text => do return .ofText (← text.get)
  | .decl _ _ text => do return .ofText (← text.get)

def hashAll : List Key → Except Error (List HashKey)
  | [] => .ok []
  | k :: rest => do return (← k.hash) :: (← hashAll rest)

end

def sameHash (a b : Key) : Except Error Bool := do
  let k ← a.hash
  let l ← b.hash
  return k.beq l

def finds (sought stored : Key) : Except Error Bool := do
  if ← sameHash sought stored then equal true stored sought else return false

/-- The place of a key among others, each of which is in its place for good. A key that cannot be
hashed cannot even be looked up. -/
def indexIn (sought : Key) (keys : List Key) : Except Error (Option Nat) := do
  let _ ← sought.hash
  go 0 keys
where
  go (n : Nat) : List Key → Except Error (Option Nat)
    | [] => .ok none
    | k :: rest => do if ← sought.finds k then return some n else go (n + 1) rest

def checkSet (keys : List Key) : Except Error Unit := go [] keys
where
  go (seen : List Key) : List Key → Except Error Unit
    | [] => .ok ()
    | k :: rest => do
      match ← k.indexIn seen with
      | some _ => go seen rest
      | none => go (seen ++ [k]) rest

end Key

end KotlinDecl
