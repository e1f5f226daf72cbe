import KotlinDecl.Key

namespace KotlinDecl

def setEntry {α : Type} (key : String) (a : α) : List (String × α) → List (String × α)
  | [] => [(key, a)]
  | e :: rest => if e.1 = key then (key, a) :: rest else e :: setEntry key a rest

def CodeBlock.isReference (c : CodeBlock) (name : String) : Bool :=
  match c with
  | ⟨[.argument .name], [.str s]⟩ => s = name
  | _ => false

namespace PropertyDecl

def isStored (p : PropertyDecl) : Bool :=
  !p.delegated && p.initializer.any (·.isReference p.name)

/-- A property of type `type` folds into a constructor when the parameter of its name has its
type, and the property merely stores it. Parameters are given by name and type. -/
def foldsInto (p : PropertyDecl) (type : Key) (parameters : List (String × Key)) :
    Except Error Bool :=
  match parameters.lookup p.name with
  | none => .ok false
  | some other => do
    if ← other.equal false type then return p.isStored else return false

end PropertyDecl

/-- The items that fold, by name, beside those `found` before. Of several with one name the last
is kept, in the place of the first. -/
def folded {α : Type} (name : α → String) (folds : α → Except Error Bool)
    (found : List (String × α)) : List α → Except Error (List (String × α))
  | [] => .ok found
  | a :: rest => do
    if ← folds a then folded name folds (setEntry (name a) a found) rest
    else folded name folds found rest

namespace TypeDecl

def hasConstructorBody (d : TypeDecl) : Bool :=
  d.primaryConstructor.any (!·.body.isEmpty)

def hasMembersAfterConstants (d : TypeDecl) (names : List String) : Bool :=
  d.properties.any (fun p => !names.contains p.name) || d.hasConstructorBody ||
    !d.initializer.isEmpty || !d.functions.isEmpty || !d.types.isEmpty || d.companion.isSome

/-- Whether the declaration is written without a body. Annotation classes never have one. `names`
are those of the folded properties. -/
def hasNoBody (d : TypeDecl) (names : List String) : Bool :=
  d.isKind .annotationKind ||
    (d.properties.all (fun p => names.contains p.name) && d.companion.isNone &&
      d.constants.isEmpty && d.initializer.isEmpty && !d.hasConstructorBody &&
      d.functions.isEmpty && d.types.isEmpty)

end TypeDecl

end KotlinDecl
