namespace KotlinDecl

/-- The modifier keywords, listed in the order in which they are written. -/
inductive Modifier
  | expect
  | actual
  | publicVis
  | protectedVis
  | privateVis
  | internalVis
  | external
  | finalDecl
  | openDecl
  | abstractDecl
  | sealedDecl
  | const
  | override
  | lateinit
  | tailrec
  | vararg
  | suspend
  | inner
  | enumClass
  | annotationClass
  | companion
  | data
  | inlined
  | noinline
  | crossinline
  | reified
  | infixFun
  | operatorFun
  | inVariance
  | outVariance
  deriving DecidableEq, Repr

namespace Modifier

def all : List Modifier :=
  [expect, actual, publicVis, protectedVis, privateVis, internalVis, external, finalDecl, openDecl,
    abstractDecl, sealedDecl, const, override, lateinit, tailrec, vararg, suspend, inner,
    enumClass, annotationClass, companion, data, inlined, noinline, crossinline, reified, infixFun,
    operatorFun, inVariance, outVariance]

def keyword : Modifier → String
  | expect => "expect"
  | actual => "actual"
  | publicVis => "public"
  | protectedVis => "protected"
  | privateVis => "private"
  | internalVis => "internal"
  | external => "external"
  | finalDecl => "final"
  | openDecl => "open"
  | abstractDecl => "abstract"
  | sealedDecl => "sealed"
  | const => "const"
  | override => "override"
  | lateinit => "lateinit"
  | tailrec => "tailrec"
  | vararg => "vararg"
  | suspend => "suspend"
  | inner => "inner"
  | enumClass => "enum"
  | annotationClass => "annotation"
  | companion => "companion"
  | data => "data"
  | inlined => "inline"
  | noinline => "noinline"
  | crossinline => "crossinline"
  | reified => "reified"
  | infixFun => "infix"
  | operatorFun => "operator"
  | inVariance => "in"
  | outVariance => "out"

def name (m : Modifier) : String := m.keyword.toUpper

def ofName? (s : String) : Option Modifier := all.find? (·.name = s)

def shown (m : Modifier) : String := "KModifier." ++ m.name

def inspected (m : Modifier) : String := "<" ++ m.shown ++ ": '" ++ m.keyword ++ "'>"

def canonical (ms : List Modifier) : List Modifier := all.filter (· ∈ ms)

end Modifier

/-- A set of modifiers in the order of arrival. -/
structure ModifierSet where
  toList : List Modifier
  deriving DecidableEq, Repr

namespace ModifierSet

def empty : ModifierSet := ⟨[]⟩

def contains (s : ModifierSet) (m : Modifier) : Bool := s.toList.contains m

def size (s : ModifierSet) : Nat := s.toList.length

/-- A member that is already there keeps its place. -/
def insert (s : ModifierSet) (m : Modifier) : ModifierSet :=
  if s.contains m then s else ⟨s.toList ++ [m]⟩

def insertMany (s : ModifierSet) (ms : List Modifier) : ModifierSet := ms.foldl insert s

def ofList (ms : List Modifier) : ModifierSet := empty.insertMany ms

def erase (s : ModifierSet) (m : Modifier) : ModifierSet := ⟨s.toList.erase m⟩

def popFirst? (s : ModifierSet) : Option (Modifier × ModifierSet) :=
  match s.toList with
  | [] => none
  | m :: rest => some (m, ⟨rest⟩)

def union (s t : ModifierSet) : ModifierSet := s.insertMany t.toList

/-- The members among `ms`, in the order in which they stand there. -/
def inter (s : ModifierSet) (ms : List Modifier) : ModifierSet := ofList (ms.filter s.contains)

def diff (s t : ModifierSet) : ModifierSet := ofList (s.toList.filter (!t.contains ·))

def symmDiff (s t : ModifierSet) : ModifierSet := (s.diff t).union (t.diff s)

/-- Keeps the common members where they stand in `s`. -/
def keepOnly (s t : ModifierSet) : ModifierSet := (s.diff t).toList.foldl erase s

def toggle (s : ModifierSet) (m : Modifier) : ModifierSet :=
  if s.contains m then s.erase m else s.insert m

def toggleMany (s t : ModifierSet) : ModifierSet := t.toList.foldl toggle s

def subset (s t : ModifierSet) : Bool := s.toList.all t.contains

def sameMembers (s t : ModifierSet) : Bool := s.size == t.size && s.subset t

def inspected (s : ModifierSet) : String :=
  "ModifierSet([" ++ ", ".intercalate (s.toList.map Modifier.inspected) ++ "])"

end ModifierSet

end KotlinDecl
