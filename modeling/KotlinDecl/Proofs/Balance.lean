import KotlinDecl.Proofs.Induction

namespace KotlinDecl

/-- A place in code: how many levels deeper than its surroundings, and whether in a statement. -/
structure Spot where
  depth : Nat
  inside : Bool
  deriving DecidableEq, Repr

/-- Reads code from a spot on to its end, where it has to be as deep as at its beginning and
inside a statement if and only if it stands in one. A literal has to be balanced where it stands;
`args` tell whether the arguments are. -/
def Part.balanced (inside : Bool) : Spot → List Part → List (Bool → Bool) → Bool
  | s, [], _ => s = ⟨0, inside⟩
  | ⟨n, b⟩, .indent :: ps, args => balanced inside ⟨n + 1, b⟩ ps args
  | ⟨0, _⟩, .unindent :: _, _ => false
  | ⟨n + 1, b⟩, .unindent :: ps, args => balanced inside ⟨n, b⟩ ps args
  | ⟨n, b⟩, .openStatement :: ps, args => !b && balanced inside ⟨n, true⟩ ps args
  | ⟨n, b⟩, .closeStatement :: ps, args => b && !inside && balanced inside ⟨n, false⟩ ps args
  | s, .argument p :: ps, a :: args => (p ≠ .literal || a s.inside) && balanced inside s ps args
  | s, _ :: ps, args => balanced inside s ps args

mutual

def Value.balanced : Value → Bool → Bool
  | .code c, inside => c.balanced inside
  | .decl _ d, inside => d.balanced inside
  | _, _ => true
termination_by structural v => v

def Value.balances : List Value → List (Bool → Bool)
  | [] => []
  | v :: rest => (fun inside => v.balanced inside) :: Value.balances rest

def Value.balancedAll : List Value → Bool → Bool
  | [], _ => true
  | v :: rest, inside => v.balanced inside && Value.balancedAll rest inside

def Value.balanced? : Option Value → Bool → Bool
  | none, _ => true
  | some v, inside => v.balanced inside

def CodeBlock.balanced : CodeBlock → Bool → Bool
  | ⟨parts, args⟩, inside => Part.balanced inside ⟨0, inside⟩ parts (Value.balances args)

def CodeBlock.balancedAll : List CodeBlock → Bool → Bool
  | [], _ => true
  | c :: rest, inside => c.balanced inside && CodeBlock.balancedAll rest inside

def CodeBlock.balanced? : Option CodeBlock → Bool → Bool
  | none, _ => true
  | some c, inside => c.balanced inside

/-- A parameter in the place of a literal is written on its own, a declaration of a type forgets
where it stands, and all others stand where the literal stands. -/
def Decl.balanced : Decl → Bool → Bool
  | .annotationUse a, inside => a.balanced inside
  | .parameter p, _ => p.balanced false
  | .property p, inside => p.balanced inside
  | .function f, inside => f.balanced inside
  | .typeDecl d, _ => d.balanced

def AnnotationUse.balanced : AnnotationUse → Bool → Bool
  | ⟨_, members⟩, inside => CodeBlock.balancedAll members inside

def Parameter.balanced : Parameter → Bool → Bool
  | ⟨_, type, annotations, _, defaultValue⟩, inside =>
    type.balanced inside && Value.balancedAll annotations inside &&
      CodeBlock.balanced? defaultValue inside

def Parameter.balancedAll : List Parameter → Bool → Bool
  | [], _ => true
  | p :: rest, inside => p.balanced inside && Parameter.balancedAll rest inside

def FunDecl.balanced : FunDecl → Bool → Bool
  | ⟨_, kdoc, annotations, _, typeVariables, receiver, returns, parameters, body, _,
      delegationArgs⟩, inside =>
    kdoc.balanced inside && Value.balancedAll annotations inside &&
      Value.balancedAll typeVariables inside && Value.balanced? receiver inside &&
      Value.balanced? returns inside && Parameter.balancedAll parameters inside &&
      body.balanced inside && CodeBlock.balancedAll delegationArgs inside

def FunDecl.balanced? : Option FunDecl → Bool → Bool
  | none, _ => true
  | some f, inside => f.balanced inside

/-- The initializer of a property is a statement of its own. -/
def PropertyDecl.balanced : PropertyDecl → Bool → Bool
  | ⟨_, type, _, kdoc, annotations, _, initializer, _, getter, setter⟩, inside =>
    (initializer.isNone || !inside) && type.balanced inside && kdoc.balanced inside &&
      Value.balancedAll annotations inside && CodeBlock.balanced? initializer true &&
      Value.balanced? getter inside && Value.balanced? setter inside

def PropertyDecl.balancedAll : List PropertyDecl → Bool → Bool
  | [], _ => true
  | p :: rest, inside => p.balanced inside && PropertyDecl.balancedAll rest inside

def Superinterface.balanced : Superinterface → Bool
  | ⟨type, delegate⟩ => type.balanced false && CodeBlock.balanced? delegate false

def Superinterface.balancedAll : List Superinterface → Bool
  | [] => true
  | s :: rest => s.balanced && Superinterface.balancedAll rest

def EnumConstant.balanced : EnumConstant → Bool
  | ⟨_, body⟩ => body.balanced

def EnumConstant.balancedAll : List EnumConstant → Bool
  | [] => true
  | c :: rest => c.balanced && EnumConstant.balancedAll rest

def TypeDecl.balanced : TypeDecl → Bool
  | ⟨_, _, anonymous, kdoc, annotations, _, typeVariables, companion, primaryConstructor,
      superclass, superclassArgs, superinterfaces, constants, properties, initializer, functions,
      types⟩ =>
    Value.balanced? anonymous false && kdoc.balanced false && Value.balancedAll annotations false &&
      Value.balancedAll typeVariables false && TypeDecl.balanced? companion &&
      FunDecl.balanced? primaryConstructor false && superclass.balanced false &&
      CodeBlock.balancedAll superclassArgs false && Superinterface.balancedAll superinterfaces &&
      EnumConstant.balancedAll constants && PropertyDecl.balancedAll properties false &&
      initializer.balanced false && Value.balancedAll functions false &&
      Value.balancedAll types false

def TypeDecl.balanced? : Option TypeDecl → Bool
  | none => true
  | some d => d.balanced

end

section

variable (vs : List Value) (v? : Option Value) (cs : List CodeBlock) (c? : Option CodeBlock)
  (ps : List Parameter) (f? : Option FunDecl) (qs : List PropertyDecl) (ss : List Superinterface)
  (es : List EnumConstant) (d? : Option TypeDecl) (b : Bool)

@[simp] theorem Value.balances_eq : Value.balances vs = vs.map Value.balanced :=
  map_of_cons rfl (fun _ _ => rfl) vs

@[simp] theorem Value.balancedAll_eq : Value.balancedAll vs b = vs.all (·.balanced b) :=
  all_of_cons (f := (Value.balancedAll · b)) rfl (fun _ _ => rfl) vs

@[simp] theorem Value.balanced?_eq : Value.balanced? v? b = v?.all (·.balanced b) := by
  cases v? <;> rfl

@[simp] theorem CodeBlock.balancedAll_eq : CodeBlock.balancedAll cs b = cs.all (·.balanced b) :=
  all_of_cons (f := (CodeBlock.balancedAll · b)) rfl (fun _ _ => rfl) cs

@[simp] theorem CodeBlock.balanced?_eq : CodeBlock.balanced? c? b = c?.all (·.balanced b) := by
  cases c? <;> rfl

@[simp] theorem Parameter.balancedAll_eq : Parameter.balancedAll ps b = ps.all (·.balanced b) :=
  all_of_cons (f := (Parameter.balancedAll · b)) rfl (fun _ _ => rfl) ps

@[simp] theorem FunDecl.balanced?_eq : FunDecl.balanced? f? b = f?.all (·.balanced b) := by
  cases f? <;> rfl

@[simp] theorem PropertyDecl.balancedAll_eq :
    PropertyDecl.balancedAll qs b = qs.all (·.balanced b) :=
  all_of_cons (f := (PropertyDecl.balancedAll · b)) rfl (fun _ _ => rfl) qs

@[simp] theorem Superinterface.balancedAll_eq :
    Superinterface.balancedAll ss = ss.all Superinterface.balanced :=
  all_of_cons rfl (fun _ _ => rfl) ss

@[simp] theorem EnumConstant.balancedAll_eq :
    EnumConstant.balancedAll es = es.all EnumConstant.balanced :=
  all_of_cons rfl (fun _ _ => rfl) es

@[simp] theorem TypeDecl.balanced?_eq : TypeDecl.balanced? d? = d?.all TypeDecl.balanced := by
  cases d? <;> rfl

end

theorem CodeBlock.balanced_eq (c : CodeBlock) (b : Bool) :
    c.balanced b = Part.balanced b ⟨0, b⟩ c.parts (c.args.map Value.balanced) := by
  cases c
  simp [CodeBlock.balanced]

theorem AnnotationUse.balanced_iff (a : AnnotationUse) (b : Bool) :
    a.balanced b = true ↔ ∀ c ∈ a.members, c.balanced b = true := by
  cases a
  simp [AnnotationUse.balanced]

theorem Parameter.balanced_iff (p : Parameter) (b : Bool) :
    p.balanced b = true ↔ p.Each (·.balanced b = true) (·.balanced b = true) := by
  cases p
  simp only [Parameter.balanced, Value.balancedAll_eq, CodeBlock.balanced?_eq, Bool.and_eq_true,
    List.all_eq_true, Option.all_eq_true]
  exact ⟨fun ⟨⟨ht, ha⟩, hd⟩ => ⟨ht, ha, hd⟩, fun ⟨ht, ha, hd⟩ => ⟨⟨ht, ha⟩, hd⟩⟩

theorem FunDecl.balanced_iff (f : FunDecl) (b : Bool) :
    f.balanced b = true ↔
      f.Each (·.balanced b = true) (·.balanced b = true) (·.balanced b = true) := by
  cases f
  simp only [FunDecl.balanced, Value.balancedAll_eq, Value.balanced?_eq, CodeBlock.balancedAll_eq,
    Parameter.balancedAll_eq, Bool.and_eq_true, List.all_eq_true, Option.all_eq_true]
  constructor
  · rintro ⟨⟨⟨⟨⟨⟨⟨hk, ha⟩, ht⟩, hr⟩, hs⟩, hp⟩, hb⟩, hd⟩
    exact ⟨hk, ha, ht, hr, hs, hp, hb, hd⟩
  · rintro ⟨hk, ha, ht, hr, hs, hp, hb, hd⟩
    exact ⟨⟨⟨⟨⟨⟨⟨hk, ha⟩, ht⟩, hr⟩, hs⟩, hp⟩, hb⟩, hd⟩

theorem PropertyDecl.balanced_iff (p : PropertyDecl) (b : Bool) :
    p.balanced b = true ↔ (p.initializer.isSome = true → b = false) ∧
      p.Each (·.balanced b = true) (·.balanced b = true) (·.balanced true = true) := by
  cases p with
  | mk name type mutable kdoc annotations modifiers initializer delegated getter setter =>
      have hi : (initializer.isNone || !b) = true ↔ (initializer.isSome = true → b = false) := by
        cases initializer <;> simp
      simp only [PropertyDecl.balanced, Value.balancedAll_eq, Value.balanced?_eq,
        CodeBlock.balanced?_eq, Bool.and_eq_true, List.all_eq_true, Option.all_eq_true, hi]
      constructor
      · rintro ⟨⟨⟨⟨⟨⟨hs, ht⟩, hk⟩, ha⟩, hi⟩, hg⟩, hs'⟩
        exact ⟨hs, ht, hk, ha, hi, hg, hs'⟩
      · rintro ⟨hs, ht, hk, ha, hi, hg, hs'⟩
        exact ⟨⟨⟨⟨⟨⟨hs, ht⟩, hk⟩, ha⟩, hi⟩, hg⟩, hs'⟩

theorem Superinterface.balanced_iff (s : Superinterface) :
    s.balanced = true ↔
      s.type.balanced false = true ∧ ∀ c ∈ s.delegate, c.balanced false = true := by
  cases s
  simp [Superinterface.balanced, Option.all_eq_true]

theorem EnumConstant.balanced_eq (c : EnumConstant) : c.balanced = c.body.balanced := by
  cases c
  rfl

theorem TypeDecl.balanced_iff (d : TypeDecl) :
    d.balanced = true ↔
      d.Each (·.balanced false = true) (·.balanced false = true) (·.balanced false = true)
        (·.balanced false = true) (·.balanced = true) := by
  cases d
  simp only [TypeDecl.balanced, Value.balancedAll_eq, Value.balanced?_eq, CodeBlock.balancedAll_eq,
    FunDecl.balanced?_eq, PropertyDecl.balancedAll_eq, Superinterface.balancedAll_eq,
    EnumConstant.balancedAll_eq, TypeDecl.balanced?_eq, Superinterface.balanced_iff,
    EnumConstant.balanced_eq, Bool.and_eq_true, List.all_eq_true, Option.all_eq_true]
  constructor
  · rintro ⟨⟨⟨⟨⟨⟨⟨⟨⟨⟨⟨⟨⟨hy, hd⟩, ha⟩, hv⟩, hc⟩, hp⟩, hs⟩, hg⟩, hi⟩, he⟩, hq⟩, hb⟩, hf⟩, ht⟩
    exact ⟨hy, hd, ha, hv, hc, hp, hs, hg, fun s h => (hi s h).1, fun s h => (hi s h).2, he, hq, hb,
      hf, ht⟩
  · rintro ⟨hy, hd, ha, hv, hc, hp, hs, hg, hi, hi', he, hq, hb, hf, ht⟩
    exact ⟨⟨⟨⟨⟨⟨⟨⟨⟨⟨⟨⟨⟨hy, hd⟩, ha⟩, hv⟩, hc⟩, hp⟩, hs⟩, hg⟩, fun s h => ⟨hi s h, hi' s h⟩⟩, he⟩,
      hq⟩, hb⟩, hf⟩, ht⟩

end KotlinDecl
