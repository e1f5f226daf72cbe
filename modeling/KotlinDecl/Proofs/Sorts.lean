import KotlinDecl.Proofs.Induction
import KotlinDecl.Proofs.Layout.Discipline
import KotlinDecl.Rendering

namespace KotlinDecl

namespace Value

def isType : Value → Bool
  | .type _ => true
  | _ => false

def isTypeVariable : Value → Bool
  | .type (.typeVar ..) => true
  | _ => false

def isCode : Value → Bool
  | .code _ => true
  | _ => false

def isKind : Value → Bool
  | .kind _ => true
  | _ => false

def isSort (s : DeclSort) : Value → Bool
  | .decl _ d => d.sort = s
  | _ => false

end Value

def Placeholder.takes : Placeholder → Value → Bool
  | .literal, _ => true
  | .string, .null | .string, .str _ => true
  | .name, .str _ => true
  | .type, v => v.isType
  | _, _ => false

/-- Whether the placeholders among some parts take the arguments, one for one. -/
def Part.matched : List Part → List Value → Bool
  | [], args => args.isEmpty
  | .argument p :: ps, v :: args => p.takes v && matched ps args
  | .argument _ :: _, [] => false
  | .split _ :: _, _ => false
  | _ :: ps, args => matched ps args

mutual

def Value.wellTyped : Value → Bool
  | .list items => Value.wellTypedAll items
  | .type t => t.wellTyped
  | .code c => c.wellTyped
  | .decl _ d => d.wellTyped
  | _ => true
termination_by structural v => v

def Value.wellTypedAll : List Value → Bool
  | [] => true
  | v :: rest => v.wellTyped && Value.wellTypedAll rest

def Value.wellTyped? : Option Value → Bool
  | none => true
  | some v => v.wellTyped

def TypeName.wellTyped : TypeName → Bool
  | .named .. => true
  | .generic raw args _ =>
    raw.isType && raw.wellTyped && args.all Value.isType && Value.wellTypedAll args
  | .typeVar _ bounds _ _ _ => bounds.all Value.isType && Value.wellTypedAll bounds

def CodeBlock.wellTyped : CodeBlock → Bool
  | ⟨parts, args⟩ => Part.matched parts args && Value.wellTypedAll args

def CodeBlock.wellTypedAll : List CodeBlock → Bool
  | [] => true
  | c :: rest => c.wellTyped && CodeBlock.wellTypedAll rest

def CodeBlock.wellTyped? : Option CodeBlock → Bool
  | none => true
  | some c => c.wellTyped

def Decl.wellTyped : Decl → Bool
  | .annotationUse a => a.wellTyped
  | .parameter p => p.wellTyped
  | .property p => p.wellTyped
  | .function f => f.wellTyped
  | .typeDecl d => d.wellTyped

def AnnotationUse.wellTyped : AnnotationUse → Bool
  | ⟨type, members⟩ => type.wellTyped && CodeBlock.wellTypedAll members

def Parameter.wellTyped : Parameter → Bool
  | ⟨_, type, annotations, _, defaultValue⟩ =>
    type.isType && type.wellTyped && annotations.all (Value.isSort .annotationUse) &&
      Value.wellTypedAll annotations && CodeBlock.wellTyped? defaultValue

def Parameter.wellTypedAll : List Parameter → Bool
  | [] => true
  | p :: rest => p.wellTyped && Parameter.wellTypedAll rest

def FunDecl.wellTyped : FunDecl → Bool
  | ⟨_, kdoc, annotations, _, typeVariables, receiver, returns, parameters, body, _,
      delegationArgs⟩ =>
    kdoc.wellTyped && annotations.all (Value.isSort .annotationUse) &&
      Value.wellTypedAll annotations && typeVariables.all Value.isTypeVariable &&
      Value.wellTypedAll typeVariables && receiver.all Value.isType && Value.wellTyped? receiver &&
      returns.all Value.isType && Value.wellTyped? returns && Parameter.wellTypedAll parameters &&
      body.wellTyped && CodeBlock.wellTypedAll delegationArgs

def FunDecl.wellTyped? : Option FunDecl → Bool
  | none => true
  | some f => f.wellTyped

def PropertyDecl.wellTyped : PropertyDecl → Bool
  | ⟨_, type, _, kdoc, annotations, _, initializer, _, getter, setter⟩ =>
    type.isType && type.wellTyped && kdoc.wellTyped &&
      annotations.all (Value.isSort .annotationUse) && Value.wellTypedAll annotations &&
      CodeBlock.wellTyped? initializer && getter.all (Value.isSort .function) &&
      Value.wellTyped? getter && setter.all (Value.isSort .function) && Value.wellTyped? setter

def PropertyDecl.wellTypedAll : List PropertyDecl → Bool
  | [] => true
  | p :: rest => p.wellTyped && PropertyDecl.wellTypedAll rest

def Superinterface.wellTyped : Superinterface → Bool
  | ⟨type, delegate⟩ => type.isType && type.wellTyped && CodeBlock.wellTyped? delegate

def Superinterface.wellTypedAll : List Superinterface → Bool
  | [] => true
  | s :: rest => s.wellTyped && Superinterface.wellTypedAll rest

def EnumConstant.wellTyped : EnumConstant → Bool
  | ⟨_, body⟩ => body.isAnonymous && body.wellTyped

def EnumConstant.wellTypedAll : List EnumConstant → Bool
  | [] => true
  | c :: rest => c.wellTyped && EnumConstant.wellTypedAll rest

def TypeDecl.wellTyped : TypeDecl → Bool
  | ⟨kind, _, anonymous, kdoc, annotations, _, typeVariables, companion, primaryConstructor,
      superclass, superclassArgs, superinterfaces, constants, properties, initializer, functions,
      types⟩ =>
    kind.isKind && anonymous.all Value.isCode && Value.wellTyped? anonymous && kdoc.wellTyped &&
      annotations.all (Value.isSort .annotationUse) && Value.wellTypedAll annotations &&
      typeVariables.all Value.isTypeVariable && Value.wellTypedAll typeVariables &&
      TypeDecl.wellTyped? companion && FunDecl.wellTyped? primaryConstructor &&
      superclass.isType && superclass.wellTyped && CodeBlock.wellTypedAll superclassArgs &&
      Superinterface.wellTypedAll superinterfaces && EnumConstant.wellTypedAll constants &&
      PropertyDecl.wellTypedAll properties && initializer.wellTyped &&
      functions.all (Value.isSort .function) && Value.wellTypedAll functions &&
      types.all (Value.isSort .typeDecl) && Value.wellTypedAll types

def TypeDecl.wellTyped? : Option TypeDecl → Bool
  | none => true
  | some d => d.wellTyped

end

section

variable (vs : List Value) (v? : Option Value) (cs : List CodeBlock) (c? : Option CodeBlock)
  (ps : List Parameter) (f? : Option FunDecl) (qs : List PropertyDecl) (ss : List Superinterface)
  (es : List EnumConstant) (d? : Option TypeDecl)

@[simp] theorem Value.wellTypedAll_eq : Value.wellTypedAll vs = vs.all Value.wellTyped :=
  all_of_cons rfl (fun _ _ => rfl) vs

@[simp] theorem Value.wellTyped?_eq : Value.wellTyped? v? = v?.all Value.wellTyped := by
  cases v? <;> rfl

@[simp] theorem CodeBlock.wellTypedAll_eq :
    CodeBlock.wellTypedAll cs = cs.all CodeBlock.wellTyped :=
  all_of_cons rfl (fun _ _ => rfl) cs

@[simp] theorem CodeBlock.wellTyped?_eq : CodeBlock.wellTyped? c? = c?.all CodeBlock.wellTyped := by
  cases c? <;> rfl

@[simp] theorem Parameter.wellTypedAll_eq :
    Parameter.wellTypedAll ps = ps.all Parameter.wellTyped :=
  all_of_cons rfl (fun _ _ => rfl) ps

@[simp] theorem FunDecl.wellTyped?_eq : FunDecl.wellTyped? f? = f?.all FunDecl.wellTyped := by
  cases f? <;> rfl

@[simp] theorem PropertyDecl.wellTypedAll_eq :
    PropertyDecl.wellTypedAll qs = qs.all PropertyDecl.wellTyped :=
  all_of_cons rfl (fun _ _ => rfl) qs

@[simp] theorem Superinterface.wellTypedAll_eq :
    Superinterface.wellTypedAll ss = ss.all Superinterface.wellTyped :=
  all_of_cons rfl (fun _ _ => rfl) ss

@[simp] theorem EnumConstant.wellTypedAll_eq :
    EnumConstant.wellTypedAll es = es.all EnumConstant.wellTyped :=
  all_of_cons rfl (fun _ _ => rfl) es

@[simp] theorem TypeDecl.wellTyped?_eq : TypeDecl.wellTyped? d? = d?.all TypeDecl.wellTyped := by
  cases d? <;> rfl

end

structure Parameter.Sorted (p : Parameter) : Prop where
  type : p.type.isType = true
  annotations : ∀ v ∈ p.annotations, v.isSort .annotationUse = true

structure FunDecl.Sorted (f : FunDecl) : Prop where
  annotations : ∀ v ∈ f.annotations, v.isSort .annotationUse = true
  typeVariables : ∀ v ∈ f.typeVariables, v.isTypeVariable = true
  receiver : ∀ v ∈ f.receiver, v.isType = true
  returns : ∀ v ∈ f.returns, v.isType = true

structure PropertyDecl.Sorted (p : PropertyDecl) : Prop where
  type : p.type.isType = true
  annotations : ∀ v ∈ p.annotations, v.isSort .annotationUse = true
  getter : ∀ v ∈ p.getter, v.isSort .function = true
  setter : ∀ v ∈ p.setter, v.isSort .function = true

structure TypeDecl.Sorted (d : TypeDecl) : Prop where
  kind : d.kind.isKind = true
  anonymous : ∀ v ∈ d.anonymous, v.isCode = true
  annotations : ∀ v ∈ d.annotations, v.isSort .annotationUse = true
  typeVariables : ∀ v ∈ d.typeVariables, v.isTypeVariable = true
  superclass : d.superclass.isType = true
  superinterfaces : ∀ s ∈ d.superinterfaces, s.type.isType = true
  constants : ∀ c ∈ d.constants, c.body.isAnonymous = true
  functions : ∀ v ∈ d.functions, v.isSort .function = true
  types : ∀ v ∈ d.types, v.isSort .typeDecl = true

theorem CodeBlock.wellTyped_iff (c : CodeBlock) :
    c.wellTyped = true ↔ Part.matched c.parts c.args = true ∧ ∀ v ∈ c.args, v.wellTyped = true := by
  cases c
  simp [CodeBlock.wellTyped]

theorem AnnotationUse.wellTyped_iff (a : AnnotationUse) :
    a.wellTyped = true ↔ a.Each (·.wellTyped = true) (·.wellTyped = true) := by
  cases a
  simp only [AnnotationUse.wellTyped, CodeBlock.wellTypedAll_eq, Bool.and_eq_true, List.all_eq_true]
  exact ⟨fun ⟨ht, hm⟩ => ⟨ht, hm⟩, fun h => ⟨h.type, h.members⟩⟩

theorem Parameter.wellTyped_iff (p : Parameter) :
    p.wellTyped = true ↔ p.Sorted ∧ p.Each (·.wellTyped = true) (·.wellTyped = true) := by
  cases p
  simp only [Parameter.wellTyped, Value.wellTypedAll_eq, CodeBlock.wellTyped?_eq, Bool.and_eq_true,
    List.all_eq_true, Option.all_eq_true]
  constructor
  · rintro ⟨⟨⟨⟨ht, ht'⟩, ha⟩, ha'⟩, hd⟩
    exact ⟨⟨ht, ha⟩, ⟨ht', ha', hd⟩⟩
  · rintro ⟨hs, he⟩
    exact ⟨⟨⟨⟨hs.type, he.type⟩, hs.annotations⟩, he.annotations⟩, he.defaultValue⟩

theorem FunDecl.wellTyped_iff (f : FunDecl) :
    f.wellTyped = true ↔
      f.Sorted ∧ f.Each (·.wellTyped = true) (·.wellTyped = true) (·.wellTyped = true) := by
  cases f
  simp only [FunDecl.wellTyped, Value.wellTypedAll_eq, Value.wellTyped?_eq,
    CodeBlock.wellTypedAll_eq, Parameter.wellTypedAll_eq, Bool.and_eq_true, List.all_eq_true,
    Option.all_eq_true]
  constructor
  · rintro ⟨⟨⟨⟨⟨⟨⟨⟨⟨⟨⟨hk, ha⟩, ha'⟩, ht⟩, ht'⟩, hr⟩, hr'⟩, hs⟩, hs'⟩, hp⟩, hb⟩, hd⟩
    exact ⟨⟨ha, ht, hr, hs⟩, ⟨hk, ha', ht', hr', hs', hp, hb, hd⟩⟩
  · rintro ⟨⟨ha, ht, hr, hs⟩, ⟨hk, ha', ht', hr', hs', hp, hb, hd⟩⟩
    exact ⟨⟨⟨⟨⟨⟨⟨⟨⟨⟨⟨hk, ha⟩, ha'⟩, ht⟩, ht'⟩, hr⟩, hr'⟩, hs⟩, hs'⟩, hp⟩, hb⟩, hd⟩

theorem PropertyDecl.wellTyped_iff (p : PropertyDecl) :
    p.wellTyped = true ↔
      p.Sorted ∧ p.Each (·.wellTyped = true) (·.wellTyped = true) (·.wellTyped = true) := by
  cases p
  simp only [PropertyDecl.wellTyped, Value.wellTypedAll_eq, Value.wellTyped?_eq,
    CodeBlock.wellTyped?_eq, Bool.and_eq_true, List.all_eq_true, Option.all_eq_true]
  constructor
  · rintro ⟨⟨⟨⟨⟨⟨⟨⟨⟨ht, ht'⟩, hk⟩, ha⟩, ha'⟩, hi⟩, hg⟩, hg'⟩, hs⟩, hs'⟩
    exact ⟨⟨ht, ha, hg, hs⟩, ⟨ht', hk, ha', hi, hg', hs'⟩⟩
  · rintro ⟨⟨ht, ha, hg, hs⟩, ⟨ht', hk, ha', hi, hg', hs'⟩⟩
    exact ⟨⟨⟨⟨⟨⟨⟨⟨⟨ht, ht'⟩, hk⟩, ha⟩, ha'⟩, hi⟩, hg⟩, hg'⟩, hs⟩, hs'⟩

theorem Superinterface.wellTyped_iff (s : Superinterface) :
    s.wellTyped = true ↔
      s.type.isType = true ∧ s.type.wellTyped = true ∧ ∀ c ∈ s.delegate, c.wellTyped = true := by
  cases s
  simp [Superinterface.wellTyped, Option.all_eq_true, and_assoc]

theorem EnumConstant.wellTyped_iff (c : EnumConstant) :
    c.wellTyped = true ↔ c.body.isAnonymous = true ∧ c.body.wellTyped = true := by
  cases c
  simp [EnumConstant.wellTyped]

theorem TypeDecl.wellTyped_iff (d : TypeDecl) :
    d.wellTyped = true ↔
      d.Sorted ∧ d.Each (·.wellTyped = true) (·.wellTyped = true) (·.wellTyped = true)
        (·.wellTyped = true) (·.wellTyped = true) := by
  cases d
  simp only [TypeDecl.wellTyped, Value.wellTypedAll_eq, Value.wellTyped?_eq,
    CodeBlock.wellTypedAll_eq, FunDecl.wellTyped?_eq, PropertyDecl.wellTypedAll_eq,
    Superinterface.wellTypedAll_eq, EnumConstant.wellTypedAll_eq, TypeDecl.wellTyped?_eq,
    Superinterface.wellTyped_iff, EnumConstant.wellTyped_iff, Bool.and_eq_true, List.all_eq_true,
    Option.all_eq_true]
  constructor
  · rintro ⟨⟨⟨⟨⟨⟨⟨⟨⟨⟨⟨⟨⟨⟨⟨⟨⟨⟨⟨⟨hk, hy⟩, hy'⟩, hd⟩, ha⟩, ha'⟩, hv⟩, hv'⟩, hc⟩, hp⟩, hs⟩, hs'⟩, hg⟩,
      hi⟩, he⟩, hq⟩, hb⟩, hf⟩, hf'⟩, ht⟩, ht'⟩
    exact ⟨⟨hk, hy, ha, hv, hs, fun s h => (hi s h).1, fun c h => (he c h).1, hf, ht⟩,
      ⟨hy', hd, ha', hv', hc, hp, hs', hg, fun s h => (hi s h).2.1, fun s h => (hi s h).2.2,
        fun c h => (he c h).2, hq, hb, hf', ht'⟩⟩
  · rintro ⟨⟨hk, hy, ha, hv, hs, hi, he, hf, ht⟩,
      ⟨hy', hd, ha', hv', hc, hp, hs', hg, hi', hi'', he', hq, hb, hf', ht'⟩⟩
    exact ⟨⟨⟨⟨⟨⟨⟨⟨⟨⟨⟨⟨⟨⟨⟨⟨⟨⟨⟨⟨hk, hy⟩, hy'⟩, hd⟩, ha⟩, ha'⟩, hv⟩, hv'⟩, hc⟩, hp⟩, hs⟩, hs'⟩, hg⟩,
      fun s h => ⟨hi s h, hi' s h, hi'' s h⟩⟩, fun c h => ⟨he c h, he' c h⟩⟩, hq⟩, hb⟩, hf⟩, hf'⟩,
      ht⟩, ht'⟩

end KotlinDecl
