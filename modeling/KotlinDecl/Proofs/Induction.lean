import KotlinDecl.Value

namespace KotlinDecl

section

variable (V : Value → Prop) (T : TypeName → Prop) (C I : CodeBlock → Prop) (P : Parameter → Prop)
  (F : FunDecl → Prop) (R : PropertyDecl → Prop) (D : TypeDecl → Prop)

structure AnnotationUse.Each (a : AnnotationUse) : Prop where
  type : T a.type
  members : ∀ c ∈ a.members, C c

structure Parameter.Each (p : Parameter) : Prop where
  type : V p.type
  annotations : ∀ v ∈ p.annotations, V v
  defaultValue : ∀ c ∈ p.defaultValue, C c

structure FunDecl.Each (f : FunDecl) : Prop where
  kdoc : C f.kdoc
  annotations : ∀ v ∈ f.annotations, V v
  typeVariables : ∀ v ∈ f.typeVariables, V v
  receiver : ∀ v ∈ f.receiver, V v
  returns : ∀ v ∈ f.returns, V v
  parameters : ∀ p ∈ f.parameters, P p
  body : C f.body
  delegationArgs : ∀ c ∈ f.delegationArgs, C c

/-- The initializer stands in a statement, apart from the other code. -/
structure PropertyDecl.Each (p : PropertyDecl) : Prop where
  type : V p.type
  kdoc : C p.kdoc
  annotations : ∀ v ∈ p.annotations, V v
  initializer : ∀ c ∈ p.initializer, I c
  getter : ∀ v ∈ p.getter, V v
  setter : ∀ v ∈ p.setter, V v

structure TypeDecl.Each (d : TypeDecl) : Prop where
  anonymous : ∀ v ∈ d.anonymous, V v
  kdoc : C d.kdoc
  annotations : ∀ v ∈ d.annotations, V v
  typeVariables : ∀ v ∈ d.typeVariables, V v
  companion : ∀ c ∈ d.companion, D c
  primaryConstructor : ∀ f ∈ d.primaryConstructor, F f
  superclass : V d.superclass
  superclassArgs : ∀ c ∈ d.superclassArgs, C c
  superinterfaces : ∀ s ∈ d.superinterfaces, V s.type
  delegates : ∀ s ∈ d.superinterfaces, ∀ c ∈ s.delegate, C c
  constants : ∀ c ∈ d.constants, D c.body
  properties : ∀ p ∈ d.properties, R p
  initializer : C d.initializer
  functions : ∀ v ∈ d.functions, V v
  types : ∀ v ∈ d.types, V v

end

theorem forall_mem_snoc {α : Type} {P : α → Prop} {as : List α} {a : α} (has : ∀ b ∈ as, P b)
    (ha : P a) : ∀ b ∈ as ++ [a], P b :=
  List.forall_mem_append.2 ⟨has, List.forall_mem_singleton.2 ha⟩

theorem all_of_cons {α : Type} {p : α → Bool} {f : List α → Bool} (hnil : f [] = true)
    (hcons : ∀ a as, f (a :: as) = (p a && f as)) (as : List α) : f as = as.all p := by
  induction as with
  | nil => exact hnil
  | cons a as ih => rw [hcons, ih, List.all_cons]

theorem map_of_cons {α β : Type} {f : α → β} {g : List α → List β} (hnil : g [] = [])
    (hcons : ∀ a as, g (a :: as) = f a :: g as) (as : List α) : g as = as.map f := by
  induction as with
  | nil => exact hnil
  | cons a as ih => rw [hcons, ih, List.map_cons]

/-- Predicates that hold of everything as soon as they hold of its parts. -/
structure Hereditary (V : Value → Prop) (T : TypeName → Prop) (C : CodeBlock → Prop)
    (A : AnnotationUse → Prop) (P : Parameter → Prop) (F : FunDecl → Prop)
    (R : PropertyDecl → Prop) (D : TypeDecl → Prop) : Prop where
  null : V .null
  bool (b : Bool) : V (.bool b)
  int (n : Int) : V (.int n)
  str (s : String) : V (.str s)
  list (items : List Value) : (∀ v ∈ items, V v) → V (.list items)
  modifier (m : Modifier) : V (.modifier m)
  kind (k : Kind) : V (.kind k)
  type (t : TypeName) : T t → V (.type t)
  code (c : CodeBlock) : C c → V (.code c)
  declAnnotation (n : Option Nat) (a : AnnotationUse) : A a → V (.decl n (.annotationUse a))
  declParameter (n : Option Nat) (p : Parameter) : P p → V (.decl n (.parameter p))
  declProperty (n : Option Nat) (p : PropertyDecl) : R p → V (.decl n (.property p))
  declFunction (n : Option Nat) (f : FunDecl) : F f → V (.decl n (.function f))
  declType (n : Option Nat) (d : TypeDecl) : D d → V (.decl n (.typeDecl d))
  named (package : Option String) (names : List String) (nullable : Bool) :
    T (.named package names nullable)
  generic (raw : Value) (args : List Value) (nullable : Bool) :
    V raw → (∀ v ∈ args, V v) → T (.generic raw args nullable)
  typeVar (name : String) (bounds : List Value) (variance : Option Variance)
    (reified nullable : Bool) :
    (∀ v ∈ bounds, V v) → T (.typeVar name bounds variance reified nullable)
  block (c : CodeBlock) : (∀ v ∈ c.args, V v) → C c
  annotationUse (a : AnnotationUse) : a.Each T C → A a
  parameter (p : Parameter) : p.Each V C → P p
  function (f : FunDecl) : f.Each V C P → F f
  property (p : PropertyDecl) : p.Each V C C → R p
  typeDecl (d : TypeDecl) : V d.kind → d.Each V C F R D → D d

namespace Hereditary

variable {V : Value → Prop} {T : TypeName → Prop} {C : CodeBlock → Prop} {A : AnnotationUse → Prop}
  {P : Parameter → Prop} {F : FunDecl → Prop} {R : PropertyDecl → Prop} {D : TypeDecl → Prop}

mutual

theorem ofValue (h : Hereditary V T C A P F R D) : (v : Value) → V v
  | .null => h.null
  | .bool b => h.bool b
  | .int n => h.int n
  | .str s => h.str s
  | .list items => h.list items (h.ofValues items)
  | .modifier m => h.modifier m
  | .kind k => h.kind k
  | .type t => h.type t (h.ofTypeName t)
  | .code c => h.code c (h.ofCodeBlock c)
  | .decl n d => h.ofDecl n d
termination_by structural v => v

theorem ofValues (h : Hereditary V T C A P F R D) : (vs : List Value) → ∀ v ∈ vs, V v
  | [] => List.forall_mem_nil _
  | v :: vs => List.forall_mem_cons.2 ⟨h.ofValue v, h.ofValues vs⟩

theorem ofValue? (h : Hereditary V T C A P F R D) : (o : Option Value) → ∀ v ∈ o, V v
  | none => fun _ hv => nomatch hv
  | some v => fun _ hv => Option.some.inj hv ▸ h.ofValue v

theorem ofTypeName (h : Hereditary V T C A P F R D) : (t : TypeName) → T t
  | .named package names nullable => h.named package names nullable
  | .generic raw args nullable => h.generic raw args nullable (h.ofValue raw) (h.ofValues args)
  | .typeVar name bounds variance reified nullable =>
    h.typeVar name bounds variance reified nullable (h.ofValues bounds)

theorem ofCodeBlock (h : Hereditary V T C A P F R D) : (c : CodeBlock) → C c
  | ⟨parts, args⟩ => h.block ⟨parts, args⟩ (h.ofValues args)

theorem ofCodeBlocks (h : Hereditary V T C A P F R D) : (cs : List CodeBlock) → ∀ c ∈ cs, C c
  | [] => List.forall_mem_nil _
  | c :: cs => List.forall_mem_cons.2 ⟨h.ofCodeBlock c, h.ofCodeBlocks cs⟩

theorem ofCodeBlock? (h : Hereditary V T C A P F R D) : (o : Option CodeBlock) → ∀ c ∈ o, C c
  | none => fun _ hc => nomatch hc
  | some c => fun _ hc => Option.some.inj hc ▸ h.ofCodeBlock c

theorem ofDecl (h : Hereditary V T C A P F R D) (n : Option Nat) : (d : Decl) → V (.decl n d)
  | .annotationUse a => h.declAnnotation n a (h.ofAnnotationUse a)
  | .parameter p => h.declParameter n p (h.ofParameter p)
  | .property p => h.declProperty n p (h.ofPropertyDecl p)
  | .function f => h.declFunction n f (h.ofFunDecl f)
  | .typeDecl d => h.declType n d (h.ofTypeDecl d)

theorem ofAnnotationUse (h : Hereditary V T C A P F R D) : (a : AnnotationUse) → A a
  | ⟨type, members⟩ => h.annotationUse ⟨type, members⟩ ⟨h.ofTypeName type, h.ofCodeBlocks members⟩

theorem ofParameter (h : Hereditary V T C A P F R D) : (p : Parameter) → P p
  | ⟨name, type, annotations, modifiers, defaultValue⟩ =>
    h.parameter ⟨name, type, annotations, modifiers, defaultValue⟩
      ⟨h.ofValue type, h.ofValues annotations, h.ofCodeBlock? defaultValue⟩

theorem ofParameters (h : Hereditary V T C A P F R D) : (ps : List Parameter) → ∀ p ∈ ps, P p
  | [] => List.forall_mem_nil _
  | p :: ps => List.forall_mem_cons.2 ⟨h.ofParameter p, h.ofParameters ps⟩

theorem ofFunDecl (h : Hereditary V T C A P F R D) : (f : FunDecl) → F f
  | ⟨name, kdoc, annotations, modifiers, typeVariables, receiver, returns, parameters, body,
      delegation, delegationArgs⟩ =>
    h.function ⟨name, kdoc, annotations, modifiers, typeVariables, receiver, returns, parameters,
        body, delegation, delegationArgs⟩
      ⟨h.ofCodeBlock kdoc, h.ofValues annotations, h.ofValues typeVariables, h.ofValue? receiver,
        h.ofValue? returns, h.ofParameters parameters, h.ofCodeBlock body,
        h.ofCodeBlocks delegationArgs⟩

theorem ofFunDecl? (h : Hereditary V T C A P F R D) : (o : Option FunDecl) → ∀ f ∈ o, F f
  | none => fun _ hf => nomatch hf
  | some f => fun _ hf => Option.some.inj hf ▸ h.ofFunDecl f

theorem ofPropertyDecl (h : Hereditary V T C A P F R D) : (p : PropertyDecl) → R p
  | ⟨name, type, mutable, kdoc, annotations, modifiers, initializer, delegated, getter, setter⟩ =>
    h.property ⟨name, type, mutable, kdoc, annotations, modifiers, initializer, delegated, getter,
        setter⟩
      ⟨h.ofValue type, h.ofCodeBlock kdoc, h.ofValues annotations, h.ofCodeBlock? initializer,
        h.ofValue? getter, h.ofValue? setter⟩

theorem ofPropertyDecls (h : Hereditary V T C A P F R D) :
    (ps : List PropertyDecl) → ∀ p ∈ ps, R p
  | [] => List.forall_mem_nil _
  | p :: ps => List.forall_mem_cons.2 ⟨h.ofPropertyDecl p, h.ofPropertyDecls ps⟩

theorem ofSuperinterface (h : Hereditary V T C A P F R D) :
    (s : Superinterface) → V s.type ∧ ∀ c ∈ s.delegate, C c
  | ⟨type, delegate⟩ => ⟨h.ofValue type, h.ofCodeBlock? delegate⟩

theorem ofSuperinterfaces (h : Hereditary V T C A P F R D) :
    (ss : List Superinterface) → ∀ s ∈ ss, V s.type ∧ ∀ c ∈ s.delegate, C c
  | [] => List.forall_mem_nil _
  | s :: ss => List.forall_mem_cons.2 ⟨h.ofSuperinterface s, h.ofSuperinterfaces ss⟩

theorem ofEnumConstant (h : Hereditary V T C A P F R D) : (c : EnumConstant) → D c.body
  | ⟨_, body⟩ => h.ofTypeDecl body

theorem ofEnumConstants (h : Hereditary V T C A P F R D) :
    (cs : List EnumConstant) → ∀ c ∈ cs, D c.body
  | [] => List.forall_mem_nil _
  | c :: cs => List.forall_mem_cons.2 ⟨h.ofEnumConstant c, h.ofEnumConstants cs⟩

theorem ofTypeDecl (h : Hereditary V T C A P F R D) : (d : TypeDecl) → D d
  | ⟨kind, name, anonymous, kdoc, annotations, modifiers, typeVariables, companion,
      primaryConstructor, superclass, superclassArgs, superinterfaces, constants, properties,
      initializer, functions, types⟩ =>
    h.typeDecl ⟨kind, name, anonymous, kdoc, annotations, modifiers, typeVariables, companion,
        primaryConstructor, superclass, superclassArgs, superinterfaces, constants, properties,
        initializer, functions, types⟩ (h.ofValue kind)
      ⟨h.ofValue? anonymous, h.ofCodeBlock kdoc, h.ofValues annotations, h.ofValues typeVariables,
        h.ofTypeDecl? companion, h.ofFunDecl? primaryConstructor, h.ofValue superclass,
        h.ofCodeBlocks superclassArgs, fun s hs => (h.ofSuperinterfaces superinterfaces s hs).1,
        fun s hs => (h.ofSuperinterfaces superinterfaces s hs).2, h.ofEnumConstants constants,
        h.ofPropertyDecls properties, h.ofCodeBlock initializer, h.ofValues functions,
        h.ofValues types⟩

theorem ofTypeDecl? (h : Hereditary V T C A P F R D) : (o : Option TypeDecl) → ∀ d ∈ o, D d
  | none => fun _ hd => nomatch hd
  | some d => fun _ hd => Option.some.inj hd ▸ h.ofTypeDecl d

end

end Hereditary

end KotlinDecl
