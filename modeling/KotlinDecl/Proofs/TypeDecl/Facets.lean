import KotlinDecl.Proofs.TypeDecl.Expecting

namespace KotlinDecl.TypeDecl

open Edit

inductive Facet
  | kdoc
  | annotations
  | modifiers
  | typeVariables
  | companion
  | primaryConstructor
  | superclass
  | superclassArgs
  | superinterfaces
  | constants
  | properties
  | initializer
  | functions
  | types
  deriving DecidableEq

namespace Facet

def Content : Facet → Type
  | kdoc | initializer => CodeBlock
  | annotations | typeVariables | functions | types => List Value
  | modifiers => ModifierSet
  | companion => Option TypeDecl
  | primaryConstructor => Option FunDecl
  | superclass => Value
  | superclassArgs => List CodeBlock
  | superinterfaces => List Superinterface
  | constants => List EnumConstant
  | properties => List PropertyDecl

def get : (f : Facet) → TypeDecl → f.Content
  | kdoc => TypeDecl.kdoc
  | annotations => TypeDecl.annotations
  | modifiers => TypeDecl.modifiers
  | typeVariables => TypeDecl.typeVariables
  | companion => TypeDecl.companion
  | primaryConstructor => TypeDecl.primaryConstructor
  | superclass => TypeDecl.superclass
  | superclassArgs => TypeDecl.superclassArgs
  | superinterfaces => TypeDecl.superinterfaces
  | constants => TypeDecl.constants
  | properties => TypeDecl.properties
  | initializer => TypeDecl.initializer
  | functions => TypeDecl.functions
  | types => TypeDecl.types

def put : (f : Facet) → f.Content → TypeDecl → TypeDecl
  | kdoc => fun x d => { d with kdoc := x }
  | annotations => fun x d => { d with annotations := x }
  | modifiers => fun x d => { d with modifiers := x }
  | typeVariables => fun x d => { d with typeVariables := x }
  | companion => fun x d => { d with companion := x }
  | primaryConstructor => fun x d => { d with primaryConstructor := x }
  | superclass => fun x d => { d with superclass := x }
  | superclassArgs => fun x d => { d with superclassArgs := x }
  | superinterfaces => fun x d => { d with superinterfaces := x }
  | constants => fun x d => { d with constants := x }
  | properties => fun x d => { d with properties := x }
  | initializer => fun x d => { d with initializer := x }
  | functions => fun x d => { d with functions := x }
  | types => fun x d => { d with types := x }

variable {f g : Facet}

theorem get_put (f : Facet) (x : f.Content) (d : TypeDecl) : f.get (f.put x d) = x := by
  cases f <;> rfl

theorem get_put_of_ne (h : g ≠ f) (x : f.Content) (d : TypeDecl) :
    g.get (f.put x d) = g.get d := by
  cases f <;> cases g <;> first | rfl | exact absurd rfl h

theorem put_get (f : Facet) (d : TypeDecl) : f.put (f.get d) d = d := by
  cases d
  cases f <;> rfl

theorem put_put (f : Facet) (x y : f.Content) (d : TypeDecl) :
    f.put x (f.put y d) = f.put x d := by
  cases f <;> rfl

end Facet

/-- What no call can change. -/
def heading (d : TypeDecl) : Value × Option String × Option Value := (d.kind, d.name, d.anonymous)

theorem heading_put (f : Facet) (x : f.Content) (d : TypeDecl) :
    (f.put x d).heading = d.heading := by
  cases f <;> rfl

theorem eq_of_facets {d e : TypeDecl} (h : d.heading = e.heading)
    (hf : ∀ f : Facet, f.get d = f.get e) : d = e := by
  simp only [heading, Prod.mk.injEq] at h
  obtain ⟨hkind, hname, hanonymous⟩ := h
  cases d
  cases e
  rw [TypeDecl.mk.injEq]
  exact ⟨hkind, hname, hanonymous, hf .kdoc, hf .annotations, hf .modifiers, hf .typeVariables,
    hf .companion, hf .primaryConstructor, hf .superclass, hf .superclassArgs,
    hf .superinterfaces, hf .constants, hf .properties, hf .initializer, hf .functions, hf .types⟩

/-- When the edit succeeds, it has done `act` to the facet, whatever the other facets hold, and
nothing to the rest of the declaration. -/
def Does (f : Facet) (act : f.Content → f.Content) (e : Edit TypeDecl Unit) : Prop :=
  ∀ d, e.Yields d (fun _ => True) fun _ d₁ => d₁ = f.put (act (f.get d)) d

def Concerns (f : Facet) (e : Edit TypeDecl Unit) : Prop := ∃ act, Does f act e

variable {unit : IndentUnit} {f : Facet} {d d' : TypeDecl}

theorem concerns_of_refuses {e : Edit TypeDecl Unit} (h : e.Refuses) (f : Facet) :
    Concerns f e :=
  ⟨id, fun _ => h.yields trivial⟩

theorem concerns_pure (f : Facet) : Concerns f (pure ()) :=
  ⟨id, fun d => (f.put_get d).symm⟩

theorem Concerns.bind {e e' : Edit TypeDecl Unit} (h : Concerns f e) (h' : Concerns f e') :
    Concerns f (e >>= fun _ => e') := by
  obtain ⟨act, h⟩ := h
  obtain ⟨act', h'⟩ := h'
  refine ⟨act' ∘ act, fun d => yields_bind ((h d).mono (fun _ ht => ht) ?_)⟩
  rintro _ _ rfl
  refine (h' _).mono (fun _ ht => ht) ?_
  rintro _ _ rfl
  rw [f.get_put, f.put_put]
  rfl

theorem concerns_require_bind {α : Type} {r : Except Error α} {k : α → Edit TypeDecl Unit}
    (h : ∀ a, Concerns f (k a)) : Concerns f (Edit.require r >>= k) := by
  cases r with
  | ok a => exact h a
  | error x => exact concerns_of_refuses (fun _ => ⟨x, rfl⟩) f

theorem concerns_forEach {β : Type} {k : β → Edit TypeDecl Unit} (h : ∀ b, Concerns f (k b))
    (bs : List β) : Concerns f (forEach k bs) := by
  induction bs with
  | nil => exact concerns_pure f
  | cons b bs ih => exact (h b).bind ih

theorem Concerns.behind {e e' : Edit TypeDecl Unit} (h : Concerns f e)
    (he : ∀ d Q, e.Yields d (fun _ => True) Q → e'.Yields d (fun _ => True) Q) :
    Concerns f e' := by
  obtain ⟨act, h⟩ := h
  exact ⟨act, fun d => he d _ (h d)⟩

theorem concerns_on (f : Facet) (e : Edit f.Content Unit) : Concerns f (on f.get f.put e) := by
  refine ⟨fun x => (e.outcome x).1, fun d => yields_on ?_⟩
  unfold Yields outcome
  cases he : e (f.get d) with
  | ok _ x => simp only [he]
  | error _ _ => trivial

theorem concerns_onKdoc (e : Edit CodeBlock Unit) : Concerns .kdoc (onKdoc e) :=
  concerns_on .kdoc e

theorem concerns_onInitializer (e : Edit CodeBlock Unit) :
    Concerns .initializer (onInitializer e) :=
  concerns_on .initializer e

theorem concerns_annotate (v : Value) : Concerns .annotations (annotate v) :=
  ⟨fun vs : List Value => vs ++ [v.asAnnotationUse], fun _ => yields_modify rfl⟩

theorem concerns_addModifiers (vs : List Value) : Concerns .modifiers (addModifiers unit vs) :=
  (concerns_on .modifiers (ModifierSet.addAll unit vs)).behind fun _ _ hd =>
    yields_checkNotAnonymous_bind trivial fun _ => hd

theorem concerns_addTypeVariable (v : Value) : Concerns .typeVariables (addTypeVariable unit v) :=
  ⟨fun vs : List Value => vs ++ [v],
    fun _ => yields_checkNotAnonymous_bind trivial fun _ => yields_modify rfl⟩

theorem concerns_setCompanion (v : Value) : Concerns .companion (setCompanion unit v) := by
  refine ⟨fun _ => v.asTypeDecl.toOption, fun d => yields_require_bind trivial fun _ => ?_⟩
  refine yields_bind (yields_require trivial fun c hc => yields_unless ?_ trivial fun _ => ?_)
  · exact refuses_require_bind fun _ => (refuses_refuse _ _).bind _
  · rw [hc]
    exact yields_modify rfl

theorem concerns_setPrimaryConstructor (v : Value) :
    Concerns .primaryConstructor (setPrimaryConstructor unit v) := by
  refine ⟨fun _ => (asConstructor v).toOption.join, fun d => ?_⟩
  refine yields_require_bind trivial fun _ => ?_
  refine yields_bind (yields_require trivial fun o ho => ?_)
  rw [ho]
  cases o with
  | none => exact yields_modify rfl
  | some c => exact yields_unless ((refuses_refuse _ _).bind _) trivial fun _ => yields_modify rfl

theorem concerns_setSuperclass (v : Value) : Concerns .superclass (setSuperclass unit v) := by
  refine ⟨fun _ => v, fun d => yields_require_bind trivial fun _ => yields_bind (yields_get ?_)⟩
  refine yields_unless ?_ trivial fun _ => yields_modify rfl
  exact refuses_require_bind fun _ => (refuses_refuse _ _).bind _

theorem concerns_addSuperclassArg (format : Value) (args : List Value) :
    Concerns .superclassArgs (addSuperclassArg unit format args) := by
  refine ⟨fun cs : List CodeBlock =>
    cs ++ (CodeBlock.ofFormatOrBlock unit format args).toOption.toList, fun d => ?_⟩
  refine yields_require_bind trivial fun _ => yields_bind (yields_require trivial fun c hc => ?_)
  rw [hc]
  exact yields_modify rfl

theorem concerns_delegateSuperinterface (type : Value) (c : CodeBlock) :
    Concerns .superinterfaces (delegateSuperinterface unit type c) := by
  refine ⟨fun ss : List Superinterface =>
    (putSuperinterface unit ss ⟨type, some c⟩).toOption.getD ss, fun d => ?_⟩
  refine yields_require_bind trivial fun _ => yields_bind (yields_get ?_)
  refine yields_unless ?_ trivial fun _ => yields_bind (yields_require trivial fun t _ => ?_)
  · exact refuses_require_bind fun _ => refuses_require_bind fun _ => (refuses_refuse _ _).bind _
  refine yields_unless ?_ trivial fun _ => yields_bind (yields_require trivial fun o _ => ?_)
  · exact refuses_require_bind fun _ => (refuses_refuse _ _).bind _
  cases o with
  | some present =>
      refine Refuses.yields ?_ trivial
      exact refuses_require_bind fun _ => refuses_require_bind fun _ =>
        refuses_require_bind fun _ => (refuses_refuse _ _).bind _
  | none =>
      refine yields_bind (yields_require trivial fun ss hs => yields_modify ?_)
      change _ = { d with superinterfaces := (putSuperinterface unit d.superinterfaces
        ⟨type, some c⟩).toOption.getD d.superinterfaces }
      rw [hs]
      rfl

theorem concerns_addSuperinterface (type delegate : Value) :
    Concerns .superinterfaces (addSuperinterface unit type delegate) := by
  refine concerns_require_bind fun o => ?_
  cases o with
  | none =>
      refine ⟨fun ss : List Superinterface =>
        (declareSuperinterface unit type ss).toOption.getD ss, fun d => ?_⟩
      refine yields_bind (yields_get (yields_bind (yields_require trivial fun ss hs => ?_)))
      refine yields_modify ?_
      change _ = { d with superinterfaces := (declareSuperinterface unit type
        d.superinterfaces).toOption.getD d.superinterfaces }
      rw [hs]
      rfl
  | some c => exact concerns_delegateSuperinterface type c

theorem parameterNamed_str {c : FunDecl} {s name : String}
    (h : parameterNamed c (.str s) = some name) : name = s := by
  obtain ⟨q, hq, rfl⟩ := Option.map_eq_some_iff.1 h
  simpa using List.find?_some hq

theorem concerns_addSuperinterfaceByParameter (type parameter : Value) :
    Concerns .superinterfaces (addSuperinterfaceByParameter unit type parameter) := by
  have hlast : ∃ act, ∀ c name, parameterNamed c parameter = some name →
      Does .superinterfaces act
        (addSuperinterface unit type (.code ⟨[.argument .name], [.str name]⟩)) := by
    cases parameter with
    | str s =>
        obtain ⟨act, h⟩ : Concerns .superinterfaces
            (addSuperinterface unit type (.code ⟨[.argument .name], [.str s]⟩)) :=
          concerns_addSuperinterface _ _
        refine ⟨act, fun c name hn => ?_⟩
        rw [parameterNamed_str hn]
        exact h
    | _ => exact ⟨id, fun c name hn => nomatch hn⟩
  obtain ⟨act, h⟩ := hlast
  refine ⟨act, fun d => yields_bind (yields_get ?_)⟩
  split
  · exact (refuses_refuse _ _).yields trivial
  · next c _ =>
      split
      · exact (refuses_require_bind fun _ => refuses_refuse _ _).yields trivial
      · next name hn => exact h c name hn d

theorem concerns_addConstant (name body : Value) :
    Concerns .constants (addConstant unit name body) := by
  cases name with
  | str s =>
      refine ⟨fun cs : List EnumConstant =>
        (constantBody body).toOption.elim cs (putConstant s · cs), fun d => ?_⟩
      refine yields_require_bind trivial fun _ => ?_
      refine yields_bind (yields_require trivial fun b hb => ?_)
      rw [hb]
      refine yields_unless ((refuses_refuse _ _).bind _) trivial fun _ => ?_
      exact yields_ite (fun _ => yields_modify rfl) fun _ => (refuses_refuse _ _).yields trivial
  | _ =>
      refine ⟨id, fun d => yields_require_bind trivial fun _ => ?_⟩
      refine yields_bind (yields_require trivial fun b _ => ?_)
      refine yields_unless ((refuses_refuse _ _).bind _) trivial fun _ => ?_
      exact (refuses_require_bind fun _ => refuses_refuse _ _).yields trivial

theorem concerns_addProperty (v type : Value) (modifiers : List Value) :
    Concerns .properties (addProperty unit v type modifiers) := by
  refine concerns_require_bind fun p => ⟨fun ps : List PropertyDecl => ps ++ [p], fun d => ?_⟩
  have hlast : ∀ x : Violation, (if d.isKind .annotationKind && hasAccessor p then do
          refuse unit x
          modify fun d => { d with properties := d.properties ++ [p] }
        else modify fun d => { d with properties := d.properties ++ [p] } :
        Edit TypeDecl Unit).Yields d (fun _ => True)
          fun _ d₁ => d₁ = { d with properties := d.properties ++ [p] } := fun x =>
    yields_unless ((refuses_refuse _ _).bind _) trivial fun _ => yields_modify rfl
  refine yields_bind (yields_get (yields_ite (fun _ => ?_) fun _ => hlast _))
  refine yields_unless ((refuses_refuse _ _).bind _) trivial fun _ => ?_
  exact yields_unless ((refuses_refuse _ _).bind _) trivial fun _ => hlast _

theorem concerns_addInitializerBlock (block : Value) :
    Concerns .initializer (addInitializerBlock unit block) := by
  apply (concerns_onInitializer _).behind
  intro d Q hd
  refine yields_require_bind trivial fun _ => yields_bind (yields_get ?_)
  refine yields_bind (yields_require trivial fun k _ => ?_)
  exact yields_unless ((refuses_refuse _ _).bind _) trivial fun _ => hd

theorem concerns_addFunction (v : Value) : Concerns .functions (addFunction unit v) := by
  rw [addFunction_eq]
  refine ⟨fun vs : List Value => vs ++ [v], fun d => yields_bind (yields_get ?_)⟩
  have hcheck : (checkFunction unit v d.kind).Yields d (fun _ => True) fun _ t => t = d := by
    unfold checkFunction
    split
    · exact yields_checkInterfaceFunction trivial fun _ _ => rfl
    · exact yields_checkAnnotationFunction trivial fun _ _ _ => rfl
    · rfl
  refine yields_ite (fun _ => ?_) fun _ => ?_
  · refine yields_bind (hcheck.mono (fun _ ht => ht) ?_)
    rintro _ _ rfl
    refine yields_bind (yields_require trivial fun body _ => ?_)
    exact yields_unless ((refuses_refuse _ _).bind _) trivial fun _ => yields_modify rfl
  · refine yields_bind (hcheck.mono (fun _ ht => ht) ?_)
    rintro _ _ rfl
    exact yields_modify rfl

theorem concerns_addType (v : Value) : Concerns .types (addType unit v) := by
  refine ⟨fun vs : List Value => vs ++ [v], fun d => yields_bind (yields_get ?_)⟩
  exact yields_unless ((refuses_refuse _ _).bind _) trivial fun _ => yields_modify rfl

def Call.facet : Call → Facet
  | addKdoc _ _ => .kdoc
  | annotate _ | addAnnotations _ => .annotations
  | addModifiers _ => .modifiers
  | addTypeVariable _ | addTypeVariables _ => .typeVariables
  | companion _ => .companion
  | primaryConstructor _ => .primaryConstructor
  | superclass _ => .superclass
  | addSuperclassArg _ _ => .superclassArgs
  | addSuperinterface _ _ | addSuperinterfaces _ | addSuperinterfaceByParameter _ _ =>
    .superinterfaces
  | addConstant _ _ => .constants
  | addProperty _ _ _ | addProperties _ => .properties
  | addInitializerBlock _ => .initializer
  | addFunction _ | addFunctions _ => .functions
  | addType _ | addTypes _ => .types

theorem Call.concerns (unit : IndentUnit) (call : Call) :
    Concerns call.facet (call.apply unit) := by
  cases call with
  | addKdoc format args => exact concerns_onKdoc _
  | annotate v => exact concerns_annotate v
  | addAnnotations vs =>
      exact concerns_require_bind fun _ => concerns_forEach concerns_annotate _
  | addModifiers vs => exact concerns_addModifiers vs
  | addTypeVariable v => exact concerns_addTypeVariable v
  | addTypeVariables vs =>
      exact concerns_require_bind fun _ => concerns_forEach concerns_addTypeVariable _
  | companion v => exact concerns_setCompanion v
  | primaryConstructor v => exact concerns_setPrimaryConstructor v
  | superclass v => exact concerns_setSuperclass v
  | addSuperclassArg format args => exact concerns_addSuperclassArg format args
  | addSuperinterface type delegate => exact concerns_addSuperinterface type delegate
  | addSuperinterfaces vs =>
      exact concerns_require_bind fun _ =>
        concerns_forEach (fun v => concerns_addSuperinterface v .null) _
  | addSuperinterfaceByParameter type parameter =>
      exact concerns_addSuperinterfaceByParameter type parameter
  | addConstant name body => exact concerns_addConstant name body
  | addProperty v type modifiers => exact concerns_addProperty v type modifiers
  | addProperties vs =>
      exact concerns_require_bind fun _ =>
        concerns_forEach (fun v => concerns_addProperty v .null []) _
  | addInitializerBlock block => exact concerns_addInitializerBlock block
  | addFunction v => exact concerns_addFunction v
  | addFunctions vs =>
      exact concerns_require_bind fun _ => concerns_forEach concerns_addFunction _
  | addType v => exact concerns_addType v
  | addTypes vs => exact concerns_require_bind fun _ => concerns_forEach concerns_addType _

theorem Concerns.eq_put {e : Edit TypeDecl Unit} (h : Concerns f e) :
    ∃ act : f.Content → f.Content, ∀ d d₁, e d = .ok () d₁ → d₁ = f.put (act (f.get d)) d := by
  obtain ⟨act, h⟩ := h
  refine ⟨act, fun d d₁ he => ?_⟩
  have hd := h d
  rwa [Yields, he] at hd

variable {calls calls' : List Call} {e e' : TypeDecl}

theorem heading_eq_of_run (h : forEach (Call.apply unit) calls d = .ok () e) :
    e.heading = d.heading := by
  induction calls generalizing d with
  | nil =>
      cases h
      rfl
  | cons c calls ih =>
      obtain ⟨_, t, ht, he⟩ := exists_of_bind_ok h
      obtain ⟨act, hact⟩ := (c.concerns unit).eq_put
      rw [ih he, hact d t ht, heading_put]

theorem get_eq_of_run (h : forEach (Call.apply unit) calls d = .ok () e)
    (hf : ∀ c ∈ calls, f ≠ c.facet) : f.get e = f.get d := by
  induction calls generalizing d with
  | nil =>
      cases h
      rfl
  | cons c calls ih =>
      obtain ⟨_, t, ht, he⟩ := exists_of_bind_ok h
      obtain ⟨act, hact⟩ := (c.concerns unit).eq_put
      rw [ih he fun b hb => hf b (List.mem_cons_of_mem _ hb), hact d t ht]
      exact Facet.get_put_of_ne (hf c List.mem_cons_self) _ d

/-- What the calls leave under a facet comes from what was there before and from the calls to that
facet. -/
theorem get_eq_of_filter_eq
    (h : calls.filter (fun c => c.facet = f) = calls'.filter (fun c => c.facet = f))
    (hd : f.get d = f.get d') (he : forEach (Call.apply unit) calls d = .ok () e)
    (he' : forEach (Call.apply unit) calls' d' = .ok () e') : f.get e = f.get e' := by
  induction calls generalizing calls' d d' with
  | nil =>
      cases he
      rw [hd, get_eq_of_run he']
      intro c hc hf
      have hmem : c ∈ calls'.filter (fun c => c.facet = f) :=
        List.mem_filter.2 ⟨hc, decide_eq_true hf.symm⟩
      rw [← h] at hmem
      cases hmem
  | cons c calls ih =>
      obtain ⟨_, t, ht, he⟩ := exists_of_bind_ok he
      obtain ⟨act, hact⟩ := (c.concerns unit).eq_put
      by_cases hc : c.facet = f
      · subst hc
        -- The same call is made in the other run, after calls to other facets.
        rw [List.filter_cons_of_pos (by simp)] at h
        obtain ⟨before, after, rfl, hbefore, _, hafter⟩ := List.filter_eq_cons_iff.1 h.symm
        rw [forEach_append] at he'
        obtain ⟨_, s, hs, he'⟩ := exists_of_bind_ok he'
        obtain ⟨_, t', ht', he'⟩ := exists_of_bind_ok he'
        refine ih hafter.symm ?_ he he'
        have hsame : c.facet.get s = c.facet.get d := by
          rw [hd]
          exact get_eq_of_run hs fun b hb hf => hbefore b hb (decide_eq_true hf.symm)
        rw [hact d t ht, hact s t' ht', Facet.get_put, Facet.get_put, hsame]
      · rw [List.filter_cons_of_neg (by simpa using hc)] at h
        refine ih h ?_ he he'
        rw [hact d t ht, Facet.get_put_of_ne (Ne.symm hc), hd]

/-- Calls that all succeed, and that are the same for each facet, make the same declaration, which
is then finished alike or refused alike. -/
theorem facets_independent
    (h : ∀ f, calls.filter (fun c => c.facet = f) = calls'.filter (fun c => c.facet = f))
    (he : forEach (Call.apply unit) calls d = .ok () e)
    (he' : forEach (Call.apply unit) calls' d = .ok () e') :
    e = e' ∧ buildAfter unit calls d = buildAfter unit calls' d := by
  have heq : e = e' := by
    refine eq_of_facets ?_ fun f => get_eq_of_filter_eq (h f) rfl he he'
    rw [heading_eq_of_run he, heading_eq_of_run he']
  refine ⟨heq, ?_⟩
  simp only [buildAfter, he, he', heq]

/-- An interface that is implemented by a parameter waits for the constructor and for nothing else,
and `expect` comes before the property or after it. -/
theorem facets_independent_delegate :
    let x : Parameter := ⟨"x", .type .unitType, [], .empty, none⟩
    let init : FunDecl := { FunDecl.plain FunDecl.constructorName with parameters := [x] }
    let property := Call.addProperty (.str "y") (.type .unitType) []
    let expect := Call.addModifiers [.modifier .expect]
    let primary := Call.primaryConstructor (.decl none (.function init))
    let delegate := Call.addSuperinterfaceByParameter (.type .unitType) (.str "x")
    let calls := [property, primary, delegate, expect]
    let calls' := [expect, primary, property, delegate]
    let d := plain (.kind .classKind) (some "C") none
    let e := { d with
      modifiers := ⟨[.expect]⟩
      primaryConstructor := some init
      superinterfaces := [⟨.type .unitType, some ⟨[.argument .name], [.str "x"]⟩⟩]
      properties := [.plain "y" (.type .unitType)] }
    (∀ f, calls.filter (fun c => c.facet = f) = calls'.filter (fun c => c.facet = f)) ∧
      forEach (Call.apply (.ok "  ")) calls d = .ok () e ∧
      forEach (Call.apply (.ok "  ")) calls' d = .ok () e ∧
      buildAfter (.ok "  ") calls d = buildAfter (.ok "  ") calls' d := by
  intro x init property expect primary delegate calls calls' d e
  have h : ∀ f, calls.filter (fun c => c.facet = f) = calls'.filter (fun c => c.facet = f) := by
    intro f
    cases f <;> rfl
  have he : forEach (Call.apply (.ok "  ")) calls d = .ok () e := rfl
  have he' : forEach (Call.apply (.ok "  ")) calls' d = .ok () e := rfl
  exact ⟨h, he, he', (facets_independent h he he').2⟩

end KotlinDecl.TypeDecl
