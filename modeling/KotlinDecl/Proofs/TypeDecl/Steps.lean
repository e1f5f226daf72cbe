import KotlinDecl.Proofs.Steps
import KotlinDecl.Proofs.TypeDecl.Superinterfaces
import KotlinDecl.TypeDecl.Builder

namespace KotlinDecl.TypeDecl

open Edit

open Relation (ReflGen ReflTransGen)

def Accepts (d : TypeDecl) (f : Feature) : Prop := ∃ k, d.kind = .kind k ∧ k.accepts f = true

structure InterfaceFunction (v : Value) (ms : ModifierSet) : Prop where
  carried : v.carriedModifiers = .ok ms
  visible : ∀ m ∈ hiddenModifiers, ms.contains m = false
  implemented : ms.contains .abstractDecl = true → ms.contains .privateVis = false

structure AnnotationFunction (v : Value) (ms : ModifierSet) (body : CodeBlock) : Prop where
  carried : v.carriedModifiers = .ok ms
  implied : Modifier.canonical ms.toList =
    Modifier.canonical Kind.annotationKind.functionModifiers
  carriedBody : v.carriedBody = .ok body
  isEmpty : body.isEmpty = true

def initializerHead : CodeBlock := ⟨[.text "init \x7b\n", .indent], []⟩

def initializerFoot : CodeBlock := ⟨[.unindent, .text "\x7d\n"], []⟩

/-- What is added for a block of initializer code. A block that is refused leaves its head. -/
inductive InitializerCode : CodeBlock → Prop
  | head : InitializerCode initializerHead
  | whole (b : CodeBlock) : InitializerCode (initializerHead ++ b ++ initializerFoot)

inductive Step (unit : IndentUnit) (typed : Prop) (d : TypeDecl) : TypeDecl → Prop
  | kdoc (c : CodeBlock) (h : typed → c.wellTyped = true) :
    Step unit typed d { d with kdoc := d.kdoc ++ c }
  | annotate (v : Value)
    (h : typed → v.isSort .annotationUse = true ∧ v.wellTyped = true) :
    Step unit typed d { d with annotations := d.annotations ++ [v] }
  | modifier (m : Modifier) (hd : d.isAnonymous = false) :
    Step unit typed d { d with modifiers := d.modifiers.insert m }
  | typeVariable (v : Value) (hd : d.isAnonymous = false)
    (h : typed → v.isTypeVariable = true ∧ v.wellTyped = true) :
    Step unit typed d { d with typeVariables := d.typeVariables ++ [v] }
  | companion (c : TypeDecl) (hd : d.Accepts .companion) (ho : c.isKind .objectKind = true)
    (hc : c.modifiers.contains .companion = true) (h : typed → c.wellTyped = true) :
    Step unit typed d { d with companion := some c }
  | primaryConstructor (o : Option FunDecl) (hd : d.Accepts .primaryConstructor)
    (ho : ∀ f ∈ o, f.isConstructor = true) (h : typed → ∀ f ∈ o, f.wellTyped = true) :
    Step unit typed d { d with primaryConstructor := o }
  | superclass (v : Value) (hd : d.Accepts .superclass)
    (hs : d.superclass.isNamed .anyType = true)
    (h : typed → v.isType = true ∧ v.wellTyped = true) :
    Step unit typed d { d with superclass := v }
  | superclassArg (c : CodeBlock) (hd : d.Accepts .superclass) (h : typed → c.wellTyped = true) :
    Step unit typed d { d with superclassArgs := d.superclassArgs ++ [c] }
  | superinterface (v : Value) (hi : superinterfaceIndex unit v d.superinterfaces = .ok none)
    (h : typed → v.isType = true ∧ v.wellTyped = true) :
    Step unit typed d { d with superinterfaces := d.superinterfaces ++ [⟨v, none⟩] }
  | delegate (t : TypeName) (c : CodeBlock) (ss : List Superinterface)
    (hd : d.Accepts .delegation) (ha : d.isAnonymous = false) (ht : t.isNullable = false)
    (hn : presentDelegate unit (.type t) d.superinterfaces = .ok none)
    (hs : putSuperinterface unit d.superinterfaces ⟨.type t, some c⟩ = .ok ss)
    (h : typed → t.wellTyped = true ∧ c.wellTyped = true) :
    Step unit typed d { d with superinterfaces := ss }
  | constant (s : String) (body : TypeDecl) (hd : d.Accepts .enumConstants)
    (hs : isName s = true) (hb : body.isAnonymous = true) (h : typed → body.wellTyped = true) :
    Step unit typed d { d with constants := putConstant s body d.constants }
  | property (p : PropertyDecl)
    (he : d.isExpected = true → p.initializer = none ∧ hasAccessor p = false)
    (ha : d.isKind .annotationKind = true → hasAccessor p = false)
    (h : typed → p.wellTyped = true) :
    Step unit typed d { d with properties := d.properties ++ [p] }
  | initializer (c : CodeBlock) (hd : d.Accepts .initializerBlock) (he : d.isExpected = false)
    (hc : InitializerCode c) (h : typed → c.wellTyped = true) :
    Step unit typed d { d with initializer := d.initializer ++ c }
  | function (v : Value) (hi : d.isKind .interfaceKind = true → ∃ ms, InterfaceFunction v ms)
    (ha : d.isKind .annotationKind = true → ∃ ms body, AnnotationFunction v ms body)
    (he : d.isExpected = true → ∃ body, v.carriedBody = .ok body ∧ body.isEmpty = true)
    (h : typed → v.isSort .function = true ∧ v.wellTyped = true) :
    Step unit typed d { d with functions := d.functions ++ [v] }
  | type (v : Value) (hd : d.isKind .annotationKind = false)
    (h : typed → v.isSort .typeDecl = true ∧ v.wellTyped = true) :
    Step unit typed d { d with types := d.types ++ [v] }

variable {unit : IndentUnit} {typed : Prop}

theorem refuses_refuse (unit : IndentUnit) (v : Violation) : (refuse unit v).Refuses :=
  refuses_get_bind fun _ => refuses_require_bind fun _ => refuses_throw _

theorem yields_require_bind {α : Type} {feature : Feature} {d : TypeDecl} {I : TypeDecl → Prop}
    {Q : α → TypeDecl → Prop} {k : Unit → Edit TypeDecl α} (hi : I d)
    (h : d.Accepts feature → (k ()).Yields d I Q) : (require unit feature >>= k).Yields d I Q := by
  refine yields_bind (yields_bind (yields_get (yields_bind (yields_require hi fun kind hk => ?_))))
  refine yields_unless (refuses_refuse _ _) hi fun ha => h ⟨kind, ?_, by simpa using ha⟩
  unfold knownKind at hk
  split at hk
  · next he => cases hk; exact he
  · cases hk

theorem yields_checkNotAnonymous_bind {α : Type} {what : String} {d : TypeDecl}
    {I : TypeDecl → Prop} {Q : α → TypeDecl → Prop} {k : Unit → Edit TypeDecl α} (hi : I d)
    (h : d.isAnonymous = false → (k ()).Yields d I Q) :
    (checkNotAnonymous unit what >>= k).Yields d I Q := by
  refine yields_bind (yields_bind (yields_get ?_))
  refine yields_unless (refuses_refuse _ _) hi fun ha => h (by simpa using ha)

theorem takes_onKdoc {e : Edit CodeBlock Unit} (h : e.Takes (CodeBlock.Step typed)) :
    (onKdoc e).Takes (Step unit typed) :=
  h.on (fun d => by cases d; rfl) fun d c _ hs => by
    cases hs with
    | append x hx => exact .kdoc (d := { d with kdoc := c }) x hx

theorem takes_annotate {v : Value} (h : typed → v.annotates = true) :
    (annotate v).Takes (Step unit typed) :=
  takes_modify fun _ => .annotate _ fun ht => Value.annotates_asAnnotationUse (h ht)

theorem takes_addTypeVariable {v : Value}
    (h : typed → v.isTypeVariable = true ∧ v.wellTyped = true) :
    (addTypeVariable unit v).Takes (Step unit typed) := fun _ =>
  yields_checkNotAnonymous_bind rfl fun hd => yields_modify (.single (.typeVariable v hd h))

theorem asTypeDecl_ok {v : Value} {c : TypeDecl} (h : v.asTypeDecl = .ok c) :
    ∃ n, v = .decl n (.typeDecl c) := by
  unfold Value.asTypeDecl at h
  split at h
  · cases h
    exact ⟨_, rfl⟩
  · cases h

theorem takes_setCompanion {v : Value} (h : typed → v.wellTyped = true) :
    (setCompanion unit v).Takes (Step unit typed) := fun d => by
  refine yields_require_bind rfl fun hd => yields_bind (yields_require rfl fun c hc => ?_)
  refine yields_unless ?_ rfl fun hn => ?_
  · exact refuses_require_bind fun _ => (refuses_refuse _ _).bind _
  · simp only [Bool.or_eq_true, Bool.not_eq_true', not_or, Bool.not_eq_false] at hn
    refine yields_modify (.single (.companion c hd hn.1 hn.2 fun ht => ?_))
    obtain ⟨n, rfl⟩ := asTypeDecl_ok hc
    exact h ht

theorem asConstructor_ok {v : Value} {f : FunDecl} (h : asConstructor v = .ok (some f)) :
    ∃ n, v = .decl n (.function f) := by
  unfold asConstructor at h
  split at h
  · cases h
  · obtain ⟨g, hg, h⟩ := ok_of_bind h
    cases h
    unfold Value.asFunction at hg
    split at hg
    · cases hg
      exact ⟨_, rfl⟩
    · cases hg

theorem takes_setPrimaryConstructor {v : Value} (h : typed → v.wellTyped = true) :
    (setPrimaryConstructor unit v).Takes (Step unit typed) := fun d => by
  refine yields_require_bind rfl fun hd => yields_bind (yields_require rfl fun o ho => ?_)
  cases o with
  | none => exact yields_modify (.single (.primaryConstructor none hd nofun nofun))
  | some f =>
      refine yields_unless ((refuses_refuse _ _).bind _) rfl fun hf => ?_
      refine yields_modify (.single (.primaryConstructor (some f) hd ?_ ?_))
      · rintro _ ⟨⟩
        simpa using hf
      · rintro ht _ ⟨⟩
        obtain ⟨n, rfl⟩ := asConstructor_ok ho
        exact h ht

theorem takes_setSuperclass {v : Value} (h : typed → v.isType = true ∧ v.wellTyped = true) :
    (setSuperclass unit v).Takes (Step unit typed) := fun d => by
  refine yields_require_bind rfl fun hd => yields_bind (yields_get ?_)
  refine yields_unless ?_ rfl fun hs => ?_
  · exact refuses_require_bind fun _ => (refuses_refuse _ _).bind _
  · exact yields_modify (.single (.superclass v hd (by simpa using hs) h))

theorem takes_addSuperclassArg {format : Value} {args : List Value}
    (h : typed → Format.wellTyped format args = true) :
    (addSuperclassArg unit format args).Takes (Step unit typed) := fun d => by
  refine yields_require_bind rfl fun hd => yields_bind (yields_require rfl fun c hc => ?_)
  refine yields_modify (.single (.superclassArg c hd fun ht => ?_))
  exact CodeBlock.wellTyped_ofFormatOrBlock (h ht) hc

theorem takes_delegateSuperinterface {v : Value} {c : CodeBlock}
    (h : typed → v.wellTyped = true ∧ c.wellTyped = true) :
    (delegateSuperinterface unit v c).Takes (Step unit typed) := fun d => by
  refine yields_require_bind rfl fun hd => yields_bind (yields_get ?_)
  refine yields_unless ?_ rfl fun ha => yields_bind (yields_require rfl fun t ht => ?_)
  · exact refuses_require_bind fun _ => refuses_require_bind fun _ => (refuses_refuse _ _).bind _
  refine yields_unless ?_ rfl fun hn => yields_bind (yields_require rfl fun o ho => ?_)
  · exact refuses_require_bind fun _ => (refuses_refuse _ _).bind _
  cases o with
  | some present =>
      refine Refuses.yields ?_ rfl
      exact refuses_require_bind fun _ => refuses_require_bind fun _ =>
        refuses_require_bind fun _ => (refuses_refuse _ _).bind _
  | none =>
      refine yields_bind (yields_require rfl fun ss hs => yields_modify (.single ?_))
      cases v with
      | type t' =>
          cases ht
          exact .delegate t c ss hd (by simpa using ha) (by simpa using hn) ho hs h
      | _ => cases ht

theorem takes_addSuperinterface {v delegate : Value}
    (h : typed → v.isType = true ∧ v.wellTyped = true ∧ delegate.wellTyped = true) :
    (addSuperinterface unit v delegate).Takes (Step unit typed) := by
  refine takes_require_bind fun o ho => ?_
  cases o with
  | none =>
      intro d
      refine yields_bind (yields_get (yields_bind (yields_require rfl fun ss hs => ?_)))
      obtain ⟨i, hi, hs⟩ := ok_of_bind hs
      cases i with
      | none =>
          cases hs
          exact yields_modify (.single (.superinterface v hi fun ht => ⟨(h ht).1, (h ht).2.1⟩))
      | some n =>
          -- A type that is declared already keeps its place and its delegate.
          cases hs
          cases d
          exact yields_modify .refl
  | some c =>
      refine takes_delegateSuperinterface fun ht => ⟨(h ht).2.1, ?_⟩
      unfold asDelegate at ho
      split at ho
      · cases ho
      · split at ho
        · cases ho
        · cases ho
          exact (h ht).2.2
      · cases ho

theorem takes_addSuperinterfaceByParameter {v parameter : Value}
    (h : typed → v.isType = true ∧ v.wellTyped = true) :
    (addSuperinterfaceByParameter unit v parameter).Takes (Step unit typed) := fun d => by
  refine yields_bind (yields_get ?_)
  split
  · exact (refuses_refuse _ _).takes d
  · split
    · exact (refuses_require_bind fun _ => refuses_refuse _ _).takes d
    · exact takes_addSuperinterface (fun ht => ⟨(h ht).1, (h ht).2, rfl⟩) d

theorem takes_addConstant {name body : Value} (h : typed → body.wellTyped = true) :
    (addConstant unit name body).Takes (Step unit typed) := fun d => by
  refine yields_require_bind rfl fun hd => yields_bind (yields_require rfl fun b hb => ?_)
  refine yields_unless ((refuses_refuse _ _).bind _) rfl fun ha => ?_
  cases name with
  | str s =>
      refine yields_ite (fun hs => ?_) fun _ => (refuses_refuse _ _).takes d
      refine yields_modify (.single (.constant s b hd hs (by simpa using ha) fun ht => ?_))
      unfold constantBody at hb
      split at hb
      · cases hb
        rfl
      · obtain ⟨n, rfl⟩ := asTypeDecl_ok hb
        exact h ht
  | _ => exact (refuses_require_bind fun _ => refuses_refuse _ _).takes d

theorem wellTyped_propertyOf {v type : Value} {modifiers : List Value} {p : PropertyDecl}
    (hw : v.wellTyped = true ∧
      (v.isSort .property = true ∨ type.isType = true ∧ type.wellTyped = true))
    (h : propertyOf unit v type modifiers = .ok p) : p.wellTyped = true := by
  rcases hw.2 with hs | ht
  · obtain ⟨n, q, rfl⟩ := Value.eq_property_of_isSort hs
    cases h
    exact hw.1
  · unfold propertyOf at h
    split at h
    · cases h
      exact hw.1
    · exact PropertyDecl.wellTyped_ofName ht.1 ht.2 h

theorem yields_addProperty {v type : Value} {modifiers : List Value} {d : TypeDecl}
    {I : TypeDecl → Prop} {Q : Unit → TypeDecl → Prop} (hi : I d)
    (h : ∀ p, propertyOf unit v type modifiers = .ok p →
      (d.isExpected = true → p.initializer = none ∧ hasAccessor p = false) →
      (d.isKind .annotationKind = true → hasAccessor p = false) →
      Q () { d with properties := d.properties ++ [p] }) :
    (addProperty unit v type modifiers).Yields d I Q := by
  refine yields_bind (yields_require hi fun p hp => yields_bind (yields_get ?_))
  -- What is left to do behind the checks that only an expected declaration makes.
  have hlast : (d.isExpected = true → p.initializer = none ∧ hasAccessor p = false) →
      (if d.isKind .annotationKind && hasAccessor p then do
          refuse unit (.accessorInAnnotationClass .annotationKind (ownerText d.name) p.name)
          modify fun d => { d with properties := d.properties ++ [p] }
        else modify fun d => { d with properties := d.properties ++ [p] } :
        Edit TypeDecl Unit).Yields d I Q := by
    intro he
    refine yields_unless ((refuses_refuse _ _).bind _) hi fun ha => ?_
    refine yields_modify (h p hp he fun hk => ?_)
    simpa [hk] using ha
  refine yields_ite (fun _ => ?_) fun he => hlast fun h => absurd h he
  refine yields_unless ((refuses_refuse _ _).bind _) hi fun hn => ?_
  refine yields_unless ((refuses_refuse _ _).bind _) hi fun ha => hlast fun _ => ?_
  exact ⟨by simpa using hn, by simpa using ha⟩

theorem takes_addProperty {v type : Value} {modifiers : List Value}
    (h : typed → v.wellTyped = true ∧
      (v.isSort .property = true ∨ type.isType = true ∧ type.wellTyped = true)) :
    (addProperty unit v type modifiers).Takes (Step unit typed) := fun _ =>
  yields_addProperty rfl fun p hp he ha =>
    .single (.property p he ha fun ht => wellTyped_propertyOf (h ht) hp)

inductive InitializerStep (typed : Prop) (c : CodeBlock) : CodeBlock → Prop
  | append (x : CodeBlock) (hx : InitializerCode x) (h : typed → x.wellTyped = true) :
    InitializerStep typed c (c ++ x)

theorem follows_initializerBlock {block : Value}
    (h : typed → Format.wellTyped block [] = true) :
    (do
      CodeBlock.addPart (.text "init \x7b\n")
      CodeBlock.addPart .indent
      CodeBlock.add unit block []
      CodeBlock.addPart .unindent
      CodeBlock.addPart (.text "\x7d\n") : Edit CodeBlock Unit).Follows
        (InitializerStep typed) := by
  intro c
  have hhead : c ++ ⟨[.text "init \x7b\n"], []⟩ ++ ⟨[.indent], []⟩ = c ++ initializerHead :=
    CodeBlock.append_assoc _ _ _
  refine yields_bind (yields_modify (yields_bind (yields_modify ?_)))
  rw [hhead]
  refine yields_bind (yields_bind (yields_require ?_ fun b hb => yields_modify ?_))
  · exact .single (.append _ .head fun _ => rfl)
  · refine yields_bind (yields_modify (yields_modify (.single ?_)))
    have hwhole : c ++ initializerHead ++ b ++ ⟨[.unindent], []⟩ ++ ⟨[.text "\x7d\n"], []⟩ =
        c ++ (initializerHead ++ b ++ initializerFoot) := by
      simp only [CodeBlock.append_assoc]
      rfl
    rw [hwhole]
    refine .append _ (.whole b) fun ht => ?_
    have hb := CodeBlock.wellTyped_ofFormat (h ht) hb
    exact CodeBlock.wellTyped_append (CodeBlock.wellTyped_append rfl hb) rfl

theorem follows_addInitializerBlock {block : Value}
    (h : typed → Format.wellTyped block [] = true) :
    (addInitializerBlock unit block).Follows (Step unit typed) := fun d => by
  refine yields_require_bind .refl fun hd => yields_bind (yields_get ?_)
  refine yields_bind (yields_require .refl fun k _ => ?_)
  refine yields_unless ((refuses_refuse _ _).bind _) .refl fun he => ?_
  have he : d.isExpected = false := by simpa using he
  refine (follows_initializerBlock h).yields_on (by cases d; rfl) fun c _ hs => ?_
  cases hs with
  | append x hx hw => exact .initializer (d := { d with initializer := c }) x hd he hx hw

theorem yields_checkInterfaceFunction {v : Value} {d : TypeDecl} {I : TypeDecl → Prop}
    {Q : Unit → TypeDecl → Prop} (hi : I d) (h : ∀ ms, InterfaceFunction v ms → Q () d) :
    (checkInterfaceFunction unit v).Yields d I Q := by
  refine yields_bind (yields_get (yields_bind (yields_require hi fun ms hm => ?_)))
  refine yields_bind (yields_require hi fun name _ => ?_)
  generalize hf : hiddenModifiers.find? ms.contains = o
  cases o with
  | some m => exact ((refuses_refuse _ _).bind _).yields hi
  | none =>
      refine yields_unless (refuses_refuse _ _) hi fun ha => h ms ⟨hm, ?_, ?_⟩
      · simpa using hf
      · simpa using ha

theorem yields_checkAnnotationFunction {v : Value} {d : TypeDecl} {I : TypeDecl → Prop}
    {Q : Unit → TypeDecl → Prop} (hi : I d) (h : ∀ ms body, AnnotationFunction v ms body → Q () d) :
    (checkAnnotationFunction unit v).Yields d I Q := by
  refine yields_bind (yields_get (yields_bind (yields_require hi fun ms hm => ?_)))
  refine yields_bind (yields_require hi fun name _ => ?_)
  refine yields_unless ((refuses_refuse _ _).bind _) hi fun hc => ?_
  refine yields_bind (yields_require hi fun body hb => ?_)
  refine yields_unless (refuses_refuse _ _) hi fun he => h ms body ⟨hm, ?_, hb, ?_⟩
  · simpa using hc
  · simpa using he

theorem yields_addFunction {v : Value} {d : TypeDecl} {I : TypeDecl → Prop}
    {Q : Unit → TypeDecl → Prop} (hi : I d)
    (h : (d.isKind .interfaceKind = true → ∃ ms, InterfaceFunction v ms) →
      (d.isKind .annotationKind = true → ∃ ms body, AnnotationFunction v ms body) →
      (d.isExpected = true → ∃ body, v.carriedBody = .ok body ∧ body.isEmpty = true) →
      Q () { d with functions := d.functions ++ [v] }) :
    (addFunction unit v).Yields d I Q := by
  refine yields_bind (yields_get ?_)
  have hlast : (d.isKind .interfaceKind = true → ∃ ms, InterfaceFunction v ms) →
      (d.isKind .annotationKind = true → ∃ ms body, AnnotationFunction v ms body) →
      (if d.isExpected then do
          let body ← Edit.require v.carriedBody
          if !body.isEmpty then do
            refuse unit .expectFunctionBody
            modify fun d => { d with functions := d.functions ++ [v] }
          else modify fun d => { d with functions := d.functions ++ [v] }
        else modify fun d => { d with functions := d.functions ++ [v] } :
        Edit TypeDecl Unit).Yields d I Q := by
    intro hn ha
    refine yields_ite (fun _ => ?_) fun he => ?_
    · refine yields_bind (yields_require hi fun body hb => ?_)
      refine yields_unless ((refuses_refuse _ _).bind _) hi fun he => ?_
      exact yields_modify (h hn ha fun _ => ⟨body, hb, by simpa using he⟩)
    · exact yields_modify (h hn ha fun hx => absurd hx he)
  generalize hk : d.kind = kind
  cases kind with
  | kind k =>
      cases k with
      | interfaceKind =>
          refine yields_bind (yields_checkInterfaceFunction hi fun ms hm => hlast ?_ ?_)
          · exact fun _ => ⟨ms, hm⟩
          · simp [isKind, hk]
      | annotationKind =>
          refine yields_bind (yields_checkAnnotationFunction hi fun ms body hm => hlast ?_ ?_)
          · simp [isKind, hk]
          · exact fun _ => ⟨ms, body, hm⟩
      | _ => exact hlast (by simp [isKind, hk]) (by simp [isKind, hk])
  | _ => exact hlast (by simp [isKind, hk]) (by simp [isKind, hk])

theorem takes_addFunction {v : Value}
    (h : typed → v.isSort .function = true ∧ v.wellTyped = true) :
    (addFunction unit v).Takes (Step unit typed) := fun _ =>
  yields_addFunction rfl fun hi ha he => .single (.function v hi ha he h)

theorem takes_addType {v : Value} (h : typed → v.isSort .typeDecl = true ∧ v.wellTyped = true) :
    (addType unit v).Takes (Step unit typed) := fun d => by
  refine yields_bind (yields_get ?_)
  refine yields_unless ((refuses_refuse _ _).bind _) rfl fun hd => ?_
  exact yields_modify (.single (.type v (by simpa using hd) h))

def Call.wellTyped : Call → Bool
  | addKdoc format args => Format.wellTyped format args
  | annotate v => v.annotates
  | addAnnotations vs => vs.allItems Value.annotates
  | addModifiers _ => true
  | addTypeVariable v => v.isTypeVariable && v.wellTyped
  | addTypeVariables vs => vs.allItems fun v => v.isTypeVariable && v.wellTyped
  | companion v | primaryConstructor v => v.wellTyped
  | superclass v => v.isType && v.wellTyped
  | addSuperclassArg format args => Format.wellTyped format args
  | addSuperinterface type delegate => type.isType && type.wellTyped && delegate.wellTyped
  | addSuperinterfaces vs => vs.allItems fun v => v.isType && v.wellTyped
  | addSuperinterfaceByParameter type _ => type.isType && type.wellTyped
  | addConstant _ body => body.wellTyped
  | addProperty v type _ => v.wellTyped && (v.isSort .property || type.isType && type.wellTyped)
  | addProperties vs => vs.allItems fun v => v.isSort .property && v.wellTyped
  | addInitializerBlock block => Format.wellTyped block []
  | addFunction v => v.isSort .function && v.wellTyped
  | addFunctions vs => vs.allItems fun v => v.isSort .function && v.wellTyped
  | addType v => v.isSort .typeDecl && v.wellTyped
  | addTypes vs => vs.allItems fun v => v.isSort .typeDecl && v.wellTyped

def Call.isWhole : Call → Bool
  | addAnnotations _ | addModifiers _ | addTypeVariables _ | addSuperinterfaces _
  | addProperties _ | addInitializerBlock _ | addFunctions _ | addTypes _ => false
  | _ => true

theorem Call.takes (unit : IndentUnit) {call : Call} (hc : call.isWhole = true)
    (h : typed → call.wellTyped = true) : (call.apply unit).Takes (Step unit typed) := by
  cases call with
  | addKdoc format args => exact takes_onKdoc (CodeBlock.takes_add h)
  | annotate v => exact takes_annotate h
  | addTypeVariable v => exact takes_addTypeVariable fun ht => by simpa [wellTyped] using h ht
  | companion v => exact takes_setCompanion h
  | primaryConstructor v => exact takes_setPrimaryConstructor h
  | superclass v => exact takes_setSuperclass fun ht => by simpa [wellTyped] using h ht
  | addSuperclassArg format args => exact takes_addSuperclassArg h
  | addSuperinterface type delegate =>
      exact takes_addSuperinterface fun ht => by simpa [wellTyped, and_assoc] using h ht
  | addSuperinterfaceByParameter type parameter =>
      exact takes_addSuperinterfaceByParameter fun ht => by simpa [wellTyped] using h ht
  | addConstant name body => exact takes_addConstant h
  | addProperty v type modifiers =>
      exact takes_addProperty fun ht => by simpa [wellTyped] using h ht
  | addFunction v => exact takes_addFunction fun ht => by simpa [wellTyped] using h ht
  | addType v => exact takes_addType fun ht => by simpa [wellTyped] using h ht
  | _ => cases hc

theorem Call.follows (unit : IndentUnit) (call : Call) (h : typed → call.wellTyped = true) :
    (call.apply unit).Follows (Step unit typed) := by
  cases call with
  | addAnnotations vs => exact follows_items h fun v hv => (takes_annotate hv).follows
  | addModifiers vs =>
      refine fun d => yields_checkNotAnonymous_bind .refl fun hd => ?_
      refine (ModifierSet.follows_addAll unit vs).yields_on (by cases d; rfl) fun s _ hs => ?_
      cases hs with
      | insert m => exact .modifier (d := { d with modifiers := s }) m hd
  | addTypeVariables vs =>
      exact follows_items h fun v hv => (takes_addTypeVariable fun ht => by
        simpa using hv ht).follows
  | addSuperinterfaces vs =>
      exact follows_items h fun v hv => (takes_addSuperinterface fun ht => by
        simpa [Value.wellTyped] using hv ht).follows
  | addProperties vs =>
      refine follows_items h fun v hv => (takes_addProperty fun ht => ?_).follows
      have hv := hv ht
      simp only [Bool.and_eq_true] at hv
      exact ⟨hv.2, .inl hv.1⟩
  | addInitializerBlock block => exact follows_addInitializerBlock h
  | addFunctions vs =>
      exact follows_items h fun v hv => (takes_addFunction fun ht => by simpa using hv ht).follows
  | addTypes vs =>
      exact follows_items h fun v hv => (takes_addType fun ht => by simpa using hv ht).follows
  | _ => exact (Call.takes unit rfl h).follows

theorem mem_putConstant {s : String} {body : TypeDecl} {cs : List EnumConstant} :
    ∀ c ∈ putConstant s body cs, c = ⟨s, body⟩ ∨ c ∈ cs := by
  induction cs with
  | nil => exact fun c hc => .inl (List.mem_singleton.1 hc)
  | cons e cs ih =>
      intro c hc
      rw [putConstant] at hc
      split at hc
      · exact (List.mem_cons.1 hc).imp_right (List.mem_cons_of_mem _)
      · rcases List.mem_cons.1 hc with rfl | hc
        · exact .inr List.mem_cons_self
        · exact (ih c hc).imp_right (List.mem_cons_of_mem _)

theorem Step.wellTyped {d e : TypeDecl} (h : Step unit typed d e) (ht : typed)
    (hd : d.wellTyped = true) : e.wellTyped = true := by
  rw [wellTyped_iff] at hd ⊢
  obtain ⟨hs, he⟩ := hd
  cases h with
  | kdoc c hc =>
      exact ⟨{ hs with }, { he with kdoc := CodeBlock.wellTyped_append he.kdoc (hc ht) }⟩
  | annotate v hv =>
      obtain ⟨hv, hv'⟩ := hv ht
      exact ⟨{ hs with annotations := forall_mem_snoc hs.annotations hv },
        { he with annotations := forall_mem_snoc he.annotations hv' }⟩
  | modifier m _ => exact ⟨{ hs with }, { he with }⟩
  | typeVariable v _ hv =>
      obtain ⟨hv, hv'⟩ := hv ht
      exact ⟨{ hs with typeVariables := forall_mem_snoc hs.typeVariables hv },
        { he with typeVariables := forall_mem_snoc he.typeVariables hv' }⟩
  | companion c _ _ _ hc =>
      refine ⟨{ hs with }, { he with companion := ?_ }⟩
      rintro _ ⟨⟩
      exact hc ht
  | primaryConstructor o _ _ ho =>
      exact ⟨{ hs with }, { he with primaryConstructor := ho ht }⟩
  | superclass v _ _ hv =>
      exact ⟨{ hs with superclass := (hv ht).1 }, { he with superclass := (hv ht).2 }⟩
  | superclassArg c _ hc =>
      exact ⟨{ hs with },
        { he with superclassArgs := forall_mem_snoc he.superclassArgs (hc ht) }⟩
  | superinterface v _ hv =>
      obtain ⟨hv, hv'⟩ := hv ht
      exact ⟨{ hs with superinterfaces := forall_mem_snoc hs.superinterfaces hv },
        { he with
          superinterfaces := forall_mem_snoc he.superinterfaces hv'
          delegates := forall_mem_snoc he.delegates nofun }⟩
  | delegate t c ss _ _ _ _ hss h =>
      obtain ⟨hw, hc⟩ := h ht
      have hall : ∀ x ∈ ss, x.type.isType = true ∧ x.type.wellTyped = true ∧
          ∀ c ∈ x.delegate, c.wellTyped = true := by
        intro x hx
        rcases mem_putSuperinterface hss x hx with hx | rfl | ⟨y, hy, _, rfl⟩
        · exact ⟨hs.superinterfaces x hx, he.superinterfaces x hx, he.delegates x hx⟩
        · refine ⟨rfl, hw, ?_⟩
          rintro _ ⟨⟩
          exact hc
        · refine ⟨hs.superinterfaces y hy, he.superinterfaces y hy, ?_⟩
          rintro _ ⟨⟩
          exact hc
      exact ⟨{ hs with superinterfaces := fun x hx => (hall x hx).1 },
        { he with
          superinterfaces := fun x hx => (hall x hx).2.1
          delegates := fun x hx => (hall x hx).2.2 }⟩
  | constant s body _ _ hb hw =>
      refine ⟨{ hs with constants := fun c hc => ?_ }, { he with constants := fun c hc => ?_ }⟩
      · rcases mem_putConstant c hc with rfl | hc
        · exact hb
        · exact hs.constants c hc
      · rcases mem_putConstant c hc with rfl | hc
        · exact hw ht
        · exact he.constants c hc
  | property p _ _ hp =>
      exact ⟨{ hs with }, { he with properties := forall_mem_snoc he.properties (hp ht) }⟩
  | initializer c _ _ _ hc =>
      exact ⟨{ hs with },
        { he with initializer := CodeBlock.wellTyped_append he.initializer (hc ht) }⟩
  | function v _ _ _ hv =>
      obtain ⟨hv, hv'⟩ := hv ht
      exact ⟨{ hs with functions := forall_mem_snoc hs.functions hv },
        { he with functions := forall_mem_snoc he.functions hv' }⟩
  | type v _ hv =>
      obtain ⟨hv, hv'⟩ := hv ht
      exact ⟨{ hs with types := forall_mem_snoc hs.types hv },
        { he with types := forall_mem_snoc he.types hv' }⟩

inductive Begins (typed : Prop) : TypeDecl → Prop
  | plain (kind : Value) (name : Option String) (anonymous : Option Value)
    (hn : ∀ s ∈ name, isName s = true) (ha : name.isSome = true → anonymous = none)
    (h : typed → kind.isKind = true ∧ ∀ v ∈ anonymous, v.isCode = true ∧ v.wellTyped = true) :
    Begins typed (.plain kind name anonymous)
  | marked (kind : Kind) (name : Option String) (m : Modifier) (hn : ∀ s ∈ name, isName s = true) :
    Begins typed { plain (.kind kind) name none with modifiers := ModifierSet.empty.insert m }

theorem start_ok {kind name : Value} {anonymous : Option Value} {d : TypeDecl}
    (h : start unit kind name anonymous = .ok d) :
    ∃ o : Option String, (∀ s ∈ o, isName s = true) ∧ (o.isSome = true → anonymous = none) ∧
      d = plain kind o anonymous := by
  have hr : ∀ v, start.refused unit kind v ≠ .ok d := fun v => bind_ne_ok nofun
  unfold start at h
  split at h
  · cases h
    exact ⟨none, nofun, nofun, rfl⟩
  · next s =>
      split at h
      · exact absurd h (hr _)
      · next hs =>
          split at h
          · exact absurd h (hr _)
          · next ha =>
              cases h
              have ha : anonymous = none := by simpa using ha
              refine ⟨some s, ?_, fun _ => ha, by rw [ha]⟩
              rintro _ ⟨⟩
              simpa using hs
  · obtain ⟨_, _, h⟩ := ok_of_bind h
    exact absurd h (hr _)

theorem wellTyped_plain {kind : Value} {anonymous : Option Value} (hk : kind.isKind = true)
    (ha : ∀ v ∈ anonymous, v.isCode = true ∧ v.wellTyped = true) (name : Option String) :
    (plain kind name anonymous).wellTyped = true := by
  rw [wellTyped_iff]
  refine ⟨⟨hk, fun v hv => (ha v hv).1, ?_, ?_, rfl, ?_, ?_, ?_, ?_⟩,
    ⟨fun v hv => (ha v hv).2, rfl, ?_, ?_, ?_, ?_, rfl, ?_, ?_, ?_, ?_, ?_, rfl, ?_, ?_⟩⟩ <;>
  exact nofun

theorem Begins.wellTyped {d : TypeDecl} (h : Begins typed d) (ht : typed) :
    d.wellTyped = true := by
  cases h with
  | plain kind name anonymous _ _ h =>
      exact wellTyped_plain (h ht).1 (h ht).2 name
  | marked kind name m _ =>
      have hw : (TypeDecl.plain (.kind kind) name none).wellTyped = true :=
        wellTyped_plain rfl (by simp) name
      rw [wellTyped_iff] at hw ⊢
      exact ⟨{ hw.1 with }, { hw.2 with }⟩

end KotlinDecl.TypeDecl
