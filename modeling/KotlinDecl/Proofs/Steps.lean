import KotlinDecl.PropertyDecl.Builder
import KotlinDecl.Proofs.Edit
import KotlinDecl.Proofs.Format

namespace KotlinDecl

open Edit

open Relation (ReflGen ReflTransGen)

namespace Value

def annotates (v : Value) : Bool := v.wellTyped && (v.isType || v.isSort .annotationUse)

theorem annotates_asAnnotationUse {v : Value} (h : v.annotates = true) :
    v.asAnnotationUse.isSort .annotationUse = true ∧ v.asAnnotationUse.wellTyped = true := by
  simp only [annotates, Bool.and_eq_true, Bool.or_eq_true] at h
  obtain ⟨hw, hs⟩ := h
  cases v with
  | type t =>
      refine ⟨rfl, ?_⟩
      simpa [asAnnotationUse, wellTyped, Decl.wellTyped, AnnotationUse.wellTyped] using hw
  | decl n d => exact ⟨hs.resolve_left Bool.false_ne_true, hw⟩
  | _ => simp [isType, isSort] at hs

def allItems (p : Value → Bool) : Value → Bool
  | .list items => items.all p
  | _ => false

theorem of_allItems {p : Value → Bool} {v : Value} {items : List Value}
    (h : v.allItems p = true) (hi : v.items = .ok items) : ∀ i ∈ items, p i = true := by
  cases v with
  | list items => cases hi; simpa [allItems] using h
  | _ => cases h

end Value

theorem Edit.follows_items {σ : Type} {R : σ → σ → Prop} {typed : Prop} {vs : Value}
    {p : Value → Bool} {f : Value → Edit σ Unit} (h : typed → vs.allItems p = true)
    (hf : ∀ v, (typed → p v = true) → (f v).Follows R) :
    (do forEach f (← require vs.items)).Follows R :=
  follows_require_bind fun _ hi => follows_forEach fun v hv =>
    hf v fun ht => Value.of_allItems (h ht) hi v hv

theorem Value.eq_parameter_of_isSort {v : Value} (h : v.isSort .parameter = true) :
    ∃ n p, v = .decl n (.parameter p) := by
  cases v with
  | decl n d =>
      cases d with
      | parameter p => exact ⟨n, p, rfl⟩
      | _ => cases h
  | _ => cases h

theorem Value.eq_property_of_isSort {v : Value} (h : v.isSort .property = true) :
    ∃ n p, v = .decl n (.property p) := by
  cases v with
  | decl n d =>
      cases d with
      | property p => exact ⟨n, p, rfl⟩
      | _ => cases h
  | _ => cases h

theorem Value.isName_of_asName {unit : IndentUnit} {place : NamePlace} {v : Value} {s : String}
    (h : v.asName unit place = .ok s) : v = .str s ∧ isName s = true := by
  cases v with
  | str t =>
      simp only [asName] at h
      split at h
      · next ht => cases h; exact ⟨rfl, ht⟩
      · exact absurd h (bind_ne_ok nofun)
  | _ => exact absurd h (bind_ne_ok nofun)

namespace CodeBlock

/-- Code only grows. -/
inductive Step (typed : Prop) (c : CodeBlock) : CodeBlock → Prop
  | append (d : CodeBlock) (h : typed → d.wellTyped = true) : Step typed c (c ++ d)

variable {typed : Prop} {unit : IndentUnit}

theorem empty_append (c : CodeBlock) : empty ++ c = c := by
  cases c
  rfl

theorem append_assoc (c d e : CodeBlock) : c ++ d ++ e = c ++ (d ++ e) := by
  show CodeBlock.mk (c.parts ++ d.parts ++ e.parts) (c.args ++ d.args ++ e.args) =
    CodeBlock.mk (c.parts ++ (d.parts ++ e.parts)) (c.args ++ (d.args ++ e.args))
  rw [List.append_assoc, List.append_assoc]

theorem takes_addPart {p : Part} (hp : Part.matched [p] [] = true) :
    (addPart p).Takes (Step typed) := by
  refine takes_modify fun c => .append _ fun _ => ?_
  simp [wellTyped_iff, hp]

theorem takes_add {format : Value} {args : List Value}
    (h : typed → Format.wellTyped format args = true) :
    (add unit format args).Takes (Step typed) :=
  takes_require_bind fun d hd =>
    takes_modify fun _ => .append d fun ht => wellTyped_ofFormat (h ht) hd

theorem takes_addHead {front : String} {head : Value} {args : List Value}
    (h : typed → Format.wellTyped head args = true) :
    (addHead unit front head args).Takes (Step typed) := by
  cases head with
  | str s =>
      refine takes_add fun ht => ?_
      simpa [Format.wellTyped, Value.isFormat, Value.wellTyped] using h ht
  | _ => exact (refuses_throw _).takes

def Call.wellTyped : Call → Bool
  | add format args | addStatement format args => Format.wellTyped format args
  | beginControlFlow head args | nextControlFlow head args => Format.wellTyped head args
  | endControlFlow | indent | unindent => true

theorem Call.follows (unit : IndentUnit) (call : Call) (h : typed → call.wellTyped = true) :
    (call.apply unit).Follows (Step typed) := by
  cases call with
  | add format args => exact (takes_add h).follows
  | addStatement format args =>
      exact (takes_addPart rfl).follows.bind fun _ => (takes_add h).follows.bind fun _ =>
        (takes_add fun _ => rfl).follows
  | beginControlFlow head args =>
      exact (takes_addHead h).follows.bind fun _ => (takes_addPart rfl).follows
  | nextControlFlow head args =>
      exact (takes_addPart rfl).follows.bind fun _ => (takes_addHead h).follows.bind fun _ =>
        (takes_addPart rfl).follows
  | endControlFlow => exact (takes_addPart rfl).follows.bind fun _ => (takes_addPart rfl).follows
  | indent | unindent => exact (takes_addPart rfl).follows

theorem Step.wellTyped {c d : CodeBlock} (h : Step typed c d) (ht : typed)
    (hc : c.wellTyped = true) : d.wellTyped = true := by
  cases h with
  | append d hd => exact wellTyped_append hc (hd ht)

end CodeBlock

namespace AnnotationUse

inductive Step (typed : Prop) (a : AnnotationUse) : AnnotationUse → Prop
  | member (c : CodeBlock) (h : typed → c.wellTyped = true) :
    Step typed a { a with members := a.members ++ [c] }

def Call.wellTyped : Call → Bool
  | addMember format args => Format.wellTyped format args

theorem Call.takes {typed : Prop} (unit : IndentUnit) (call : Call)
    (h : typed → call.wellTyped = true) : (call.apply unit).Takes (Step typed) := by
  cases call with
  | addMember format args =>
      exact takes_require_bind fun c hc => takes_modify fun _ =>
        .member c fun ht => CodeBlock.wellTyped_ofFormatOrBlock (h ht) hc

theorem Step.wellTyped {typed : Prop} {a b : AnnotationUse} (h : Step typed a b) (ht : typed)
    (ha : a.wellTyped = true) : b.wellTyped = true := by
  rw [wellTyped_iff] at ha ⊢
  cases h with
  | member c hc => exact { ha with members := forall_mem_snoc ha.members (hc ht) }

end AnnotationUse

inductive ModifierSet.Step (s : ModifierSet) : ModifierSet → Prop
  | insert (m : Modifier) : Step s (s.insert m)

theorem ModifierSet.follows_addAll (unit : IndentUnit) (vs : List Value) :
    (ModifierSet.addAll unit vs).Follows ModifierSet.Step :=
  follows_forEach fun _ _ => follows_require_bind fun m _ => follows_modify fun _ => .insert m

namespace Parameter

inductive Step (typed : Prop) (p : Parameter) : Parameter → Prop
  | annotate (v : Value)
    (h : typed → v.isSort .annotationUse = true ∧ v.wellTyped = true) :
    Step typed p { p with annotations := p.annotations ++ [v] }
  | modifier (m : Modifier) (hm : m ∈ allowedModifiers) :
    Step typed p { p with modifiers := p.modifiers.insert m }
  | defaultValue (c : CodeBlock) (h : typed → c.wellTyped = true) :
    Step typed p { p with defaultValue := some c }

variable {typed : Prop} {unit : IndentUnit}

theorem takes_annotate {v : Value} (h : typed → v.annotates = true) :
    (annotate v).Takes (Step typed) :=
  takes_modify fun _ => .annotate _ fun ht => Value.annotates_asAnnotationUse (h ht)

theorem checkModifier_ok {v : Value} {m : Modifier} (h : checkModifier unit v = .ok m) :
    v = .modifier m ∧ m ∈ allowedModifiers := by
  obtain ⟨_, _, h⟩ := ok_of_bind h
  cases v with
  | modifier n =>
      simp only at h
      split at h
      · next hn => cases h; exact ⟨rfl, hn⟩
      · exact absurd h (bind_ne_ok nofun)
  | _ => exact absurd h (bind_ne_ok nofun)

theorem follows_addModifiers (vs : List Value) : (addModifiers unit vs).Follows (Step typed) :=
  follows_forEach fun _ _ => follows_require_bind fun m hm =>
    follows_modify fun _ => .modifier m (checkModifier_ok hm).2

def Call.wellTyped : Call → Bool
  | annotate v => v.annotates
  | addAnnotations vs => vs.allItems Value.annotates
  | addModifiers _ => true
  | defaultValue format args => Format.wellTyped format args

/-- Calls that take all or nothing. -/
def Call.isWhole : Call → Bool
  | addAnnotations _ | addModifiers _ => false
  | _ => true

theorem Call.takes (unit : IndentUnit) {call : Call} (hc : call.isWhole = true)
    (h : typed → call.wellTyped = true) : (call.apply unit).Takes (Step typed) := by
  cases call with
  | annotate v => exact takes_annotate h
  | addAnnotations vs | addModifiers vs => cases hc
  | defaultValue format args =>
      exact takes_require_bind fun c hc => takes_modify fun _ =>
        .defaultValue c fun ht => CodeBlock.wellTyped_ofFormatOrBlock (h ht) hc

theorem Call.follows (unit : IndentUnit) (call : Call) (h : typed → call.wellTyped = true) :
    (call.apply unit).Follows (Step typed) := by
  cases call with
  | addAnnotations vs => exact follows_items h fun v hv => (takes_annotate hv).follows
  | addModifiers vs => exact follows_addModifiers vs
  | _ => exact (Call.takes unit rfl h).follows

theorem Step.wellTyped {p q : Parameter} (h : Step typed p q) (ht : typed)
    (hp : p.wellTyped = true) : q.wellTyped = true := by
  rw [wellTyped_iff] at hp ⊢
  obtain ⟨hs, he⟩ := hp
  cases h with
  | annotate v hv =>
      obtain ⟨hv, hv'⟩ := hv ht
      exact ⟨{ hs with annotations := forall_mem_snoc hs.annotations hv },
        { he with annotations := forall_mem_snoc he.annotations hv' }⟩
  | modifier => exact ⟨{ hs with }, { he with }⟩
  | defaultValue c hc =>
      refine ⟨{ hs with }, { he with defaultValue := ?_ }⟩
      rintro _ ⟨⟩
      exact hc ht

theorem start_ok {name type : Value} {p : Parameter} (h : start unit name type = .ok p) :
    ∃ s, isName s = true ∧ p = plain s type := by
  obtain ⟨s, hs, h⟩ := ok_of_bind h
  cases h
  exact ⟨s, (Value.isName_of_asName hs).2, rfl⟩

theorem steps_of_ofName {name type : Value} {modifiers : List Value} {p : Parameter}
    (h : ofName unit name type modifiers = .ok p) :
    ∃ q, start unit name type = .ok q ∧ ReflTransGen (Step typed) q p := by
  obtain ⟨q, hq, h⟩ := ok_of_bind h
  refine ⟨q, hq, ?_⟩
  split at h
  · next hp =>
      cases h
      exact (follows_addModifiers modifiers).steps_of_ok hp
  · cases h

theorem wellTyped_ofName {name type : Value} {modifiers : List Value} {p : Parameter}
    (ht : type.isType = true) (hw : type.wellTyped = true)
    (h : ofName unit name type modifiers = .ok p) : p.wellTyped = true := by
  obtain ⟨q, hq, hs⟩ := steps_of_ofName h
  refine keeps_of_steps (P := fun p => p.wellTyped = true) hs (fun h => h.wellTyped trivial) ?_
  obtain ⟨s, _, rfl⟩ := start_ok hq
  simp [plain, wellTyped, ht, hw]

end Parameter

namespace FunDecl

inductive Step (typed : Prop) (f : FunDecl) : FunDecl → Prop
  | kdoc (c : CodeBlock) (h : typed → c.wellTyped = true) :
    Step typed f { f with kdoc := f.kdoc ++ c }
  | annotate (v : Value)
    (h : typed → v.isSort .annotationUse = true ∧ v.wellTyped = true) :
    Step typed f { f with annotations := f.annotations ++ [v] }
  | modifier (m : Modifier) : Step typed f { f with modifiers := f.modifiers.insert m }
  | typeVariable (v : Value) (hf : (f.isConstructor || f.isAccessor) = false)
    (h : typed → v.isTypeVariable = true ∧ v.wellTyped = true) :
    Step typed f { f with typeVariables := f.typeVariables ++ [v] }
  | receiver (o : Option Value) (hf : (f.isConstructor || f.isAccessor) = false)
    (h : typed → ∀ v ∈ o, v.isType = true ∧ v.wellTyped = true) :
    Step typed f { f with receiver := o }
  | returns (o : Option Value) (hf : (f.isConstructor || f.isAccessor) = false)
    (h : typed → ∀ v ∈ o, v.isType = true ∧ v.wellTyped = true) :
    Step typed f { f with returns := o }
  | parameter (p : Parameter) (hf : f.checkAccessorParameters = .ok ())
    (h : typed → p.wellTyped = true) :
    Step typed f { f with parameters := f.parameters ++ [p] }
  | delegation (t : Delegation) (hf : f.isConstructor = true) :
    Step typed f { f with delegation := some t }
  | delegationArgs (cs : List CodeBlock) (hf : f.delegation.isSome = true)
    (h : typed → ∀ c ∈ cs, c.wellTyped = true) : Step typed f { f with delegationArgs := cs }
  | body (c : CodeBlock) (h : typed → c.wellTyped = true) :
    Step typed f { f with body := f.body ++ c }

variable {typed : Prop} {unit : IndentUnit}

theorem takes_onKdoc {e : Edit CodeBlock Unit} (h : e.Takes (CodeBlock.Step typed)) :
    (onKdoc e).Takes (Step typed) :=
  h.on (fun f => by cases f; rfl) fun f c _ hs => by
    cases hs with
    | append d hd => exact .kdoc (f := { f with kdoc := c }) d hd

theorem follows_onBody {e : Edit CodeBlock Unit} (h : e.Follows (CodeBlock.Step typed)) :
    (onBody e).Follows (Step typed) :=
  h.on (fun f => by cases f; rfl) fun f c _ hs => by
    cases hs with
    | append d hd => exact .body (f := { f with body := c }) d hd

theorem takes_annotate {v : Value} (h : typed → v.annotates = true) :
    (annotate v).Takes (Step typed) :=
  takes_modify fun _ => .annotate _ fun ht => Value.annotates_asAnnotationUse (h ht)

theorem follows_addModifiers (vs : List Value) : (addModifiers unit vs).Follows (Step typed) :=
  (ModifierSet.follows_addAll unit vs).on (fun f => by cases f; rfl) fun f s _ hs => by
    cases hs with
    | insert m => exact .modifier (f := { f with modifiers := s }) m

theorem wellTyped_asParameter {v type : Value} {modifiers : List Value} {p : Parameter}
    (hw : v.wellTyped = true ∧
      (v.isSort .parameter = true ∨ type.isType = true ∧ type.wellTyped = true))
    (h : asParameter unit v type modifiers = .ok p) : p.wellTyped = true := by
  rcases hw.2 with hs | ht
  · obtain ⟨n, q, rfl⟩ := Value.eq_parameter_of_isSort hs
    cases h
    exact hw.1
  · unfold asParameter at h
    split at h
    · cases h
      exact hw.1
    · exact Parameter.wellTyped_ofName ht.1 ht.2 h

theorem takes_checkOrdinary {what : String} {k : Unit → Edit FunDecl Unit}
    (h : ∀ f : FunDecl, (f.isConstructor || f.isAccessor) = false →
      (k ()).Yields f (· = f) fun _ => ReflGen (Step typed) f) :
    (checkOrdinary what >>= k).Takes (Step typed) := by
  intro f
  refine yields_bind (yields_bind (yields_get ?_))
  refine yields_unless (refuses_throw _) rfl fun hf => ?_
  exact h f (Bool.eq_false_iff.2 hf)

theorem yields_addParameter {v type : Value} {modifiers : List Value} {f : FunDecl}
    {I : FunDecl → Prop} {Q : Unit → FunDecl → Prop} (hi : I f)
    (h : ∀ p, asParameter unit v type modifiers = .ok p → f.checkAccessorParameters = .ok () →
      Q () { f with parameters := f.parameters ++ [p] }) :
    (addParameter unit v type modifiers).Yields f I Q := by
  refine yields_bind (yields_require hi fun p hp => yields_bind (yields_get ?_))
  exact yields_bind (yields_require hi fun _ hc => yields_modify (h p hp hc))

theorem takes_addParameter {v type : Value} {modifiers : List Value}
    (h : typed → v.wellTyped = true ∧
      (v.isSort .parameter = true ∨ type.isType = true ∧ type.wellTyped = true)) :
    (addParameter unit v type modifiers).Takes (Step typed) := fun _ =>
  yields_addParameter rfl fun p hp hc =>
    .single (.parameter p hc fun ht => wellTyped_asParameter (h ht) hp)

def Call.wellTyped : Call → Bool
  | addKdoc format args => Format.wellTyped format args
  | annotate v => v.annotates
  | addAnnotations vs => vs.allItems Value.annotates
  | addModifiers _ => true
  | addTypeVariable v => v.isTypeVariable && v.wellTyped
  | receiver v | returns v => v.toOption.all fun v => v.isType && v.wellTyped
  | addParameter v type _ =>
    v.wellTyped && (v.isSort .parameter || type.isType && type.wellTyped)
  | addParameters vs => vs.allItems fun v => v.isSort .parameter && v.wellTyped
  | delegate _ args => args.all (Format.wellTyped · [])
  | body call => call.wellTyped

def Call.isWhole : Call → Bool
  | addAnnotations _ | addModifiers _ | addParameters _ | delegate .. | body _ => false
  | _ => true

theorem Call.takes (unit : IndentUnit) {call : Call} (hc : call.isWhole = true)
    (h : typed → call.wellTyped = true) : (call.apply unit).Takes (Step typed) := by
  cases call with
  | addKdoc format args => exact takes_onKdoc (CodeBlock.takes_add h)
  | annotate v => exact takes_annotate h
  | addTypeVariable v =>
      refine takes_checkOrdinary fun f hf => yields_modify (.single (.typeVariable v hf ?_))
      intro ht
      simpa [wellTyped] using h ht
  | receiver v =>
      refine takes_checkOrdinary fun f hf => yields_modify (.single (.receiver _ hf ?_))
      intro ht
      simpa [wellTyped, Option.all_eq_true] using h ht
  | returns v =>
      refine takes_checkOrdinary fun f hf => yields_modify (.single (.returns _ hf ?_))
      intro ht
      simpa [wellTyped, Option.all_eq_true] using h ht
  | addParameter v type modifiers =>
      exact takes_addParameter fun ht => by simpa [wellTyped] using h ht
  | _ => cases hc

theorem Call.follows (unit : IndentUnit) (call : Call) (h : typed → call.wellTyped = true) :
    (call.apply unit).Follows (Step typed) := by
  cases call with
  | addAnnotations vs => exact follows_items h fun v hv => (takes_annotate hv).follows
  | addModifiers vs => exact follows_addModifiers vs
  | addParameters vs =>
      refine follows_items h fun v hv => (takes_addParameter fun ht => ?_).follows
      have hv := hv ht
      simp only [Bool.and_eq_true] at hv
      exact ⟨hv.2, .inl hv.1⟩
  | delegate target args =>
      intro f
      refine yields_bind (yields_get (yields_unless ((refuses_throw _).bind _) .refl fun hf => ?_))
      have hf : f.isConstructor = true := by simpa using hf
      -- The target stays even if one of the arguments is refused.
      have hd : Step typed f { f with delegation := some target } := .delegation target hf
      refine yields_bind (yields_modify (yields_bind ?_))
      refine yields_require (.single hd) fun cs hcs => ?_
      refine yields_modify (.tail (.single hd) (.delegationArgs cs rfl fun ht c hc => ?_))
      obtain ⟨v, hv, hvc⟩ := exists_of_mapM_ok hcs c hc
      exact CodeBlock.wellTyped_ofFormatOrBlock (List.all_eq_true.1 (h ht) v hv) hvc
  | body call => exact follows_onBody (call.follows unit h)
  | _ => exact (Call.takes unit rfl h).follows

theorem Step.wellTyped {f g : FunDecl} (h : Step typed f g) (ht : typed) (hf : f.wellTyped = true) :
    g.wellTyped = true := by
  rw [wellTyped_iff] at hf ⊢
  obtain ⟨hs, he⟩ := hf
  cases h with
  | kdoc c hc =>
      exact ⟨{ hs with }, { he with kdoc := CodeBlock.wellTyped_append he.kdoc (hc ht) }⟩
  | annotate v hv =>
      obtain ⟨hv, hv'⟩ := hv ht
      exact ⟨{ hs with annotations := forall_mem_snoc hs.annotations hv },
        { he with annotations := forall_mem_snoc he.annotations hv' }⟩
  | modifier m => exact ⟨{ hs with }, { he with }⟩
  | typeVariable v _ hv =>
      obtain ⟨hv, hv'⟩ := hv ht
      exact ⟨{ hs with typeVariables := forall_mem_snoc hs.typeVariables hv },
        { he with typeVariables := forall_mem_snoc he.typeVariables hv' }⟩
  | receiver o _ ho =>
      exact ⟨{ hs with receiver := fun v hv => (ho ht v hv).1 },
        { he with receiver := fun v hv => (ho ht v hv).2 }⟩
  | returns o _ ho =>
      exact ⟨{ hs with returns := fun v hv => (ho ht v hv).1 },
        { he with returns := fun v hv => (ho ht v hv).2 }⟩
  | parameter p _ hp =>
      exact ⟨{ hs with }, { he with parameters := forall_mem_snoc he.parameters (hp ht) }⟩
  | delegation t => exact ⟨{ hs with }, { he with }⟩
  | delegationArgs cs _ hcs => exact ⟨{ hs with }, { he with delegationArgs := hcs ht }⟩
  | body c hc =>
      exact ⟨{ hs with }, { he with body := CodeBlock.wellTyped_append he.body (hc ht) }⟩

end FunDecl

namespace PropertyDecl

inductive Step (typed : Prop) (p : PropertyDecl) : PropertyDecl → Prop
  | mutable (v : Value) : Step typed p { p with mutable := v }
  | kdoc (c : CodeBlock) (h : typed → c.wellTyped = true) :
    Step typed p { p with kdoc := p.kdoc ++ c }
  | annotate (v : Value)
    (h : typed → v.isSort .annotationUse = true ∧ v.wellTyped = true) :
    Step typed p { p with annotations := p.annotations ++ [v] }
  | modifier (m : Modifier) : Step typed p { p with modifiers := p.modifiers.insert m }
  | initializer (c : CodeBlock) (delegated : Bool) (hp : p.initializer = none)
    (h : typed → c.wellTyped = true) :
    Step typed p { p with initializer := some c, delegated := delegated }
  | getter (v : Value) (hv : v.carriedName = .ok (some FunDecl.getterName))
    (h : typed → v.isSort .function = true ∧ v.wellTyped = true) :
    Step typed p { p with getter := some v }
  | setter (v : Value) (hv : v.carriedName = .ok (some FunDecl.setterName))
    (hp : p.mutable.isTrue = true) (h : typed → v.isSort .function = true ∧ v.wellTyped = true) :
    Step typed p { p with setter := some v }

variable {typed : Prop} {unit : IndentUnit}

theorem takes_onKdoc {e : Edit CodeBlock Unit} (h : e.Takes (CodeBlock.Step typed)) :
    (onKdoc e).Takes (Step typed) :=
  h.on (fun p => by cases p; rfl) fun p c _ hs => by
    cases hs with
    | append d hd => exact .kdoc (p := { p with kdoc := c }) d hd

theorem takes_annotate {v : Value} (h : typed → v.annotates = true) :
    (annotate v).Takes (Step typed) :=
  takes_modify fun _ => .annotate _ fun ht => Value.annotates_asAnnotationUse (h ht)

theorem follows_addModifiers (vs : List Value) : (addModifiers unit vs).Follows (Step typed) :=
  (ModifierSet.follows_addAll unit vs).on (fun p => by cases p; rfl) fun p s _ hs => by
    cases hs with
    | insert m => exact .modifier (p := { p with modifiers := s }) m

theorem takes_setInitializer {format : Value} {args : List Value} (delegated : Bool)
    (h : typed → Format.wellTyped format args = true) :
    (setInitializer unit delegated format args).Takes (Step typed) := by
  intro p
  refine yields_bind (yields_get (yields_unless ((refuses_throw _).bind _) rfl fun hp => ?_))
  have hn : p.initializer = none := by simpa using hp
  refine yields_bind (yields_require rfl fun c hc => yields_modify (.single ?_))
  exact .initializer c delegated hn fun ht => CodeBlock.wellTyped_ofFormatOrBlock (h ht) hc

theorem carriedName_of_checkAccessor {name : String} {violation : String → Violation} {v : Value}
    {a : Unit} (h : checkAccessor name violation v = .ok a) : v.carriedName = .ok (some name) := by
  obtain ⟨carried, hc, h⟩ := ok_of_bind h
  split at h
  · cases h
  · next hn => rw [hc, Decidable.not_not.1 hn]

def Call.wellTyped : Call → Bool
  | mutable _ => true
  | addKdoc format args => Format.wellTyped format args
  | annotate v => v.annotates
  | addAnnotations vs => vs.allItems Value.annotates
  | addModifiers _ => true
  | initializer format args | delegate format args => Format.wellTyped format args
  | getter v | setter v => v.isSort .function && v.wellTyped

def Call.isWhole : Call → Bool
  | addAnnotations _ | addModifiers _ => false
  | _ => true

theorem Call.takes (unit : IndentUnit) {call : Call} (hc : call.isWhole = true)
    (h : typed → call.wellTyped = true) : (call.apply unit).Takes (Step typed) := by
  cases call with
  | mutable v => exact takes_modify fun _ => .mutable v
  | addKdoc format args => exact takes_onKdoc (CodeBlock.takes_add h)
  | annotate v => exact takes_annotate h
  | addAnnotations vs | addModifiers vs => cases hc
  | initializer format args => exact takes_setInitializer false h
  | delegate format args => exact takes_setInitializer true h
  | getter v =>
      exact takes_require_bind fun _ hc => takes_modify fun _ =>
        .getter v (carriedName_of_checkAccessor hc) fun ht => by simpa [wellTyped] using h ht
  | setter v =>
      refine takes_require_bind fun _ hc p => ?_
      refine yields_bind (yields_get (yields_unless ((refuses_throw _).bind _) rfl fun hp => ?_))
      exact yields_modify (.single (.setter v (carriedName_of_checkAccessor hc) (by simpa using hp)
        fun ht => by simpa [wellTyped] using h ht))

theorem Call.follows (unit : IndentUnit) (call : Call) (h : typed → call.wellTyped = true) :
    (call.apply unit).Follows (Step typed) := by
  cases call with
  | addAnnotations vs => exact follows_items h fun v hv => (takes_annotate hv).follows
  | addModifiers vs => exact follows_addModifiers vs
  | _ => exact (Call.takes unit rfl h).follows

theorem Step.wellTyped {p q : PropertyDecl} (h : Step typed p q) (ht : typed)
    (hp : p.wellTyped = true) : q.wellTyped = true := by
  rw [wellTyped_iff] at hp ⊢
  obtain ⟨hs, he⟩ := hp
  cases h with
  | mutable v => exact ⟨{ hs with }, { he with }⟩
  | kdoc c hc =>
      exact ⟨{ hs with }, { he with kdoc := CodeBlock.wellTyped_append he.kdoc (hc ht) }⟩
  | annotate v hv =>
      obtain ⟨hv, hv'⟩ := hv ht
      exact ⟨{ hs with annotations := forall_mem_snoc hs.annotations hv },
        { he with annotations := forall_mem_snoc he.annotations hv' }⟩
  | modifier m => exact ⟨{ hs with }, { he with }⟩
  | initializer c _ _ hc =>
      refine ⟨{ hs with }, { he with initializer := ?_ }⟩
      rintro _ ⟨⟩
      exact hc ht
  | getter v _ hv =>
      refine ⟨{ hs with getter := ?_ }, { he with getter := ?_ }⟩ <;> rintro _ ⟨⟩
      · exact (hv ht).1
      · exact (hv ht).2
  | setter v _ _ hv =>
      refine ⟨{ hs with setter := ?_ }, { he with setter := ?_ }⟩ <;> rintro _ ⟨⟩
      · exact (hv ht).1
      · exact (hv ht).2

theorem start_ok {name type : Value} {p : PropertyDecl} (h : start unit name type = .ok p) :
    ∃ s, isName s = true ∧ p = plain s type := by
  obtain ⟨s, hs, h⟩ := ok_of_bind h
  cases h
  exact ⟨s, (Value.isName_of_asName hs).2, rfl⟩

theorem steps_of_ofName {name type : Value} {modifiers : List Value} {p : PropertyDecl}
    (h : ofName unit name type modifiers = .ok p) :
    ∃ q, start unit name type = .ok q ∧ ReflTransGen (Step typed) q p := by
  obtain ⟨q, hq, h⟩ := ok_of_bind h
  refine ⟨q, hq, ?_⟩
  split at h
  · next hp =>
      cases h
      exact (follows_addModifiers modifiers).steps_of_ok hp
  · cases h

theorem wellTyped_plain (s : String) {type : Value} (ht : type.isType = true)
    (hw : type.wellTyped = true) : (plain s type).wellTyped = true := by
  simp [plain, wellTyped, ht, hw, CodeBlock.wellTyped_iff, CodeBlock.empty, Part.matched]

theorem wellTyped_ofName {name type : Value} {modifiers : List Value} {p : PropertyDecl}
    (ht : type.isType = true) (hw : type.wellTyped = true)
    (h : ofName unit name type modifiers = .ok p) : p.wellTyped = true := by
  obtain ⟨q, hq, hs⟩ := steps_of_ofName h
  refine keeps_of_steps (P := fun p => p.wellTyped = true) hs (fun h => h.wellTyped trivial) ?_
  obtain ⟨s, _, rfl⟩ := start_ok hq
  exact wellTyped_plain s ht hw

end PropertyDecl

end KotlinDecl
