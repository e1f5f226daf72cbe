import KotlinDecl.Draft
import KotlinDecl.Proofs.TypeDecl.Steps

namespace KotlinDecl

open Edit

open Relation (ReflTransGen)

namespace ModifierSet

theorem nodup_insert {s : ModifierSet} (h : s.toList.Nodup) (m : Modifier) :
    (s.insert m).toList.Nodup := by
  unfold insert
  split
  · exact h
  · next hm =>
      refine List.nodup_append.2 ⟨h, by simp, ?_⟩
      rintro a ha _ hb rfl
      rw [List.mem_singleton] at hb
      exact hm (List.contains_iff_mem.2 (hb ▸ ha))

theorem insertMany_of_nodup {s : ModifierSet} {ms : List Modifier} (h : (s.toList ++ ms).Nodup) :
    s.insertMany ms = ⟨s.toList ++ ms⟩ := by
  induction ms generalizing s with
  | nil => rw [List.append_nil]; rfl
  | cons m ms ih =>
      have hm : m ∉ s.toList := fun hm => (List.nodup_append.1 h).2.2 m hm m List.mem_cons_self rfl
      have hi : s.insert m = ⟨s.toList ++ [m]⟩ := if_neg fun hc => hm (List.contains_iff_mem.1 hc)
      have hr := ih (s := s.insert m) (by simpa [hi] using h)
      rw [insertMany, List.foldl_cons]
      rw [insertMany] at hr
      rw [hr, hi, List.append_assoc]
      rfl

theorem insertMany_toList {s : ModifierSet} (h : s.toList.Nodup) :
    ModifierSet.empty.insertMany s.toList = s :=
  insertMany_of_nodup (s := .empty) h

end ModifierSet

/-- What a copy relies on: the name can be declared again, and neither modifiers nor
superinterfaces are repeated. -/
structure TypeDecl.Regular (unit : IndentUnit) (d : TypeDecl) : Prop where
  name : ∀ s ∈ d.name, isName s = true
  anonymous : d.name.isSome = true → d.anonymous = none
  modifiers : d.modifiers.toList.Nodup
  superinterfaces : Key.Distinct (superinterfaceKeys unit d.superinterfaces)

namespace TypeDecl.Regular

variable {unit : IndentUnit} {typed : Prop}

theorem ofBegins {d : TypeDecl} (h : d.Begins typed) : d.Regular unit := by
  cases h with
  | plain kind name anonymous hn ha _ => exact ⟨hn, ha, List.nodup_nil, Key.distinct_nil⟩
  | marked kind name m hn =>
      exact ⟨hn, fun _ => rfl, ModifierSet.nodup_insert List.nodup_nil m, Key.distinct_nil⟩

theorem step {d e : TypeDecl} (h : d.Step unit typed e) (hd : d.Regular unit) :
    e.Regular unit := by
  cases h with
  | modifier m _ => exact { hd with modifiers := ModifierSet.nodup_insert hd.modifiers m }
  | superinterface v hi _ =>
      refine { hd with superinterfaces := ?_ }
      rw [superinterfaceKeys, List.map_append]
      exact hd.superinterfaces.snoc hi
  | delegate t c ss _ _ _ _ hs _ =>
      exact { hd with superinterfaces := distinct_putSuperinterface hd.superinterfaces hs }
  | _ => exact { hd with }

theorem toBuilder {d : TypeDecl} (h : d.Regular unit) : d.toBuilder unit = .ok d := by
  have hfold := foldlM_putSuperinterface h.superinterfaces
  have hmodifiers := ModifierSet.insertMany_toList h.modifiers
  obtain ⟨hname, hanonymous, _, _⟩ := h
  cases d with
  | mk kind name anonymous =>
      simp only at hname hanonymous hfold hmodifiers
      cases name with
      | none =>
          simp [TypeDecl.toBuilder, start, plain, hfold, hmodifiers, CodeBlock.empty_append, bind,
            Except.bind]
          rfl
      | some n =>
          simp [TypeDecl.toBuilder, start, plain, hfold, hmodifiers, CodeBlock.empty_append, bind,
            Except.bind, hname n rfl, hanonymous rfl]
          rfl

end TypeDecl.Regular

theorem TypeDecl.build_ok {unit : IndentUnit} {d e : TypeDecl} (h : d.build unit = .ok e) :
    e = d ∧ d.checkIdentity = .ok () ∧ d.checkAbstract = .ok () ∧ d.checkConstructors = .ok () ∧
      d.checkExpected unit = .ok () ∧ d.checkAnnotationClass unit = .ok () := by
  obtain ⟨_, hidentity, h⟩ := ok_of_bind h
  obtain ⟨_, habstract, h⟩ := ok_of_bind h
  obtain ⟨_, hconstructors, h⟩ := ok_of_bind h
  obtain ⟨_, hexpected, h⟩ := ok_of_bind h
  obtain ⟨_, hannotation, h⟩ := ok_of_bind h
  obtain ⟨_, _, h⟩ := ok_of_bind h
  cases h
  exact ⟨rfl, hidentity, habstract, hconstructors, hexpected, hannotation⟩

namespace Draft

/-- How a builder is started. Constructors and accessors are told by the names of functions, and a
property is made mutable by a call. -/
inductive Start
  | code
  | annotationUse (type : Value)
  | parameter (name type : Value) (modifiers : List Value)
  | function (name : Value)
  | property (name type : Value) (modifiers : List Value)
  | typeDecl (kind name : Value) (arguments : Option Value)
  | named (kind : Kind) (name : Value)
  | expected (name : Value)
  | companion (name : Value)
  | anonymous (format : Value) (args : List Value)

def Start.draft (unit : IndentUnit) : Start → Except Error Draft
  | code => .ok (.code .empty)
  | annotationUse type => return .annotationUse (← AnnotationUse.start unit type)
  | parameter name type modifiers => return .parameter (← Parameter.ofName unit name type modifiers)
  | function name => return .function (← FunDecl.start unit name)
  | property name type modifiers => do
    return .property (← PropertyDecl.ofName unit name type modifiers)
  | typeDecl kind name arguments => return .typeDecl (← TypeDecl.start unit kind name arguments)
  | named kind name => return .typeDecl (← TypeDecl.startNamed unit kind name)
  | expected name => return .typeDecl (← TypeDecl.startExpected unit name)
  | companion name => return .typeDecl (← TypeDecl.startCompanion unit name)
  | anonymous format args => return .typeDecl (← TypeDecl.startAnonymous unit format args)

inductive Call
  | code (c : CodeBlock.Call)
  | annotationUse (c : AnnotationUse.Call)
  | parameter (c : Parameter.Call)
  | function (c : FunDecl.Call)
  | property (c : PropertyDecl.Call)
  | typeDecl (c : TypeDecl.Call)

def Call.after (unit : IndentUnit) : Call → Draft → Draft
  | code c, .code d => .code ((c.apply unit).outcome d).1
  | annotationUse c, .annotationUse d => .annotationUse ((c.apply unit).outcome d).1
  | parameter c, .parameter d => .parameter ((c.apply unit).outcome d).1
  | function c, .function d => .function ((c.apply unit).outcome d).1
  | property c, .property d => .property ((c.apply unit).outcome d).1
  | typeDecl c, .typeDecl d => .typeDecl ((c.apply unit).outcome d).1
  | _, d => d

inductive Move
  | start (x : Start)
  | call (c : Call)
  | copy (changes : List Value)

/-- The drafts that are reached by moves that `ok` allows. -/
inductive Reached (unit : IndentUnit) (ok : Move → Prop) : Draft → Prop
  | start {x : Start} {s : Draft} (hx : ok (.start x)) (hs : x.draft unit = .ok s) :
    Reached unit ok s
  | call {c : Call} {s : Draft} (hc : ok (.call c)) (hs : Reached unit ok s) :
    Reached unit ok (c.after unit s)
  | copy {changes : List Value} {s t : Draft} {n : Option Nat} {v : Value} (hc : ok (.copy changes))
    (hs : Reached unit ok s) (hv : s.build unit n = .ok v) (ht : ofCopy unit v changes = .ok t) :
    Reached unit ok t

theorem Reached.calls {unit : IndentUnit} {ok : Move → Prop} {s : Draft} (hs : Reached unit ok s)
    (cs : List Call) (hc : ∀ c ∈ cs, ok (.call c)) :
    Reached unit ok (cs.foldl (fun s c => c.after unit s) s) := by
  induction cs generalizing s with
  | nil => exact hs
  | cons c cs ih =>
      obtain ⟨hc, hcs⟩ := List.forall_mem_cons.1 hc
      exact ih (.call hc hs) hcs

def Start.wellTyped : Start → Bool
  | code | function _ | named .. | expected _ | companion _ => true
  | annotationUse type => type.wellTyped
  | parameter _ type _ | property _ type _ => type.isType && type.wellTyped
  | typeDecl kind _ arguments => kind.isKind && arguments.all fun v => v.isCode && v.wellTyped
  | anonymous format args => Format.wellTyped format args

def Call.wellTyped : Call → Bool
  | code c => c.wellTyped
  | annotationUse c => c.wellTyped
  | parameter c => c.wellTyped
  | function c => c.wellTyped
  | property c => c.wellTyped
  | typeDecl c => c.wellTyped

def Move.wellTyped : Move → Bool
  | start x => x.wellTyped
  | call c => c.wellTyped
  | copy [_, type] => !type.isTrue || type.isType && type.wellTyped
  | copy _ => true

/-- A draft as a builder begins with it; a parameter may begin as a copy of another one. -/
def Begins (typed : Prop) : Draft → Prop
  | .code c => c = .empty
  | .annotationUse a => typed → a.wellTyped = true
  | .parameter p =>
    isName p.name = true ∧ p.modifiers.toList.Nodup ∧ (typed → p.wellTyped = true)
  | .function f => ∃ s, isName s = true ∧ f = .plain s
  | .property p => ∃ s t, isName s = true ∧ p = .plain s t ∧
    (typed → t.isType = true ∧ t.wellTyped = true)
  | .typeDecl d => d.Begins typed

inductive Step (unit : IndentUnit) (typed : Prop) : Draft → Draft → Prop
  | code {c d : CodeBlock} (h : c.Step typed d) : Step unit typed (.code c) (.code d)
  | annotationUse {a b : AnnotationUse} (h : a.Step typed b) :
    Step unit typed (.annotationUse a) (.annotationUse b)
  | parameter {p q : Parameter} (h : p.Step typed q) : Step unit typed (.parameter p) (.parameter q)
  | function {f g : FunDecl} (h : f.Step typed g) : Step unit typed (.function f) (.function g)
  | property {p q : PropertyDecl} (h : p.Step typed q) : Step unit typed (.property p) (.property q)
  | typeDecl {d e : TypeDecl} (h : d.Step unit typed e) :
    Step unit typed (.typeDecl d) (.typeDecl e)

variable {unit : IndentUnit} {typed : Prop}

def Traced (unit : IndentUnit) (typed : Prop) (s : Draft) : Prop :=
  ∃ r, r.Begins typed ∧ ReflTransGen (Step unit typed) r s

theorem exists_of_steps {τ : Type} {R : τ → τ → Prop} {k : τ → Draft}
    (hk : ∀ s t, Step unit typed s (k t) → ∃ r, s = k r ∧ R r t) {r : Draft} {t : τ}
    (h : ReflTransGen (Step unit typed) r (k t)) : ∃ s, r = k s ∧ ReflTransGen R s t := by
  generalize ht : k t = u at h
  induction h generalizing t with
  | refl => exact ⟨t, ht.symm, .refl⟩
  | tail _ hstep ih =>
      subst ht
      obtain ⟨b, hb, hr⟩ := hk _ t hstep
      obtain ⟨s, hs, hsteps⟩ := ih hb.symm
      exact ⟨s, hs, hsteps.tail hr⟩

theorem Traced.typeDecl {d : TypeDecl} (h : (Draft.typeDecl d).Traced unit typed) :
    ∃ c : TypeDecl, c.Begins typed ∧ ReflTransGen (TypeDecl.Step unit typed) c d := by
  obtain ⟨r, hr, hs⟩ := h
  obtain ⟨c, rfl, hcs⟩ := exists_of_steps (fun s e (hstep : Step unit typed s (.typeDecl e)) => by
    cases hstep with
    | typeDecl h => exact ⟨_, rfl, h⟩) hs
  exact ⟨c, hr, hcs⟩

theorem Traced.function {f : FunDecl} (h : (Draft.function f).Traced unit typed) :
    ∃ s, isName s = true ∧ ReflTransGen (FunDecl.Step typed) (.plain s) f := by
  obtain ⟨r, hr, hs⟩ := h
  obtain ⟨g, rfl, hgs⟩ := exists_of_steps (fun s e (hstep : Step unit typed s (.function e)) => by
    cases hstep with
    | function h => exact ⟨_, rfl, h⟩) hs
  obtain ⟨s, hname, rfl⟩ := hr
  exact ⟨s, hname, hgs⟩

theorem Call.steps (c : Call) (h : typed → c.wellTyped = true) (s : Draft) :
    ReflTransGen (Step unit typed) s (c.after unit s) := by
  cases c with
  | code c =>
      cases s with
      | code d => exact ((c.follows unit h).outcome d).lift _ fun _ _ => .code
      | _ => exact .refl
  | annotationUse c =>
      cases s with
      | annotationUse d =>
          exact ((c.takes unit h).follows.outcome d).lift _ fun _ _ => .annotationUse
      | _ => exact .refl
  | parameter c =>
      cases s with
      | parameter d => exact ((c.follows unit h).outcome d).lift _ fun _ _ => .parameter
      | _ => exact .refl
  | function c =>
      cases s with
      | function d => exact ((c.follows unit h).outcome d).lift _ fun _ _ => .function
      | _ => exact .refl
  | property c =>
      cases s with
      | property d => exact ((c.follows unit h).outcome d).lift _ fun _ _ => .property
      | _ => exact .refl
  | typeDecl c =>
      cases s with
      | typeDecl d => exact ((c.follows unit h).outcome d).lift _ fun _ _ => .typeDecl
      | _ => exact .refl

def Regular (unit : IndentUnit) : Draft → Prop
  | .code _ | .annotationUse _ => True
  | .parameter p => isName p.name = true ∧ p.modifiers.toList.Nodup
  | .function f => isName f.name = true ∧ f.modifiers.toList.Nodup
  | .property p => isName p.name = true ∧ p.modifiers.toList.Nodup
  | .typeDecl d => d.Regular unit

theorem Begins.regular {s : Draft} (h : s.Begins typed) : s.Regular unit := by
  cases s with
  | code c => trivial
  | annotationUse a => trivial
  | parameter p => exact ⟨h.1, h.2.1⟩
  | function f =>
      obtain ⟨n, hn, rfl⟩ := h
      exact ⟨hn, List.nodup_nil⟩
  | property p =>
      obtain ⟨n, t, hn, rfl, _⟩ := h
      exact ⟨hn, List.nodup_nil⟩
  | typeDecl d => exact TypeDecl.Regular.ofBegins h

theorem Step.regular {s t : Draft} (h : Step unit typed s t) (hs : s.Regular unit) :
    t.Regular unit := by
  cases h with
  | code h => trivial
  | annotationUse h => trivial
  | parameter h =>
      cases h with
      | modifier m _ => exact ⟨hs.1, ModifierSet.nodup_insert hs.2 m⟩
      | _ => exact hs
  | function h =>
      cases h with
      | modifier m => exact ⟨hs.1, ModifierSet.nodup_insert hs.2 m⟩
      | _ => exact hs
  | property h =>
      cases h with
      | modifier m => exact ⟨hs.1, ModifierSet.nodup_insert hs.2 m⟩
      | _ => exact hs
  | typeDecl h => exact TypeDecl.Regular.step h hs

theorem Traced.regular {s : Draft} (h : s.Traced unit typed) : s.Regular unit := by
  obtain ⟨r, hr, hs⟩ := h
  exact keeps_of_steps hs Step.regular hr.regular

theorem asName_str {s : String} (h : isName s = true) (place : NamePlace) :
    (Value.str s).asName unit place = .ok s := by
  simp [Value.asName, h]
  rfl

theorem ofCopy_of_build {s : Draft} (h : s.Regular unit) {n : Option Nat} {v : Value}
    (hv : s.build unit n = .ok v) : ofCopy unit v [] = .ok s := by
  cases s with
  | code c =>
      cases hv
      exact congrArg (Except.ok ∘ Draft.code) c.empty_append
  | annotationUse a =>
      cases hv
      cases a
      rfl
  | parameter p =>
      cases hv
      have hm := ModifierSet.insertMany_toList h.2
      cases p with
      | mk name type =>
          simp [ofCopy, Parameter.toBuilder, Parameter.start, Value.isTrue, asName_str h.1,
            Parameter.plain, hm, bind, Except.bind, pure, Except.pure]
  | function f =>
      cases hv
      have hm := ModifierSet.insertMany_toList h.2
      cases f with
      | mk name =>
          simp [ofCopy, FunDecl.toBuilder, FunDecl.start, asName_str h.1, FunDecl.plain, hm,
            CodeBlock.empty_append, bind, Except.bind, pure, Except.pure]
  | property p =>
      cases hv
      have hm := ModifierSet.insertMany_toList h.2
      cases p with
      | mk name =>
          simp [ofCopy, PropertyDecl.toBuilder, PropertyDecl.start, asName_str h.1,
            PropertyDecl.plain, hm, CodeBlock.empty_append, bind, Except.bind, pure, Except.pure]
  | typeDecl d =>
      obtain ⟨e, he, hv⟩ := ok_of_bind hv
      cases hv
      rw [(TypeDecl.build_ok he).1]
      simp [ofCopy, h.toBuilder, bind, Except.bind, pure, Except.pure]

def wellTyped : Draft → Bool
  | .code c => c.wellTyped
  | .annotationUse a => a.wellTyped
  | .parameter p => p.wellTyped
  | .function f => f.wellTyped
  | .property p => p.wellTyped
  | .typeDecl d => d.wellTyped

theorem Begins.traced {s : Draft} (h : s.Begins typed) : s.Traced unit typed := ⟨s, h, .refl⟩

theorem Begins.wellTyped {s : Draft} (h : s.Begins typed) (ht : typed) : s.wellTyped = true := by
  cases s with
  | code c =>
      cases h
      rfl
  | annotationUse a => exact h ht
  | parameter p => exact h.2.2 ht
  | function f =>
      obtain ⟨n, _, rfl⟩ := h
      rfl
  | property p =>
      obtain ⟨n, t, _, rfl, h⟩ := h
      exact PropertyDecl.wellTyped_plain n (h ht).1 (h ht).2
  | typeDecl d => exact TypeDecl.Begins.wellTyped h ht

theorem Step.wellTyped {s t : Draft} (h : Step unit typed s t) (ht : typed)
    (hs : s.wellTyped = true) : t.wellTyped = true := by
  cases h with
  | code h => exact h.wellTyped ht hs
  | annotationUse h => exact h.wellTyped ht hs
  | parameter h => exact h.wellTyped ht hs
  | function h => exact h.wellTyped ht hs
  | property h => exact h.wellTyped ht hs
  | typeDecl h => exact h.wellTyped ht hs

theorem Traced.wellTyped {s : Draft} (h : s.Traced unit typed) (ht : typed) :
    s.wellTyped = true := by
  obtain ⟨r, hr, hs⟩ := h
  exact keeps_of_steps (P := fun s => s.wellTyped = true) hs (fun h => h.wellTyped ht)
    (hr.wellTyped ht)

theorem Start.traced {x : Start} {s : Draft} (h : typed → x.wellTyped = true)
    (hs : x.draft unit = .ok s) : s.Traced unit typed := by
  cases x with
  | code =>
      cases hs
      exact Begins.traced rfl
  | annotationUse type =>
      obtain ⟨a, ha, hs⟩ := ok_of_bind hs
      cases hs
      refine Begins.traced fun ht => ?_
      cases type with
      | type t =>
          cases ha
          simpa [AnnotationUse.wellTyped, wellTyped, Value.wellTyped] using h ht
      | _ =>
          obtain ⟨_, _, ha⟩ := ok_of_bind ha
          cases ha
  | parameter name type modifiers =>
      obtain ⟨p, hp, hs⟩ := ok_of_bind hs
      cases hs
      obtain ⟨q, hq, hs⟩ := Parameter.steps_of_ofName hp
      refine ⟨.parameter q, ?_, hs.lift _ fun _ _ => .parameter⟩
      obtain ⟨n, hn, rfl⟩ := Parameter.start_ok hq
      refine ⟨hn, List.nodup_nil, fun ht => ?_⟩
      simpa [Parameter.plain, Parameter.wellTyped, wellTyped] using h ht
  | function name =>
      obtain ⟨f, hf, hs⟩ := ok_of_bind hs
      cases hs
      obtain ⟨n, hn, hf⟩ := ok_of_bind hf
      cases hf
      exact Begins.traced ⟨n, (Value.isName_of_asName hn).2, rfl⟩
  | property name type modifiers =>
      obtain ⟨p, hp, hs⟩ := ok_of_bind hs
      cases hs
      obtain ⟨q, hq, hs⟩ := PropertyDecl.steps_of_ofName hp
      refine ⟨.property q, ?_, hs.lift _ fun _ _ => .property⟩
      obtain ⟨n, hn, rfl⟩ := PropertyDecl.start_ok hq
      exact ⟨n, type, hn, rfl, fun ht => by simpa [wellTyped] using h ht⟩
  | typeDecl kind name arguments =>
      obtain ⟨d, hd, hs⟩ := ok_of_bind hs
      cases hs
      obtain ⟨o, ho, ha, rfl⟩ := TypeDecl.start_ok hd
      refine Begins.traced (TypeDecl.Begins.plain kind o arguments ho ha fun ht => ?_)
      simpa [wellTyped, Option.all_eq_true] using h ht
  | named kind name =>
      obtain ⟨d, hd, hs⟩ := ok_of_bind hs
      cases hs
      obtain ⟨o, ho, ha, rfl⟩ := TypeDecl.start_ok hd
      exact Begins.traced (TypeDecl.Begins.plain (.kind kind) o none ho ha fun _ => ⟨rfl, by simp⟩)
  | expected name =>
      obtain ⟨d, hd, hs⟩ := ok_of_bind hs
      cases hs
      obtain ⟨e, he, hd⟩ := ok_of_bind hd
      cases hd
      obtain ⟨o, ho, _, rfl⟩ := TypeDecl.start_ok he
      exact Begins.traced (TypeDecl.Begins.marked .classKind o .expect ho)
  | companion name =>
      obtain ⟨d, hd, hs⟩ := ok_of_bind hs
      cases hs
      obtain ⟨e, he, hd⟩ := ok_of_bind hd
      cases hd
      obtain ⟨o, ho, _, rfl⟩ := TypeDecl.start_ok he
      exact Begins.traced (TypeDecl.Begins.marked .objectKind o .companion ho)
  | anonymous format args =>
      obtain ⟨d, hd, hs⟩ := ok_of_bind hs
      cases hs
      obtain ⟨c, hc, hd⟩ := ok_of_bind hd
      obtain ⟨o, ho, ha, rfl⟩ := TypeDecl.start_ok hd
      refine Begins.traced (TypeDecl.Begins.plain _ o _ ho ha fun ht => ⟨rfl, ?_⟩)
      rintro _ ⟨⟩
      exact ⟨rfl, CodeBlock.wellTyped_ofFormat (h ht) hc⟩

theorem begins_toBuilder {p q : Parameter} {name type : Value} (hp : p.modifiers.toList.Nodup)
    (hw : typed → p.wellTyped = true)
    (ht : typed → (!type.isTrue || type.isType && type.wellTyped) = true)
    (h : p.toBuilder unit name type = .ok q) : (Draft.parameter q).Begins typed := by
  obtain ⟨b, hb, h⟩ := ok_of_bind h
  cases h
  obtain ⟨n, hn, rfl⟩ := Parameter.start_ok hb
  refine ⟨hn, ?_, fun htyped => ?_⟩
  · exact (ModifierSet.insertMany_toList hp).symm ▸ hp
  · have hw := hw htyped
    have ht := ht htyped
    rw [Parameter.wellTyped_iff] at hw ⊢
    obtain ⟨hs, he⟩ := hw
    split
    · next hc =>
        simp only [hc, Bool.not_true, Bool.false_or, Bool.and_eq_true] at ht
        exact ⟨{ hs with type := ht.1 }, { he with type := ht.2 }⟩
    · exact ⟨{ hs with }, { he with }⟩

theorem traced_copy {s t : Draft} {n : Option Nat} {v : Value} {changes : List Value}
    (h : typed → (Move.copy changes).wellTyped = true) (hs : s.Traced unit typed)
    (hv : s.build unit n = .ok v) (ht : ofCopy unit v changes = .ok t) : t.Traced unit typed := by
  cases changes with
  | nil =>
      rw [ofCopy_of_build hs.regular hv] at ht
      cases ht
      exact hs
  | cons name rest =>
      -- Only a parameter can be copied with changes.
      cases s with
      | parameter p =>
          cases hv
          have hp : (Draft.parameter p).Regular unit := hs.regular
          cases rest with
          | nil =>
              obtain ⟨q, hq, ht⟩ := ok_of_bind ht
              cases ht
              exact (begins_toBuilder hp.2 hs.wellTyped (fun _ => rfl) hq).traced
          | cons type rest =>
              cases rest with
              | nil =>
                  obtain ⟨q, hq, ht⟩ := ok_of_bind ht
                  cases ht
                  exact (begins_toBuilder hp.2 hs.wellTyped h hq).traced
              | cons _ _ => cases ht
      | typeDecl d =>
          obtain ⟨e, _, hv⟩ := ok_of_bind hv
          cases hv
          cases ht
      | _ =>
          cases hv
          cases ht

/-- Whatever is reached has begun as some builder begins and has taken steps since. -/
theorem Reached.traced {ok : Move → Prop} {s : Draft}
    (h : typed → ∀ m, ok m → m.wellTyped = true) (hs : Reached unit ok s) :
    s.Traced unit typed := by
  induction hs with
  | start hx hs => exact Start.traced (fun ht => h ht _ hx) hs
  | call hc _ ih =>
      obtain ⟨r, hr, ih⟩ := ih
      exact ⟨r, hr, ih.trans (Call.steps _ (fun ht => h ht _ hc) _)⟩
  | copy hc _ hv ht ih => exact traced_copy (fun ht => h ht _ hc) ih hv ht

end Draft

end KotlinDecl
