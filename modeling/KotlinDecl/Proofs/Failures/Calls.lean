import KotlinDecl.Proofs.Failures.Values
import KotlinDecl.Proofs.TypeDecl.Steps

namespace KotlinDecl

def Error.isViolation : Error → Bool
  | .configuration .. => true
  | _ => false

def Error.BreaksNoRule (e : Error) : Prop := e.isViolation = false

theorem covers_breaksNoRule : Covers Error.BreaksNoRule := ⟨fun _ _ => rfl, rfl, rfl, rfl⟩

namespace Edit

variable {σ τ α β : Type} {P : Error → Prop}

def FailsIn (P : Error → Prop) (e : Edit σ α) : Prop := ∀ s x t, e s = .error x t → P x

theorem failsIn_require {r : Except Error α} (h : KotlinDecl.FailsIn P r) :
    (require r : Edit σ α).FailsIn P := by
  intro s x t he
  cases r with
  | ok a => cases he
  | error y =>
      cases he
      exact h

theorem failsIn_modify (f : σ → σ) : (modify f : Edit σ PUnit).FailsIn P := by
  intro s x t he
  cases he

theorem FailsIn.bind {e : Edit σ α} {k : α → Edit σ β} (h : e.FailsIn P)
    (hk : ∀ a, (k a).FailsIn P) : (e >>= k).FailsIn P := by
  intro s x t he
  cases hs : e s with
  | ok a u =>
      rw [bind_of_ok hs] at he
      exact hk a u x t he
  | error y u =>
      rw [bind_of_error hs] at he
      cases he
      exact h s x t hs

theorem FailsIn.forEach {f : β → Edit σ Unit} (h : ∀ b, (f b).FailsIn P) (bs : List β) :
    (forEach f bs).FailsIn P := by
  intro s x t he
  obtain ⟨_, b, _, u, _, _, hb⟩ := exists_of_forEach_error he
  exact h b u x t hb

theorem FailsIn.on {e : Edit τ Unit} (h : e.FailsIn P) (get : σ → τ) (set : τ → σ → σ) :
    (on get set e).FailsIn P := by
  intro s x t he
  cases hs : e (get s) with
  | ok a u => simp [Edit.on, hs] at he
  | error y u =>
      simp only [Edit.on, hs] at he
      cases he
      exact h _ x u hs

theorem failsIn_items (hP : P .unsuited) {f : Value → Edit σ Unit} (h : ∀ v, (f v).FailsIn P)
    (vs : Value) : (do Edit.forEach f (← require vs.items) : Edit σ Unit).FailsIn P := by
  refine (failsIn_require ?_).bind fun items => FailsIn.forEach h items
  cases vs with
  | list items | str s => trivial
  | _ => exact hP

/-- When the edit breaks a rule, it changes nothing. -/
def Spares (e : Edit σ α) : Prop := ∀ s x t, e s = .error x t → x.isViolation = true → t = s

theorem Takes.spares {R : σ → σ → Prop} {e : Edit σ α} (h : e.Takes R) : e.Spares :=
  fun _ _ _ he _ => h.eq_of_error he

theorem FailsIn.spares {e : Edit σ α} (h : e.FailsIn Error.BreaksNoRule) : e.Spares :=
  fun s x t he hx => absurd (hx.symm.trans (h s x t he)) (by decide)

theorem Spares.outcome {e : Edit σ Unit} (h : e.Spares) {s : σ} {x : Error}
    (he : (e.outcome s).2 = some x) (hx : x.isViolation = true) : (e.outcome s).1 = s :=
  h s x _ (eq_error_of_outcome he) hx

theorem Spares.after_check {e : Edit σ α} {k : α → Edit σ β}
    (h : ∀ s, e.Yields s (· = s) fun _ t => t = s) (hk : ∀ a, (k a).Spares) :
    (e >>= k).Spares := by
  intro s x t he hx
  have hy := h s
  cases hs : e s with
  | ok a u =>
      rw [Yields, hs] at hy
      obtain rfl : u = s := hy
      rw [bind_of_ok hs] at he
      exact hk a u x t he hx
  | error y u =>
      rw [Yields, hs] at hy
      rw [bind_of_error hs] at he
      cases he
      exact hy

/-- A batch that breaks a rule leaves what the items in front of the refused one have led to. -/
theorem exists_of_forEach_violation {f : β → Edit σ Unit} (hf : ∀ b, (f b).Spares) {bs : List β}
    {s t : σ} {x : Error} (he : forEach f bs s = .error x t) (hx : x.isViolation = true) :
    ∃ accepted b rest, bs = accepted ++ b :: rest ∧ forEach f accepted s = .ok () t ∧
      f b t = .error x t := by
  obtain ⟨accepted, b, rest, u, hbs, ha, hb⟩ := exists_of_forEach_error he
  obtain rfl := hf b u x t hb hx
  exact ⟨accepted, b, rest, hbs, ha, hb⟩

end Edit

open Edit

variable {unit : IndentUnit} (hu : KotlinDecl.FailsIn Error.BreaksNoRule unit)

include hu

theorem ModifierSet.failsIn_addAll (vs : List Value) :
    (ModifierSet.addAll unit vs).FailsIn Error.BreaksNoRule := by
  refine Edit.FailsIn.forEach (fun v => ?_) vs
  refine (Edit.failsIn_require ?_).bind fun m => failsIn_modify _
  have hi := (v.failsIn covers_breaksNoRule hu).forms.inspected
  cases v with
  | modifier m => trivial
  | _ => exact hi.bind fun _ => rfl

namespace CodeBlock

theorem failsIn_add (format : Value) (args : List Value) :
    (add unit format args).FailsIn Error.BreaksNoRule :=
  (Edit.failsIn_require (failsIn_ofFormat covers_breaksNoRule hu format args)).bind fun _ =>
    failsIn_modify _

theorem failsIn_addHead (front : String) (head : Value) (args : List Value) :
    (addHead unit front head args).FailsIn Error.BreaksNoRule := by
  cases head with
  | str s => exact failsIn_add hu _ args
  | _ =>
      intro c x t he
      cases he
      rfl

theorem Call.failsIn (call : Call) : (call.apply unit).FailsIn Error.BreaksNoRule := by
  have hp : ∀ p, (addPart p).FailsIn Error.BreaksNoRule := fun p => failsIn_modify _
  cases call with
  | add format args => exact failsIn_add hu format args
  | addStatement format args =>
      exact (hp _).bind fun _ => (failsIn_add hu format args).bind fun _ => failsIn_add hu _ _
  | beginControlFlow head args => exact (failsIn_addHead hu "" head args).bind fun _ => hp _
  | nextControlFlow head args =>
      exact (hp _).bind fun _ => (failsIn_addHead hu _ head args).bind fun _ => hp _
  | endControlFlow => exact (hp _).bind fun _ => hp _
  | indent | unindent => exact hp _

end CodeBlock

omit hu in
theorem Edit.spares_annotations {σ : Type} (f : Value → σ → σ) (vs : Value) :
    (do forEach (fun v => modify (f v)) (← require vs.items) : Edit σ Unit).Spares :=
  (failsIn_items (P := Error.BreaksNoRule) rfl (fun _ => failsIn_modify _) vs).spares

omit hu in
theorem Parameter.Call.spares {call : Parameter.Call} (hc : ∀ vs, call ≠ .addModifiers vs) :
    (call.apply unit).Spares := by
  cases call with
  | addAnnotations vs => exact spares_annotations _ vs
  | addModifiers vs => exact absurd rfl (hc vs)
  | _ => exact (Parameter.Call.takes unit rfl False.elim).spares

namespace FunDecl

section

omit hu

theorem delegate_of_constructor {f : FunDecl} (h : f.isConstructor = true) (target : Delegation)
    (args : List Value) :
    delegate unit target args f =
      (do
        let codes ← Edit.require (args.mapM (CodeBlock.ofFormatOrBlock unit · []))
        modify fun f => { f with delegationArgs := codes } : Edit FunDecl Unit)
        { f with delegation := some target } := by
  rw [delegate, get_bind, if_neg (by simp [h])]
  rfl

theorem delegate_of_other {f : FunDecl} (h : f.isConstructor = false) (target : Delegation)
    (args : List Value) :
    delegate unit target args f =
      .error (.configuration .delegationOutsideConstructor none) f := by
  rw [delegate, get_bind, if_pos (by simp [h])]
  rfl

end

theorem spares_delegate (target : Delegation) (args : List Value) :
    (delegate unit target args).Spares := by
  intro f x t he hx
  cases hc : f.isConstructor with
  | true =>
      -- Behind the check nothing breaks a rule.
      have hcodes : KotlinDecl.FailsIn Error.BreaksNoRule
          (args.mapM (CodeBlock.ofFormatOrBlock unit · [])) :=
        FailsIn.mapM fun v _ => CodeBlock.failsIn_ofFormatOrBlock covers_breaksNoRule hu v []
      rw [delegate_of_constructor hc] at he
      have hx' := ((Edit.failsIn_require hcodes).bind fun _ => failsIn_modify _) _ x t he
      rw [hx'] at hx
      cases hx
  | false =>
      rw [delegate_of_other hc] at he
      cases he
      rfl

theorem Call.spares {call : Call} (hc : ∀ vs, call ≠ .addParameters vs) :
    (call.apply unit).Spares := by
  cases call with
  | addAnnotations vs => exact spares_annotations _ vs
  | addModifiers vs => exact ((ModifierSet.failsIn_addAll hu vs).on _ _).spares
  | addParameters vs => exact absurd rfl (hc vs)
  | delegate target args => exact spares_delegate hu target args
  | body call => exact ((call.failsIn hu).on _ _).spares
  | _ => exact (Call.takes unit rfl False.elim).spares

end FunDecl

theorem PropertyDecl.Call.spares (call : PropertyDecl.Call) : (call.apply unit).Spares := by
  cases call with
  | addAnnotations vs => exact spares_annotations _ vs
  | addModifiers vs => exact ((ModifierSet.failsIn_addAll hu vs).on _ _).spares
  | _ => exact (PropertyDecl.Call.takes unit rfl False.elim).spares

namespace TypeDecl

section

omit hu

theorem refuse_of_kind {d : TypeDecl} {k : Kind} (h : d.kind = .kind k) (v : Violation) :
    refuse unit v d = .error (.configuration v (some k.name)) d := by
  have hk : shownKind unit d.kind = .ok (some k.name) := by rw [h]; rfl
  have hr : (Edit.require (shownKind unit d.kind) : Edit TypeDecl _) d = .ok (some k.name) d := by
    rw [hk]
    rfl
  rw [refuse, get_bind, bind_of_ok hr]
  rfl

def initializerBlock (unit : IndentUnit) (block : Value) : Edit CodeBlock Unit := do
  CodeBlock.addPart (.text "init \x7b\n")
  CodeBlock.addPart .indent
  CodeBlock.add unit block []
  CodeBlock.addPart .unindent
  CodeBlock.addPart (.text "\x7d\n")

theorem require_knownKind {d : TypeDecl} {k : Kind} (h : d.kind = .kind k) :
    (Edit.require d.knownKind : Edit TypeDecl Kind) d = .ok k d := by
  rw [knownKind, h]
  rfl

theorem require_cases (unit : IndentUnit) (feature : Feature) (d : TypeDecl) :
    (∃ k, d.kind = .kind k ∧ require unit feature d = .ok () d) ∨
      ∃ x, require unit feature d = .error x d ∧ (x = .lacking ∨ x.isViolation = true) := by
  rw [require, get_bind]
  cases hk : d.kind with
  | kind k =>
      rw [bind_of_ok (require_knownKind hk)]
      cases ha : k.accepts feature with
      | true => exact .inl ⟨k, rfl, rfl⟩
      | false => exact .inr ⟨_, refuse_of_kind hk _, .inr rfl⟩
  | _ =>
      rw [knownKind, hk]
      exact .inr ⟨_, rfl, .inl rfl⟩

/-- Nothing is added to the initializer code before the last check. -/
theorem addInitializerBlock_cases (unit : IndentUnit) (block : Value) (d : TypeDecl) :
    (∃ x, addInitializerBlock unit block d = .error x d ∧ (x = .lacking ∨ x.isViolation = true)) ∨
      addInitializerBlock unit block d = onInitializer (initializerBlock unit block) d := by
  rcases require_cases unit .initializerBlock d with ⟨k, hk, hr⟩ | ⟨x, hr, hx⟩
  · rw [addInitializerBlock, bind_of_ok hr, get_bind, bind_of_ok (require_knownKind hk)]
    by_cases he : d.isExpected = true
    · rw [if_pos he, bind_of_error (refuse_of_kind hk _)]
      exact .inl ⟨_, rfl, .inr rfl⟩
    · rw [if_neg he]
      exact .inr rfl
  · rw [addInitializerBlock, bind_of_error hr]
    exact .inl ⟨x, rfl, hx⟩

end

theorem spares_addModifiers (vs : List Value) : (addModifiers unit vs).Spares := by
  refine Spares.after_check (fun d => ?_) fun _ => ?_
  · exact yields_bind (yields_get (yields_unless (refuses_refuse _ _) rfl fun _ => rfl))
  · exact ((ModifierSet.failsIn_addAll hu vs).on _ _).spares

theorem spares_addInitializerBlock (block : Value) : (addInitializerBlock unit block).Spares := by
  have hb : (initializerBlock unit block).FailsIn Error.BreaksNoRule :=
    (failsIn_modify _).bind fun _ => (failsIn_modify _).bind fun _ =>
      (CodeBlock.failsIn_add hu block []).bind fun _ => (failsIn_modify _).bind fun _ =>
        failsIn_modify _
  intro d x t he hx
  rcases addInitializerBlock_cases unit block d with ⟨y, hy, _⟩ | hy
  · rw [hy] at he
    cases he
    rfl
  · rw [hy] at he
    exact (hb.on _ _).spares d x t he hx

theorem failsIn_declareSuperinterface (v : Value) (ss : List Superinterface) :
    KotlinDecl.FailsIn Error.BreaksNoRule (declareSuperinterface unit v ss) := by
  have hi : KotlinDecl.FailsIn Error.BreaksNoRule (superinterfaceIndex unit v ss) := by
    refine Key.FailsIn.indexIn covers_breaksNoRule (v.failsIn_key covers_breaksNoRule hu) ?_
    intro k hk
    obtain ⟨s, _, rfl⟩ := List.mem_map.1 hk
    exact s.type.failsIn_key covers_breaksNoRule hu
  refine hi.bind fun i => ?_
  cases i with
  | none | some n => trivial

theorem failsIn_addSuperinterface_null (v : Value) :
    (addSuperinterface unit v .null).FailsIn Error.BreaksNoRule := fun d =>
  ((Edit.failsIn_require (failsIn_declareSuperinterface hu v d.superinterfaces)).bind fun _ =>
    failsIn_modify _) d

def Call.isBatch : Call → Bool
  | addTypeVariables _ | addSuperinterfaces _ | addProperties _ | addFunctions _
  | addTypes _ => true
  | _ => false

theorem Call.spares {call : Call} (hc : call.isBatch = false) : (call.apply unit).Spares := by
  cases call with
  | addAnnotations vs => exact spares_annotations _ vs
  | addModifiers vs => exact spares_addModifiers hu vs
  | addInitializerBlock block => exact spares_addInitializerBlock hu block
  | addTypeVariables vs | addSuperinterfaces vs | addProperties vs | addFunctions vs
  | addTypes vs => cases hc
  | _ => exact (Call.takes unit rfl False.elim).spares

end TypeDecl

end KotlinDecl
