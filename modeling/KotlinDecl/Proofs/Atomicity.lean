import KotlinDecl.Proofs.Drafting
import KotlinDecl.Proofs.Failures.Calls

namespace KotlinDecl

open Edit

namespace ModifierSet

theorem insert_of_contains {s : ModifierSet} {m : Modifier} (h : s.contains m = true) :
    s.insert m = s := if_pos h

theorem contains_insert (s : ModifierSet) (m n : Modifier) :
    (s.insert m).contains n = true ↔ s.contains n = true ∨ n = m := by
  unfold insert
  split
  · next hm =>
      refine ⟨.inl, fun h => h.elim id ?_⟩
      rintro rfl
      exact hm
  · simp [contains]

theorem contains_insertMany (s : ModifierSet) (ms : List Modifier) (n : Modifier) :
    (s.insertMany ms).contains n = true ↔ s.contains n = true ∨ n ∈ ms := by
  induction ms generalizing s with
  | nil => simp [insertMany]
  | cons m ms ih =>
      have hi : s.insertMany (m :: ms) = (s.insert m).insertMany ms := rfl
      rw [hi, ih, contains_insert, List.mem_cons, or_assoc]

theorem insertMany_eq_self_iff {s : ModifierSet} {ms : List Modifier} :
    s.insertMany ms = s ↔ ∀ m ∈ ms, s.contains m = true := by
  constructor
  · intro h m hm
    rw [← h, contains_insertMany]
    exact .inr hm
  · intro h
    induction ms with
    | nil => rfl
    | cons m ms ih =>
        obtain ⟨hm, hms⟩ := List.forall_mem_cons.1 h
        have hi : s.insertMany (m :: ms) = (s.insert m).insertMany ms := rfl
        rw [hi, insert_of_contains hm, ih hms]

end ModifierSet

namespace Parameter

variable {unit : IndentUnit}

def addModifier (unit : IndentUnit) (v : Value) : Edit Parameter Unit := do
  let m ← Edit.require (checkModifier unit v)
  modify fun p => { p with modifiers := p.modifiers.insert m }

theorem addModifiers_singleton (v : Value) : addModifiers unit [v] = addModifier unit v :=
  bind_pure_unit

theorem spares_addModifier (v : Value) : (addModifier unit v).Spares :=
  Takes.spares (R := fun _ _ => True) (takes_require_bind fun _ _ => takes_modify fun _ => trivial)

theorem addModifiers_ok {vs : List Value} {p q : Parameter}
    (h : addModifiers unit vs p = .ok () q) :
    ∃ ms, vs = ms.map .modifier ∧ q = { p with modifiers := p.modifiers.insertMany ms } := by
  induction vs generalizing p with
  | nil =>
      cases h
      exact ⟨[], rfl, by cases q; rfl⟩
  | cons v vs ih =>
      obtain ⟨_, r, hv, hvs⟩ := exists_of_bind_ok h
      obtain ⟨m, u, hm, hr⟩ := exists_of_bind_ok hv
      cases hc : checkModifier unit v with
      | error e =>
          rw [hc] at hm
          cases hm
      | ok n =>
          rw [hc] at hm
          cases hm
          cases hr
          obtain ⟨rfl, _⟩ := checkModifier_ok hc
          obtain ⟨ms, rfl, rfl⟩ := ih hvs
          exact ⟨m :: ms, rfl, rfl⟩

end Parameter

theorem FunDecl.addParameter_ok {unit : IndentUnit} {v : Value} {f g : FunDecl}
    (h : addParameter unit v .null [] f = .ok () g) :
    ∃ p, g = { f with parameters := f.parameters ++ [p] } := by
  have hy : (addParameter unit v .null []).Yields f (fun _ => True)
      fun _ g => ∃ p, g = { f with parameters := f.parameters ++ [p] } :=
    yields_addParameter trivial fun p _ _ => ⟨p, rfl⟩
  exact hy.of_ok h

namespace TypeDecl

variable {unit : IndentUnit} {v : Value} {d e : TypeDecl}

theorem addTypeVariable_ok (h : addTypeVariable unit v d = .ok () e) :
    d.isAnonymous = false ∧ e = { d with typeVariables := d.typeVariables ++ [v] } := by
  have hy : (addTypeVariable unit v).Yields d (fun _ => True)
      fun _ e => d.isAnonymous = false ∧ e = { d with typeVariables := d.typeVariables ++ [v] } :=
    yields_checkNotAnonymous_bind trivial fun ha => yields_modify ⟨ha, rfl⟩
  exact hy.of_ok h

/-- A type variable is refused because of what the declaration is, not of what it has. -/
theorem addTypeVariable_of_named (h : d.isAnonymous = false) (v : Value) :
    addTypeVariable unit v d = .ok () { d with typeVariables := d.typeVariables ++ [v] } := by
  have hc : checkNotAnonymous unit "type variables" d = .ok () d := by
    rw [checkNotAnonymous, get_bind, h]
    rfl
  rw [addTypeVariable, bind_of_ok hc]
  rfl

theorem addProperty_ok (h : addProperty unit v .null [] d = .ok () e) :
    ∃ p, e = { d with properties := d.properties ++ [p] } := by
  have hy : (addProperty unit v .null []).Yields d (fun _ => True)
      fun _ e => ∃ p, e = { d with properties := d.properties ++ [p] } :=
    yields_addProperty trivial fun p _ _ _ => ⟨p, rfl⟩
  exact hy.of_ok h

theorem addFunction_ok (h : addFunction unit v d = .ok () e) :
    e = { d with functions := d.functions ++ [v] } := by
  have hy : (addFunction unit v).Yields d (fun _ => True)
      fun _ e => e = { d with functions := d.functions ++ [v] } :=
    yields_addFunction trivial fun _ _ _ => rfl
  exact hy.of_ok h

theorem addType_ok (h : addType unit v d = .ok () e) :
    d.isKind .annotationKind = false ∧ e = { d with types := d.types ++ [v] } := by
  have hy : (addType unit v).Yields d (fun _ => True)
      fun _ e => d.isKind .annotationKind = false ∧ e = { d with types := d.types ++ [v] } := by
    refine yields_bind (yields_get ?_)
    refine yields_unless ((refuses_refuse _ _).bind _) trivial fun hk => yields_modify ⟨?_, rfl⟩
    simpa using hk
  exact hy.of_ok h

theorem addType_of_other (h : d.isKind .annotationKind = false) (v : Value) :
    addType unit v d = .ok () { d with types := d.types ++ [v] } := by
  rw [addType, get_bind, h]
  rfl

end TypeDecl

namespace Draft

def Call.error (unit : IndentUnit) : Call → Draft → Option Error
  | code c, .code d => ((c.apply unit).outcome d).2
  | annotationUse c, .annotationUse d => ((c.apply unit).outcome d).2
  | parameter c, .parameter d => ((c.apply unit).outcome d).2
  | function c, .function d => ((c.apply unit).outcome d).2
  | property c, .property d => ((c.apply unit).outcome d).2
  | typeDecl c, .typeDecl d => ((c.apply unit).outcome d).2
  | _, _ => none

def Call.isBatch : Call → Bool
  | parameter (.addModifiers _) | function (.addParameters _) => true
  | typeDecl c => c.isBatch
  | _ => false

variable {unit : IndentUnit}

theorem Call.after_of_violation (hu : KotlinDecl.FailsIn Error.BreaksNoRule unit) {c : Call}
    (hc : c.isBatch = false) {s : Draft} {e : Error} (he : c.error unit s = some e)
    (hx : e.isViolation = true) : c.after unit s = s := by
  cases c with
  | code c =>
      cases s with
      | code d => exact congrArg _ ((c.failsIn hu).spares.outcome he hx)
      | _ => rfl
  | annotationUse c =>
      cases s with
      | annotationUse d => exact congrArg _ ((c.takes unit False.elim).spares.outcome he hx)
      | _ => rfl
  | parameter c =>
      have hs : (c.apply unit).Spares := by
        refine Parameter.Call.spares ?_
        rintro vs rfl
        cases hc
      cases s with
      | parameter d => exact congrArg _ (hs.outcome he hx)
      | _ => rfl
  | function c =>
      have hs : (c.apply unit).Spares := by
        refine FunDecl.Call.spares hu ?_
        rintro vs rfl
        cases hc
      cases s with
      | function d => exact congrArg _ (hs.outcome he hx)
      | _ => rfl
  | property c =>
      cases s with
      | property d => exact congrArg _ ((c.spares hu).outcome he hx)
      | _ => rfl
  | typeDecl c =>
      cases s with
      | typeDecl d => exact congrArg _ ((TypeDecl.Call.spares hu hc).outcome he hx)
      | _ => rfl

theorem yields_build (d : TypeDecl) :
    (do Edit.require ((← get).build unit) : Edit TypeDecl TypeDecl).Yields d (· = d)
      fun e t => e = d ∧ t = d :=
  yields_bind (yields_get (yields_require rfl fun _ he => ⟨(TypeDecl.build_ok he).1, rfl⟩))

/-- A call that takes one facet and breaks a rule leaves the draft as it was, and so does finishing
a declaration, whether or not it has defects. The unit is known, or it is not known yet, which
breaks no rule. -/
theorem single_call_atomic (hu : KotlinDecl.FailsIn Error.BreaksNoRule unit) (s : Draft) :
    (∀ (c : Call) (e : Error), c.isBatch = false → c.error unit s = some e →
      e.isViolation = true → c.after unit s = s) ∧
    ∀ d : TypeDecl, s = .typeDecl d →
      (do Edit.require ((← get).build unit) : Edit TypeDecl TypeDecl).Yields d (· = d)
        fun e t => e = d ∧ t = d :=
  ⟨fun _ _ hc he hx => Call.after_of_violation hu hc he hx, fun d _ => yields_build d⟩

theorem single_call_atomic_interface :
    let d := TypeDecl.plain (.kind .interfaceKind) (some "I") none
    let c := Call.typeDecl (.addInitializerBlock (.str "x()"))
    let v := Violation.featureRefused .interfaceKind .initializerBlock
    c.error (.ok "  ") (.typeDecl d) = some (.configuration v (some "INTERFACE")) ∧
      c.after (.ok "  ") (.typeDecl d) = .typeDecl d := by
  intro d c v
  have he : c.error (.ok "  ") (.typeDecl d) = some (.configuration v (some "INTERFACE")) := rfl
  exact ⟨he, (single_call_atomic (failsIn_ok "  ") (.typeDecl d)).1 c _ rfl he rfl⟩

inductive Batch
  | typeVariables
  | superinterfaces
  | properties
  | functions
  | types
  | parameters
  | modifiers
  deriving DecidableEq

def Batch.call : Batch → List Value → Call
  | typeVariables, vs => .typeDecl (.addTypeVariables (.list vs))
  | superinterfaces, vs => .typeDecl (.addSuperinterfaces (.list vs))
  | properties, vs => .typeDecl (.addProperties (.list vs))
  | functions, vs => .typeDecl (.addFunctions (.list vs))
  | types, vs => .typeDecl (.addTypes (.list vs))
  | parameters, vs => .function (.addParameters (.list vs))
  | modifiers, vs => .parameter (.addModifiers vs)

def Batch.single : Batch → Value → Call
  | typeVariables, v => .typeDecl (.addTypeVariable v)
  | superinterfaces, v => .typeDecl (.addSuperinterface v .null)
  | properties, v => .typeDecl (.addProperty v .null [])
  | functions, v => .typeDecl (.addFunction v)
  | types, v => .typeDecl (.addType v)
  | parameters, v => .function (.addParameter v .null [])
  | modifiers, v => .parameter (.addModifiers [v])

/-- The batch ends with `e` because the facet behind the accepted ones is refused, and leaves what
a batch of only the accepted ones would leave. -/
structure Batch.Stops (unit : IndentUnit) (b : Batch) (vs : List Value) (s : Draft) (e : Error)
    (accepted : List Value) : Prop where
  taken : (b.call accepted).error unit s = none
  refused : ∃ v rest, vs = accepted ++ v :: rest ∧
    (b.single v).error unit ((b.call accepted).after unit s) = some e
  left : (b.call vs).after unit s = (b.call accepted).after unit s

structure Batch.Runs {σ : Type} (unit : IndentUnit) (b : Batch) (wrap : σ → Draft)
    (f : Value → Edit σ Unit) : Prop where
  after : ∀ vs s, (b.call vs).after unit (wrap s) = wrap ((forEach f vs).outcome s).1
  error : ∀ vs s, (b.call vs).error unit (wrap s) = ((forEach f vs).outcome s).2
  single : ∀ v s, (b.single v).error unit (wrap s) = ((f v).outcome s).2

theorem Batch.Runs.stops {σ : Type} {b : Batch} {wrap : σ → Draft} {f : Value → Edit σ Unit}
    (h : b.Runs unit wrap f) (hf : ∀ v, (f v).Spares) {vs : List Value} {s : σ} {e : Error}
    (he : (b.call vs).error unit (wrap s) = some e) (hx : e.isViolation = true) :
    ∃ accepted v t, b.Stops unit vs (wrap s) e accepted ∧ forEach f accepted s = .ok () t ∧
      f v t = .error e t ∧ (b.call vs).after unit (wrap s) = wrap t := by
  rw [h.error] at he
  have hrun := eq_error_of_outcome he
  generalize ht : ((forEach f vs).outcome s).1 = t at hrun
  obtain ⟨accepted, v, rest, hvs, ha, hv⟩ := exists_of_forEach_violation hf hrun hx
  have hleft : (b.call accepted).after unit (wrap s) = wrap t := by
    rw [h.after, outcome_of_ok ha]
  refine ⟨accepted, v, t, ⟨?_, ⟨v, rest, hvs, ?_⟩, ?_⟩, ha, hv, ?_⟩
  · rw [h.error, outcome_of_ok ha]
  · rw [hleft, h.single, outcome_of_error hv]
  · rw [hleft, h.after, ht]
  · rw [h.after, ht]

def hasAlready : Draft → Value → Bool
  | .parameter p, .modifier m => p.modifiers.contains m
  | _, _ => false

/-- Where each facet that is taken makes the draft larger, only a batch whose first facet is
refused leaves no trace. -/
theorem Batch.Runs.stops_growing {σ : Type} {b : Batch} {wrap : σ → Draft}
    {f : Value → Edit σ Unit} (h : b.Runs unit wrap f) (hf : ∀ v, (f v).Spares)
    (hwrap : wrap.Injective) (size : σ → Nat)
    (hsize : ∀ v s t, f v s = .ok () t → size t = size s + 1) {vs : List Value} {s : σ} {e : Error}
    (he : (b.call vs).error unit (wrap s) = some e) (hx : e.isViolation = true) :
    ∃ accepted, b.Stops unit vs (wrap s) e accepted ∧
      ((b.call vs).after unit (wrap s) = wrap s ↔ accepted = []) := by
  obtain ⟨accepted, v, t, hs, ha, _, ht⟩ := h.stops hf he hx
  refine ⟨accepted, hs, ?_⟩
  rw [ht]
  constructor
  · intro h
    have hgrown := size_of_forEach hsize ha
    rw [hwrap h] at hgrown
    exact List.length_eq_zero_iff.1 (by omega)
  · rintro rfl
    cases ha
    rfl

namespace Batch

variable {vs : List Value} {d : TypeDecl} {e : Error}

theorem typeDecl_injective : Draft.typeDecl.Injective := fun _ _ h => Draft.typeDecl.inj h

theorem stops_typeVariables (he : (typeVariables.call vs).error unit (.typeDecl d) = some e)
    (hx : e.isViolation = true) : typeVariables.Stops unit vs (.typeDecl d) e [] ∧
      (typeVariables.call vs).after unit (.typeDecl d) = .typeDecl d := by
  have hr : typeVariables.Runs unit .typeDecl (TypeDecl.addTypeVariable unit) :=
    ⟨fun _ _ => rfl, fun _ _ => rfl, fun _ _ => rfl⟩
  obtain ⟨accepted, v, t, hs, ha, hv, ht⟩ :=
    hr.stops (fun v => (TypeDecl.takes_addTypeVariable False.elim).spares) he hx
  obtain rfl : accepted = [] := by
    refine eq_nil_of_refused (I := fun d => d.isAnonymous = false) ?_ ?_ ha hv
    · rintro v d e h
      obtain ⟨ha, rfl⟩ := TypeDecl.addTypeVariable_ok h
      exact ha
    · exact fun v d hd => ⟨_, TypeDecl.addTypeVariable_of_named hd v⟩
  cases ha
  exact ⟨hs, ht⟩

theorem stops_types (he : (types.call vs).error unit (.typeDecl d) = some e)
    (hx : e.isViolation = true) : types.Stops unit vs (.typeDecl d) e [] ∧
      (types.call vs).after unit (.typeDecl d) = .typeDecl d := by
  have hr : types.Runs unit .typeDecl (TypeDecl.addType unit) :=
    ⟨fun _ _ => rfl, fun _ _ => rfl, fun _ _ => rfl⟩
  obtain ⟨accepted, v, t, hs, ha, hv, ht⟩ :=
    hr.stops (fun v => (TypeDecl.takes_addType False.elim).spares) he hx
  obtain rfl : accepted = [] := by
    refine eq_nil_of_refused (I := fun d => d.isKind .annotationKind = false) ?_ ?_ ha hv
    · rintro v d e h
      obtain ⟨hk, rfl⟩ := TypeDecl.addType_ok h
      exact hk
    · exact fun v d hd => ⟨_, TypeDecl.addType_of_other hd v⟩
  cases ha
  exact ⟨hs, ht⟩

theorem not_refused_superinterfaces (hu : KotlinDecl.FailsIn Error.BreaksNoRule unit)
    (he : (superinterfaces.call vs).error unit (.typeDecl d) = some e) : e.isViolation = false := by
  have hb : (forEach (TypeDecl.addSuperinterface unit · .null) vs).FailsIn Error.BreaksNoRule :=
    FailsIn.forEach (fun v => TypeDecl.failsIn_addSuperinterface_null hu v) vs
  exact hb d e _ (eq_error_of_outcome he)

theorem stops_properties (he : (properties.call vs).error unit (.typeDecl d) = some e)
    (hx : e.isViolation = true) : ∃ accepted, properties.Stops unit vs (.typeDecl d) e accepted ∧
      ((properties.call vs).after unit (.typeDecl d) = .typeDecl d ↔ accepted = []) := by
  have hr : properties.Runs unit .typeDecl (TypeDecl.addProperty unit · .null []) :=
    ⟨fun _ _ => rfl, fun _ _ => rfl, fun _ _ => rfl⟩
  refine hr.stops_growing (fun v => (TypeDecl.takes_addProperty False.elim).spares)
    typeDecl_injective (·.properties.length) ?_ he hx
  intro v d e h
  obtain ⟨p, rfl⟩ := TypeDecl.addProperty_ok h
  simp

theorem stops_functions (he : (functions.call vs).error unit (.typeDecl d) = some e)
    (hx : e.isViolation = true) : ∃ accepted, functions.Stops unit vs (.typeDecl d) e accepted ∧
      ((functions.call vs).after unit (.typeDecl d) = .typeDecl d ↔ accepted = []) := by
  have hr : functions.Runs unit .typeDecl (TypeDecl.addFunction unit) :=
    ⟨fun _ _ => rfl, fun _ _ => rfl, fun _ _ => rfl⟩
  refine hr.stops_growing (fun v => (TypeDecl.takes_addFunction False.elim).spares)
    typeDecl_injective (·.functions.length) ?_ he hx
  intro v d e h
  rw [TypeDecl.addFunction_ok h]
  simp

theorem stops_parameters {f : FunDecl} (he : (parameters.call vs).error unit (.function f) = some e)
    (hx : e.isViolation = true) : ∃ accepted, parameters.Stops unit vs (.function f) e accepted ∧
      ((parameters.call vs).after unit (.function f) = .function f ↔ accepted = []) := by
  have hr : parameters.Runs unit .function (FunDecl.addParameter unit · .null []) :=
    ⟨fun _ _ => rfl, fun _ _ => rfl, fun _ _ => rfl⟩
  refine hr.stops_growing (fun v => (FunDecl.takes_addParameter False.elim).spares)
    (fun _ _ h => Draft.function.inj h) (·.parameters.length) ?_ he hx
  intro v f g h
  obtain ⟨p, rfl⟩ := FunDecl.addParameter_ok h
  simp

/-- A modifier that the parameter has already leaves no trace either. -/
theorem stops_modifiers {p : Parameter}
    (he : (modifiers.call vs).error unit (.parameter p) = some e)
    (hx : e.isViolation = true) : ∃ accepted, modifiers.Stops unit vs (.parameter p) e accepted ∧
      ((modifiers.call vs).after unit (.parameter p) = .parameter p ↔
        ∀ v ∈ accepted, (Draft.parameter p).hasAlready v = true) := by
  have hr : modifiers.Runs unit .parameter (Parameter.addModifier unit) := by
    refine ⟨fun _ _ => rfl, fun _ _ => rfl, fun v p => ?_⟩
    rw [← Parameter.addModifiers_singleton]
    rfl
  obtain ⟨accepted, v, q, hs, ha, _, ht⟩ := hr.stops Parameter.spares_addModifier he hx
  obtain ⟨ms, rfl, rfl⟩ := Parameter.addModifiers_ok ha
  refine ⟨_, hs, ?_⟩
  rw [ht, List.forall_mem_map, Draft.parameter.injEq]
  refine Iff.trans ⟨fun h => ?_, fun h => ?_⟩ ModifierSet.insertMany_eq_self_iff
  · exact congrArg Parameter.modifiers h
  · rw [h]
    cases p
    rfl

end Batch

theorem forall_hasAlready_iff {s : Draft} (h : ∀ v, s.hasAlready v = false) {vs : List Value} :
    (∀ v ∈ vs, s.hasAlready v = true) ↔ vs = [] := by
  simp [h, List.eq_nil_iff_forall_not_mem]

/-- A batch that breaks a rule has taken the facets in front of the refused one. So it leaves the
draft as it was just when those change nothing, which for type variables and nested types is always
so, because there the first facet is refused. Superinterfaces are never refused. -/
theorem batch_atomic_iff (hu : KotlinDecl.FailsIn Error.BreaksNoRule unit) (b : Batch)
    (vs : List Value) (s : Draft) (e : Error) (he : (b.call vs).error unit s = some e)
    (hx : e.isViolation = true) :
    b ≠ .superinterfaces ∧ ∃ accepted, b.Stops unit vs s e accepted ∧
      (b = .typeVariables ∨ b = .types → accepted = []) ∧
      ((b.call vs).after unit s = s ↔ ∀ v ∈ accepted, s.hasAlready v = true) := by
  cases b with
  | typeVariables =>
      cases s with
      | typeDecl d =>
          obtain ⟨hs, ht⟩ := Batch.stops_typeVariables he hx
          exact ⟨by decide, [], hs, fun _ => rfl, iff_of_true ht (List.forall_mem_nil _)⟩
      | _ => cases he
  | superinterfaces =>
      cases s with
      | typeDecl d =>
          rw [Batch.not_refused_superinterfaces hu he] at hx
          cases hx
      | _ => cases he
  | properties =>
      cases s with
      | typeDecl d =>
          obtain ⟨accepted, hs, ht⟩ := Batch.stops_properties he hx
          rw [← forall_hasAlready_iff (s := .typeDecl d) fun _ => rfl] at ht
          exact ⟨by decide, accepted, hs, by simp, ht⟩
      | _ => cases he
  | functions =>
      cases s with
      | typeDecl d =>
          obtain ⟨accepted, hs, ht⟩ := Batch.stops_functions he hx
          rw [← forall_hasAlready_iff (s := .typeDecl d) fun _ => rfl] at ht
          exact ⟨by decide, accepted, hs, by simp, ht⟩
      | _ => cases he
  | types =>
      cases s with
      | typeDecl d =>
          obtain ⟨hs, ht⟩ := Batch.stops_types he hx
          exact ⟨by decide, [], hs, fun _ => rfl, iff_of_true ht (List.forall_mem_nil _)⟩
      | _ => cases he
  | parameters =>
      cases s with
      | function f =>
          obtain ⟨accepted, hs, ht⟩ := Batch.stops_parameters he hx
          rw [← forall_hasAlready_iff (s := .function f) fun _ => rfl] at ht
          exact ⟨by decide, accepted, hs, by simp, ht⟩
      | _ => cases he
  | modifiers =>
      cases s with
      | parameter p =>
          obtain ⟨accepted, hs, ht⟩ := Batch.stops_modifiers he hx
          exact ⟨by decide, accepted, hs, by simp, ht⟩
      | _ => cases he

theorem batch_atomic_iff_modifiers :
    let p := Parameter.plain "a" (.type .unitType)
    let q := { p with modifiers := ⟨[.vararg]⟩ }
    let vs := [Value.modifier .vararg, .modifier .publicVis]
    let e := Error.configuration (.parameterModifier "KModifier.PUBLIC") none
    (Batch.modifiers.call vs).error (.ok "  ") (.parameter q) = some e ∧
      ∃ accepted, Batch.modifiers.Stops (.ok "  ") vs (.parameter q) e accepted ∧
        ((Batch.modifiers.call vs).after (.ok "  ") (.parameter q) = .parameter q ↔
          ∀ v ∈ accepted, (Draft.parameter q).hasAlready v = true) := by
  intro p q vs e
  have he : (Batch.modifiers.call vs).error (.ok "  ") (.parameter q) = some e := by
    have hshown : Modifier.publicVis.shown = "KModifier.PUBLIC" := by decide +kernel
    change _ = some (Error.configuration (.parameterModifier "KModifier.PUBLIC") none)
    rw [← hshown]
    rfl
  obtain ⟨_, accepted, hs, _, ht⟩ :=
    batch_atomic_iff (failsIn_ok "  ") .modifiers vs (.parameter q) e he rfl
  exact ⟨he, accepted, hs, ht⟩

/-- A setter takes one parameter, so the first of two stays when the second is refused. -/
theorem batch_leaves_accepted :
    let parameter := fun name => Value.decl none (.parameter (.plain name (.type .unitType)))
    let f := FunDecl.plain FunDecl.setterName
    let c := Batch.parameters.call [parameter "a", parameter "b"]
    c.error (.ok "  ") (.function f) = some (.configuration .secondSetterParameter none) ∧
      c.after (.ok "  ") (.function f) =
        .function { f with parameters := [.plain "a" (.type .unitType)] } ∧
      c.after (.ok "  ") (.function f) ≠ .function f := by
  intro parameter f c
  have ha : c.after (.ok "  ") (.function f) =
      .function { f with parameters := [.plain "a" (.type .unitType)] } := rfl
  refine ⟨rfl, ha, fun h => ?_⟩
  have hl := congrArg (·.parameters.length) (Draft.function.inj (ha.symm.trans h))
  cases hl

end Draft

end KotlinDecl
