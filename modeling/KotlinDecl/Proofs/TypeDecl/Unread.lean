import KotlinDecl.Proofs.TypeDecl.Steps

namespace KotlinDecl

namespace Edit

variable {σ τ α β : Type} {u : σ → σ}

/-- It does not matter whether the state is changed by `u` before the edit or after it. -/
def Commutes (u : σ → σ) (e : Edit σ α) : Prop :=
  ∀ s, e (u s) = match e s with
    | .ok a t => .ok a (u t)
    | .error x t => .error x (u t)

theorem commutes_pure (a : α) : (pure a : Edit σ α).Commutes u := fun _ => rfl

theorem commutes_throw (x : Error) : (throw x : Edit σ α).Commutes u := fun _ => rfl

theorem commutes_require (r : Except Error α) : (require r : Edit σ α).Commutes u := by
  intro s
  cases r <;> rfl

theorem commutes_modify {f : σ → σ} (h : ∀ s, f (u s) = u (f s)) :
    (modify f : Edit σ PUnit).Commutes u :=
  fun s => congrArg (EStateM.Result.ok PUnit.unit) (h s)

theorem Commutes.bind {e : Edit σ α} {k : α → Edit σ β} (h : e.Commutes u)
    (hk : ∀ a, (k a).Commutes u) : (e >>= k).Commutes u := by
  intro s
  simp only [Bind.bind, EStateM.bind, h s]
  cases e s with
  | ok a t => exact hk a t
  | error x t => rfl

theorem commutes_require_bind {r : Except Error α} {k : α → Edit σ β}
    (hk : ∀ a, (k a).Commutes u) : (require r >>= k).Commutes u :=
  (commutes_require r).bind hk

theorem commutes_get_bind {k : σ → Edit σ α} (h : ∀ s, k (u s) = k s)
    (hk : ∀ s, (k s).Commutes u) : (get >>= k).Commutes u := by
  intro s
  change k (u s) (u s) = _
  rw [h s]
  exact hk s s

theorem commutes_ite {c : Prop} [Decidable c] {e e' : Edit σ α} (h : e.Commutes u)
    (h' : e'.Commutes u) : (if c then e else e').Commutes u := by
  split
  · exact h
  · exact h'

theorem commutes_forEach {f : β → Edit σ Unit} (h : ∀ b, (f b).Commutes u) (bs : List β) :
    (forEach f bs).Commutes u := by
  induction bs with
  | nil => exact commutes_pure ()
  | cons b bs ih => exact (h b).bind fun _ => ih

theorem commutes_on {get : σ → τ} {set : τ → σ → σ} (hget : ∀ s, get (u s) = get s)
    (hset : ∀ t s, set t (u s) = u (set t s)) (e : Edit τ Unit) :
    (on get set e).Commutes u := by
  intro s
  simp only [on, hget]
  cases e (get s) <;> simp only [hset]

end Edit

open Edit

namespace TypeDecl

def withModifiers (ms : ModifierSet) (d : TypeDecl) : TypeDecl := { d with modifiers := ms }

variable {unit : IndentUnit} {ms : ModifierSet}

theorem commutes_refuse (v : Violation) : (refuse unit v).Commutes (withModifiers ms) :=
  commutes_get_bind (fun _ => rfl) fun _ => commutes_require_bind fun _ => commutes_throw _

theorem commutes_refuse_bind {α : Type} (v : Violation) (k : Unit → Edit TypeDecl α) :
    (refuse unit v >>= k).Commutes (withModifiers ms) := by
  unfold refuse
  rw [bind_assoc]
  refine commutes_get_bind (fun _ => rfl) fun d => ?_
  rw [bind_assoc]
  exact commutes_require_bind fun _ _ => rfl

theorem commutes_require_feature (feature : Feature) :
    (require unit feature).Commutes (withModifiers ms) :=
  commutes_get_bind (fun _ => rfl) fun _ => commutes_require_bind fun _ =>
    commutes_ite (commutes_refuse _) (commutes_pure _)

theorem commutes_checkNotAnonymous (what : String) :
    (checkNotAnonymous unit what).Commutes (withModifiers ms) :=
  commutes_get_bind (fun _ => rfl) fun _ => commutes_ite (commutes_refuse _) (commutes_pure _)

theorem commutes_onKdoc (e : Edit CodeBlock Unit) : (onKdoc e).Commutes (withModifiers ms) := by
  apply commutes_on
  · intro d
    rfl
  · intro c d
    rfl

theorem commutes_annotate (v : Value) : (annotate v).Commutes (withModifiers ms) :=
  commutes_modify fun _ => rfl

theorem commutes_addTypeVariable (v : Value) :
    (addTypeVariable unit v).Commutes (withModifiers ms) :=
  (commutes_checkNotAnonymous _).bind fun _ => commutes_modify fun _ => rfl

theorem commutes_setCompanion (v : Value) : (setCompanion unit v).Commutes (withModifiers ms) := by
  refine (commutes_require_feature _).bind fun _ => commutes_require_bind fun c => ?_
  refine commutes_ite ?_ (commutes_modify fun _ => rfl)
  exact commutes_require_bind fun _ => commutes_refuse_bind _ _

theorem commutes_setPrimaryConstructor (v : Value) :
    (setPrimaryConstructor unit v).Commutes (withModifiers ms) := by
  refine (commutes_require_feature _).bind fun _ => commutes_require_bind fun o => ?_
  cases o with
  | none => exact commutes_modify fun _ => rfl
  | some f => exact commutes_ite (commutes_refuse_bind _ _) (commutes_modify fun _ => rfl)

theorem commutes_setSuperclass (v : Value) :
    (setSuperclass unit v).Commutes (withModifiers ms) := by
  refine (commutes_require_feature _).bind fun _ => commutes_get_bind (fun _ => rfl) fun d => ?_
  refine commutes_ite ?_ (commutes_modify fun _ => rfl)
  exact commutes_require_bind fun _ => commutes_refuse_bind _ _

theorem commutes_addSuperclassArg (format : Value) (args : List Value) :
    (addSuperclassArg unit format args).Commutes (withModifiers ms) :=
  (commutes_require_feature _).bind fun _ => commutes_require_bind fun _ =>
    commutes_modify fun _ => rfl

theorem commutes_delegateSuperinterface (type : Value) (c : CodeBlock) :
    (delegateSuperinterface unit type c).Commutes (withModifiers ms) := by
  refine (commutes_require_feature _).bind fun _ => commutes_get_bind (fun _ => rfl) fun d => ?_
  refine commutes_ite ?_ (commutes_require_bind fun t => commutes_ite ?_ ?_)
  · exact commutes_require_bind fun _ => commutes_require_bind fun _ => commutes_refuse_bind _ _
  · exact commutes_require_bind fun _ => commutes_refuse_bind _ _
  · refine commutes_require_bind fun o => ?_
    cases o with
    | some present =>
        exact commutes_require_bind fun _ => commutes_require_bind fun _ =>
          commutes_require_bind fun _ => commutes_refuse_bind _ _
    | none => exact commutes_require_bind fun _ => commutes_modify fun _ => rfl

theorem commutes_addSuperinterface (type delegate : Value) :
    (addSuperinterface unit type delegate).Commutes (withModifiers ms) := by
  refine commutes_require_bind fun o => ?_
  cases o with
  | none =>
      refine commutes_get_bind (fun _ => rfl) fun d => commutes_require_bind fun ss => ?_
      exact commutes_modify fun _ => rfl
  | some c => exact commutes_delegateSuperinterface type c

theorem commutes_addSuperinterfaceByParameter (type parameter : Value) :
    (addSuperinterfaceByParameter unit type parameter).Commutes (withModifiers ms) := by
  refine commutes_get_bind (fun _ => rfl) fun d => ?_
  split
  · exact commutes_refuse _
  · split
    · exact commutes_require_bind fun _ => commutes_refuse _
    · exact commutes_addSuperinterface _ _

theorem commutes_addConstant (name body : Value) :
    (addConstant unit name body).Commutes (withModifiers ms) := by
  refine (commutes_require_feature _).bind fun _ => commutes_require_bind fun b => ?_
  refine commutes_ite (commutes_refuse_bind _ _) ?_
  cases name with
  | str s => exact commutes_ite (commutes_modify fun _ => rfl) (commutes_refuse _)
  | _ => exact commutes_require_bind fun _ => commutes_refuse _

theorem commutes_addType (v : Value) : (addType unit v).Commutes (withModifiers ms) := by
  refine commutes_get_bind (fun _ => rfl) fun d => ?_
  exact commutes_ite (commutes_refuse_bind _ _) (commutes_modify fun _ => rfl)

theorem commutes_checkInterfaceFunction (v : Value) :
    (checkInterfaceFunction unit v).Commutes (withModifiers ms) := by
  refine commutes_get_bind (fun _ => rfl) fun d => commutes_require_bind fun fs => ?_
  refine commutes_require_bind fun name => ?_
  cases hiddenModifiers.find? fs.contains with
  | some m => exact commutes_refuse_bind _ _
  | none => exact commutes_ite (commutes_refuse _) (commutes_pure _)

theorem commutes_checkAnnotationFunction (v : Value) :
    (checkAnnotationFunction unit v).Commutes (withModifiers ms) := by
  refine commutes_get_bind (fun _ => rfl) fun d => commutes_require_bind fun fs => ?_
  refine commutes_require_bind fun name => commutes_ite (commutes_refuse_bind _ _) ?_
  exact commutes_require_bind fun body => commutes_ite (commutes_refuse _) (commutes_pure _)

end TypeDecl

end KotlinDecl
