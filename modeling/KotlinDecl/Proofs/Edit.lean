import KotlinDecl.Edit
import Mathlib.Logic.Relation

namespace KotlinDecl.Edit

open Relation (ReflGen ReflTransGen)

variable {σ τ α β : Type} {s : σ} {I : σ → Prop} {Q : α → σ → Prop}

/-- From `s` the edit fails in a state with `I`, or gives a result and a state with `Q`. -/
def Yields (e : Edit σ α) (s : σ) (I : σ → Prop) (Q : α → σ → Prop) : Prop :=
  match e s with
  | .ok a t => Q a t
  | .error _ t => I t

def Refuses (e : Edit σ α) : Prop := ∀ s, ∃ x, e s = .error x s

theorem bind_of_ok {e : Edit σ α} {a : α} {t : σ} (h : e s = .ok a t) (k : α → Edit σ β) :
    (e >>= k) s = k a t := by
  simp only [bind, EStateM.bind, h]

theorem bind_of_error {e : Edit σ α} {x : Error} {t : σ} (h : e s = .error x t)
    (k : α → Edit σ β) : (e >>= k) s = .error x t := by
  simp only [bind, EStateM.bind, h]

theorem get_bind (k : σ → Edit σ α) (s : σ) : (get >>= k) s = k s s := rfl

theorem exists_of_bind_ok {e : Edit σ α} {k : α → Edit σ β} {b : β} {u : σ}
    (h : (e >>= k) s = .ok b u) : ∃ a t, e s = .ok a t ∧ k a t = .ok b u := by
  cases he : e s with
  | ok a t =>
      rw [bind_of_ok he] at h
      exact ⟨a, t, rfl, h⟩
  | error x t =>
      rw [bind_of_error he] at h
      cases h

theorem exists_of_require_bind_ok {r : Except Error α} {k : α → Edit σ β} {b : β} {u : σ}
    (h : (require r >>= k) s = .ok b u) : ∃ a, r = .ok a ∧ k a s = .ok b u := by
  cases r with
  | ok a => exact ⟨a, rfl, h⟩
  | error x => cases h

theorem eq_error_of_outcome {e : Edit σ Unit} {x : Error}
    (h : (e.outcome s).2 = some x) : e s = .error x (e.outcome s).1 := by
  cases he : e s with
  | ok a t =>
      rw [outcome, he] at h
      cases h
  | error y t =>
      rw [outcome, he] at h ⊢
      cases h
      rfl

theorem outcome_of_ok {e : Edit σ Unit} {t : σ} (h : e s = .ok () t) :
    e.outcome s = (t, none) := by
  rw [outcome, h]

theorem outcome_of_error {e : Edit σ Unit} {t : σ} {x : Error} (h : e s = .error x t) :
    e.outcome s = (t, some x) := by
  rw [outcome, h]

theorem outcome_of_yields {e : Edit σ Unit} (h : e.Yields s I fun _ => I) : I (e.outcome s).1 := by
  unfold Yields at h
  unfold outcome
  split at h <;> simp_all

theorem Yields.mono {e : Edit σ α} {I' : σ → Prop} {Q' : α → σ → Prop} (h : e.Yields s I Q)
    (hi : ∀ t, I t → I' t) (hq : ∀ a t, Q a t → Q' a t) : e.Yields s I' Q' := by
  unfold Yields at h ⊢
  split at h
  · exact hq _ _ h
  · exact hi _ h

theorem Yields.of_ok {e : Edit σ α} {t : σ} {a : α} (h : e.Yields s I Q) (he : e s = .ok a t) :
    Q a t := by
  rwa [Yields, he] at h

theorem Yields.of_failure {e : Edit σ Unit} {Q : Unit → σ → Prop} {x : Error}
    (h : e.Yields s I Q) (he : (e.outcome s).2 = some x) : I (e.outcome s).1 := by
  rwa [Yields, eq_error_of_outcome he] at h

theorem yields_get {Q : σ → σ → Prop} (h : Q s s) : (get : Edit σ σ).Yields s I Q := h

theorem yields_modify {f : σ → σ} {Q : PUnit → σ → Prop} (h : Q ⟨⟩ (f s)) :
    (modify f : Edit σ PUnit).Yields s I Q := h

theorem yields_require {r : Except Error α} (hi : I s) (h : ∀ a, r = .ok a → Q a s) :
    (require r : Edit σ α).Yields s I Q := by
  cases r with
  | ok a => exact h a rfl
  | error e => exact hi

theorem yields_bind {e : Edit σ α} {k : α → Edit σ β} {Q : β → σ → Prop}
    (h : e.Yields s I fun a t => (k a).Yields t I Q) : (e >>= k).Yields s I Q := by
  unfold Yields at h ⊢
  simp only [bind, EStateM.bind]
  split at h
  · next he => rw [he]; exact h
  · next he => rw [he]; exact h

theorem yields_last {e : Edit σ α} {k : α → Edit σ β} {Q : β → σ → Prop}
    (h : ∀ a t, (k a).Yields t (fun _ => True) Q) : (e >>= k).Yields s (fun _ => True) Q := by
  apply yields_bind
  unfold Yields
  split
  · next a t _ => exact h a t
  · trivial

theorem yields_ite {c : Prop} [Decidable c] {e e' : Edit σ α} (ht : c → e.Yields s I Q)
    (hf : ¬c → e'.Yields s I Q) : (if c then e else e').Yields s I Q := by
  split
  · next hc => exact ht hc
  · next hc => exact hf hc

theorem yields_on {get : σ → τ} {set : τ → σ → σ} {e : Edit τ Unit} {Q : Unit → σ → Prop}
    (h : e.Yields (get s) (fun t => I (set t s)) fun _ t => Q () (set t s)) :
    (on get set e).Yields s I Q := by
  unfold Yields at h ⊢
  unfold on
  split at h
  · next he => simpa [he] using h
  · next he => simpa [he] using h

theorem Refuses.yields {e : Edit σ α} (h : e.Refuses) (hi : I s) : e.Yields s I Q := by
  obtain ⟨x, hx⟩ := h s
  simpa [Yields, hx] using hi

theorem refuses_throw (x : Error) : (throw x : Edit σ α).Refuses := fun _ => ⟨x, rfl⟩

theorem Refuses.bind {e : Edit σ α} (h : e.Refuses) (k : α → Edit σ β) : (e >>= k).Refuses := by
  intro s
  obtain ⟨x, hx⟩ := h s
  exact ⟨x, by simp [Bind.bind, EStateM.bind, hx]⟩

theorem refuses_get_bind {k : σ → Edit σ α} (h : ∀ s, (k s).Refuses) : (get >>= k).Refuses :=
  fun s => h s s

theorem refuses_require_bind {r : Except Error α} {k : α → Edit σ β} (h : ∀ a, (k a).Refuses) :
    (require r >>= k).Refuses := by
  intro s
  cases r with
  | ok a => exact h a s
  | error x => exact ⟨x, rfl⟩

theorem yields_unless {c : Prop} [Decidable c] {e e' : Edit σ α} (he : e.Refuses) (hi : I s)
    (h : ¬c → e'.Yields s I Q) : (if c then e else e').Yields s I Q :=
  yields_ite (fun _ => he.yields hi) h

/-- Whether it fails or not, the edit takes a number of `R`-steps. -/
def Follows (R : σ → σ → Prop) (e : Edit σ α) : Prop :=
  ∀ s, e.Yields s (ReflTransGen R s) fun _ => ReflTransGen R s

variable {R : σ → σ → Prop}

theorem keeps_of_steps {P : σ → Prop} {s t : σ} (h : ReflTransGen R s t)
    (hstep : ∀ {a b}, R a b → P a → P b) (hs : P s) : P t := by
  induction h with
  | refl => exact hs
  | tail _ hr ih => exact hstep hr ih

theorem Follows.outcome {e : Edit σ Unit} (h : e.Follows R) (s : σ) :
    ReflTransGen R s (e.outcome s).1 :=
  outcome_of_yields (h s)

theorem Follows.steps_of_ok {e : Edit σ α} (h : e.Follows R) {s t : σ} {a : α}
    (he : e s = .ok a t) : ReflTransGen R s t := by
  have hy := h s
  rwa [Yields, he] at hy

theorem Refuses.follows {e : Edit σ α} (h : e.Refuses) : e.Follows R := fun _ => h.yields .refl

theorem follows_pure (a : α) : (pure a : Edit σ α).Follows R := fun _ => .refl

theorem follows_modify {f : σ → σ} (h : ∀ s, R s (f s)) : (modify f : Edit σ PUnit).Follows R :=
  fun s => .single (h s)

theorem Follows.bind {e : Edit σ α} {k : α → Edit σ β} (h : e.Follows R)
    (hk : ∀ a, (k a).Follows R) : (e >>= k).Follows R := fun s =>
  yields_bind ((h s).mono (fun _ ht => ht) fun a t ht =>
    (hk a t).mono (fun _ hu => ht.trans hu) fun _ _ hu => ht.trans hu)

theorem follows_require_bind {r : Except Error α} {k : α → Edit σ β}
    (hk : ∀ a, r = .ok a → (k a).Follows R) : (require r >>= k).Follows R :=
  fun s => yields_bind (yields_require .refl fun a ha => hk a ha s)

theorem follows_forEach {f : β → Edit σ Unit} {bs : List β} (h : ∀ b ∈ bs, (f b).Follows R) :
    (forEach f bs).Follows R := by
  induction bs with
  | nil => exact follows_pure _
  | cons b bs ih =>
      exact (h b List.mem_cons_self).bind fun _ => ih fun c hc => h c (List.mem_cons_of_mem _ hc)

theorem forEach_append (f : β → Edit σ Unit) (bs cs : List β) :
    forEach f (bs ++ cs) = forEach f bs >>= fun _ => forEach f cs := by
  induction bs with
  | nil => rfl
  | cons b bs ih =>
      rw [List.cons_append, forEach, ih, forEach, bind_assoc]

/-- A batch stops at the first item that is refused, in the state that the items in front of it
have led to. -/
theorem exists_of_forEach_error {f : β → Edit σ Unit} {bs : List β} {t : σ} {x : Error}
    (h : forEach f bs s = .error x t) :
    ∃ accepted b rest u, bs = accepted ++ b :: rest ∧ forEach f accepted s = .ok () u ∧
      f b u = .error x t := by
  induction bs generalizing s with
  | nil => cases h
  | cons b bs ih =>
      cases hb : f b s with
      | ok a u =>
          rw [forEach, bind_of_ok hb] at h
          obtain ⟨accepted, c, rest, w, rfl, ha, hc⟩ := ih h
          exact ⟨b :: accepted, c, rest, w, rfl, by rw [forEach, bind_of_ok hb, ha], hc⟩
      | error y u =>
          rw [forEach, bind_of_error hb] at h
          cases h
          exact ⟨[], b, bs, s, rfl, rfl, hb⟩

theorem size_of_forEach {f : β → Edit σ Unit} {size : σ → Nat}
    (hf : ∀ b s t, f b s = .ok () t → size t = size s + 1) {bs : List β} {s t : σ}
    (h : forEach f bs s = .ok () t) : size t = size s + bs.length := by
  induction bs generalizing s with
  | nil =>
      cases h
      rfl
  | cons b bs ih =>
      obtain ⟨_, u, hb, hbs⟩ := exists_of_bind_ok h
      rw [ih hbs, hf b s u hb, List.length_cons]
      omega

/-- Where every item that is taken leaves a state in which none is refused, only the first item can
be refused. -/
theorem eq_nil_of_refused {f : β → Edit σ Unit} {I : σ → Prop}
    (htaken : ∀ b s t, f b s = .ok () t → I t) (hfree : ∀ b s, I s → ∃ t, f b s = .ok () t)
    {bs : List β} {b : β} {s t u : σ} {x : Error} (hbs : forEach f bs s = .ok () t)
    (hb : f b t = .error x u) : bs = [] := by
  have hfresh : ¬I t := by
    intro ht
    obtain ⟨w, hw⟩ := hfree b t ht
    rw [hw] at hb
    cases hb
  induction bs generalizing s with
  | nil => rfl
  | cons c bs ih =>
      obtain ⟨_, w, hc, hrest⟩ := exists_of_bind_ok hbs
      obtain rfl := ih hrest
      cases hrest
      exact absurd (htaken c s t hc) hfresh

theorem Follows.yields_on {P : τ → τ → Prop} {e : Edit τ Unit} (h : e.Follows P) {get : σ → τ}
    {set : τ → σ → σ} (hset : set (get s) s = s)
    (hstep : ∀ t u, P t u → R (set t s) (set u s)) :
    (on get set e).Yields s (ReflTransGen R s) fun _ => ReflTransGen R s := by
  have hl : ∀ t, ReflTransGen P (get s) t → ReflTransGen R s (set t s) := by
    intro t ht
    have hs : ReflTransGen R (set (get s) s) (set t s) := ht.lift (set · s) hstep
    rwa [hset] at hs
  exact Edit.yields_on ((h (get s)).mono hl fun _ => hl)

theorem Follows.on {P : τ → τ → Prop} {e : Edit τ Unit} (h : e.Follows P) {get : σ → τ}
    {set : τ → σ → σ} (hset : ∀ s, set (get s) s = s)
    (hstep : ∀ s t u, P t u → R (set t s) (set u s)) : (on get set e).Follows R :=
  fun s => h.yields_on (hset s) (hstep s)

/-- The edit fails and changes nothing, or takes at most one `R`-step. -/
def Takes (R : σ → σ → Prop) (e : Edit σ α) : Prop := ∀ s, e.Yields s (· = s) fun _ => ReflGen R s

theorem Takes.follows {e : Edit σ α} (h : e.Takes R) : e.Follows R := by
  refine fun s => (h s).mono ?_ fun _ _ ht => ht.to_reflTransGen
  rintro _ rfl
  exact .refl

theorem Takes.eq_of_error {e : Edit σ α} (h : e.Takes R) {s t : σ} {x : Error}
    (he : e s = .error x t) : t = s := by
  have hy := h s
  rwa [Yields, he] at hy

theorem takes_modify {f : σ → σ} (h : ∀ s, R s (f s)) : (modify f : Edit σ PUnit).Takes R :=
  fun s => .single (h s)

theorem takes_require_bind {r : Except Error α} {k : α → Edit σ β}
    (hk : ∀ a, r = .ok a → (k a).Takes R) : (require r >>= k).Takes R :=
  fun s => yields_bind (yields_require rfl fun a ha => hk a ha s)

theorem Refuses.takes {e : Edit σ α} (h : e.Refuses) : e.Takes R := fun _ => h.yields rfl

theorem Takes.on {P : τ → τ → Prop} {e : Edit τ Unit} (h : e.Takes P) {get : σ → τ}
    {set : τ → σ → σ} (hset : ∀ s, set (get s) s = s)
    (hstep : ∀ s t u, P t u → R (set t s) (set u s)) : (on get set e).Takes R := by
  refine fun s => Edit.yields_on ((h (get s)).mono ?_ fun _ t ht => ?_)
  · rintro _ rfl
    exact hset s
  · cases ht with
    | refl => rw [hset]
    | single ht =>
        have hs := hstep s _ _ ht
        rw [hset] at hs
        exact .single hs

end KotlinDecl.Edit
