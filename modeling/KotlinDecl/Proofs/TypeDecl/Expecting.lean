import KotlinDecl.Proofs.ModifierOrder
import KotlinDecl.Proofs.TypeDecl.Consistency
import KotlinDecl.Proofs.TypeDecl.Unread

namespace KotlinDecl

open Edit

namespace ModifierSet

/-- `t` has `expect` in some place, and the other members of `s` in the same order. -/
structure Marked (s t : ModifierSet) : Prop where
  expect : .expect ∈ t.toList
  rest : t.toList.erase .expect = s.toList.erase .expect

variable {s t : ModifierSet} {m : Modifier}

theorem mem_insert (s : ModifierSet) (m : Modifier) : m ∈ (s.insert m).toList := by
  by_cases h : s.contains m = true
  · rw [insert, if_pos h]
    simpa [contains] using h
  · simp [insert, h]

theorem erase_insert_self (s : ModifierSet) (m : Modifier) :
    (s.insert m).toList.erase m = s.toList.erase m := by
  by_cases h : s.contains m = true
  · rw [insert, if_pos h]
  · have hm : m ∉ s.toList := by simpa [contains] using h
    simp [insert, h, List.erase_append_right _ hm, List.erase_of_not_mem hm]

theorem erase_insert_of_ne {n : Modifier} (hm : m ≠ n) (s : ModifierSet) :
    (s.insert m).toList.erase n = if s.contains m then s.toList.erase n
      else s.toList.erase n ++ [m] := by
  by_cases h : s.contains m = true
  · simp [insert, h]
  · by_cases hn : n ∈ s.toList
    · simp [insert, h, List.erase_append_left _ hn]
    · simp [insert, h, List.erase_append_right _ hn, List.erase_of_not_mem hn, hm]

theorem marked_insert (s : ModifierSet) : s.Marked (s.insert .expect) :=
  ⟨s.mem_insert _, s.erase_insert_self _⟩

theorem Marked.mem_iff (h : s.Marked t) (hm : m ≠ .expect) : m ∈ t.toList ↔ m ∈ s.toList := by
  rw [← List.mem_erase_of_ne hm, h.rest, List.mem_erase_of_ne hm]

theorem Marked.contains_eq (h : s.Marked t) (hm : m ≠ .expect) : t.contains m = s.contains m := by
  rw [Bool.eq_iff_iff]
  simpa [contains] using h.mem_iff hm

theorem Marked.insert (h : s.Marked t) (m : Modifier) : (s.insert m).Marked (t.insert m) := by
  by_cases hm : m = .expect
  · subst hm
    exact ⟨t.mem_insert _, by rw [erase_insert_self, erase_insert_self, h.rest]⟩
  · refine ⟨?_, ?_⟩
    · unfold ModifierSet.insert
      split
      · exact h.expect
      · exact List.mem_append_left _ h.expect
    · rw [erase_insert_of_ne hm, erase_insert_of_ne hm, h.rest, h.contains_eq hm]

theorem Marked.addAll (h : s.Marked t) {unit : IndentUnit} {vs : List Value} {s₁ : ModifierSet}
    (hs : addAll unit vs s = .ok () s₁) :
    ∃ t₁, addAll unit vs t = .ok () t₁ ∧ s₁.Marked t₁ := by
  induction vs generalizing s t with
  | nil =>
      cases hs
      exact ⟨t, rfl, h⟩
  | cons v vs ih =>
      simp only [ModifierSet.addAll, forEach, bind, EStateM.bind, Edit.require] at hs ⊢
      cases hv : v.asModifier unit with
      | ok m =>
          rw [hv] at hs
          exact ih (h.insert m) hs
      | error x =>
          rw [hv] at hs
          cases hs

theorem Marked.tidy_eq {t' : ModifierSet} (h : s.Marked t) (h' : s.Marked t')
    (without : List Modifier) : t.tidy without = t'.tidy without := by
  refine tidy_eq_iff.2 fun m _ => ?_
  by_cases hm : m = .expect
  · subst hm
    exact iff_of_true h.expect h'.expect
  · rw [h.mem_iff hm, h'.mem_iff hm]

end ModifierSet

namespace TypeDecl

variable {unit : IndentUnit} {d d' d₁ : TypeDecl}

structure Marked (d d' : TypeDecl) : Prop where
  modifiers : d.modifiers.Marked d'.modifiers
  rest : d.withModifiers d'.modifiers = d'

/-- The members are such as an expected declaration may have. -/
structure Expectable (d : TypeDecl) : Prop where
  properties : ∀ p ∈ d.properties, p.initializer = none ∧ hasAccessor p = false
  functions : ∀ v ∈ d.functions, ∃ body, v.carriedBody = .ok body ∧ body.isEmpty = true
  initializer : d.initializer.isEmpty = true

theorem marked_insert (d : TypeDecl) :
    d.Marked (d.withModifiers (d.modifiers.insert .expect)) :=
  ⟨d.modifiers.marked_insert, rfl⟩

theorem Marked.isExpected (h : d.Marked d') : d'.isExpected = true := by
  simpa [TypeDecl.isExpected, ModifierSet.contains] using h.modifiers.expect

theorem Step.expectable {typed : Prop} {d e : TypeDecl} (h : Step unit typed d e)
    (he : e.Expectable) : d.Expectable := by
  cases h with
  | property p _ _ _ =>
      exact { he with properties := fun q hq => he.properties q (List.mem_append_left _ hq) }
  | function v _ _ _ _ =>
      exact { he with functions := fun w hw => he.functions w (List.mem_append_left _ hw) }
  | initializer c _ _ _ _ =>
      refine { he with initializer := ?_ }
      have hc : d.initializer.parts ++ c.parts = [] := List.isEmpty_iff.1 he.initializer
      exact List.isEmpty_iff.2 (List.append_eq_nil_iff.1 hc).1
  | _ => exact { he with }

theorem Step.isAnonymous {typed : Prop} {d e : TypeDecl} (h : Step unit typed d e) :
    e.isAnonymous = d.isAnonymous := by
  cases h <;> rfl

theorem withModifiers_self (d : TypeDecl) : d.withModifiers d.modifiers = d := by
  cases d
  rfl

theorem modifiers_of_commutes {α : Type} {e : Edit TypeDecl α} {a : α}
    (h : ∀ ms, e.Commutes (withModifiers ms)) (he : e d = .ok a d₁) :
    d₁.modifiers = d.modifiers := by
  have hd := h d.modifiers d
  rw [withModifiers_self, he] at hd
  injection hd with _ hd
  rw [hd]
  rfl

theorem Marked.of_commutes {α : Type} {e : Edit TypeDecl α} {a : α} (hd : d.Marked d')
    (h : ∀ ms, e.Commutes (withModifiers ms)) (he : e d = .ok a d₁) :
    ∃ d₁', e d' = .ok a d₁' ∧ d₁.Marked d₁' := by
  refine ⟨d₁.withModifiers d'.modifiers, ?_, ?_, rfl⟩
  · have hd' := h d'.modifiers d
    rwa [hd.rest, he] at hd'
  · rw [modifiers_of_commutes h he]
    exact hd.modifiers

/-- What the edit does, it does also where `expect` is present, unless it brings in something that
`expect` forbids: then it fails there. -/
def Tracks (e : Edit TypeDecl Unit) : Prop :=
  ∀ d d' d₁, d.Marked d' → e d = .ok () d₁ →
    (∃ d₁', e d' = .ok () d₁' ∧ d₁.Marked d₁') ∨
      (∀ d₁', e d' ≠ .ok () d₁') ∧ ¬d₁.Expectable

theorem tracks_of_commutes {e : Edit TypeDecl Unit} (h : ∀ ms, e.Commutes (withModifiers ms)) :
    Tracks e :=
  fun _ _ _ hd he => .inl (hd.of_commutes h he)

theorem tracks_bind {α : Type} {e : Edit TypeDecl α} {k : α → Edit TypeDecl Unit}
    (h : ∀ ms, e.Commutes (withModifiers ms)) (hk : ∀ a, Tracks (k a)) : Tracks (e >>= k) := by
  intro d d' d₁ hd he
  obtain ⟨a, t, hs, he⟩ := exists_of_bind_ok he
  obtain ⟨t', hs', ht⟩ := hd.of_commutes h hs
  rw [bind_of_ok hs']
  exact hk a t t' d₁ ht he

theorem expectable_of_steps {d e : TypeDecl} (h : Relation.ReflTransGen (Step unit False) d e)
    (he : e.Expectable) : d.Expectable := by
  induction h with
  | refl => exact he
  | tail _ hs ih => exact ih (hs.expectable he)

/-- What has come in stays in, so a failure on the way tells of the end. -/
theorem tracks_forEach {β : Type} {f : β → Edit TypeDecl Unit} (h : ∀ b, Tracks (f b))
    (hf : ∀ b, (f b).Follows (Step unit False)) (bs : List β) : Tracks (forEach f bs) := by
  induction bs with
  | nil => exact tracks_of_commutes fun _ => commutes_pure ()
  | cons b bs ih =>
      intro d d' d₁ hd he
      obtain ⟨_, t, hs, he⟩ := exists_of_bind_ok he
      rcases h b d d' t hd hs with ⟨t', hs', ht⟩ | ⟨hfail, ht⟩
      · rw [forEach, bind_of_ok hs']
        exact ih t t' d₁ ht he
      · refine .inr ⟨fun d₁' he' => ?_, fun hexp => ht ?_⟩
        · obtain ⟨_, t', hs', _⟩ := exists_of_bind_ok he'
          exact hfail t' hs'
        · have hsteps := (follows_forEach fun b _ => hf b).steps_of_ok he
          exact expectable_of_steps hsteps hexp

theorem tracks_of_refused {e : Edit TypeDecl Unit}
    (hneg : ∀ d, d.isExpected = true → e.Yields d (fun _ => True) fun _ _ => False)
    (hbad : ∀ d, e.Yields d (fun _ => True) fun _ d₁ => ¬d₁.Expectable) : Tracks e := by
  intro d d' d₁ hd he
  refine .inr ⟨fun d₁' he' => ?_, ?_⟩
  · have hx := hneg d' hd.isExpected
    rwa [Yields, he'] at hx
  · have hx := hbad d
    rwa [Yields, he] at hx

theorem tracks_member {P : Prop} {x y : TypeDecl → Edit TypeDecl Unit}
    (hy : ∀ ms, (get >>= y : Edit TypeDecl Unit).Commutes (withModifiers ms))
    (hpos : P → ∀ d, x d = y d)
    (hneg : ¬P → ∀ d, (x d).Yields d (fun _ => True) fun _ _ => False)
    (hbad : ¬P → ∀ d, (y d).Yields d (fun _ => True) fun _ d₁ => ¬d₁.Expectable) :
    Tracks (get >>= fun d => if d.isExpected then x d else y d) := by
  by_cases hp : P
  · have heq : (fun d : TypeDecl => if d.isExpected then x d else y d) = y := by
      funext d
      rw [hpos hp d, ite_self]
    rw [heq]
    exact tracks_of_commutes hy
  · refine tracks_of_refused (fun d hd => ?_) fun d => ?_
    · refine yields_bind (yields_get ?_)
      rw [if_pos hd]
      exact hneg hp d
    · refine yields_bind (yields_get (yields_ite (fun _ => ?_) fun _ => hbad hp d))
      exact (hneg hp d).mono (fun _ h => h) fun _ _ => False.elim

theorem tracks_addModifiers (vs : List Value) : Tracks (addModifiers unit vs) := by
  refine tracks_bind (fun _ => commutes_checkNotAnonymous _) fun _ d d' d₁ hd he => ?_
  unfold Edit.on at he ⊢
  cases hs : ModifierSet.addAll unit vs d.modifiers with
  | ok _ s =>
      rw [hs] at he
      cases he
      obtain ⟨t, ht, hmarked⟩ := hd.modifiers.addAll hs
      rw [ht]
      refine .inl ⟨_, rfl, hmarked, ?_⟩
      rw [← hd.rest]
      rfl
  | error x s =>
      rw [hs] at he
      cases he

theorem tracks_addProperty (v type : Value) (modifiers : List Value) :
    Tracks (addProperty unit v type modifiers) := by
  refine tracks_bind (fun _ => commutes_require _) fun p => ?_
  apply tracks_member (P := p.initializer = none ∧ hasAccessor p = false)
  · intro ms
    refine commutes_get_bind (fun _ => rfl) fun d => ?_
    exact commutes_ite (commutes_refuse_bind _ _) (commutes_modify fun _ => rfl)
  · intro hp d
    rw [if_neg (by simp [hp.1]), if_neg (by simp [hp.2])]
  · intro hp d
    refine yields_unless ((refuses_refuse _ _).bind _) trivial fun hi => ?_
    refine yields_unless ((refuses_refuse _ _).bind _) trivial fun ha => ?_
    exact absurd ⟨by simpa using hi, by simpa using ha⟩ hp
  · intro hp d
    refine yields_unless ((refuses_refuse _ _).bind _) trivial fun _ => yields_modify fun he => ?_
    exact hp (he.properties p (List.mem_append_right _ List.mem_cons_self))

theorem tracks_addInitializerBlock (block : Value) : Tracks (addInitializerBlock unit block) := by
  refine tracks_bind (fun _ => commutes_require_feature _) fun _ => ?_
  refine tracks_of_refused (fun d hd => ?_) fun d => ?_
  · refine yields_bind (yields_get (yields_bind (yields_require trivial fun kind _ => ?_)))
    rw [if_pos hd]
    exact ((refuses_refuse _ _).bind _).yields trivial
  · refine yields_bind (yields_get (yields_bind (yields_require trivial fun kind _ => ?_)))
    refine yields_unless ((refuses_refuse _ _).bind _) trivial fun _ => yields_on ?_
    refine yields_last fun _ _ => yields_last fun _ _ => yields_last fun _ _ => ?_
    refine yields_last fun _ c => yields_modify fun he => ?_
    have hparts : c.parts ++ [.text "\x7d\n"] = [] := List.isEmpty_iff.1 he.initializer
    exact absurd hparts (List.append_ne_nil_of_right_ne_nil _ (List.cons_ne_nil _ _))

def checkFunction (unit : IndentUnit) (v : Value) : Value → Edit TypeDecl Unit
  | .kind .interfaceKind => checkInterfaceFunction unit v
  | .kind .annotationKind => checkAnnotationFunction unit v
  | _ => pure ()

theorem commutes_checkFunction (v kind : Value) (ms : ModifierSet) :
    (checkFunction unit v kind).Commutes (withModifiers ms) := by
  unfold checkFunction
  split
  · exact commutes_checkInterfaceFunction v
  · exact commutes_checkAnnotationFunction v
  · exact commutes_pure ()

theorem addFunction_eq (v : Value) :
    addFunction unit v = (do
      let d ← get
      if d.isExpected then
        checkFunction unit v d.kind
        let body ← Edit.require v.carriedBody
        if !body.isEmpty then refuse unit .expectFunctionBody
        modify fun d => { d with functions := d.functions ++ [v] }
      else
        checkFunction unit v d.kind
        modify fun d => { d with functions := d.functions ++ [v] }) := by
  unfold addFunction checkFunction
  congr 1
  funext d
  generalize d.kind = kind
  cases kind with
  | kind k => cases k <;> split <;> rfl
  | _ => split <;> rfl

theorem tracks_addFunction (v : Value) : Tracks (addFunction unit v) := by
  rw [addFunction_eq]
  apply tracks_member (P := ∃ body, v.carriedBody = .ok body ∧ body.isEmpty = true)
  · intro ms
    refine commutes_get_bind (fun _ => rfl) fun d => ?_
    exact (commutes_checkFunction v d.kind ms).bind fun _ => commutes_modify fun _ => rfl
  · rintro ⟨body, hb, he⟩ d
    funext s
    simp [hb, he, Edit.require, bind, EStateM.bind]
  · intro hp d
    refine yields_last fun _ _ => yields_bind (yields_require trivial fun body hb => ?_)
    refine yields_unless ((refuses_refuse _ _).bind _) trivial fun he => ?_
    exact absurd ⟨body, hb, by simpa using he⟩ hp
  · intro hp d
    refine yields_last fun _ _ => yields_modify fun he => ?_
    exact hp (he.functions v (List.mem_append_right _ List.mem_cons_self))

theorem Call.tracks (unit : IndentUnit) (call : Call) : Tracks (call.apply unit) := by
  cases call with
  | addKdoc format args => exact tracks_of_commutes fun _ => commutes_onKdoc _
  | annotate v => exact tracks_of_commutes fun _ => commutes_annotate v
  | addAnnotations vs =>
      exact tracks_of_commutes fun _ => commutes_require_bind fun _ =>
        commutes_forEach commutes_annotate _
  | addModifiers vs => exact tracks_addModifiers vs
  | addTypeVariable v => exact tracks_of_commutes fun _ => commutes_addTypeVariable v
  | addTypeVariables vs =>
      exact tracks_of_commutes fun _ => commutes_require_bind fun _ =>
        commutes_forEach commutes_addTypeVariable _
  | companion v => exact tracks_of_commutes fun _ => commutes_setCompanion v
  | primaryConstructor v => exact tracks_of_commutes fun _ => commutes_setPrimaryConstructor v
  | superclass v => exact tracks_of_commutes fun _ => commutes_setSuperclass v
  | addSuperclassArg format args =>
      exact tracks_of_commutes fun _ => commutes_addSuperclassArg format args
  | addSuperinterface type delegate =>
      exact tracks_of_commutes fun _ => commutes_addSuperinterface type delegate
  | addSuperinterfaces vs =>
      exact tracks_of_commutes fun _ => commutes_require_bind fun _ =>
        commutes_forEach (fun v => commutes_addSuperinterface v .null) _
  | addSuperinterfaceByParameter type parameter =>
      exact tracks_of_commutes fun _ => commutes_addSuperinterfaceByParameter type parameter
  | addConstant name body => exact tracks_of_commutes fun _ => commutes_addConstant name body
  | addProperty v type modifiers => exact tracks_addProperty v type modifiers
  | addProperties vs =>
      exact tracks_bind (fun _ => commutes_require _) fun _ =>
        tracks_forEach (fun v => tracks_addProperty v .null [])
          (fun v => (addProperty v .null []).follows unit False.elim) _
  | addInitializerBlock block => exact tracks_addInitializerBlock block
  | addFunction v => exact tracks_addFunction v
  | addFunctions vs =>
      exact tracks_bind (fun _ => commutes_require _) fun _ =>
        tracks_forEach tracks_addFunction (fun v => (addFunction v).follows unit False.elim) _
  | addType v => exact tracks_of_commutes fun _ => commutes_addType v
  | addTypes vs =>
      exact tracks_of_commutes fun _ => commutes_require_bind fun _ =>
        commutes_forEach commutes_addType _

theorem checkExpected_of_expectable (h : d.Expectable) : d.checkExpected unit = .ok () := by
  have hproperties : d.properties.forM (checkExpectedProperty unit d) = .ok () := by
    refine forM_ok fun p hp => ?_
    obtain ⟨hi, ha⟩ := h.properties p hp
    rw [checkExpectedProperty, if_neg (by simp [hi]), if_neg (by simp [ha])]
    rfl
  by_cases he : d.isExpected = true
  · rw [checkExpected, if_pos he, hproperties]
    change (d.functions.forM _ >>= _ : Except Error Unit) = _
    rw [forM_ok]
    · change (if _ then _ else _) = _
      rw [if_neg (by simp [h.initializer])]
      rfl
    · intro v hv
      obtain ⟨body, hb, hempty⟩ := h.functions v hv
      rw [hb]
      change (if _ then _ else _) = _
      rw [if_neg (by simp [hempty])]
      rfl
  · rw [checkExpected, if_neg he]
    rfl

theorem Marked.checkIdentity_eq (h : d.Marked d') : d'.checkIdentity = d.checkIdentity := by
  have hc := h.modifiers.contains_eq (m := .companion) nofun
  rw [← h.rest]
  simp only [checkIdentity, withModifiers, hc]
  rfl

theorem Marked.checkAbstract_eq (h : d.Marked d') : d'.checkAbstract = d.checkAbstract := by
  have hc := h.modifiers.contains_eq (m := .abstractDecl) nofun
  rw [← h.rest]
  simp only [checkAbstract, withModifiers, hc]
  rfl

theorem Marked.checks_eq (h : d.Marked d') :
    d'.checkConstructors = d.checkConstructors ∧
      d'.checkAnnotationClass unit = d.checkAnnotationClass unit ∧
      d'.record unit = d.record unit := by
  rw [← h.rest]
  cases d
  exact ⟨rfl, rfl, rfl⟩

theorem Marked.expectable_iff (h : d.Marked d') : d'.Expectable ↔ d.Expectable := by
  rw [← h.rest]
  exact ⟨fun he => ⟨he.properties, he.functions, he.initializer⟩,
    fun he => ⟨he.properties, he.functions, he.initializer⟩⟩

theorem Marked.build_iff (hd : d.Marked d') (h : d.build unit = .ok d) :
    d'.build unit = .ok d' ↔ d.Expectable := by
  rw [← hd.expectable_iff]
  constructor
  · intro hb
    obtain ⟨_, _, _, _, hexpected, _⟩ := build_ok hb
    obtain ⟨hproperties, hfunctions, hinitializer⟩ := checkExpected_ok hexpected hd.isExpected
    exact ⟨hproperties, hfunctions, hinitializer⟩
  · intro he
    obtain ⟨_, hidentity, h⟩ := ok_of_bind h
    obtain ⟨_, habstract, h⟩ := ok_of_bind h
    obtain ⟨_, hconstructors, h⟩ := ok_of_bind h
    obtain ⟨_, _, h⟩ := ok_of_bind h
    obtain ⟨_, hannotation, h⟩ := ok_of_bind h
    obtain ⟨line, hrecord, _⟩ := ok_of_bind h
    obtain ⟨hconstructors', hannotation', hrecord'⟩ := hd.checks_eq
    rw [build, hd.checkIdentity_eq, hidentity, hd.checkAbstract_eq, habstract, hconstructors',
      hconstructors, checkExpected_of_expectable he, hannotation', hannotation, hrecord', hrecord]
    rfl

def buildAfter (unit : IndentUnit) (calls : List Call) (d : TypeDecl) : Except Error TypeDecl :=
  match forEach (Call.apply unit) calls d with
  | .ok _ e => e.build unit
  | .error x _ => .error x

theorem buildAfter_eq_ok_iff {calls : List Call} {e : TypeDecl} :
    buildAfter unit calls d = .ok e ↔
      forEach (Call.apply unit) calls d = .ok () e ∧ e.build unit = .ok e := by
  unfold buildAfter
  constructor
  · intro h
    split at h
    · next t ht =>
        obtain ⟨rfl, _⟩ := build_ok h
        exact ⟨ht, h⟩
    · cases h
  · rintro ⟨hrun, hbuild⟩
    rw [hrun]
    exact hbuild

def addExpect : Call := .addModifiers [.modifier .expect]

theorem addExpect_ok_iff {t : TypeDecl} :
    addExpect.apply unit d = .ok () t ↔
      d.isAnonymous = false ∧ t = d.withModifiers (d.modifiers.insert .expect) := by
  constructor
  · intro h
    have hy : (addExpect.apply unit).Yields d (fun _ => True) fun _ t =>
        d.isAnonymous = false ∧ t = d.withModifiers (d.modifiers.insert .expect) :=
      yields_checkNotAnonymous_bind trivial fun hd => ⟨hd, rfl⟩
    rwa [Yields, h] at hy
  · rintro ⟨hd, rfl⟩
    have hcheck : checkNotAnonymous unit "modifiers" d = .ok () d := by
      change (if d.isAnonymous then _ else _ : Edit TypeDecl Unit) d = _
      rw [hd]
      rfl
    exact bind_of_ok hcheck _

theorem run_addExpect_iff {before after : List Call} {t a : TypeDecl}
    (h : forEach (Call.apply unit) before d = .ok () t) :
    forEach (Call.apply unit) (before ++ addExpect :: after) d = .ok () a ↔
      d.isAnonymous = false ∧
        forEach (Call.apply unit) after (t.withModifiers (t.modifiers.insert .expect)) =
          .ok () a := by
  have hsteps := (follows_forEach fun c _ => Call.follows unit c False.elim).steps_of_ok h
  have hanonymous : t.isAnonymous = d.isAnonymous :=
    keeps_of_steps (P := fun t => t.isAnonymous = d.isAnonymous) hsteps
      (fun hs ha => hs.isAnonymous.trans ha) rfl
  rw [forEach_append, bind_of_ok h, ← hanonymous]
  constructor
  · intro ha
    obtain ⟨_, t', ht', ha⟩ := exists_of_bind_ok ha
    obtain ⟨hn, rfl⟩ := addExpect_ok_iff.1 ht'
    exact ⟨hn, ha⟩
  · rintro ⟨hn, ha⟩
    rw [forEach, bind_of_ok (addExpect_ok_iff.2 ⟨hn, rfl⟩)]
    exact ha

/-- A declaration that says `expect` somewhere on the way is the one without, marked. It can be
made if it is not anonymous and has nothing in the end that `expect` forbids. -/
theorem exists_marked {before after : List Call} {e : TypeDecl}
    (h : buildAfter unit (before ++ after) d = .ok e) :
    ∃ e', e.Marked e' ∧ ∀ a, buildAfter unit (before ++ addExpect :: after) d = .ok a ↔
      d.isAnonymous = false ∧ e.Expectable ∧ a = e' := by
  obtain ⟨hrun, hbuild⟩ := buildAfter_eq_ok_iff.1 h
  rw [forEach_append] at hrun
  obtain ⟨_, t, hbefore, hafter⟩ := exists_of_bind_ok hrun
  have htracks : Tracks (forEach (Call.apply unit) after) :=
    tracks_forEach (Call.tracks unit) (fun c => c.follows unit False.elim) after
  -- From where `expect` is said, the two runs go on side by side.
  rcases htracks t _ e t.marked_insert hafter with ⟨e', he', hm⟩ | ⟨hfail, hbad⟩
  · refine ⟨e', hm, fun a => ?_⟩
    rw [buildAfter_eq_ok_iff, run_addExpect_iff hbefore, ← hm.build_iff hbuild]
    constructor
    · rintro ⟨⟨hn, ha⟩, hb⟩
      rw [he'] at ha
      cases ha
      exact ⟨hn, hb, rfl⟩
    · rintro ⟨hn, hb, rfl⟩
      exact ⟨⟨hn, he'⟩, hb⟩
  · refine ⟨_, e.marked_insert, fun a => ?_⟩
    rw [buildAfter_eq_ok_iff, run_addExpect_iff hbefore]
    constructor
    · rintro ⟨⟨_, ha⟩, _⟩
      exact absurd ha (hfail a)
    · rintro ⟨_, hexp, _⟩
      exact absurd hexp hbad

theorem Marked.run_eq {e a b : TypeDecl} (ha : e.Marked a) (hb : e.Marked b)
    (label : Option Layout) :
    ((a.pieces unit).layout label).run = ((b.pieces unit).layout label).run := by
  have htidy : a.tidy = b.tidy := by
    have hm := ha.modifiers.tidy_eq hb.modifiers [.publicVis]
    rw [← ha.rest, ← hb.rest, tidy_eq, tidy_eq]
    simp only [withModifiers, hm]
  rw [← run_tidy unit a, ← run_tidy unit b, htidy]

def expectingAt (n : Nat) (calls : List Call) : List Call :=
  calls.take n ++ addExpect :: calls.drop n

/-- It does not matter when `expect` is said. If the calls make a declaration without it, then they
make one with it in one place if and only if they do with it in another, and the two differ in
nothing but the place that `expect` has among the modifiers, which is never written. -/
theorem expect_anywhere {calls : List Call} {e : TypeDecl} (h : buildAfter unit calls d = .ok e)
    (i j : Nat) :
    ((∃ a, buildAfter unit (expectingAt i calls) d = .ok a) ↔
      ∃ b, buildAfter unit (expectingAt j calls) d = .ok b) ∧
    ∀ a b, buildAfter unit (expectingAt i calls) d = .ok a →
      buildAfter unit (expectingAt j calls) d = .ok b →
      { a with modifiers := b.modifiers } = b ∧
      .expect ∈ a.modifiers.toList ∧ .expect ∈ b.modifiers.toList ∧
      a.modifiers.toList.erase .expect = b.modifiers.toList.erase .expect ∧
      ∀ label w, ((a.pieces unit).layout label).run w = ((b.pieces unit).layout label).run w := by
  have hplace : ∀ n, ∃ e', e.Marked e' ∧ ∀ a, buildAfter unit (expectingAt n calls) d = .ok a ↔
      d.isAnonymous = false ∧ e.Expectable ∧ a = e' := by
    intro n
    rw [← List.take_append_drop n calls] at h
    exact exists_marked h
  obtain ⟨a', hma, ha'⟩ := hplace i
  obtain ⟨b', hmb, hb'⟩ := hplace j
  refine ⟨?_, fun a b ha hb => ?_⟩
  · simp only [ha', hb', exists_and_left, exists_eq]
  · obtain ⟨_, _, rfl⟩ := (ha' a).1 ha
    obtain ⟨_, _, rfl⟩ := (hb' b).1 hb
    refine ⟨?_, hma.modifiers.expect, hmb.modifiers.expect, ?_, fun label w => ?_⟩
    · rw [← hma.rest]
      exact hmb.rest
    · rw [hma.modifiers.rest, hmb.modifiers.rest]
    · rw [hma.run_eq hmb]

/-- A property comes before `expect` or after it, and another modifier too. -/
theorem expect_anywhere_open :
    let calls : List Call := [.addProperty (.str "x") (.type .unitType) [],
      .addModifiers [.modifier .openDecl]]
    let d := plain (.kind .classKind) (some "C") none
    let made (ms : List Modifier) : TypeDecl :=
      { d with modifiers := ⟨ms⟩, properties := [.plain "x" (.type .unitType)] }
    buildAfter (.ok "  ") calls d = .ok (made [.openDecl]) ∧
      buildAfter (.ok "  ") (expectingAt 0 calls) d = .ok (made [.expect, .openDecl]) ∧
      buildAfter (.ok "  ") (expectingAt 2 calls) d = .ok (made [.openDecl, .expect]) ∧
      ∀ w, (((made [.expect, .openDecl]).pieces (.ok "  ")).layout none).run w =
        (((made [.openDecl, .expect]).pieces (.ok "  ")).layout none).run w := by
  intro calls d made
  have h : buildAfter (.ok "  ") calls d = .ok (made [.openDecl]) := rfl
  have hfirst : buildAfter (.ok "  ") (expectingAt 0 calls) d = .ok (made [.expect, .openDecl]) :=
    rfl
  have hlast : buildAfter (.ok "  ") (expectingAt 2 calls) d = .ok (made [.openDecl, .expect]) :=
    rfl
  exact ⟨h, hfirst, hlast, ((expect_anywhere h 0 2).2 _ _ hfirst hlast).2.2.2.2 none⟩

end TypeDecl

end KotlinDecl
