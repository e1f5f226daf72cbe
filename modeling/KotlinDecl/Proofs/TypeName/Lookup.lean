import KotlinDecl.Proofs.CodeBlock.Equality
import KotlinDecl.Proofs.TypeDecl.Superinterfaces

namespace KotlinDecl

namespace HashKey

mutual

theorem beq_self : (k : HashKey) → k.beq k = true
  | .none => rfl
  | .number n => by simp [beq]
  | .text s => by simp [beq]
  | .group ks => beqAll_self ks

theorem beqAll_self : (ks : List HashKey) → beqAll ks ks = true
  | [] => rfl
  | k :: ks => by simp [beqAll, beq_self k, beqAll_self ks]

end

end HashKey

namespace Key

/-- The key can be hashed and is equal to itself. -/
structure Lawful (k : Key) : Prop where
  hash : ∃ h, k.hash = .ok h
  equal : Key.equal true k k = .ok true

theorem Lawful.finds {k : Key} (h : k.Lawful) : k.finds k = .ok true := by
  obtain ⟨⟨x, hx⟩, he⟩ := h
  have hs : k.sameHash k = .ok true := by
    rw [sameHash, hx]
    exact congrArg Except.ok x.beq_self
  rw [Key.finds, hs]
  exact he

theorem hashAll_ok {ks : List Key} (h : ∀ k ∈ ks, k.Lawful) : ∃ hs, hashAll ks = .ok hs := by
  induction ks with
  | nil => exact ⟨[], rfl⟩
  | cons k ks ih =>
      obtain ⟨hk, hks⟩ := List.forall_mem_cons.1 h
      exact bind_ok hk.hash fun _ => bind_ok (ih hks) fun _ => ⟨_, rfl⟩

theorem equalAll_self {ks : List Key} (h : ∀ k ∈ ks, k.Lawful) : equalAll ks ks = .ok true :=
  equalAll_iff.2 (List.forall₂_same.2 fun k hk => (h k hk).equal)

theorem lawful_named (package : Option String) (names : List String) (nullable : Bool) :
    (named package names nullable).Lawful := by
  refine ⟨⟨_, rfl⟩, ?_⟩
  simp [Key.equal]

theorem lawful_generic {raw : Key} {args : List Key} (hraw : raw.Lawful)
    (hargs : ∀ a ∈ args, a.Lawful) (nullable : Bool) : (generic raw args nullable).Lawful := by
  refine ⟨bind_ok hraw.hash fun _ => bind_ok (hashAll_ok hargs) fun _ => ⟨_, rfl⟩, ?_⟩
  simp [Key.equal, hraw.equal, equalAll_self hargs, bind, Except.bind, pure, Except.pure]

theorem lawful_typeVar {bounds : List Key} (h : ∀ b ∈ bounds, b.Lawful) (name : String)
    (variance : Option Variance) (reified nullable : Bool) :
    (typeVar name bounds variance reified nullable).Lawful := by
  refine ⟨bind_ok (hashAll_ok h) fun _ => ⟨_, rfl⟩, ?_⟩
  simp [Key.equal, equalAll_self h, bind, Except.bind, pure, Except.pure]

theorem not_finds_of_indexIn_go {sought : Key} {keys : List Key} {n : Nat}
    (h : indexIn.go sought n keys = .ok none) : ∀ k ∈ keys, sought.finds k = .ok false := by
  induction keys generalizing n with
  | nil => exact List.forall_mem_nil _
  | cons k keys ih =>
      rw [indexIn.go] at h
      obtain ⟨b, hb, h⟩ := ok_of_bind h
      cases b with
      | true => cases h
      | false => exact List.forall_mem_cons.2 ⟨hb, ih h⟩

/-- A key that has no place among others is found under none of them. -/
theorem not_finds_of_indexIn {sought : Key} {keys : List Key}
    (h : sought.indexIn keys = .ok none) : ∀ k ∈ keys, sought.finds k = .ok false := by
  obtain ⟨_, _, h⟩ := ok_of_bind h
  exact not_finds_of_indexIn_go h

end Key

theorem hereditary_lawful (unit : IndentUnit) :
    Hereditary (fun v => v.isType = true → v.wellTyped = true → (v.key unit).Lawful)
      (fun t => t.wellTyped = true → ((Value.type t).key unit).Lawful)
      (fun _ => True) (fun _ => True) (fun _ => True) (fun _ => True) (fun _ => True)
      (fun _ => True) where
  null h := nomatch h
  bool _ h := nomatch h
  int _ h := nomatch h
  str _ h := nomatch h
  list _ _ h := nomatch h
  modifier _ h := nomatch h
  kind _ h := nomatch h
  type _ ih _ h := ih h
  code _ _ h := nomatch h
  declAnnotation _ _ _ h := nomatch h
  declParameter _ _ _ h := nomatch h
  declProperty _ _ _ h := nomatch h
  declFunction _ _ _ h := nomatch h
  declType _ _ _ h := nomatch h
  named package names nullable _ := Key.lawful_named package names nullable
  generic raw args nullable ihraw ihargs h := by
    simp only [TypeName.wellTyped, Value.wellTypedAll_eq, Bool.and_eq_true, List.all_eq_true] at h
    obtain ⟨⟨⟨hraw, hraw'⟩, hargs⟩, hargs'⟩ := h
    have hkeys : ∀ k ∈ Value.keys unit args, k.Lawful := by
      rw [Value.keys, Value.formsAll_eq, List.map_map]
      exact List.forall_mem_map.2 fun v hv => ihargs v hv (hargs v hv) (hargs' v hv)
    exact Key.lawful_generic (ihraw hraw hraw') hkeys nullable
  typeVar name bounds variance reified nullable ih h := by
    simp only [TypeName.wellTyped, Value.wellTypedAll_eq, Bool.and_eq_true, List.all_eq_true] at h
    have hkeys : ∀ k ∈ Value.keys unit bounds, k.Lawful := by
      rw [Value.keys, Value.formsAll_eq, List.map_map]
      exact List.forall_mem_map.2 fun v hv => ih v hv (h.1 v hv) (h.2 v hv)
    exact Key.lawful_typeVar hkeys name variance reified nullable
  block _ _ := trivial
  annotationUse _ _ := trivial
  parameter _ _ := trivial
  function _ _ := trivial
  property _ _ := trivial
  typeDecl _ _ _ := trivial

namespace Value

variable {unit : IndentUnit} {u v : Value}

/-- The value is a type, and so is all that stands in the place of one in it. -/
def IsProperType (v : Value) : Prop := v.isType = true ∧ v.wellTyped = true

theorem IsProperType.finds (h : v.IsProperType) : (v.key unit).finds (v.key unit) = .ok true :=
  ((hereditary_lawful unit).ofValue v h.1 h.2).finds

theorem IsProperType.eq_of_finds (h : v.IsProperType)
    (hf : (u.key unit).finds (v.key unit) = .ok true) : u = v := by
  obtain ⟨b, _, hf⟩ := ok_of_bind hf
  cases b with
  | false => cases hf
  | true =>
      have hv := (hereditary_equalInStep unit).ofValue v (isBasic_of_type h.1 h.2)
      exact hv.type hf h.1

end Value

end KotlinDecl
