import KotlinDecl.Proofs.Format
import KotlinDecl.TypeDecl.Builder

namespace KotlinDecl

namespace Key

theorem exists_of_indexIn_go {sought : Key} {keys : List Key} {m n : Nat}
    (h : indexIn.go sought m keys = .ok (some n)) :
    ∃ i k, n = m + i ∧ keys[i]? = some k ∧ sought.finds k = .ok true := by
  induction keys generalizing m with
  | nil => cases h
  | cons k keys ih =>
      rw [indexIn.go] at h
      obtain ⟨b, hb, h⟩ := ok_of_bind h
      cases b with
      | true =>
          cases h
          exact ⟨0, k, rfl, rfl, hb⟩
      | false =>
          obtain ⟨i, k', hi, hk, hf⟩ := ih h
          exact ⟨i + 1, k', by omega, hk, hf⟩

theorem exists_of_indexIn {sought : Key} {keys : List Key} {n : Nat}
    (h : sought.indexIn keys = .ok (some n)) :
    ∃ k, keys[n]? = some k ∧ sought.finds k = .ok true := by
  obtain ⟨_, _, h⟩ := ok_of_bind h
  obtain ⟨i, k, hi, hk, hf⟩ := exists_of_indexIn_go h
  exact ⟨k, by rwa [hi, Nat.zero_add], hf⟩

/-- No key is found among those in front of it. -/
def Distinct (keys : List Key) : Prop :=
  ∀ front k back, keys = front ++ k :: back → k.indexIn front = .ok none

theorem distinct_nil : Distinct [] := by
  intro front k back h
  simp at h

theorem Distinct.snoc {keys : List Key} (h : Distinct keys) {k : Key}
    (hk : k.indexIn keys = .ok none) : Distinct (keys ++ [k]) := by
  intro front k' back he
  rcases List.eq_nil_or_concat back with rfl | ⟨back, b, rfl⟩
  · obtain ⟨rfl, hl⟩ := List.append_inj' he rfl
    cases hl
    exact hk
  · rw [List.concat_eq_append, ← List.cons_append, ← List.append_assoc] at he
    obtain ⟨rfl, -⟩ := List.append_inj' he rfl
    exact h front k' back rfl

def nullable? : Key → Option Bool
  | .named _ _ n | .generic _ _ n | .typeVar _ _ _ _ n => some n
  | _ => none

theorem nullable?_of_equal {a b : Key} {inside : Bool} (h : equal inside a b = .ok true) :
    a.nullable? = b.nullable? := by
  unfold equal at h
  split at h
  -- Types are only equal to types of their own form, and their nullability is compared last.
  case h_10 =>
    simp only [Except.ok.injEq, Bool.and_eq_true, decide_eq_true_eq] at h
    exact congrArg some h.2
  case h_11 =>
    obtain ⟨x, _, h⟩ := ok_of_bind h
    cases x with
    | false => cases h
    | true =>
        obtain ⟨y, _, h⟩ := ok_of_bind h
        cases y with
        | false => cases h
        | true => exact congrArg some (of_decide_eq_true (Except.ok.inj h))
  case h_12 =>
    split at h
    · obtain ⟨x, _, h⟩ := ok_of_bind h
      cases x with
      | false => cases h
      | true =>
          have hn := Except.ok.inj h
          simp only [Bool.and_eq_true, decide_eq_true_eq] at hn
          exact congrArg some hn.2
    · cases h
  case h_15 => cases h
  all_goals rfl

end Key

def Value.nullable? : Value → Option Bool
  | .type t => some t.isNullable
  | _ => none

theorem Value.nullable?_key (unit : IndentUnit) (v : Value) :
    (v.key unit).nullable? = v.nullable? := by
  cases v with
  | type t => cases t <;> rfl
  | code c => cases c; rfl
  | decl n d => cases d <;> rfl
  | _ => rfl

theorem Value.nullable?_of_finds {unit : IndentUnit} {v w : Value}
    (h : (v.key unit).finds (w.key unit) = .ok true) : w.nullable? = v.nullable? := by
  obtain ⟨b, _, h⟩ := ok_of_bind h
  cases b with
  | false => cases h
  | true =>
      rw [← Value.nullable?_key unit w, ← Value.nullable?_key unit v]
      exact Key.nullable?_of_equal h

theorem mem_modify {α : Type} {f : α → α} {as : List α} {n : Nat} {x : α}
    (h : x ∈ as.modify n f) : x ∈ as ∨ ∃ y, as[n]? = some y ∧ x = f y := by
  obtain ⟨i, hi⟩ := List.mem_iff_getElem?.1 h
  rw [List.getElem?_modify] at hi
  obtain ⟨y, hy, hx⟩ := Option.map_eq_some_iff.1 hi
  by_cases hn : n = i
  · exact .inr ⟨y, hn ▸ hy, by rw [← hx, if_pos hn]⟩
  · rw [if_neg hn] at hx
    exact .inl (List.mem_iff_getElem?.2 ⟨i, hx ▸ hy⟩)

theorem map_modify {α β : Type} {f : α → α} {g : α → β} (h : ∀ a, g (f a) = g a) (as : List α)
    (n : Nat) : (as.modify n f).map g = as.map g := by
  refine List.ext_getElem? fun i => ?_
  rw [List.getElem?_map, List.getElem?_map, List.getElem?_modify, Option.map_eq_map, Option.map_map]
  refine congrArg (Option.map · as[i]?) (funext fun a => ?_)
  by_cases hn : n = i <;> simp [hn, h]

namespace TypeDecl

variable {unit : IndentUnit}

theorem putSuperinterface_ok {ss ss' : List Superinterface} {s : Superinterface}
    (h : putSuperinterface unit ss s = .ok ss') :
    superinterfaceIndex unit s.type ss = .ok none ∧ ss' = ss ++ [s] ∨
      ∃ n y, ss[n]? = some y ∧ (s.type.key unit).finds (y.type.key unit) = .ok true ∧
        ss' = ss.modify n ({ · with delegate := s.delegate }) := by
  obtain ⟨i, hi, h⟩ := ok_of_bind h
  cases i with
  | none =>
      cases h
      exact .inl ⟨hi, rfl⟩
  | some n =>
      cases h
      obtain ⟨k, hk, hf⟩ := Key.exists_of_indexIn hi
      rw [List.getElem?_map] at hk
      obtain ⟨y, hy, rfl⟩ := Option.map_eq_some_iff.1 hk
      exact .inr ⟨n, y, hy, hf, rfl⟩

theorem mem_putSuperinterface {ss ss' : List Superinterface} {s : Superinterface}
    (h : putSuperinterface unit ss s = .ok ss') :
    ∀ x ∈ ss', x ∈ ss ∨ x = s ∨ ∃ y ∈ ss,
      (s.type.key unit).finds (y.type.key unit) = .ok true ∧
        x = { y with delegate := s.delegate } := by
  intro x hx
  rcases putSuperinterface_ok h with ⟨_, rfl⟩ | ⟨n, y, hy, hf, rfl⟩
  · exact (List.mem_append.1 hx).imp_right fun hx => .inl (List.mem_singleton.1 hx)
  · rcases mem_modify hx with hx | ⟨z, hz, rfl⟩
    · exact .inl hx
    · cases hy.symm.trans hz
      exact .inr (.inr ⟨y, List.mem_of_getElem? hy, hf, rfl⟩)

def superinterfaceKeys (unit : IndentUnit) (ss : List Superinterface) : List Key :=
  ss.map (·.type.key unit)

theorem distinct_putSuperinterface {ss ss' : List Superinterface} {s : Superinterface}
    (hd : Key.Distinct (superinterfaceKeys unit ss)) (h : putSuperinterface unit ss s = .ok ss') :
    Key.Distinct (superinterfaceKeys unit ss') := by
  rcases putSuperinterface_ok h with ⟨hi, rfl⟩ | ⟨n, y, _, _, rfl⟩
  · rw [superinterfaceKeys, List.map_append]
    exact hd.snoc hi
  · have hm := map_modify (f := fun x => { x with delegate := s.delegate })
      (g := fun x : Superinterface => x.type.key unit) (fun _ => rfl) ss n
    rw [superinterfaceKeys, hm]
    exact hd

/-- Superinterfaces that are put into an empty list one after the other come out as they are,
because each of them is new. -/
theorem foldlM_putSuperinterface {ss : List Superinterface}
    (hd : Key.Distinct (superinterfaceKeys unit ss)) :
    ss.foldlM (putSuperinterface unit) [] = .ok ss := by
  suffices h : ∀ front back, ss = front ++ back →
      back.foldlM (putSuperinterface unit) front = .ok ss from h [] ss rfl
  intro front back he
  induction back generalizing front with
  | nil => rw [he, List.append_nil]; rfl
  | cons s back ih =>
      have hi : superinterfaceIndex unit s.type front = .ok none :=
        hd (superinterfaceKeys unit front) _ (superinterfaceKeys unit back) (by
          simp [superinterfaceKeys, he])
      have hp : putSuperinterface unit front s = .ok (front ++ [s]) := by
        rw [putSuperinterface, hi]
        rfl
      rw [List.foldlM_cons, hp]
      exact ih (front ++ [s]) (by simp [he])

end TypeDecl

end KotlinDecl
