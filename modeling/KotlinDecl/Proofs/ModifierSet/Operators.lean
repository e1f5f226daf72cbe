import KotlinDecl.Proofs.ModifierSet.Calls

namespace KotlinDecl.ModifierSet

open scoped symmDiff

variable {unit : IndentUnit} {s : ModifierSet}

inductive Operator
  | union
  | inter
  | diff
  | symmDiff

namespace Operator

def call : Operator → Operand → Call
  | union => .union
  | inter => .inter
  | diff => .diff
  | symmDiff => .symmDiff

def onMembers : Operator → Finset Modifier → Finset Modifier → Finset Modifier
  | union => (· ∪ ·)
  | inter => (· ∩ ·)
  | diff => (· \ ·)
  | symmDiff => (· ∆ ·)

/-- The members that count of an operand, if the call goes through. For the common members of a set
and some items it is enough that the items can be looked for. -/
def operand? (unit : IndentUnit) (S : Finset Modifier) : Operator → Operand →
    Option (Finset Modifier)
  | inter, .items v => (found v).map fun os => os.reduceOption.toFinset
  | _, other => other.members? S
where
  found (v : Value) : Option (List (Option Modifier)) :=
    v.items.toOption.bind fun vs => vs.mapM fun v => (member? unit v).toOption

theorem toOption_found (v : Value) :
    (v.items >>= fun vs => vs.mapM (member? unit)).toOption = operand?.found unit v := by
  rw [toOption_bind, operand?.found]
  simp only [toOption_mapM]

def result (unit : IndentUnit) (s : ModifierSet) : Operator → Operand → Except Error ModifierSet
  | union => s.unionOf unit
  | inter => s.interOf unit
  | diff => s.diffOf unit
  | symmDiff => s.symmDiffOf unit

theorem call_apply (op : Operator) (other : Operand) : (op.call other).apply unit =
    consult fun s => do return .members (← op.result unit s other).toList := by
  cases op <;> rfl

theorem found_of_operand {other : Operand} {T : Finset Modifier}
    (h : inter.operand? unit s.members other = some T) :
    ∃ found, (other.values unit s >>= fun vs => vs.mapM (member? unit)) = .ok found ∧
      found.reduceOption.toFinset = T := by
  have hmembers (h : other.members? s.members = some T) :
      ∃ found, (other.values unit s >>= fun vs => vs.mapM (member? unit)) = .ok found ∧
        found.reduceOption.toFinset = T := by
    obtain ⟨ms, hms, rfl⟩ := Operand.values_of_members h
    have hall : (ms.map some).reduceOption = ms := List.filterMap_map.trans List.filterMap_some
    refine ⟨ms.map some, ?_, by rw [hall]⟩
    rw [hms]
    exact mapM_modifiers (g := some) (fun _ => rfl) ms
  cases other with
  | itself => exact hmembers h
  | made v => exact hmembers h
  | items v =>
      obtain ⟨found, hfound, hT⟩ := Option.map_eq_some_iff.1 h
      exact ⟨found, ok_of_toOption ((toOption_found v).trans hfound), hT⟩

theorem exists_set (op : Operator) (hs : s.toList.Nodup) {other : Operand} {T : Finset Modifier}
    (h : op.operand? unit s.members other = some T) :
    ∃ r : ModifierSet, op.result unit s other = .ok r ∧
      r.toList.Nodup ∧ r.members = op.onMembers s.members T := by
  cases op with
  | union =>
      obtain ⟨ms, hms, rfl⟩ := Operand.values_of_members h
      refine ⟨s.insertMany ms, ?_, nodup_insertMany hs ms, (renews_insertMany s ms).members⟩
      have hall : (ms.map Value.modifier).mapM (·.asModifier unit) = .ok ms :=
        (mapM_modifiers (g := id) (fun _ => rfl) ms).trans (congrArg Except.ok ms.map_id)
      rw [result, unionOf, hms]
      exact congrArg (· >>= fun ms => Except.ok (s.insertMany ms)) hall
  | inter =>
      obtain ⟨found, hfound, rfl⟩ := found_of_operand h
      refine ⟨s.inter found.reduceOption, ?_, nodup_ofList _, members_inter s _⟩
      rw [result, interOf, ← bind_assoc, hfound]
      rfl
  | diff =>
      obtain ⟨t, ht, rfl⟩ := Operand.toSet_of_members h
      exact ⟨s.diff t, by rw [result, diffOf, ht]; rfl, nodup_ofList _, members_diff s t⟩
  | symmDiff =>
      obtain ⟨t, ht, rfl⟩ := Operand.toSet_of_members h
      refine ⟨s.symmDiff t, by rw [result, symmDiffOf, ht]; rfl,
        nodup_insertMany (nodup_ofList _) _, ?_⟩
      rw [ModifierSet.symmDiff, members_union, members_diff, members_diff]
      rfl

theorem exists_error (op : Operator) {other : Operand}
    (h : op.operand? unit s.members other = none) :
    ∃ e, op.result unit s other = .error e := by
  cases op with
  | union =>
      apply error_of_toOption
      rw [result, unionOf, ← bind_assoc, toOption_bind]
      cases other with
      | itself => cases h
      | made v =>
          obtain ⟨e, he⟩ := Operand.values_made_of_none (Option.map_eq_none_iff.1 h)
          rw [he]
          rfl
      | items v =>
          rw [Operand.values, toOption_modifiers, Option.map_eq_none_iff.1 h]
          rfl
  | inter =>
      apply error_of_toOption
      rw [result, interOf, ← bind_assoc, toOption_bind]
      cases other with
      | itself => cases h
      | made v =>
          obtain ⟨e, he⟩ := Operand.values_made_of_none (Option.map_eq_none_iff.1 h)
          rw [he]
          rfl
      | items v =>
          rw [Operand.values, toOption_found, Option.map_eq_none_iff.1 h]
          rfl
  | diff =>
      obtain ⟨e, he⟩ := Operand.toSet_of_none h
      exact ⟨e, by rw [result, diffOf, he]; rfl⟩
  | symmDiff =>
      obtain ⟨e, he⟩ := Operand.toSet_of_none h
      exact ⟨e, by rw [result, symmDiffOf, he]; rfl⟩

theorem apply_of_operand (op : Operator) (hs : s.toList.Nodup) {other : Operand}
    {T : Finset Modifier} (h : op.operand? unit s.members other = some T) :
    ∃ ns, (op.call other).apply unit s = .ok (.members ns) s ∧ ns.Nodup ∧
      ns.toFinset = op.onMembers s.members T := by
  obtain ⟨r, hr, hnodup, hmembers⟩ := op.exists_set hs h
  refine ⟨r.toList, ?_, hnodup, hmembers⟩
  rw [call_apply]
  exact consult_of_ok (by rw [hr]; rfl)

theorem apply_of_none (op : Operator) {other : Operand}
    (h : op.operand? unit s.members other = none) :
    ∃ e, (op.call other).apply unit s = .error e s := by
  obtain ⟨e, he⟩ := op.exists_error h
  refine ⟨e, ?_⟩
  rw [call_apply]
  exact consult_of_error (by rw [he]; rfl)

end Operator

end KotlinDecl.ModifierSet
