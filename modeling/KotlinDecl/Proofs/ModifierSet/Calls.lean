import KotlinDecl.ModifierSet.Run
import KotlinDecl.Proofs.ModifierSet.Operations

namespace KotlinDecl

open Edit

open scoped symmDiff

def Value.modifier? : Value → Option Modifier
  | .modifier m => some m
  | _ => none

namespace ModifierSet

def Call.after (unit : IndentUnit) (s : ModifierSet) (call : Call) : ModifierSet :=
  match call.apply unit s with
  | .ok _ t => t
  | .error _ t => t

def after (unit : IndentUnit) (s : ModifierSet) (calls : List Call) : ModifierSet :=
  calls.foldl (Call.after unit) s

/-- The modifiers in front of the first value that is none. -/
def leading : List Value → List Modifier
  | [] => []
  | v :: vs =>
    match v.modifier? with
    | some m => m :: leading vs
    | none => []

/-- The modifiers in front of the first value that cannot be looked for. -/
def sought (unit : IndentUnit) : List Value → List Modifier
  | [] => []
  | v :: vs =>
    match member? unit v with
    | .ok o => o.toList ++ sought unit vs
    | .error _ => []

def listed (v : Value) : Option (List Modifier) :=
  v.items.toOption.bind fun vs => vs.mapM Value.modifier?

def itemsOf (v : Value) : List Value := v.items.toOption.getD []

def Call.offered : Call → List Modifier
  | add v => leading [v]
  | update vs => leading (itemsOf vs)
  | unionWith (.items v) => leading (itemsOf v)
  | unionWith (.made v) => (listed v).getD []
  | symmDiffWith (.made v) => (listed v).getD []
  | symmDiffWith (.items v) => (listed v).getD []
  | _ => []

/-- The members of an operand as a set, where `S` are those of the set it is combined with. Nothing
but modifiers makes a set. -/
def Operand.members? (S : Finset Modifier) : Operand → Option (Finset Modifier)
  | itself => some S
  | made v => (listed v).map List.toFinset
  | items v => (listed v).map List.toFinset

def combined (f : Finset Modifier → Finset Modifier → Finset Modifier) (S : Finset Modifier)
    (other : Operand) : Finset Modifier :=
  (other.members? S).elim S (f S)

/-- The members after a call, as set theory has them: `S` are those before it, and `first` is the
one of them that is taken first. Items that are added or taken out one by one count up to the first
that is refused. -/
def Call.meaning (unit : IndentUnit) (first : Option Modifier) (S : Finset Modifier) :
    Call → Finset Modifier
  | add v => S ∪ (leading [v]).toFinset
  | update vs => S ∪ (leading (itemsOf vs)).toFinset
  | discard v => S \ v.modifier?.toFinset
  | remove v => S \ v.modifier?.toFinset
  | clear => ∅
  | pop => S \ first.toFinset
  | unionWith (.items v) => S ∪ (leading (itemsOf v)).toFinset
  | unionWith other => combined (· ∪ ·) S other
  | interWith other => combined (· ∩ ·) S other
  | diffWith (.items v) => S \ (sought unit (itemsOf v)).toFinset
  | diffWith other => combined (· \ ·) S other
  | symmDiffWith other => combined (· ∆ ·) S other
  | _ => S

variable {unit : IndentUnit} {s : ModifierSet} {offered ms : List Modifier}

theorem toOption_asModifier (v : Value) : (v.asModifier unit).toOption = v.modifier? := by
  cases v with
  | modifier m => rfl
  | _ => exact (toOption_bind _ _).trans (Option.bind_fun_none _)

theorem modifier_of_some {v : Value} {m : Modifier} (h : v.modifier? = some m) :
    v = .modifier m := by
  cases v with
  | modifier n =>
      cases h
      rfl
  | _ => cases h

/-- What is added before a value is refused stays. -/
theorem outcome_addAll (vs : List Value) (s : ModifierSet) :
    ((addAll unit vs).outcome s).1 = s.insertMany (leading vs) := by
  induction vs generalizing s with
  | nil => rfl
  | cons v vs ih =>
      rw [leading]
      cases hv : v.modifier? with
      | some m =>
          obtain rfl := modifier_of_some hv
          exact ih (s.insert m)
      | none =>
          obtain ⟨e, he⟩ := error_of_toOption ((toOption_asModifier v).trans hv)
          have hstop : addAll unit (v :: vs) s = .error e s := by
            rw [addAll, forEach, he]
            rfl
          rw [outcome_of_error hstop]
          rfl

theorem toOption_modifiers (unit : IndentUnit) (v : Value) :
    (v.items >>= fun vs => vs.mapM (·.asModifier unit)).toOption = listed v := by
  rw [toOption_bind, listed]
  congr 1
  funext vs
  rw [toOption_mapM]
  exact congrArg (List.mapM · vs) (funext toOption_asModifier)

theorem toOption_ofValue (unit : IndentUnit) (v : Value) :
    (ofValue unit v).toOption = (listed v).map ofList := by
  have hbind : ofValue unit v = (v.items >>= fun vs => vs.mapM (·.asModifier unit)) >>= fun ms =>
    .ok (ofList ms) := (bind_assoc _ _ _).symm
  rw [hbind, toOption_bind, toOption_modifiers, Option.map_eq_bind]
  rfl

theorem after_of_edit {call : Call} {e : Edit ModifierSet Unit}
    (h : call.apply unit s = (e >>= fun _ => pure .nothing) s) :
    call.after unit s = (e.outcome s).1 := by
  rw [Call.after, h, outcome]
  cases he : e s with
  | ok _ t => rw [bind_of_ok he]; rfl
  | error x t => rw [bind_of_error he]

theorem after_of_items {call : Call} {r : Except Error (List Value)}
    {f : List Value → Edit ModifierSet Unit}
    (h : call.apply unit s = (require r >>= fun vs => f vs >>= fun _ => pure .nothing) s) :
    call.after unit s = r.toOption.elim s fun vs => ((f vs).outcome s).1 := by
  cases r with
  | ok vs => exact after_of_edit h
  | error e =>
      rw [Call.after, h]
      rfl

theorem member?_cases (unit : IndentUnit) (v : Value) :
    member? unit v = .ok v.modifier? ∨ v.modifier? = none ∧ ∃ e, member? unit v = .error e := by
  cases hv : v.modifier? with
  | some m =>
      obtain rfl := modifier_of_some hv
      exact .inl rfl
  | none =>
      cases hm : member? unit v with
      | error e => exact .inr ⟨rfl, e, rfl⟩
      | ok o =>
          obtain ⟨_, _, h⟩ := ok_of_bind hm
          cases v with
          | modifier m => cases hv
          | _ => exact .inl (congrArg _ (Except.ok.inj h).symm)

theorem discard_empty (v : Value) : discard unit v empty = .ok () empty := rfl

theorem discard_of_ok {v : Value} {o : Option Modifier} (h : member? unit v = .ok o)
    (hs : s.toList ≠ []) : discard unit v s = .ok () (o.elim s s.erase) := by
  obtain ⟨_ | ⟨m, ms⟩⟩ := s
  · exact absurd rfl hs
  · rw [discard, h]
    cases o <;> rfl

theorem discard_of_error {v : Value} {e : Error} (h : member? unit v = .error e)
    (hs : s.toList ≠ []) : discard unit v s = .error e s := by
  obtain ⟨_ | ⟨m, ms⟩⟩ := s
  · exact absurd rfl hs
  · rw [discard, h]
    rfl

theorem outcome_discard (v : Value) (s : ModifierSet) :
    ((discard unit v).outcome s).1 = v.modifier?.elim s s.erase := by
  by_cases hs : s.toList = []
  · obtain rfl : s = empty := congrArg ModifierSet.mk hs
    rw [outcome_of_ok (discard_empty v)]
    cases v.modifier? <;> rfl
  · rcases member?_cases unit v with hm | ⟨hv, e, he⟩
    · rw [outcome_of_ok (discard_of_ok hm hs)]
    · rw [outcome_of_error (discard_of_error he hs), hv]
      rfl

/-- What is taken out before an item is refused stays out. -/
theorem outcome_discardAll (vs : List Value) (s : ModifierSet) :
    ((forEach (discard unit) vs).outcome s).1 = (sought unit vs).foldl erase s := by
  have hempty (ms : List Modifier) : ms.foldl erase empty = empty := by
    induction ms with
    | nil => rfl
    | cons m ms ih => exact ih
  induction vs generalizing s with
  | nil => rfl
  | cons v vs ih =>
      have hcons : forEach (discard unit) (v :: vs) =
        discard unit v >>= fun _ => forEach (discard unit) vs := rfl
      by_cases hs : s.toList = []
      · obtain rfl : s = empty := congrArg ModifierSet.mk hs
        rw [outcome, hcons, bind_of_ok (discard_empty v)]
        exact (ih empty).trans ((hempty _).trans (hempty _).symm)
      · rw [sought]
        cases hv : member? unit v with
        | ok o =>
            rw [outcome, hcons, bind_of_ok (discard_of_ok hv hs), List.foldl_append]
            refine (ih _).trans ?_
            cases o <;> rfl
        | error e =>
            rw [outcome, hcons, bind_of_error (discard_of_error hv hs)]
            rfl

theorem remove_modifier (m : Modifier) (s : ModifierSet) :
    (Call.remove (.modifier m)).apply unit s =
      if s.contains m then .ok .nothing (s.erase m) else .error .absent s := by
  show (ite (s.contains m = true) _ _ : Edit ModifierSet Answer) s = _
  split <;> rfl

theorem after_remove (v : Value) (s : ModifierSet) :
    (Call.remove v).after unit s = v.modifier?.elim s s.erase := by
  cases hv : v.modifier? with
  | some m =>
      obtain rfl := modifier_of_some hv
      rw [Call.after, remove_modifier]
      by_cases hs : s.contains m = true
      · rw [if_pos hs]
        rfl
      · rw [if_neg hs]
        exact (erase_of_not_mem (mt contains_iff.2 hs)).symm
  | none =>
      rcases member?_cases unit v with hm | ⟨_, e, he⟩
      · rw [Call.after, Call.apply, hm, hv]
        rfl
      · rw [Call.after, Call.apply, he]
        rfl

theorem pop_apply (s : ModifierSet) :
    Call.pop.apply unit s =
      s.toList.head?.elim (.error .absent s) fun m => .ok (.member m) (s.erase m) := by
  obtain ⟨ms⟩ := s
  cases ms with
  | nil => rfl
  | cons m ms =>
      have hrest : (⟨m :: ms⟩ : ModifierSet).erase m = ⟨ms⟩ :=
        congrArg ModifierSet.mk (List.erase_cons_head m ms)
      show _ = EStateM.Result.ok _ _
      rw [hrest]
      rfl

theorem after_pop (s : ModifierSet) : Call.pop.after unit s = s.toList.head?.elim s s.erase := by
  rw [Call.after, pop_apply]
  cases s.toList.head? <;> rfl

theorem consult_of_ok {f : ModifierSet → Except Error Answer} {a : Answer} (h : f s = .ok a) :
    consult f s = .ok a s := by
  rw [consult, get_bind, h]
  rfl

theorem consult_of_error {f : ModifierSet → Except Error Answer} {e : Error} (h : f s = .error e) :
    consult f s = .error e s := by
  rw [consult, get_bind, h]
  rfl

theorem after_consult {call : Call} {f : ModifierSet → Except Error Answer}
    (h : call.apply unit = consult f) : call.after unit s = s := by
  rw [Call.after, h]
  cases hf : f s with
  | ok a => rw [consult_of_ok hf]
  | error e => rw [consult_of_error hf]

theorem elim_itemsOf (f : List Value → ModifierSet) (hf : f [] = s) (v : Value) :
    v.items.toOption.elim s f = f (itemsOf v) := by
  rw [itemsOf]
  cases v.items with
  | ok vs => rfl
  | error e => exact hf.symm

theorem after_update (vs : Value) (s : ModifierSet) :
    (Call.update vs).after unit s = s.insertMany (leading (itemsOf vs)) := by
  rw [after_of_items rfl]
  simp only [outcome_addAll]
  exact elim_itemsOf (fun vs => s.insertMany (leading vs)) rfl vs

theorem after_unionWith (other : Operand) (s : ModifierSet) :
    (Call.unionWith other).after unit s =
      (other.values unit s).toOption.elim s fun vs => s.insertMany (leading vs) := by
  rw [after_of_items rfl]
  simp only [outcome_addAll]

theorem after_diffWith {other : Operand} (h : other ≠ .itself) (s : ModifierSet) :
    (Call.diffWith other).after unit s =
      (other.values unit s).toOption.elim s fun vs => (sought unit vs).foldl erase s := by
  have happly : (Call.diffWith other).apply unit s =
      (require (other.values unit s) >>= fun vs =>
        forEach (ModifierSet.discard unit) vs >>= fun _ => pure .nothing) s := by
    cases other with
    | itself => exact absurd rfl h
    | made v => rfl
    | items v => rfl
  rw [after_of_items happly]
  simp only [outcome_discardAll]

theorem after_contains (v : Value) (s : ModifierSet) : (Call.contains v).after unit s = s := by
  rw [Call.after, Call.apply]
  rcases member?_cases unit v with hm | ⟨_, e, he⟩
  · rw [hm]
    cases v.modifier? <;> rfl
  · rw [he]
    rfl

theorem items_of_listed {v : Value} (h : listed v = some ms) :
    v.items = .ok (ms.map .modifier) := by
  obtain ⟨vs, hvs, hmap⟩ := Option.bind_eq_some_iff.1 h
  rw [ok_of_toOption hvs]
  clear hvs h
  induction vs generalizing ms with
  | nil =>
      cases hmap
      rfl
  | cons v vs ih =>
      rw [List.mapM_cons] at hmap
      obtain ⟨m, hm, hmap⟩ := Option.bind_eq_some_iff.1 hmap
      obtain ⟨rest, hrest, hms⟩ := Option.bind_eq_some_iff.1 hmap
      cases hms
      rw [modifier_of_some hm, Except.ok.inj (ih hrest)]
      rfl

theorem leading_map (ms : List Modifier) : leading (ms.map .modifier) = ms := by
  induction ms with
  | nil => rfl
  | cons m ms ih => exact congrArg (m :: ·) ih

theorem sought_map (ms : List Modifier) : sought unit (ms.map .modifier) = ms := by
  induction ms with
  | nil => rfl
  | cons m ms ih => exact congrArg (m :: ·) ih

theorem mapM_modifiers {β : Type} {f : Value → Except Error β} {g : Modifier → β}
    (h : ∀ m, f (.modifier m) = .ok (g m)) (ms : List Modifier) :
    (ms.map Value.modifier).mapM f = .ok (ms.map g) := by
  induction ms with
  | nil => rfl
  | cons m ms ih =>
      rw [List.map_cons, List.mapM_cons, h, ih]
      rfl

theorem ofValue_of_listed {v : Value} (h : listed v = some ms) :
    ofValue unit v = .ok (ofList ms) :=
  ok_of_toOption ((toOption_ofValue unit v).trans (congrArg (Option.map ofList) h))

theorem ofValue_of_not_listed {v : Value} (h : listed v = none) : ∃ e, ofValue unit v = .error e :=
  error_of_toOption ((toOption_ofValue unit v).trans (congrArg (Option.map ofList) h))

namespace Operand

theorem values_made {v : Value} (h : listed v = some ms) :
    (made v).values unit s = .ok ((ofList ms).toList.map .modifier) := by
  rw [values, ofValue_of_listed h]
  rfl

theorem values_made_of_none {v : Value} (h : listed v = none) :
    ∃ e, (made v).values unit s = .error e := by
  obtain ⟨e, he⟩ := ofValue_of_not_listed h
  exact ⟨e, by rw [values, he]; rfl⟩

theorem toSet_of_members {other : Operand} {T : Finset Modifier}
    (h : other.members? s.members = some T) : ∃ t, other.toSet unit s = .ok t ∧ t.members = T := by
  have hvalue {v : Value} (h : (listed v).map List.toFinset = some T) :
      ∃ t, ofValue unit v = .ok t ∧ t.members = T := by
    obtain ⟨ms, hms, rfl⟩ := Option.map_eq_some_iff.1 h
    exact ⟨ofList ms, ofValue_of_listed hms, toFinset_ofList ms⟩
  cases other with
  | itself => exact ⟨s, rfl, Option.some.inj h⟩
  | made v => exact hvalue h
  | items v => exact hvalue h

theorem values_of_members {other : Operand} {T : Finset Modifier}
    (h : other.members? s.members = some T) :
    ∃ ms : List Modifier, other.values unit s = .ok (ms.map .modifier) ∧ ms.toFinset = T := by
  cases other with
  | itself => exact ⟨s.toList, rfl, Option.some.inj h⟩
  | made v =>
      obtain ⟨ms, hms, rfl⟩ := Option.map_eq_some_iff.1 h
      exact ⟨_, values_made hms, toFinset_ofList ms⟩
  | items v =>
      obtain ⟨ms, hms, rfl⟩ := Option.map_eq_some_iff.1 h
      exact ⟨ms, items_of_listed hms, rfl⟩

theorem toSet_of_none {other : Operand} (h : other.members? s.members = none) :
    ∃ e, other.toSet unit s = .error e := by
  cases other with
  | itself => cases h
  | made v => exact ofValue_of_not_listed (Option.map_eq_none_iff.1 h)
  | items v => exact ofValue_of_not_listed (Option.map_eq_none_iff.1 h)

end Operand

theorem renews_combine {call : Call} {f : ModifierSet → ModifierSet → ModifierSet}
    {other : Operand} {g : Finset Modifier → Finset Modifier → Finset Modifier}
    (h : call.apply unit = combine unit f other >>= fun _ => pure .nothing)
    (hf : ∀ t, other.toSet unit s = .ok t →
      Renews offered (g s.members t.members) s (f s t)) :
    Renews offered (combined g s.members other) s (call.after unit s) := by
  rw [after_of_edit (congrFun h s), combined]
  cases hother : other.members? s.members with
  | none =>
      obtain ⟨e, he⟩ := Operand.toSet_of_none hother
      rw [outcome, combine, get_bind, he]
      exact renews_self
  | some T =>
      obtain ⟨t, ht, rfl⟩ := Operand.toSet_of_members hother
      rw [outcome, combine, get_bind, ht]
      exact hf t ht

theorem renews_made {v : Value} {f : List Value → ModifierSet}
    {g : Finset Modifier → Finset Modifier → Finset Modifier}
    (hf : ∀ ms, listed v = some ms →
      Renews offered (g s.members ms.toFinset) s (f ((ofList ms).toList.map .modifier))) :
    Renews offered (combined g s.members (.made v)) s
      (((Operand.made v).values unit s).toOption.elim s f) := by
  rw [combined, Operand.members?]
  cases hv : listed v with
  | none =>
      obtain ⟨e, he⟩ := Operand.values_made_of_none hv
      rw [he]
      exact renews_self
  | some ms =>
      rw [Operand.values_made hv]
      exact hf ms hv

theorem renews_unionWith (other : Operand) (s : ModifierSet) :
    Renews (Call.unionWith other).offered
      ((Call.unionWith other).meaning unit s.toList.head? s.members) s
      ((Call.unionWith other).after unit s) := by
  rw [after_unionWith]
  cases other with
  | itself =>
      show Renews [] (s.members ∪ s.members) s (s.insertMany (leading (s.toList.map .modifier)))
      rw [leading_map, insertMany_self, Finset.union_self]
      exact renews_self
  | made v =>
      refine renews_made fun ms hms => ?_
      rw [Call.offered, hms, leading_map]
      exact renews_union s ms
  | items v =>
      rw [Operand.values, elim_itemsOf (s := s) (fun vs => s.insertMany (leading vs)) rfl]
      exact renews_insertMany s (leading (itemsOf v))

theorem renews_empty : Renews offered ∅ s empty := by
  refine renews_of_filter ?_ (Finset.empty_subset _)
  exact (List.filter_eq_nil_iff.2 fun m _ => by simp).symm

theorem renews_diffWith (hs : s.toList.Nodup) (other : Operand) :
    Renews (Call.diffWith other).offered
      ((Call.diffWith other).meaning unit s.toList.head? s.members) s
      ((Call.diffWith other).after unit s) := by
  cases other with
  | itself =>
      show Renews [] (s.members \ s.members) s empty
      rw [Finset.sdiff_self]
      exact renews_empty
  | made v =>
      rw [after_diffWith (by nofun)]
      refine renews_made fun ms _ => ?_
      rw [sought_map, ← toFinset_ofList]
      exact renews_foldl_erase hs (ofList ms).toList
  | items v =>
      rw [after_diffWith (by nofun), Operand.values,
        elim_itemsOf (s := s) (fun vs => (sought unit vs).foldl erase s) rfl]
      exact renews_foldl_erase hs _

theorem listed_of_ofValue {v : Value} {t : ModifierSet} (h : ofValue unit v = .ok t) :
    ∃ ms, listed v = some ms ∧ t = ofList ms := by
  have hv := toOption_ofValue unit v
  rw [h] at hv
  obtain ⟨ms, hms, hs⟩ := Option.map_eq_some_iff.1 hv.symm
  exact ⟨ms, hms, hs.symm⟩

theorem renews_symmDiffWith (hs : s.toList.Nodup) (other : Operand) :
    Renews (Call.symmDiffWith other).offered
      ((Call.symmDiffWith other).meaning unit s.toList.head? s.members) s
      ((Call.symmDiffWith other).after unit s) := by
  have htoggle {v : Value} {t : ModifierSet} (h : ofValue unit v = .ok t) :
      Renews ((listed v).getD []) (s.members ∆ t.members) s (s.toggleMany t) := by
    obtain ⟨ms, hms, rfl⟩ := listed_of_ofValue h
    rw [hms, toFinset_ofList]
    exact renews_toggleMany hs ms
  cases other with
  | itself =>
      show Renews [] (s.members ∆ s.members) s empty
      rw [symmDiff_self]
      exact renews_empty
  | made v => exact renews_combine rfl fun t => htoggle
  | items v => exact renews_combine rfl fun t => htoggle

/-- One call: the members that stay keep their order, and those that come follow as offered. -/
theorem Call.renews (hs : s.toList.Nodup) (call : Call) :
    Renews call.offered (call.meaning unit s.toList.head? s.members) s (call.after unit s) := by
  have hstays {f : ModifierSet → Except Error Answer} {call : Call}
      (h : call.apply unit = consult f) : Renews [] s.members s (call.after unit s) := by
    rw [after_consult h]
    exact renews_self
  cases call with
  | add v =>
      rw [after_of_edit rfl, outcome_addAll]
      exact renews_insertMany s (leading [v])
  | update vs =>
      rw [after_update]
      exact renews_insertMany s _
  | discard v =>
      rw [after_of_edit rfl, outcome_discard]
      exact renews_erase? hs v.modifier?
  | remove v =>
      rw [after_remove]
      exact renews_erase? hs v.modifier?
  | clear => exact renews_empty
  | pop =>
      rw [after_pop]
      exact renews_erase? hs s.toList.head?
  | contains v =>
      rw [after_contains]
      exact renews_self
  | inspect => exact renews_self
  | sorted => exact renews_self
  | isDisjoint other => exact hstays rfl
  | compare other =>
      cases other with
      | items v => exact renews_self
      | _ => exact hstays rfl
  | union other => exact hstays rfl
  | inter other => exact hstays rfl
  | diff other => exact hstays rfl
  | symmDiff other => exact hstays rfl
  | unionWith other => exact renews_unionWith other s
  | interWith other => exact renews_combine rfl fun t _ => renews_keepOnly hs t
  | diffWith other => exact renews_diffWith hs other
  | symmDiffWith other => exact renews_symmDiffWith hs other

theorem after_update_empty {v : Value} (h : ofValue unit v = .ok s) :
    (Call.update v).after unit empty = s := by
  obtain ⟨ms, hms, rfl⟩ := listed_of_ofValue h
  rw [after_update, itemsOf, items_of_listed hms, Except.toOption, Option.getD_some, leading_map,
    ofList]

end ModifierSet

end KotlinDecl
