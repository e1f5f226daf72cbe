import KotlinDecl.Proofs.Drafting
import KotlinDecl.Proofs.TypeDecl.Delegation
import KotlinDecl.Proofs.TypeName.Lookup
import Mathlib.Data.List.Nodup

namespace KotlinDecl

namespace Superinterface

def supertypes (ss : List Superinterface) : List Value := ss.map (·.type)

theorem supertypes_append (ss ss' : List Superinterface) :
    supertypes (ss ++ ss') = supertypes ss ++ supertypes ss' :=
  List.map_append

/-- One superinterface is added to others. A new type comes last, a plain one that is there changes
nothing, and a delegate goes to a type that has none, in its place. -/
inductive Joins (ss : List Superinterface) : Superinterface → List Superinterface → Prop
  | new (s : Superinterface) (h : s.type ∉ supertypes ss) : Joins ss s (ss ++ [s])
  | again (t : Value) (h : t ∈ supertypes ss) : Joins ss ⟨t, none⟩ ss
  | delegated (t : Value) (c : CodeBlock) (front back : List Superinterface)
    (h : ss = front ++ ⟨t, none⟩ :: back) : Joins ss ⟨t, some c⟩ (front ++ ⟨t, some c⟩ :: back)

inductive JoinAll : List Superinterface → List Superinterface → List Superinterface → Prop
  | nil (ss : List Superinterface) : JoinAll ss [] ss
  | cons {ss mid ss' added : List Superinterface} {s : Superinterface} (h : Joins ss s mid)
    (hs : JoinAll mid added ss') : JoinAll ss (s :: added) ss'

variable {ss mid ss' added added' : List Superinterface} {s : Superinterface} {t : Value}
  {c : CodeBlock}

theorem Joins.types_eq (h : Joins ss s ss') :
    s.type ∈ supertypes ss ∧ supertypes ss' = supertypes ss ∨
      s.type ∉ supertypes ss ∧ supertypes ss' = supertypes ss ++ [s.type] := by
  cases h with
  | new s h => exact .inr ⟨h, supertypes_append ss [s]⟩
  | again t h => exact .inl ⟨h, rfl⟩
  | delegated t c front back h =>
      subst h
      exact .inl (by simp [supertypes])

theorem Joins.delegate_iff (h : Joins ss s ss') :
    ⟨t, some c⟩ ∈ ss' ↔ ⟨t, some c⟩ ∈ ss ∨ ⟨t, some c⟩ = s := by
  cases h with
  | new s h => simp
  | again t' h => simp
  | delegated t' c' front back h =>
      subst h
      simp only [List.mem_append, List.mem_cons, mk.injEq, reduceCtorEq, and_false, false_or]
      tauto

namespace JoinAll

theorem append (h : JoinAll ss added mid) (h' : JoinAll mid added' ss') :
    JoinAll ss (added ++ added') ss' := by
  induction h with
  | nil ss => exact h'
  | cons hs _ ih => exact .cons hs (ih h')

theorem of_append (h : JoinAll ss (added ++ added') ss') :
    ∃ mid, JoinAll ss added mid ∧ JoinAll mid added' ss' := by
  induction added generalizing ss with
  | nil => exact ⟨ss, .nil ss, h⟩
  | cons s added ih =>
      cases h with
      | cons hs h =>
          obtain ⟨mid, h₁, h₂⟩ := ih h
          exact ⟨mid, .cons hs h₁, h₂⟩

theorem prefix_types (h : JoinAll ss added ss') : supertypes ss <+: supertypes ss' := by
  induction h with
  | nil ss => exact List.prefix_rfl
  | cons hs _ ih =>
      rcases hs.types_eq with ⟨_, he⟩ | ⟨_, he⟩
      · exact he ▸ ih
      · exact (List.prefix_append _ _).trans (he ▸ ih)

theorem nodup_types (h : JoinAll ss added ss') (hn : (supertypes ss).Nodup) :
    (supertypes ss').Nodup := by
  induction h with
  | nil ss => exact hn
  | cons hs _ ih =>
      rcases hs.types_eq with ⟨_, he⟩ | ⟨hnew, he⟩
      · exact ih (he ▸ hn)
      · exact ih (he ▸ List.nodup_append_comm.1 (List.nodup_cons.2 ⟨hnew, hn⟩))

theorem mem_types (h : JoinAll ss added ss') :
    t ∈ supertypes ss' ↔ t ∈ supertypes (ss ++ added) := by
  rw [supertypes_append, List.mem_append]
  induction h with
  | nil ss => simp [supertypes]
  | @cons ss mid ss' added s hs _ ih =>
      have hadded : supertypes (s :: added) = s.type :: supertypes added := rfl
      rw [ih, hadded, List.mem_cons]
      rcases hs.types_eq with ⟨hmem, he⟩ | ⟨_, he⟩
      · rw [he]
        refine ⟨Or.imp_right .inr, ?_⟩
        rintro (h | rfl | h)
        · exact .inl h
        · exact .inl hmem
        · exact .inr h
      · rw [he, List.mem_append, List.mem_singleton, or_assoc]

theorem delegate_iff (h : JoinAll ss added ss') :
    ⟨t, some c⟩ ∈ ss' ↔ ⟨t, some c⟩ ∈ ss ++ added := by
  rw [List.mem_append]
  induction h with
  | nil ss => simp
  | cons hs _ ih => rw [ih, hs.delegate_iff, List.mem_cons, or_assoc]

theorem forall_type {P : Value → Prop} (h : JoinAll ss added ss') (hss : ∀ s ∈ ss, P s.type)
    (hadded : ∀ s ∈ added, P s.type) : ∀ s ∈ ss', P s.type := by
  intro s hs
  have hmem : s.type ∈ supertypes (ss ++ added) := h.mem_types.1 (List.mem_map_of_mem hs)
  obtain ⟨s', hs', he⟩ := List.mem_map.1 hmem
  rw [← he]
  exact (List.mem_append.1 hs').elim (hss s') (hadded s')

theorem self (h : (supertypes ss).Nodup) : JoinAll [] ss ss := by
  induction ss using List.reverseRecOn with
  | nil => exact .nil []
  | append_singleton ss s ih =>
      rw [supertypes_append] at h
      obtain ⟨hnew, hss⟩ := List.nodup_cons.1 (List.nodup_append_comm.1 h)
      exact (ih hss).append (.cons (.new s hnew) (.nil _))

end JoinAll

end Superinterface

namespace TypeDecl

open Edit Superinterface

variable {unit : IndentUnit} {d e : TypeDecl} {type : Value} {c : CodeBlock}
  {ss ss' : List Superinterface}

theorem not_mem_types_of_index (ht : type.IsProperType)
    (h : superinterfaceIndex unit type ss = .ok none) : type ∉ supertypes ss := by
  intro hmem
  obtain ⟨s, hs, rfl⟩ := List.mem_map.1 hmem
  have hf := Key.not_finds_of_indexIn h _ (List.mem_map.2 ⟨s, hs, rfl⟩)
  rw [ht.finds] at hf
  cases hf

theorem type_of_index (hss : ∀ s ∈ ss, s.type.IsProperType) {n : Nat}
    (h : superinterfaceIndex unit type ss = .ok (some n)) :
    ∃ o, ss[n]? = some ⟨type, o⟩ := by
  obtain ⟨k, hk, hf⟩ := Key.exists_of_indexIn h
  rw [List.getElem?_map] at hk
  obtain ⟨⟨t, o⟩, hs, rfl⟩ := Option.map_eq_some_iff.1 hk
  obtain rfl := (hss _ (List.mem_of_getElem? hs)).eq_of_finds hf
  exact ⟨o, hs⟩

theorem joins_declareSuperinterface (hss : ∀ s ∈ ss, s.type.IsProperType)
    (ht : type.IsProperType) (h : declareSuperinterface unit type ss = .ok ss') :
    Joins ss ⟨type, none⟩ ss' := by
  obtain ⟨o, ho, h⟩ := ok_of_bind h
  cases o with
  | none =>
      cases h
      exact .new _ (not_mem_types_of_index ht ho)
  | some n =>
      cases h
      obtain ⟨o, hn⟩ := type_of_index hss ho
      exact .again type (List.mem_map.2 ⟨_, List.mem_of_getElem? hn, rfl⟩)

theorem joins_putSuperinterface (hss : ∀ s ∈ ss, s.type.IsProperType) (ht : type.IsProperType)
    (hp : presentDelegate unit type ss = .ok none)
    (h : putSuperinterface unit ss ⟨type, some c⟩ = .ok ss') :
    Joins ss ⟨type, some c⟩ ss' := by
  obtain ⟨o, ho, h⟩ := ok_of_bind h
  rw [presentDelegate, ho] at hp
  cases o with
  | none =>
      cases h
      exact .new _ (not_mem_types_of_index ht ho)
  | some n =>
      cases h
      obtain ⟨o, hn⟩ := type_of_index hss ho
      have hnone : (ss[n]?).bind (·.delegate) = none := Except.ok.inj hp
      rw [hn, Option.bind_some] at hnone
      simp only at hnone
      subst hnone
      obtain ⟨hlt, hget⟩ := List.getElem?_eq_some_iff.1 hn
      have hsplit : ss = ss.take n ++ ⟨type, none⟩ :: ss.drop (n + 1) := by
        rw [← hget, List.getElem_cons_drop, List.take_append_drop]
      have hmodify := List.modify_eq_take_cons_drop (f := fun s : Superinterface =>
        { s with delegate := some c }) hlt
      rw [hmodify, hget]
      exact .delegated type c _ _ hsplit

def givenDelegate : Value → Option CodeBlock
  | .code c => if c.isEmpty then none else some c
  | _ => none

theorem givenDelegate_of_asDelegate {v : Value} {o : Option CodeBlock} (h : asDelegate v = .ok o) :
    givenDelegate v = o := by
  cases v with
  | null =>
      cases h
      rfl
  | code c => exact Except.ok.inj h
  | _ => cases h

theorem joins_addSuperinterface {delegate : Value}
    (hd : ∀ s ∈ d.superinterfaces, s.type.IsProperType) (ht : type.IsProperType)
    (h : addSuperinterface unit type delegate d = .ok () e) :
    Joins d.superinterfaces ⟨type, givenDelegate delegate⟩ e.superinterfaces := by
  obtain ⟨o, ho, h⟩ := exists_of_require_bind_ok h
  rw [givenDelegate_of_asDelegate ho]
  cases o with
  | none =>
      obtain ⟨ss, hs, h⟩ := exists_of_require_bind_ok h
      cases h
      exact joins_declareSuperinterface hd ht hs
  | some c =>
      obtain ⟨hp, ss, hput, rfl⟩ := delegateSuperinterface_ok h
      exact joins_putSuperinterface hd ht hp hput

/-- The types of a list that are added before the first one that is refused. -/
def acceptedTypes (unit : IndentUnit) (d : TypeDecl) : List Value → List Value
  | [] => []
  | v :: vs =>
    match addSuperinterface unit v .null d with
    | .ok _ e => v :: acceptedTypes unit e vs
    | .error _ _ => []

def Call.succeeds (unit : IndentUnit) (d : TypeDecl) (call : Call) : Bool :=
  ((call.apply unit).outcome d).2.isNone

def Call.added (unit : IndentUnit) (d : TypeDecl) : Call → List Superinterface
  | addSuperinterface type delegate =>
    if (addSuperinterface type delegate).succeeds unit d then [⟨type, givenDelegate delegate⟩]
    else []
  | addSuperinterfaces vs =>
    match vs.items with
    | .ok vs => (acceptedTypes unit d vs).map (⟨·, none⟩)
    | .error _ => []
  | addSuperinterfaceByParameter type parameter =>
    if (addSuperinterfaceByParameter type parameter).succeeds unit d then
      [⟨type, some ⟨[.argument .name], [parameter]⟩⟩]
    else []
  | _ => []

def added (unit : IndentUnit) (d : TypeDecl) : List Call → List Superinterface
  | [] => []
  | c :: calls => c.added unit d ++ added unit (c.after unit d) calls

theorem Call.added_of_facet {call : Call} (hf : Facet.superinterfaces ≠ call.facet) :
    call.added unit d = [] := by
  cases call with
  | addSuperinterface type delegate => exact absurd rfl hf
  | addSuperinterfaces vs => exact absurd rfl hf
  | addSuperinterfaceByParameter type parameter => exact absurd rfl hf
  | _ => rfl

theorem Call.joinAll_of_isWhole {call : Call} (hc : call.isWhole = true) {s : Superinterface}
    (hs : ∀ x ∈ if call.succeeds unit d then [s] else [], x.type.IsProperType)
    (hok : ∀ e, s.type.IsProperType → call.apply unit d = .ok () e →
      Joins d.superinterfaces s e.superinterfaces) :
    JoinAll d.superinterfaces (if call.succeeds unit d then [s] else [])
      (call.after unit d).superinterfaces := by
  cases ho : call.apply unit d with
  | ok _ e =>
      have hsucceeds : call.succeeds unit d = true := by simp [succeeds, outcome_of_ok ho]
      rw [if_pos hsucceeds] at hs ⊢
      rw [Call.after, outcome_of_ok ho]
      exact .cons (hok e (hs s List.mem_cons_self) ho) (.nil _)
  | error x t =>
      have hfails : ¬call.succeeds unit d = true := by simp [succeeds, outcome_of_error ho]
      obtain rfl := Call.eq_of_error hc ho
      rw [if_neg hfails, Call.after, outcome_of_error ho]
      exact .nil _

theorem joinAll_acceptedTypes {vs : List Value}
    (hd : ∀ s ∈ d.superinterfaces, s.type.IsProperType)
    (hvs : ∀ v ∈ acceptedTypes unit d vs, v.IsProperType) :
    JoinAll d.superinterfaces ((acceptedTypes unit d vs).map (⟨·, none⟩))
      ((forEach (addSuperinterface unit · .null) vs).outcome d).1.superinterfaces := by
  induction vs generalizing d with
  | nil => exact .nil _
  | cons v vs ih =>
      cases ho : addSuperinterface unit v .null d with
      | ok _ e =>
          have haccepted : acceptedTypes unit d (v :: vs) = v :: acceptedTypes unit e vs := by
            simp [acceptedTypes, ho]
          have houtcome : (forEach (addSuperinterface unit · .null) (v :: vs)).outcome d =
              (forEach (addSuperinterface unit · .null) vs).outcome e := by
            rw [outcome, forEach, bind_of_ok ho]
            rfl
          rw [haccepted] at hvs ⊢
          obtain ⟨hv, hvs⟩ := List.forall_mem_cons.1 hvs
          have hjoins : Joins d.superinterfaces ⟨v, none⟩ e.superinterfaces :=
            joins_addSuperinterface hd hv ho
          have he := (JoinAll.cons hjoins (.nil _)).forall_type hd (by simpa using hv)
          rw [houtcome]
          exact .cons hjoins (ih he hvs)
      | error x t =>
          have haccepted : acceptedTypes unit d (v :: vs) = [] := by simp [acceptedTypes, ho]
          obtain rfl := Call.eq_of_error (c := .addSuperinterface v .null) rfl ho
          have hall : forEach (addSuperinterface unit · .null) (v :: vs) t = .error x t := by
            rw [forEach, bind_of_error ho]
          rw [haccepted, outcome_of_error hall]
          exact .nil _

theorem Call.joinAll_added (call : Call) (hd : ∀ s ∈ d.superinterfaces, s.type.IsProperType)
    (hs : ∀ s ∈ call.added unit d, s.type.IsProperType) :
    JoinAll d.superinterfaces (call.added unit d) (call.after unit d).superinterfaces := by
  by_cases hf : Facet.superinterfaces = call.facet
  · cases call with
    | addSuperinterface type delegate =>
        exact Call.joinAll_of_isWhole rfl hs fun e ht ho => joins_addSuperinterface hd ht ho
    | addSuperinterfaces vs =>
        rw [Call.added] at hs ⊢
        rw [Call.after, Call.apply, TypeDecl.addSuperinterfaces]
        cases hvs : vs.items with
        | ok vs =>
            simp only [hvs] at hs ⊢
            exact joinAll_acceptedTypes hd (by simpa using hs)
        | error x => exact .nil _
    | addSuperinterfaceByParameter type parameter =>
        refine Call.joinAll_of_isWhole rfl hs fun e ht ho => ?_
        obtain ⟨_, rfl, _, ho⟩ := addSuperinterface_of_byParameter ho
        exact joins_addSuperinterface hd ht ho
    | _ => cases hf
  · have hget : (call.after unit d).superinterfaces = d.superinterfaces :=
      call.get_after unit d hf
    rw [Call.added_of_facet hf, hget]
    exact .nil _

theorem joinAll_added {calls : List Call} (hd : ∀ s ∈ d.superinterfaces, s.type.IsProperType)
    (hs : ∀ s ∈ added unit d calls, s.type.IsProperType) :
    JoinAll d.superinterfaces (added unit d calls) (after unit d calls).superinterfaces := by
  induction calls generalizing d with
  | nil => exact .nil _
  | cons c calls ih =>
      obtain ⟨hc, hcalls⟩ := List.forall_mem_append.1 hs
      have hfirst := c.joinAll_added hd hc
      exact hfirst.append (ih (hfirst.forall_type hd hc) hcalls)

theorem added_append (d : TypeDecl) (front back : List Call) :
    added unit d (front ++ back) = added unit d front ++ added unit (after unit d front) back := by
  induction front generalizing d with
  | nil => rfl
  | cons c front ih => simp [added, after, ih]

theorem nodup_supertypes (hd : Key.Distinct (superinterfaceKeys unit ss))
    (hss : ∀ s ∈ ss, s.type.IsProperType) : (supertypes ss).Nodup := by
  induction ss using List.reverseRecOn with
  | nil => exact List.nodup_nil
  | append_singleton ss s ih =>
      obtain ⟨hss, hs⟩ := List.forall_mem_append.1 hss
      have hnew : superinterfaceIndex unit s.type ss = .ok none :=
        hd (superinterfaceKeys unit ss) _ [] (by simp [superinterfaceKeys])
      have hfront : Key.Distinct (superinterfaceKeys unit ss) := fun front k back he =>
        hd front k (back ++ [s.type.key unit]) (by
          rw [superinterfaceKeys] at he ⊢
          simp [he])
      rw [supertypes_append]
      refine List.nodup_append_comm.1 (List.nodup_cons.2 ⟨?_, ih hfront hss⟩)
      exact not_mem_types_of_index (hs s List.mem_cons_self) hnew

/-- Calls of any kind, which may fail, leave each type that was added once, in the order of the
first additions; what is declared before the calls counts as added. A delegate that a type has got
stays, and a type has exactly the delegate that it was added with. -/
theorem superinterfaces_of_added {calls : List Call}
    (hd : Draft.Reached unit (fun _ => True) (.typeDecl d))
    (ht : ∀ s ∈ d.superinterfaces ++ added unit d calls, s.type.IsProperType) :
    let all := d.superinterfaces ++ added unit d calls
    let e := after unit d calls
    (supertypes e.superinterfaces).Nodup ∧
      (∀ t, t ∈ supertypes e.superinterfaces ↔ t ∈ supertypes all) ∧
      (∀ front back, all = front ++ back →
        ∃ first, first <+: supertypes e.superinterfaces ∧
          ∀ t, t ∈ first ↔ t ∈ supertypes front) ∧
      (∀ front back, calls = front ++ back → ∀ t c,
        ⟨t, some c⟩ ∈ (after unit d front).superinterfaces → ⟨t, some c⟩ ∈ e.superinterfaces) ∧
      ∀ t c, ⟨t, some c⟩ ∈ e.superinterfaces ↔ ⟨t, some c⟩ ∈ all := by
  intro all e
  obtain ⟨hpresent, hadded⟩ := List.forall_mem_append.1 ht
  have hregular : d.Regular unit := (hd.traced False.elim).regular
  have hnodup := nodup_supertypes hregular.superinterfaces hpresent
  -- What is there already is read as the first additions to nothing.
  have hall : JoinAll [] all e.superinterfaces :=
    (JoinAll.self hnodup).append (joinAll_added hpresent hadded)
  refine ⟨hall.nodup_types List.nodup_nil, fun t => hall.mem_types, ?_, ?_,
    fun t c => hall.delegate_iff⟩
  · intro front back he
    obtain ⟨mid, hfront, hback⟩ := (he ▸ hall).of_append
    exact ⟨supertypes mid, hback.prefix_types, fun t => hfront.mem_types⟩
  · rintro front back rfl t c hmem
    rw [added_append] at hadded
    obtain ⟨hf, hb⟩ := List.forall_mem_append.1 hadded
    have hmid := (joinAll_added hpresent hf).forall_type hpresent hf
    have hrest := joinAll_added hmid hb
    have he : e = after unit (after unit d front) back := List.foldl_append
    rw [he]
    exact hrest.delegate_iff.2 (List.mem_append_left _ hmem)

/-- A plain interface comes again in a list and then gets a delegate, which a second one cannot
replace; the nullable type beside it is another one. -/
theorem superinterfaces_of_added_twice :
    let unit : IndentUnit := .ok "  "
    let i : Value := .type (.named (some "") ["I"] false)
    let j : Value := .type (.named (some "") ["J"] false)
    let k : Value := .type (.named (some "") ["J"] true)
    let x : CodeBlock := ⟨[.text "x"], []⟩
    let y : CodeBlock := ⟨[.text "y"], []⟩
    let d := plain (.kind .classKind) (some "A") none
    let calls : List Call := [.addSuperinterface i .null, .addSuperinterfaces (.list [j, i]),
      .addSuperinterface i (.code x), .superclass .null, .addSuperinterface i (.code y),
      .addSuperinterface k (.code .empty), .addSuperinterface k (.code y)]
    let all : List Superinterface := [⟨i, none⟩, ⟨j, none⟩, ⟨i, none⟩, ⟨i, some x⟩, ⟨k, none⟩]
    let e := after unit d calls
    Draft.Reached unit (fun _ => True) (.typeDecl d) ∧
      d.superinterfaces ++ added unit d calls = all ∧ (∀ s ∈ all, s.type.IsProperType) ∧
      e.superinterfaces = [⟨i, some x⟩, ⟨j, none⟩, ⟨k, none⟩] ∧
      (supertypes e.superinterfaces).Nodup ∧
      ∀ t c, ⟨t, some c⟩ ∈ e.superinterfaces ↔ ⟨t, some c⟩ ∈ all := by
  intro unit i j k x y d calls all e
  have hd : Draft.Reached unit (fun _ => True) (.typeDecl d) :=
    .start (x := .named .classKind (.str "A")) trivial rfl
  have hall : d.superinterfaces ++ added unit d calls = all := by
    subst unit i j k x y d calls
    rfl
  have he : e.superinterfaces = [⟨i, some x⟩, ⟨j, none⟩, ⟨k, none⟩] := by
    subst unit i j k x y d calls e
    rfl
  have ht : ∀ s ∈ all, s.type.IsProperType := by
    simp only [all, List.forall_mem_cons, List.not_mem_nil, false_implies, implies_true, and_true]
    exact ⟨⟨rfl, rfl⟩, ⟨rfl, rfl⟩, ⟨rfl, rfl⟩, ⟨rfl, rfl⟩, ⟨rfl, rfl⟩⟩
  obtain ⟨hnodup, _, _, _, hdelegates⟩ := @superinterfaces_of_added unit d calls hd (hall.symm ▸ ht)
  rw [hall] at hdelegates
  exact ⟨hd, hall, ht, he, hnodup, hdelegates⟩

end TypeDecl

end KotlinDecl
