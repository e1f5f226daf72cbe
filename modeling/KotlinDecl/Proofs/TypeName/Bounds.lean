import KotlinDecl.Proofs.FunDecl.Signature

namespace KotlinDecl

namespace Layout

theorem run_blank : (text "").run = empty.run := rfl

theorem run_text_text (s t : String) : (text s ++ text t).run = (text (s ++ t)).run :=
  (run_text_append s t).symm

theorem run_separated_text (sep : String) (ss : List String) :
    (separated (text sep) (ss.map text)).run = (text (sep.intercalate ss)).run := by
  induction ss with
  | nil => exact run_blank.symm
  | cons s ss ih =>
      cases ss with
      | nil => rw [String.intercalate_singleton]; rfl
      | cons t ss =>
          rw [String.intercalate_cons_cons, run_text_append]
          exact run_append_congr (run_text_text s sep) ih

theorem run_separated_congr {sep sep' : Layout} {ds es : List Layout} (hsep : sep.run = sep'.run)
    (h : ds.map run = es.map run) : (separated sep ds).run = (separated sep' es).run := by
  induction ds generalizing es with
  | nil =>
      obtain rfl := List.map_eq_nil_iff.1 h.symm
      rfl
  | cons d ds ih =>
      obtain ⟨e, es, rfl, he, hes⟩ := List.map_eq_cons_iff.1 h.symm
      cases ds with
      | nil =>
          obtain rfl := List.map_eq_nil_iff.1 hes
          exact he.symm
      | cons d' ds =>
          obtain ⟨e', es, rfl, _, _⟩ := List.map_eq_cons_iff.1 hes
          exact run_append_congr (run_append_congr he.symm hsep) (ih hes.symm)

end Layout

/-- Where a bound of a type parameter is written. -/
inductive BoundPlace
  | brackets
  | clause
  | nowhere
  deriving DecidableEq

namespace Value

def typeText (unit : IndentUnit) (v : Value) : String := (v.text unit).toOption.getD ""

structure Readable (unit : IndentUnit) (v : Value) : Prop where
  isType : v.isType = true
  text : v.text unit = .ok (v.typeText unit)

def variableName : Value → String
  | .type (.typeVar name ..) => name
  | _ => ""

def bounds : Value → List Value
  | .type (.typeVar _ bounds ..) => bounds
  | _ => []

def variableMarks : Value → String
  | .type (.typeVar _ _ variance reified _) =>
    (variance.elim "" fun v => v.modifier.keyword ++ " ") ++ if reified then "reified " else ""
  | _ => ""

/-- Several bounds go to the clause. A lone one goes to the brackets, unless every type satisfies
it. -/
def boundPlace (v bound : Value) : BoundPlace :=
  if 2 ≤ v.bounds.length then .clause
  else if bound.isNamed (TypeName.anyType.withNullable true) then .nowhere
  else .brackets

def boundsAt (place : BoundPlace) (v : Value) : List Value :=
  v.bounds.filter fun b => v.boundPlace b = place

def typeParameterText (unit : IndentUnit) (v : Value) : String :=
  v.variableMarks ++ v.variableName ++
    String.join ((v.boundsAt .brackets).map fun b => " : " ++ b.typeText unit)

def bracketsText (unit : IndentUnit) (vs : List Value) : String :=
  if vs.isEmpty then "" else "<" ++ ", ".intercalate (vs.map (typeParameterText unit)) ++ ">"

def clauseEntries (unit : IndentUnit) (vs : List Value) : List String :=
  vs.flatMap fun v => (v.boundsAt .clause).map fun b => v.variableName ++ " : " ++ b.typeText unit

/-- The entries of a clause, with its keyword in front unless it has begun before. -/
def clauseFrom (first : Bool) (entries : List String) : String :=
  if entries.isEmpty then ""
  else (if first then " where " else ", ") ++ ", ".intercalate entries

def clauseText (unit : IndentUnit) (vs : List Value) : String :=
  clauseFrom true (clauseEntries unit vs)

variable {unit : IndentUnit} {v b : Value} {vs bs : List Value}

theorem readable_of_wellTyped (ht : b.isType = true) (hw : b.wellTyped = true) :
    b.Readable unit := by
  obtain ⟨s, hs⟩ := ((b.legible hw unit).isType ht).text
  have htext : b.text unit = .ok s := hs
  exact ⟨ht, by rw [typeText, htext]; rfl⟩

theorem Readable.run_between (h : b.Readable unit) (format front back : String) :
    ((b.forms unit).toMention.between format front back).run =
      (Layout.text (front ++ b.typeText unit ++ back)).run := by
  obtain ⟨t, rfl⟩ : ∃ t, b = .type t := by
    cases b with
    | type t => exact ⟨t, rfl⟩
    | _ => cases h.isType
  have hcheck : ((Value.type t).forms unit).toMention.checkType format = .ok () := by
    simp only [Mention.checkType, value_forms]
  have htext : ((Value.type t).forms unit).toMention.text = .ok ((Value.type t).typeText unit) :=
    h.text
  rw [Mention.between, hcheck]
  dsimp only
  rw [htext, Layout.run_text_append]
  exact Layout.run_append_congr (Layout.run_text_text _ _) rfl

theorem type_of_checkType {format : String}
    (h : (b.forms unit).toMention.checkType format = .ok ()) : ∃ t, b = .type t := by
  unfold Mention.checkType at h
  rw [value_forms] at h
  split at h
  · next t => exact ⟨t, rfl⟩
  · exact absurd h (bind_ne_ok fun _ => nofun)

theorem readable_of_between {format front back : String} {w : Writer}
    (h : (((b.forms unit).toMention.between format front back).run w).error = none) :
    b.Readable unit := by
  rw [Mention.between] at h
  split at h
  · next hcheck =>
      obtain ⟨hfront, _⟩ := Written.error_of_andThen h
      obtain ⟨_, htext⟩ := Written.error_of_andThen hfront
      have hsome : ∃ s, b.text unit = .ok s := by
        show ∃ s, (b.forms unit).toMention.text = .ok s
        cases hs : (b.forms unit).toMention.text with
        | ok s => exact ⟨s, rfl⟩
        | error e =>
            rw [hs] at htext
            cases htext
      obtain ⟨s, hs⟩ := hsome
      obtain ⟨t, rfl⟩ := type_of_checkType hcheck
      exact ⟨rfl, by rw [typeText, hs]; rfl⟩
  · cases h

theorem boundPlace_of_several (h : 2 ≤ v.bounds.length) (b : Value) : v.boundPlace b = .clause :=
  if_pos h

theorem boundPlace_of_few (h : ¬2 ≤ v.bounds.length) (b : Value) :
    v.boundPlace b =
      if b.isNamed (TypeName.anyType.withNullable true) then .nowhere else .brackets :=
  if_neg h

theorem boundsAt_of_several (h : 2 ≤ v.bounds.length) (place : BoundPlace) :
    v.boundsAt place = if place = .clause then v.bounds else [] := by
  simp only [boundsAt, boundPlace_of_several h]
  cases place <;> simp

theorem boundsAt_clause_of_few (h : ¬2 ≤ v.bounds.length) : v.boundsAt .clause = [] := by
  refine List.filter_eq_nil_iff.2 fun b _ => ?_
  rw [boundPlace_of_few h]
  split <;> simp

theorem few_of_lone (h : v.bounds = [b]) : ¬2 ≤ v.bounds.length := by
  rw [h]
  exact Nat.lt_irrefl 1

theorem boundsAt_of_lone (h : v.bounds = [b]) (place : BoundPlace) :
    v.boundsAt place = if v.boundPlace b = place then [b] else [] := by
  simp [boundsAt, h, List.filter_cons]

/-- A type variable whose bounds at `place` are types with a text. -/
structure Writable (unit : IndentUnit) (place : BoundPlace) (v : Value) : Prop where
  isTypeVariable : v.isTypeVariable = true
  readable : ∀ b ∈ v.boundsAt place, b.Readable unit

theorem typeVar_of_isTypeVariable (h : v.isTypeVariable = true) :
    ∃ name bounds variance reified nullable,
      v = .type (.typeVar name bounds variance reified nullable) := by
  unfold isTypeVariable at h
  split at h
  · exact ⟨_, _, _, _, _, rfl⟩
  · cases h

theorem writable_of_wellTyped (hv : v.isTypeVariable = true) (hw : v.wellTyped = true)
    (place : BoundPlace) : v.Writable unit place := by
  refine ⟨hv, fun b hb => ?_⟩
  have hb : b ∈ v.bounds := (List.mem_filter.1 hb).1
  obtain ⟨name, bounds, variance, reified, nullable, rfl⟩ := typeVar_of_isTypeVariable hv
  simp only [wellTyped, TypeName.wellTyped, wellTypedAll_eq, Bool.and_eq_true,
    List.all_eq_true] at hw
  exact readable_of_wellTyped (hw.1 b hb) (hw.2 b hb)

theorem run_variableMarks (variance : Option Variance) (reified : Bool) :
    (Layout.ofOption (variance.map fun v => Layout.text (v.modifier.keyword ++ " ")) ++
        Layout.when reified (Layout.text "reified ")).run =
      (Layout.text ((variance.elim "" fun v => v.modifier.keyword ++ " ") ++
        if reified then "reified " else "")).run := by
  rw [Layout.run_text_append]
  refine Layout.run_append_congr ?_ ?_
  · cases variance <;> rfl
  · cases reified <;> rfl

theorem run_typeVariable (h : v.Writable unit .brackets) :
    (Layout.typeVariable (v.forms unit)).run = (Layout.text (v.typeParameterText unit)).run := by
  have hreadable := h.readable
  obtain ⟨name, bounds, variance, reified, nullable, rfl⟩ :=
    typeVar_of_isTypeVariable h.isTypeVariable
  have hname := Layout.run_append_congr (run_variableMarks variance reified)
    (rfl : (Layout.text name).run = _)
  rw [Layout.run_text_text] at hname
  rw [typeParameterText, Layout.run_text_append]
  refine Layout.run_append_congr hname ?_
  rw [bounds_forms]
  match bounds with
  | [] => rfl
  | [b] =>
      let v := Value.type (.typeVar name [b] variance reified nullable)
      have hlone : v.bounds = [b] := rfl
      rw [boundsAt_of_lone hlone, boundPlace_of_few (few_of_lone hlone)] at hreadable ⊢
      show (if (b.forms unit).value.isNamed (TypeName.anyType.withNullable true) then Layout.empty
        else (b.forms unit).toMention.between " : %T" " : " "").run = _
      rw [value_forms]
      split
      · next hany => exact Layout.run_blank.symm
      · next hany =>
          rw [if_neg hany, if_pos rfl] at hreadable
          have hb := (hreadable b (List.mem_singleton_self b)).run_between " : %T" " : " ""
          rw [String.append_empty] at hb
          rw [hb, if_pos rfl]
          simp
  | b :: c :: bs =>
      have hseveral : 2 ≤ (Value.type (.typeVar name (b :: c :: bs) variance reified
          nullable)).bounds.length := Nat.le_add_left 2 bs.length
      rw [boundsAt_of_several hseveral]
      exact Layout.run_blank.symm

theorem clauseFrom_cons (first : Bool) (entry : String) (entries : List String) :
    clauseFrom first (entry :: entries) =
      (if first then " where " else ", ") ++ entry ++ clauseFrom false entries := by
  cases entries with
  | nil => simp [clauseFrom]
  | cons e es => simp [clauseFrom, String.append_assoc]

theorem clauseFrom_append (first : Bool) {front : List String} (h : front ≠ [])
    (back : List String) :
    clauseFrom first (front ++ back) = clauseFrom first front ++ clauseFrom false back := by
  induction front generalizing first with
  | nil => exact absurd rfl h
  | cons e front ih =>
      rw [List.cons_append, clauseFrom_cons, clauseFrom_cons]
      cases front with
      | nil => simp [clauseFrom]
      | cons e' front => rw [ih false (List.cons_ne_nil _ _), ← String.append_assoc]

theorem run_whereEntries (hb : ∀ b ∈ bs, b.Readable unit) (first : Bool) (name : String) :
    (Layout.whereEntries first name (bs.map fun b => (b.forms unit).toMention)).run =
      (Layout.text (clauseFrom first (bs.map fun b => name ++ " : " ++ b.typeText unit))).run := by
  induction bs generalizing first with
  | nil => exact Layout.run_blank.symm
  | cons b bs ih =>
      obtain ⟨hb, hbs⟩ := List.forall_mem_cons.1 hb
      have hbound := hb.run_between "%L : %T" (name ++ " : ") ""
      rw [String.append_empty] at hbound
      rw [List.map_cons, List.map_cons, clauseFrom_cons, Layout.run_text_append]
      refine Layout.run_append_congr ?_ (ih hbs false)
      rw [Layout.run_text_append]
      exact Layout.run_append_congr rfl hbound

theorem run_whereClause (h : ∀ v ∈ vs, v.Writable unit .clause) (first : Bool) :
    (Layout.whereClause first (vs.map (·.forms unit))).run =
      (Layout.text (clauseFrom first (clauseEntries unit vs))).run := by
  induction vs generalizing first with
  | nil => exact Layout.run_blank.symm
  | cons v vs ih =>
      obtain ⟨hv, hvs⟩ := List.forall_mem_cons.1 h
      have hreadable := hv.readable
      rw [clauseEntries, List.flatMap_cons]
      obtain ⟨name, bounds, variance, reified, nullable, rfl⟩ :=
        typeVar_of_isTypeVariable hv.isTypeVariable
      rw [List.map_cons, Layout.whereClause, value_forms]
      dsimp only
      rw [bounds_forms, List.length_map]
      let v := Value.type (.typeVar name bounds variance reified nullable)
      split
      · next hlen =>
          have hfew : ¬2 ≤ v.bounds.length := Nat.not_le.2 hlen
          rw [boundsAt_clause_of_few hfew]
          exact ih hvs first
      · next hlen =>
          have hseveral : 2 ≤ v.bounds.length := Nat.not_lt.1 hlen
          rw [boundsAt_of_several hseveral] at hreadable ⊢
          have hne : v.bounds ≠ [] := List.ne_nil_of_length_pos (by omega)
          have hentries := run_whereEntries hreadable first name
          rw [clauseFrom_append first (by simpa using hne), Layout.run_text_append]
          exact Layout.run_append_congr hentries (ih hvs false)

theorem run_typeVariables (h : ∀ v ∈ vs, v.Writable unit .brackets) :
    (Layout.typeVariables (vs.map (·.forms unit))).run =
      (Layout.text (bracketsText unit vs)).run := by
  rw [Layout.typeVariables, bracketsText, List.isEmpty_map]
  split
  · exact Layout.run_blank.symm
  · rw [Layout.run_text_append, List.map_map]
    refine Layout.run_append_congr ?_ rfl
    rw [Layout.run_text_append]
    refine Layout.run_append_congr rfl ?_
    rw [← Layout.run_separated_text, List.map_map]
    refine Layout.run_separated_congr rfl ?_
    rw [List.map_map, List.map_map]
    exact List.map_congr_left fun v hv => run_typeVariable (h v hv)

theorem clauseFrom_eq_empty {first : Bool} {entries : List String} :
    clauseFrom first entries = "" ↔ entries = [] := by
  cases entries with
  | nil => simp [clauseFrom]
  | cons e es =>
      rw [clauseFrom_cons]
      cases first <;> simp [String.append_eq_empty_iff]

theorem clauseText_ne_empty :
    clauseText unit vs ≠ "" ↔ ∃ v ∈ vs, 2 ≤ v.bounds.length := by
  rw [clauseText, ne_eq, clauseFrom_eq_empty, clauseEntries, List.flatMap_eq_nil_iff,
    Classical.not_forall]
  refine exists_congr fun v => ?_
  rw [Classical.not_imp, List.map_eq_nil_iff]
  refine and_congr_right fun _ => ?_
  by_cases h : 2 ≤ v.bounds.length
  · have hne : v.bounds ≠ [] := List.ne_nil_of_length_pos (by omega)
    simp [boundsAt_of_several h, h, hne]
  · simp [boundsAt_clause_of_few h, h]

theorem isNamed_iff {package : Option String} {names : List String} {nullable : Bool} :
    b.isNamed (.named package names nullable) = true ↔
      b = .type (.named package names nullable) := by
  unfold isNamed
  split
  · next p ns n p' ns' n' hname =>
      cases hname
      simp [and_assoc]
  · next hother =>
      simp only [Bool.false_eq_true, false_iff]
      intro hb
      exact hother _ _ _ _ _ _ hb rfl

theorem bounds_of_few (h : ¬2 ≤ v.bounds.length) : v.bounds = [] ∨ ∃ b, v.bounds = [b] := by
  match hbounds : v.bounds with
  | [] => exact .inl rfl
  | [b] => exact .inr ⟨b, rfl⟩
  | b :: c :: bs =>
      rw [hbounds] at h
      exact absurd (Nat.le_add_left 2 bs.length) h

theorem lone_of_few (h : ¬2 ≤ v.bounds.length) (hb : b ∈ v.bounds) : v.bounds = [b] := by
  obtain hnone | ⟨c, hlone⟩ := bounds_of_few h
  · rw [hnone] at hb
    cases hb
  · rw [hlone] at hb ⊢
    rw [List.mem_singleton.1 hb]

theorem boundsAt_append (v : Value) :
    v.boundsAt .brackets ++ v.boundsAt .clause ++ v.boundsAt .nowhere = v.bounds := by
  by_cases h : 2 ≤ v.bounds.length
  · simp [boundsAt_of_several h]
  · obtain hnone | ⟨b, hlone⟩ := bounds_of_few h
    · simp [boundsAt, hnone]
    · simp only [boundsAt_of_lone hlone, hlone]
      cases v.boundPlace b <;> rfl

theorem boundPlace_iff (hb : b ∈ v.bounds) :
    (v.boundPlace b = .brackets ↔
        v.bounds = [b] ∧ b ≠ .type (TypeName.anyType.withNullable true)) ∧
      (v.boundPlace b = .clause ↔ 2 ≤ v.bounds.length) ∧
      (v.boundPlace b = .nowhere ↔
        v.bounds = [b] ∧ b = .type (TypeName.anyType.withNullable true)) := by
  have hany : b.isNamed (TypeName.anyType.withNullable true) = true ↔
    b = .type (TypeName.anyType.withNullable true) := isNamed_iff
  by_cases h : 2 ≤ v.bounds.length
  · have hlone : v.bounds ≠ [b] := fun hlone => few_of_lone hlone h
    simp [boundPlace_of_several h, h, hlone]
  · rw [boundPlace_of_few h, ← hany]
    simp only [lone_of_few h hb]
    split <;> simp_all

/-- The brackets list all type variables in order, and the clause behind them is there just if some
type variable has several bounds. Each bound is written in one of the two, except for a lone one
that every type satisfies. -/
theorem bounds_written_once (unit : IndentUnit) (vs : List Value)
    (hvariables : ∀ v ∈ vs, v.isTypeVariable = true) (htyped : ∀ v ∈ vs, v.wellTyped = true) :
    (Layout.typeVariables (vs.map (·.forms unit)) ++
        Layout.whereClause true (vs.map (·.forms unit))).run =
      (Layout.text (bracketsText unit vs ++ clauseText unit vs)).run ∧
    (clauseText unit vs ≠ "" ↔ ∃ v ∈ vs, 2 ≤ v.bounds.length) ∧
    ∀ v ∈ vs, v.boundsAt .brackets ++ v.boundsAt .clause ++ v.boundsAt .nowhere = v.bounds ∧
      ∀ b ∈ v.bounds, b.text unit = .ok (b.typeText unit) ∧
        (v.boundPlace b = .brackets ↔
          v.bounds = [b] ∧ b ≠ .type (TypeName.anyType.withNullable true)) ∧
        (v.boundPlace b = .clause ↔ 2 ≤ v.bounds.length) ∧
        (v.boundPlace b = .nowhere ↔
          v.bounds = [b] ∧ b = .type (TypeName.anyType.withNullable true)) := by
  have hwritable (place : BoundPlace) (v : Value) (hv : v ∈ vs) : v.Writable unit place :=
    writable_of_wellTyped (hvariables v hv) (htyped v hv) place
  refine ⟨?_, clauseText_ne_empty, fun v hv => ⟨boundsAt_append v, fun b hb => ?_⟩⟩
  · rw [Layout.run_text_append]
    exact Layout.run_append_congr (run_typeVariables (hwritable .brackets))
      (run_whereClause (hwritable .clause) true)
  · have hat : b ∈ v.boundsAt (v.boundPlace b) := List.mem_filter.2 ⟨hb, decide_eq_true rfl⟩
    exact ⟨((hwritable _ v hv).readable b hat).text, boundPlace_iff hb⟩

/-- A bound in the brackets, bounds in the clause, and one that is left out. -/
theorem bounds_written_once_mixed :
    let unit : IndentUnit := .ok "  "
    let vs : List Value := [
      .type (.typeVar "T" [.type (.named none ["X"] false)] (some .covariant) false false),
      .type (.typeVar "U" [.type (.named none ["A"] false), .type (.named none ["B"] true)] none
        false false),
      .type (.typeVar "V" [.type (TypeName.anyType.withNullable true)] none true false)]
    (∀ v ∈ vs, v.isTypeVariable = true) ∧ (∀ v ∈ vs, v.wellTyped = true) ∧
      (Layout.typeVariables (vs.map (·.forms unit)) ++
          Layout.whereClause true (vs.map (·.forms unit))).run =
        (Layout.text "<out T : X, U, reified V> where U : A, U : B?").run := by
  intro unit vs
  have hvariables : ∀ v ∈ vs, v.isTypeVariable = true := by decide
  have htyped : ∀ v ∈ vs, v.wellTyped = true := by decide
  exact ⟨hvariables, htyped, (bounds_written_once unit vs hvariables htyped).1⟩

end Value

end KotlinDecl
