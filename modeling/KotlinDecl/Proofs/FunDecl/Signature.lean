import KotlinDecl.Proofs.Drafting
import KotlinDecl.Proofs.Layout.Laws
import KotlinDecl.Proofs.Rendering
import KotlinDecl.Proofs.TypeDecl.Members

namespace KotlinDecl

open Layout (text empty ofText parenthesized)

namespace Layout

/-- The layouts have written parts of the text, each behind the one before. -/
def InOrder : List Char → List Layout → Prop
  | _, [] => True
  | cs, d :: ds => ∃ front w back,
    (d.run w).error = none ∧ cs = front ++ (d.run w).text ++ back ∧ InOrder back ds

variable {cs cs' : List Char} {a b : Layout} {ds es : List Layout}

theorem InOrder.behind (h : InOrder cs ds) (front : List Char) : InOrder (front ++ cs) ds := by
  cases ds with
  | nil => trivial
  | cons d ds =>
      obtain ⟨front', w, back, hw, rfl, hback⟩ := h
      exact ⟨front ++ front', w, back, hw, by simp only [List.append_assoc], hback⟩

theorem InOrder.append (h : InOrder cs ds) (h' : InOrder cs' es) :
    InOrder (cs ++ cs') (ds ++ es) := by
  induction ds generalizing cs with
  | nil => exact h'.behind cs
  | cons d ds ih =>
      obtain ⟨front, w, back, hw, rfl, hback⟩ := h
      exact ⟨front, w, back ++ cs', hw, by simp only [List.append_assoc], ih hback⟩

/-- Whoever carries out the layout to its end has written the parts. -/
def Writes (d : Layout) (parts : List Layout) : Prop :=
  ∀ w, (d.run w).error = none → InOrder (d.run w).text parts

theorem writes_nil (d : Layout) : d.Writes [] := fun _ _ => trivial

theorem writes_self (d : Layout) : d.Writes [d] :=
  fun w h => ⟨[], w, [], h, by rw [List.nil_append, List.append_nil], trivial⟩

theorem writes_fail (e : Error) (ds : List Layout) : (fail e).Writes ds := by
  intro w h
  cases h

theorem Writes.append (ha : a.Writes ds) (hb : b.Writes es) : (a ++ b).Writes (ds ++ es) := by
  intro w h
  obtain ⟨hwa, hwb⟩ := Written.error_of_andThen h
  rw [text_run_append hwa]
  exact (ha w hwa).append (hb _ hwb)

theorem Writes.append_left (h : a.Writes ds) (b : Layout) : (a ++ b).Writes ds := by
  simpa using h.append (writes_nil b)

theorem Writes.append_right (a : Layout) (h : b.Writes ds) : (a ++ b).Writes ds :=
  (writes_nil a).append h

theorem Writes.of_run (h : a.Writes ds) (he : b.run = a.run) : b.Writes ds := by
  intro w hw
  rw [he] at hw ⊢
  exact h w hw

theorem Writes.ofOption {α : Type} {f g : α → Layout} {o : Option α}
    (h : ∀ x, (f x).Writes [g x]) : (ofOption (o.map f)).Writes (o.toList.map g) := by
  cases o with
  | none => exact writes_nil _
  | some x => exact h x

theorem Writes.separated {α : Type} {f : α → Layout} {g : α → List Layout}
    (h : ∀ x, (f x).Writes (g x)) (sep : Layout) (xs : List α) :
    (separated sep (xs.map f)).Writes (xs.flatMap g) := by
  induction xs with
  | nil => exact writes_nil _
  | cons x xs ih =>
      cases xs with
      | nil =>
          rw [List.flatMap_singleton]
          exact h x
      | cons y xs =>
          rw [List.flatMap_cons]
          exact ((h x).append_left sep).append ih

theorem Writes.parenthesized {α : Type} {f : α → Layout} {g : α → List Layout}
    (h : ∀ x, (f x).Writes (g x)) (xs : List α) :
    (parenthesized (xs.map f)).Writes (xs.flatMap g) :=
  ((Writes.separated h (text ", ") xs).append_right (text "(")).append_left (text ")")

theorem run_blank_append (a : Layout) : (text "" ++ empty ++ empty ++ a).run = a.run := rfl

end Layout

open Layout (writes_nil writes_self writes_fail Writes)

namespace Value

variable (unit : IndentUnit)

def shown (unit : IndentUnit) (front : String) (v : Value) (back : String) : Layout :=
  Layout.text front ++ ofText (v.text unit) ++ Layout.text back

theorem writes_between (v : Value) (format front back : String) :
    ((v.forms unit).toMention.between format front back).Writes [v.shown unit front back] := by
  unfold Mention.between
  split
  · exact writes_self _
  · exact writes_fail _ _

def boundParts (unit : IndentUnit) : List Value → List Layout
  | [b] =>
    if b.isNamed (TypeName.anyType.withNullable true) then [] else [b.shown unit " : " ""]
  | _ => []

def typeParameterParts (unit : IndentUnit) : Value → List Layout
  | .type (.typeVar name bounds variance reified _) =>
    variance.toList.map (fun v => Layout.text (v.modifier.keyword ++ " ")) ++
      (if reified then [Layout.text "reified "] else []) ++ [Layout.text name] ++
      boundParts unit bounds
  | _ => []

def whereParts (unit : IndentUnit) : Value → List Layout
  | .type (.typeVar name bounds ..) =>
    if bounds.length < 2 then [] else bounds.map fun b => b.shown unit (name ++ " : ") ""
  | _ => []

theorem writes_bound (b : Value) :
    (if (b.forms unit).value.isNamed (TypeName.anyType.withNullable true) then empty
      else (b.forms unit).toMention.between " : %T" " : " "").Writes (boundParts unit [b]) := by
  rw [boundParts, b.value_forms]
  split
  · exact writes_nil _
  · exact b.writes_between unit _ _ _

theorem writes_typeVariable (v : Value) :
    (Layout.typeVariable (v.forms unit)).Writes (v.typeParameterParts unit) := by
  cases v with
  | type t =>
      cases t with
      | typeVar name bounds variance reified nullable =>
          refine ((Writes.append (Writes.ofOption fun v => writes_self _) ?_).append
            (writes_self _)).append ?_
          · cases reified with
            | false => exact writes_nil _
            | true => exact writes_self _
          · match bounds with
            | [] => exact writes_nil _
            | [b] => exact writes_bound unit b
            | _ :: _ :: _ => exact writes_nil _
      | _ => exact writes_nil _
  | _ => exact writes_nil _

theorem writes_typeVariables (vs : List Value) :
    (Layout.when (!(vs.map (·.forms unit)).isEmpty)
      (Layout.typeVariables (vs.map (·.forms unit)) ++ Layout.text " ")).Writes
      (vs.flatMap (·.typeParameterParts unit)) := by
  cases vs with
  | nil => exact writes_nil _
  | cons v vs =>
      have hmap : ((v :: vs).map (·.forms unit)).map Layout.typeVariable =
          (v :: vs).map fun v => Layout.typeVariable (v.forms unit) := List.map_map
      have hs := Writes.separated (writes_typeVariable unit) (Layout.text ", ") (v :: vs)
      rw [← hmap] at hs
      exact ((hs.append_right (Layout.text "<")).append_left (Layout.text ">")).append_left _

theorem bounds_forms (name : String) (bounds : List Value) (variance : Option Variance)
    (reified nullable : Bool) :
    ((Value.type (.typeVar name bounds variance reified nullable)).forms unit).bounds =
      bounds.map fun b => (b.forms unit).toMention := by
  simp [forms, TypeName.forms, Forms.typeVar, Forms.type, Value.formsAll_eq]

theorem writes_whereEntries (first : Bool) (name : String) (bounds : List Value) :
    (Layout.whereEntries first name (bounds.map fun b => (b.forms unit).toMention)).Writes
      (bounds.map fun b => b.shown unit (name ++ " : ") "") := by
  induction bounds generalizing first with
  | nil => exact writes_nil _
  | cons b bounds ih =>
      have hb := b.writes_between unit "%L : %T" (name ++ " : ") ""
      exact (hb.append_right _).append (ih false)

theorem writes_whereClause (first : Bool) (vs : List Value) :
    (Layout.whereClause first (vs.map (·.forms unit))).Writes (vs.flatMap (·.whereParts unit)) := by
  induction vs generalizing first with
  | nil => exact writes_nil _
  | cons v vs ih =>
      rw [List.map_cons, Layout.whereClause, v.value_forms, List.flatMap_cons]
      cases v with
      | type t =>
          cases t with
          | typeVar name bounds variance reified nullable =>
              simp only [bounds_forms, List.length_map, whereParts]
              split
              · exact ih first
              · exact (writes_whereEntries unit first name bounds).append (ih false)
          | _ => exact writes_fail _ _
      | _ => exact writes_fail _ _

end Value

namespace FunPieces

def delegationPart (f : FunPieces) : Layout :=
  .ofOption (f.decl.delegation.map fun d =>
    text (" : " ++ d.keyword) ++ parenthesized f.delegationArgs)

/-- A signature with a place for everything. -/
def completeSignature (f : FunPieces) : Layout :=
  text (if f.decl.isConstructor || f.decl.isAccessor then "" else "fun ") ++
    Layout.when (!f.typeVariables.isEmpty) (Layout.typeVariables f.typeVariables ++ text " ") ++
    .ofOption (f.receiver.map (·.between "%T." "" ".")) ++
    text f.decl.name ++ f.parameterList (!f.decl.isAccessor) ++ f.delegationPart ++
    f.returnType ++ .whereClause true f.typeVariables

variable {f : FunPieces}

theorem run_completeSignature_of_bare (hs : (f.decl.isConstructor || f.decl.isAccessor) = true)
    (hv : f.typeVariables = []) (hr : f.receiver = none) (ht : f.returns = none) :
    f.completeSignature.run =
      (text f.decl.name ++ f.parameterList (!f.decl.isAccessor) ++ f.delegationPart).run := by
  have he : f.completeSignature = text "" ++ empty ++ empty ++ text f.decl.name ++
      f.parameterList (!f.decl.isAccessor) ++ f.delegationPart ++ empty ++ empty := by
    simp [completeSignature, returnType, hs, hv, hr, ht, Layout.when, Layout.ofOption,
      Layout.whereClause]
  rw [he, Layout.run_append_empty, Layout.run_append_empty]
  have hname := Layout.run_blank_append (text f.decl.name)
  exact Layout.run_append_congr (Layout.run_append_congr hname rfl) rfl

theorem run_completeSignature_of_ordinary
    (hs : ¬(f.decl.isConstructor || f.decl.isAccessor) = true) (hd : f.decl.delegation = none) :
    f.completeSignature.run = f.functionSignature.run := by
  have ha : f.decl.isAccessor = false := by
    simp only [Bool.or_eq_true, not_or, Bool.not_eq_true] at hs
    exact hs.2
  have hpart : f.delegationPart = empty := by rw [delegationPart, hd]; rfl
  rw [completeSignature, if_neg hs, ha, hpart]
  exact Layout.run_append_congr (Layout.run_append_congr (Layout.run_append_empty _) rfl) rfl

end FunPieces

namespace FunDecl

variable {unit : IndentUnit} {f g : FunDecl} {typed : Prop}

/-- Nothing is set that the layout for the sort of function has no place for. -/
structure Shaped (f : FunDecl) : Prop where
  typeVariables : (f.isConstructor || f.isAccessor) = true → f.typeVariables = []
  receiver : (f.isConstructor || f.isAccessor) = true → f.receiver = none
  returns : (f.isConstructor || f.isAccessor) = true → f.returns = none
  delegation : f.delegation.isSome = true → f.isConstructor = true
  delegationArgs : f.delegationArgs ≠ [] → f.delegation.isSome = true
  getter : f.name = getterName → f.parameters = []
  setter : f.name = setterName → f.parameters.length ≤ 1

theorem shaped_plain (name : String) : (plain name).Shaped where
  typeVariables _ := rfl
  receiver _ := rfl
  returns _ := rfl
  delegation h := nomatch h
  delegationArgs h := absurd rfl h
  getter _ := rfl
  setter _ := by simp [plain]

theorem checkAccessorParameters_ok (h : f.checkAccessorParameters = .ok ()) :
    f.name ≠ getterName ∧ (f.name = setterName → f.parameters = []) := by
  unfold checkAccessorParameters at h
  split at h
  · cases h
  · next hg =>
      split at h
      · cases h
      · next hs => exact ⟨hg, by simpa using hs⟩

theorem Shaped.step (h : f.Step typed g) (hf : f.Shaped) : g.Shaped := by
  cases h with
  | typeVariable v hn _ =>
      exact { hf with typeVariables := fun h => absurd (hn.symm.trans h) Bool.false_ne_true }
  | receiver o hn _ =>
      exact { hf with receiver := fun h => absurd (hn.symm.trans h) Bool.false_ne_true }
  | returns o hn _ =>
      exact { hf with returns := fun h => absurd (hn.symm.trans h) Bool.false_ne_true }
  | parameter p hc _ =>
      obtain ⟨hgetter, hsetter⟩ := checkAccessorParameters_ok hc
      refine { hf with getter := fun hn => absurd hn hgetter, setter := fun hn => ?_ }
      simp [hsetter hn]
  | delegation t hn => exact { hf with delegation := fun _ => hn, delegationArgs := fun _ => rfl }
  | delegationArgs cs hd _ => exact { hf with delegationArgs := fun _ => hd }
  | _ => exact { hf with }

theorem shaped_of_traced (h : (Draft.function f).Traced unit typed) : f.Shaped := by
  obtain ⟨name, _, hs⟩ := h.function
  exact Edit.keeps_of_steps hs Shaped.step (shaped_plain name)

theorem typeVariables_pieces (unit : IndentUnit) (f : FunDecl) :
    (f.pieces unit).typeVariables = f.typeVariables.map (·.forms unit) := by
  cases f
  exact Value.formsAll_eq _ _

theorem receiver_pieces (unit : IndentUnit) (f : FunDecl) :
    (f.pieces unit).receiver = f.receiver.map fun v => (v.forms unit).toMention := by
  cases f with
  | mk name kdoc annotations modifiers typeVariables receiver => cases receiver <;> rfl

theorem returns_pieces (unit : IndentUnit) (f : FunDecl) :
    (f.pieces unit).returns = f.returns.map fun v => (v.forms unit).toMention := by
  cases f with
  | mk name kdoc annotations modifiers typeVariables receiver returns => cases returns <;> rfl

theorem delegationArgs_pieces (unit : IndentUnit) (f : FunDecl) :
    (f.pieces unit).delegationArgs = f.delegationArgs.map (·.layout unit) := by
  cases f
  simp only [pieces, CodeBlock.piecesAll_eq, List.map_map]
  rfl

def signatureParts (unit : IndentUnit) (f : FunDecl) : List Layout :=
  f.typeVariables.flatMap (·.typeParameterParts unit) ++
    f.receiver.toList.map (·.shown unit "" ".") ++ [text f.name] ++
    f.parameters.map (fun p => (p.pieces unit).layout (!f.isAccessor)) ++
    f.delegation.toList.map (fun d =>
      text (" : " ++ d.keyword) ++ parenthesized (f.delegationArgs.map (·.layout unit))) ++
    (f.returns.toList.filter (!·.isNamed .unitType)).map (·.shown unit ": " "") ++
    f.typeVariables.flatMap (·.whereParts unit)

theorem writes_returnType (unit : IndentUnit) (f : FunDecl) :
    (f.pieces unit).returnType.Writes
      ((f.returns.toList.filter (!·.isNamed .unitType)).map (·.shown unit ": " "")) := by
  rw [FunPieces.returnType, returns_pieces]
  cases f.returns with
  | none => exact writes_nil _
  | some v =>
      have hv : (v.forms unit).value = v := v.value_forms unit
      simp only [Option.map_some, hv]
      by_cases hu : v.isNamed .unitType = true
      · rw [if_pos hu]
        simpa [hu] using writes_nil _
      · rw [if_neg hu]
        simpa [hu] using v.writes_between unit ": %T" ": " ""

theorem writes_parameterList (unit : IndentUnit) (f : FunDecl) (withType : Bool) :
    ((f.pieces unit).parameterList withType).Writes
      (f.parameters.map fun p => (p.pieces unit).layout withType) := by
  have hmap : (f.pieces unit).parameters.map (·.layout withType) =
      f.parameters.map fun p => (p.pieces unit).layout withType := by
    rw [parameters_pieces, List.map_map]
    rfl
  have hp := Writes.parenthesized (fun p : Parameter => writes_self
    ((p.pieces unit).layout withType)) f.parameters
  rw [← List.map_eq_flatMap] at hp
  rwa [FunPieces.parameterList, hmap]

theorem writes_delegationPart (unit : IndentUnit) (f : FunDecl) :
    (f.pieces unit).delegationPart.Writes (f.delegation.toList.map fun d =>
      text (" : " ++ d.keyword) ++ parenthesized (f.delegationArgs.map (·.layout unit))) := by
  rw [FunPieces.delegationPart, decl_pieces, delegationArgs_pieces]
  exact Writes.ofOption fun d => writes_self _

theorem writes_completeSignature (unit : IndentUnit) (f : FunDecl) :
    (f.pieces unit).completeSignature.Writes (f.signatureParts unit) := by
  have hvariables := Value.writes_typeVariables unit f.typeVariables
  have hreceiver : Writes _ (f.receiver.toList.map (·.shown unit "" ".")) :=
    Writes.ofOption fun v => v.writes_between unit "%T." "" "."
  have hparameters := writes_parameterList unit f (!f.isAccessor)
  have hdelegation := writes_delegationPart unit f
  have hreturns := writes_returnType unit f
  have hwhere := Value.writes_whereClause unit true f.typeVariables
  rw [FunPieces.completeSignature, typeVariables_pieces, receiver_pieces, decl_pieces,
    Option.map_map]
  exact ((((((hvariables.append_right _).append hreceiver).append (writes_self _)).append
    hparameters).append hdelegation).append hreturns).append hwhere

theorem not_isAccessor (h : f.isConstructor = true) : f.isAccessor = false := by
  have hn : f.name = constructorName := of_decide_eq_true h
  rw [isAccessor, hn]
  decide

theorem Shaped.delegation_eq_none (h : f.Shaped) (hc : ¬f.isConstructor = true) :
    f.delegation = none := by
  cases hd : f.delegation with
  | none => rfl
  | some t => exact absurd (h.delegation (by rw [hd]; rfl)) hc

/-- The three layouts do what one with a place for everything does. -/
theorem Shaped.run_signature (h : f.Shaped) :
    (f.pieces unit).signature.run = (f.pieces unit).completeSignature.run := by
  rw [FunPieces.signature, decl_pieces]
  by_cases hs : (f.isConstructor || f.isAccessor) = true
  · -- Of the parts behind the name, only the parameters and the delegation are left.
    rw [FunPieces.run_completeSignature_of_bare (by rwa [decl_pieces])
      (by rw [typeVariables_pieces, h.typeVariables hs, List.map_nil])
      (by rw [receiver_pieces, h.receiver hs, Option.map_none])
      (by rw [returns_pieces, h.returns hs, Option.map_none]), decl_pieces]
    by_cases hc : f.isConstructor = true
    · have hn : f.name = constructorName := of_decide_eq_true hc
      rw [if_pos hc, not_isAccessor hc, hn]
      rfl
    · have ha : f.isAccessor = true := by simpa [hc] using hs
      have hpart : (f.pieces unit).delegationPart = empty := by
        rw [FunPieces.delegationPart, decl_pieces, h.delegation_eq_none hc]
        rfl
      rw [if_neg hc, if_pos ha, ha, hpart, Layout.run_append_empty, FunPieces.accessorSignature,
        decl_pieces]
      rfl
  · obtain ⟨hc, ha⟩ := not_or.1 (mt Bool.or_eq_true_iff.2 hs)
    rw [if_neg hc, if_neg ha, FunPieces.run_completeSignature_of_ordinary (by rwa [decl_pieces])]
    rw [decl_pieces, h.delegation_eq_none hc]

theorem Shaped.writes_layout (h : f.Shaped) (implied : List Modifier) :
    ((f.pieces unit).layout implied).Writes (f.signatureParts unit) :=
  (((writes_completeSignature unit f).of_run h.run_signature).append_right _).append_left _

theorem error_layout_of_balanced {u : String} (hw : f.wellTyped = true)
    (hb : f.balanced false = true) (implied : List Modifier) {w : Writer}
    (hs : w.statement = -1) (hl : 0 ≤ w.level) :
    (((f.pieces (.ok u)).layout implied).run w).error = none := by
  have hk := (Layout.reads_steadiness u).settles.ofFunDecl f hw false fun _ => hb
  have hsteady : ((f.pieces (.ok u)).layout implied).Steady false := hk.layout implied
  exact (hsteady 0 w w.level.toNat (Writer.at_of_outside hs (by omega))).error

/-- However a function is built, only what its sort of function is written with is set. So the
layout does what one does that has a place for everything, and whoever carries it out to its end
has written all that is set, apart from a lone bound that every type satisfies and the type of a
setter's parameter. -/
theorem signature_complete (hf : Draft.Reached unit (fun _ => True) (.function f)) :
    f.Shaped ∧ (f.pieces unit).signature.run = (f.pieces unit).completeSignature.run ∧
      ∀ implied, ((f.pieces unit).layout implied).Writes (f.signatureParts unit) ∧
        (f.wellTyped = true → f.balanced false = true → ∀ u w, unit = .ok u → w.statement = -1 →
          0 ≤ w.level → (((f.pieces unit).layout implied).run w).error = none) := by
  have hshaped : f.Shaped := shaped_of_traced (hf.traced False.elim)
  refine ⟨hshaped, hshaped.run_signature, fun implied => ⟨hshaped.writes_layout implied, ?_⟩⟩
  rintro hw hb u w rfl hs hl
  exact error_layout_of_balanced hw hb implied hs hl

/-- A constructor that refuses a type variable and a receiver on its way. -/
theorem signature_complete_delegating :
    let unit : IndentUnit := .ok "  "
    let t : Value := .type (.typeVar "T" [] none false false)
    let p : Parameter := .plain "x" (.type (.named (some "kotlin") ["Int"] false))
    let calls : List Call := [.addTypeVariable t,
      .addParameter (.decl none (.parameter p)) .null [], .receiver t, .delegate .toThis [.str "x"]]
    let f : FunDecl := { plain constructorName with
      parameters := [p], delegation := some .toThis, delegationArgs := [⟨[.text "x"], []⟩] }
    let r := ((f.pieces unit).layout []).run (.fresh "  ")
    calls.foldl (fun f c => ((c.apply unit).outcome f).1) (plain constructorName) = f ∧
      Draft.Reached unit (fun _ => True) (.function f) ∧ f.Shaped ∧ r.error = none ∧
      Layout.InOrder r.text (f.signatureParts unit) ∧
      r.text = "constructor(x: Int) : this(x)\n".toList := by
  intro unit t p calls f r
  have hs : Draft.Reached unit (fun _ => True) (.function (plain constructorName)) :=
    .start (x := .function (.str constructorName)) trivial rfl
  have hf : Draft.Reached unit (fun _ => True) (.function f) :=
    hs.calls (calls.map .function) (by simp)
  obtain ⟨hshaped, _, hwrites⟩ := signature_complete hf
  obtain ⟨hparts, herror⟩ := hwrites []
  have hok : r.error = none := herror (by decide) (by decide) "  " _ rfl rfl (by decide)
  exact ⟨rfl, hf, hshaped, hok, hparts _ hok, by decide⟩

/-- The bound that every type satisfies is not written, nor is the type of a setter's parameter. -/
theorem signature_leaves_out :
    let unit : IndentUnit := .ok "  "
    let bound : Value := .type (TypeName.anyType.withNullable true)
    let t : Value := .type (.typeVar "T" [bound] none false false)
    let p : Parameter := .plain "value" (.type (.named (some "kotlin") ["Int"] false))
    let f : FunDecl := { plain "f" with typeVariables := [t] }
    let g : FunDecl := { plain setterName with parameters := [p] }
    Draft.Reached unit (fun _ => True) (.function f) ∧
      Draft.Reached unit (fun _ => True) (.function g) ∧
      ((f.pieces unit).whole.run (.fresh "  ")).text = "fun <T> f() \x7b\n\x7d\n".toList ∧
      ((g.pieces unit).whole.run (.fresh "  ")).text = "set(value) \x7b\n\x7d\n".toList := by
  intro unit bound t p f g
  have hf : Draft.Reached unit (fun _ => True) (.function (plain "f")) :=
    .start (x := .function (.str "f")) trivial rfl
  have hg : Draft.Reached unit (fun _ => True) (.function (plain setterName)) :=
    .start (x := .function (.str setterName)) trivial rfl
  refine ⟨.call (c := .function (.addTypeVariable t)) trivial hf, ?_, by decide, by decide⟩
  exact .call (c := .function (.addParameter (.decl none (.parameter p)) .null [])) trivial hg

end FunDecl

end KotlinDecl
