import KotlinDecl.Proofs.Failures.Basic

namespace KotlinDecl

open Layout (text empty fail ofText orFail)

variable {P : Error → Prop}

theorem ends_folded {α : Type} {Q : α → Prop} {name : α → String} {folds : α → Except Error Bool}
    {found : List (String × α)} {as : List α} (hfolds : ∀ a ∈ as, FailsIn P (folds a))
    (has : ∀ a ∈ as, Q a) (hfound : ∀ e ∈ found, Q e.2) :
    Ends P (∀ e ∈ ·, Q e.2) (folded name folds found as) := by
  induction as generalizing found with
  | nil => exact hfound
  | cons a as ih =>
      obtain ⟨ha, has⟩ := List.forall_mem_cons.1 has
      obtain ⟨hf, hfolds⟩ := List.forall_mem_cons.1 hfolds
      refine hf.bind fun b => ?_
      cases b with
      | true =>
          refine ih hfolds has fun e he => ?_
          rcases mem_of_setEntry he with rfl | he
          · exact ha
          · exact hfound e he
      | false => exact ih hfolds has hfound

structure Mention.FailsIn (P : Error → Prop) (m : Mention) : Prop where
  text : KotlinDecl.FailsIn P m.text
  inspected : KotlinDecl.FailsIn P m.inspected
  key : m.key.FailsIn P

structure Argument.FailsIn (P : Error → Prop) (a : Argument) : Prop where
  label : a.label.FailsIn P
  implied : KotlinDecl.FailsIn P a.implied

/-- The value fails only for errors with `P` in all its forms, if what it is told does. -/
structure Forms.FailsIn (P : Error → Prop) (f : Forms) : Prop extends f.toMention.FailsIn P where
  literal : f.literal.FailsIn P
  string : f.string.FailsIn P
  written (told : List Argument) : (∀ a ∈ told, a.FailsIn P) → (f.written told).FailsIn P
  bounds : ∀ m ∈ f.bounds, m.FailsIn P

def CodePieces.FailsIn (P : Error → Prop) (c : CodePieces) : Prop :=
  ∀ a ∈ c.args, ∀ p, (a p).FailsIn P

structure ParameterPieces.FailsIn (P : Error → Prop) (p : ParameterPieces) : Prop where
  type : p.type.FailsIn P
  annotations : ∀ f ∈ p.annotations, f.FailsIn P
  defaultValue : ∀ d ∈ p.defaultValue, d.FailsIn P

structure AnnotationPieces.FailsIn (P : Error → Prop) (a : AnnotationPieces) : Prop where
  type : a.type.FailsIn P
  members : ∀ d ∈ a.members, d.FailsIn P

structure FunPieces.FailsIn (P : Error → Prop) (f : FunPieces) : Prop where
  kdoc : f.kdoc.FailsIn P
  annotations : ∀ a ∈ f.annotations, a.FailsIn P
  typeVariables : ∀ v ∈ f.typeVariables, v.FailsIn P
  receiver : ∀ m ∈ f.receiver, m.FailsIn P
  returns : ∀ m ∈ f.returns, m.FailsIn P
  parameters : ∀ p ∈ f.parameters, p.FailsIn P
  body : f.body.FailsIn P
  delegationArgs : ∀ d ∈ f.delegationArgs, d.FailsIn P

structure PropertyPieces.FailsIn (P : Error → Prop) (p : PropertyPieces) : Prop where
  type : p.type.FailsIn P
  kdoc : p.kdoc.FailsIn P
  annotations : ∀ a ∈ p.annotations, a.FailsIn P
  initializer : ∀ d ∈ p.initializer, d.FailsIn P
  getter : ∀ f ∈ p.getter, f.FailsIn P
  setter : ∀ f ∈ p.setter, f.FailsIn P

structure TypePieces.FailsIn (P : Error → Prop) (d : TypePieces) : Prop where
  kind : d.kind.FailsIn P
  kdoc : d.kdoc.FailsIn P
  annotations : ∀ a ∈ d.annotations, a.FailsIn P
  anonymous : ∀ f ∈ d.anonymous, f.FailsIn P
  typeVariables : ∀ v ∈ d.typeVariables, v.FailsIn P
  primaryConstructor : ∀ f ∈ d.primaryConstructor, f.FailsIn P
  superclass : d.superclass.FailsIn P
  superclassArgs : ∀ c ∈ d.superclassArgs, c.FailsIn P
  superinterfaces : ∀ s ∈ d.superinterfaces, s.1.FailsIn P ∧ ∀ c ∈ s.2, c.FailsIn P
  constants : ∀ c ∈ d.constants, c.FailsIn P
  properties : ∀ p ∈ d.properties, p.FailsIn P
  initializer : d.initializer.FailsIn P
  functions : ∀ o ∈ d.functions, ∀ f ∈ o, f.FailsIn P
  types : ∀ t ∈ d.types, t.FailsIn P
  companion : ∀ c ∈ d.companion, c.FailsIn P

theorem Layout.failsIn_annotated {inline : Argument} {fs : List Forms} (hi : inline.FailsIn P)
    (h : ∀ f ∈ fs, f.FailsIn P) : (Layout.annotated inline fs).FailsIn P := by
  induction fs with
  | nil => trivial
  | cons f fs ih =>
      obtain ⟨hf, hfs⟩ := List.forall_mem_cons.1 h
      exact ⟨⟨hf.written [inline] (List.forall_mem_singleton.2 hi), trivial⟩, ih hfs⟩

theorem ParameterPieces.FailsIn.valueLayout {p : ParameterPieces} (h : p.FailsIn P) :
    p.valueLayout.FailsIn P := by
  simpa [ParameterPieces.valueLayout] using h.defaultValue

namespace CodePieces

theorem FailsIn.append {c d : CodePieces} (hc : c.FailsIn P) (hd : d.FailsIn P) :
    (c ++ d).FailsIn P :=
  List.forall_mem_append.2 ⟨hc, hd⟩

theorem failsIn_fixed (ps : List Part) : (fixed ps).FailsIn P := List.forall_mem_nil _

theorem FailsIn.joined {sep : CodePieces} {cs : List CodePieces} (hsep : sep.FailsIn P)
    (h : ∀ c ∈ cs, c.FailsIn P) : (joined sep cs).FailsIn P := by
  induction cs with
  | nil => exact failsIn_fixed []
  | cons c cs ih =>
      obtain ⟨hc, hcs⟩ := List.forall_mem_cons.1 h
      cases cs with
      | nil => exact hc
      | cons d cs => exact (hc.append hsep).append (ih hcs)

end CodePieces

theorem Argument.failsIn_ofModifiers (ms : List Modifier) : (ofModifiers ms).FailsIn P :=
  ⟨trivial, trivial⟩

theorem Argument.failsIn_noModifiers : noModifiers.FailsIn P := ⟨trivial, trivial⟩

section

variable (hP : Covers P)

include hP

namespace Argument

theorem failsIn_flag (b : Bool) : (flag b).FailsIn P := ⟨trivial, hP.unsuited⟩

theorem failsIn_nothing : nothing.FailsIn P := ⟨trivial, hP.unsuited⟩

end Argument

namespace Mention

theorem FailsIn.checkType {m : Mention} (h : m.FailsIn P) (format : String) :
    KotlinDecl.FailsIn P (m.checkType format) := by
  unfold Mention.checkType
  split
  · trivial
  · exact h.inspected.bind fun _ => hP.codeFormat _ _

theorem FailsIn.between {m : Mention} (h : m.FailsIn P) (format front back : String) :
    (m.between format front back).FailsIn P := by
  unfold Mention.between
  split
  · simpa using h.text
  · next he => exact (h.checkType hP format).of_error he

end Mention

namespace Layout

theorem failsIn_typeVariable {f : Forms} (h : f.FailsIn P) : (typeVariable f).FailsIn P := by
  unfold typeVariable
  split
  · refine ⟨⟨⟨?_, by simp⟩, trivial⟩, ?_⟩
    · simp
    · split
      · next bound hb =>
          split
          · trivial
          · exact (h.bounds bound (by simp [hb])).between hP _ _ _
      · trivial
  · exact hP.lacking

theorem failsIn_typeVariables {fs : List Forms} (h : ∀ f ∈ fs, f.FailsIn P) :
    (typeVariables fs).FailsIn P := by
  unfold typeVariables
  split
  · trivial
  · simpa using fun f hf => failsIn_typeVariable hP (h f hf)

theorem failsIn_whereEntries {ms : List Mention} (h : ∀ m ∈ ms, m.FailsIn P) (first : Bool)
    (name : String) : (whereEntries first name ms).FailsIn P := by
  induction ms generalizing first with
  | nil => trivial
  | cons m ms ih =>
      obtain ⟨hm, hms⟩ := List.forall_mem_cons.1 h
      exact ⟨⟨trivial, hm.between hP _ _ _⟩, ih hms false⟩

theorem failsIn_whereClause {fs : List Forms} (h : ∀ f ∈ fs, f.FailsIn P) (first : Bool) :
    (whereClause first fs).FailsIn P := by
  induction fs generalizing first with
  | nil => trivial
  | cons f fs ih =>
      obtain ⟨hf, hfs⟩ := List.forall_mem_cons.1 h
      unfold whereClause
      split
      · split
        · exact ih hfs first
        · exact ⟨failsIn_whereEntries hP hf.bounds _ _, ih hfs false⟩
      · exact hP.lacking

end Layout

namespace ParameterPieces.FailsIn

variable {p : ParameterPieces}

theorem layout (h : p.FailsIn P) (withType : Bool) : (p.layout withType).FailsIn P := by
  have ha := Layout.failsIn_annotated (Argument.failsIn_flag hP true) h.annotations
  refine ⟨⟨⟨ha, Layout.failsIn_modifiers _ _⟩, ?_⟩, h.valueLayout⟩
  split
  · exact h.type.between hP _ _ _
  · trivial

theorem written (h : p.FailsIn P) (told : List Argument) : (p.written told).FailsIn P := by
  unfold ParameterPieces.written
  split
  · exact h.layout hP true
  · exact h.layout hP _
  · exact hP.unsuited

end ParameterPieces.FailsIn

namespace AnnotationPieces.FailsIn

variable {a : AnnotationPieces}

theorem layout (h : a.FailsIn P) : a.layout.FailsIn P := by
  refine ⟨h.type.between hP _ _ _, ?_⟩
  simpa using fun _ => h.members

theorem written (h : a.FailsIn P) (told : List Argument) : (a.written told).FailsIn P := by
  unfold AnnotationPieces.written
  split
  · exact h.layout hP
  · exact hP.unsuited

end AnnotationPieces.FailsIn

namespace FunPieces.FailsIn

variable {f : FunPieces}

theorem parameterList (h : f.FailsIn P) (withType : Bool) :
    (f.parameterList withType).FailsIn P := by
  simpa [FunPieces.parameterList] using fun p hp => (h.parameters p hp).layout hP withType

theorem returnType (h : f.FailsIn P) : f.returnType.FailsIn P := by
  unfold FunPieces.returnType
  split
  · trivial
  · next m hm =>
      split
      · trivial
      · exact (h.returns m hm).between hP _ _ _

theorem constructorSignature (h : f.FailsIn P) : f.constructorSignature.FailsIn P := by
  refine ⟨⟨trivial, h.parameterList hP true⟩, ?_⟩
  simpa using fun _ _ => h.delegationArgs

theorem functionSignature (h : f.FailsIn P) : f.functionSignature.FailsIn P := by
  have hv := Layout.failsIn_typeVariables hP h.typeVariables
  have hr : (Layout.ofOption (f.receiver.map (·.between "%T." "" "."))).FailsIn P := by
    simpa using fun m hm => (h.receiver m hm).between hP _ _ _
  refine ⟨⟨⟨⟨⟨⟨trivial, ?_⟩, hr⟩, trivial⟩, h.parameterList hP true⟩, h.returnType hP⟩,
    Layout.failsIn_whereClause hP h.typeVariables true⟩
  simpa using fun _ => hv

theorem signature (h : f.FailsIn P) : f.signature.FailsIn P := by
  unfold FunPieces.signature
  split
  · exact h.constructorSignature hP
  · split
    · exact ⟨trivial, h.parameterList hP false⟩
    · exact h.functionSignature hP

theorem layout (h : f.FailsIn P) (implied : List Modifier) : (f.layout implied).FailsIn P := by
  have ha := Layout.failsIn_annotated (Argument.failsIn_flag hP false) h.annotations
  refine ⟨⟨⟨⟨h.kdoc, ha⟩, Layout.failsIn_modifiers _ _⟩, h.signature hP⟩, ?_⟩
  split
  · trivial
  · exact Layout.failsIn_block.2 h.body

theorem layout_orFail (h : f.FailsIn P) {implied : Except Error (List Modifier)}
    (hi : KotlinDecl.FailsIn P implied) : (orFail (implied.map f.layout)).FailsIn P :=
  Layout.failsIn_orFail.2 (hi.map fun ms _ => h.layout hP ms)

theorem written (h : f.FailsIn P) (told : List Argument) (ht : ∀ a ∈ told, a.FailsIn P) :
    (f.written told).FailsIn P := by
  unfold FunPieces.written
  split
  · exact h.layout hP []
  · exact h.layout_orFail hP (ht _ List.mem_cons_self).implied
  · exact hP.unsuited

end FunPieces.FailsIn

namespace PropertyPieces.FailsIn

variable {p : PropertyPieces}

theorem core (h : p.FailsIn P) (implied : List Modifier) : (p.core implied).FailsIn P :=
  ⟨⟨Layout.failsIn_modifiers _ _, trivial⟩, h.type.between hP _ _ _⟩

theorem layout (h : p.FailsIn P) {implied inline : Argument} (hi : implied.FailsIn P)
    (hn : inline.FailsIn P) (withInitializer : Bool) :
    (p.layout implied withInitializer inline).FailsIn P := by
  have ha := Layout.failsIn_annotated hn h.annotations
  have hc : (orFail (implied.implied.map p.core)).FailsIn P :=
    Layout.failsIn_orFail.2 (hi.implied.map fun ms _ => h.core hP ms)
  have hv : p.initializerLayout.FailsIn P := by
    simpa [PropertyPieces.initializerLayout, Layout.FailsIn] using h.initializer
  have hx : ∀ o : Option Forms, (∀ f ∈ o, f.FailsIn P) → (accessor implied o).FailsIn P := by
    intro o ho
    simpa [accessor, Layout.FailsIn] using fun f hf =>
      (ho f hf).written [implied] (List.forall_mem_singleton.2 hi)
  refine ⟨⟨⟨⟨?_, ha⟩, hc⟩, ?_⟩, ?_⟩
  · exact Layout.failsIn_when.2 fun _ => h.kdoc
  · exact Layout.failsIn_when.2 fun _ => hv
  · exact Layout.failsIn_when.2 fun _ => ⟨⟨trivial, hx _ h.getter⟩, hx _ h.setter⟩

theorem memberLayout (h : p.FailsIn P) {implied : Argument} (hi : implied.FailsIn P) :
    (p.memberLayout implied).FailsIn P :=
  h.layout hP hi (Argument.failsIn_flag hP false) true

theorem written (h : p.FailsIn P) (told : List Argument) (ht : ∀ a ∈ told, a.FailsIn P) :
    (p.written told).FailsIn P := by
  have hf := Argument.failsIn_flag hP false
  unfold PropertyPieces.written
  split
  · exact h.memberLayout hP (ht _ (by simp))
  · exact h.layout hP (ht _ (by simp)) hf _
  · exact h.layout hP (ht _ (by simp)) (ht _ (by simp)) _
  · exact hP.unsuited

end PropertyPieces.FailsIn

theorem TypeDecl.failsIn_knownKind (d : TypeDecl) : KotlinDecl.FailsIn P d.knownKind := by
  unfold TypeDecl.knownKind
  split
  · trivial
  · exact hP.lacking

theorem Forms.FailsIn.argument {f : Forms} (h : f.FailsIn P) (p : Placeholder) :
    (f.argument p).FailsIn P := by
  cases p with
  | literal => exact h.literal
  | string => exact h.string
  | type => exact h.written [] (List.forall_mem_nil _)
  | name =>
      rw [Forms.argument]
      split
      · trivial
      · exact hP.lacking

namespace CodePieces

theorem FailsIn.layout {c : CodePieces} (h : c.FailsIn P) : c.layout.FailsIn P :=
  Layout.failsIn_code hP h

theorem failsIn_codeArgument {code : Layout} (h : code.FailsIn P) (p : Placeholder) :
    (codeArgument code p).FailsIn P := by
  cases p with
  | literal => exact h
  | name | type => exact hP.lacking
  | string => exact hP.unsuited

end CodePieces

namespace TypePieces

theorem failsIn_hasConstructor (fs : List (Option FunPieces)) :
    KotlinDecl.FailsIn P (hasConstructor fs) := by
  induction fs with
  | nil => trivial
  | cons o fs ih =>
      cases o with
      | none => exact hP.lacking
      | some f =>
          unfold hasConstructor
          split
          · trivial
          · exact ih

namespace FailsIn

variable {d : TypePieces}

omit hP in
theorem constructorParameters (h : d.FailsIn P) :
    ∀ p ∈ d.constructorParameters, p.2.FailsIn P := by
  unfold TypePieces.constructorParameters
  split
  · exact List.forall_mem_nil _
  · next f hf =>
      exact List.forall_mem_map.2 fun p hp =>
        ((h.primaryConstructor f hf).parameters p hp).type.key

omit hP in
theorem folded (h : d.FailsIn P) : Ends P (∀ p ∈ ·, p.2.FailsIn P) d.folded := by
  unfold TypePieces.folded
  have hfolds : ∀ p ∈ d.properties,
      KotlinDecl.FailsIn P (p.decl.foldsInto p.type.key d.constructorParameters) := by
    intro p hp
    unfold PropertyDecl.foldsInto
    split
    · trivial
    · next other ho =>
        obtain ⟨front, back, hps, _⟩ := List.lookup_eq_some_iff.1 ho
        have hother := h.constructorParameters (p.decl.name, other) (by simp [hps])
        exact Key.failsIn_both (hother.equal false (h.properties p hp).type.key) trivial
  exact ends_folded hfolds h.properties (List.forall_mem_nil _)

theorem primaryLayout {f : FunPieces} {fs : List (String × PropertyPieces)} (hf : f.FailsIn P)
    (hfs : ∀ p ∈ fs, p.2.FailsIn P) : (TypePieces.primaryLayout fs f).FailsIn P := by
  have ht := Argument.failsIn_flag hP true
  have ha := Layout.failsIn_annotated ht hf.annotations
  refine ⟨Layout.failsIn_when.2 fun _ => ?_, ?_⟩
  · exact ⟨⟨⟨trivial, ha⟩, Layout.failsIn_modifiers _ _⟩, trivial⟩
  · refine Layout.failsIn_parenthesized.2 (List.forall_mem_map.2 fun p hp => ?_)
    unfold constructorParameter
    split
    · exact (hf.parameters p hp).layout hP true
    · next q hq =>
        obtain ⟨front, back, rfl, _⟩ := List.lookup_eq_some_iff.1 hq
        have hq := hfs (p.decl.name, q) (by simp)
        exact ⟨hq.layout hP (Argument.failsIn_ofModifiers _) ht false,
          (hf.parameters p hp).valueLayout⟩

theorem superclassPieces (h : d.FailsIn P) : Ends P (∀ c ∈ ·, c.FailsIn P) d.superclassPieces := by
  have hs : ∀ p, (d.superclass.argument p).FailsIn P := h.superclass.argument hP
  have hj : d.superclassCode.FailsIn P :=
    .joined (CodePieces.failsIn_fixed _) h.superclassArgs
  have hc := CodePieces.failsIn_codeArgument hP (hj.layout hP)
  unfold TypePieces.superclassPieces
  split
  · refine (failsIn_hasConstructor hP d.functions).bind fun secondary => ?_
    split
    · refine (h.superclass.checkType hP _).bind fun _ => List.forall_mem_singleton.2 ?_
      exact List.forall_mem_cons.2 ⟨hs, List.forall_mem_singleton.2 hc⟩
    · refine (h.superclass.checkType hP _).bind fun _ => List.forall_mem_singleton.2 ?_
      exact List.forall_mem_singleton.2 hs
  · exact List.forall_mem_nil _

theorem superinterfacePieces {ss : List (Forms × Option CodePieces)}
    (h : ∀ s ∈ ss, s.1.FailsIn P ∧ ∀ c ∈ s.2, c.FailsIn P) :
    Ends P (∀ c ∈ ·, c.FailsIn P) (TypePieces.superinterfacePieces ss) := by
  induction ss with
  | nil => exact List.forall_mem_nil _
  | cons s ss ih =>
      obtain ⟨f, o⟩ := s
      obtain ⟨⟨hf, ho⟩, hss⟩ := List.forall_mem_cons.1 h
      have ha : ∀ a ∈ [f.argument], ∀ p, (a p).FailsIn P :=
        List.forall_mem_singleton.2 (hf.argument hP)
      cases o with
      | none =>
          refine (hf.checkType hP _).bind fun _ => (ih hss).bind fun cs hcs => ?_
          exact List.forall_mem_cons.2 ⟨ha, hcs⟩
      | some c =>
          refine (hf.checkType hP _).bind fun _ => (ih hss).bind fun cs hcs => ?_
          exact List.forall_mem_cons.2 ⟨List.forall_mem_append.2 ⟨ha, ho c rfl⟩, hcs⟩

theorem supertypes (h : d.FailsIn P) : d.supertypes.FailsIn P := by
  have hs : Ends P (∀ c ∈ ·, c.FailsIn P)
      (do return (← d.superclassPieces) ++ (← TypePieces.superinterfacePieces d.superinterfaces)) :=
    (h.superclassPieces hP).bind fun cs hcs => (superinterfacePieces hP h.superinterfaces).bind
      fun is his => List.forall_mem_append.2 ⟨hcs, his⟩
  unfold TypePieces.supertypes
  split
  · next he => exact hs.failsIn.of_error he
  · trivial
  · next cs _ he =>
      rw [he] at hs
      have hj := CodePieces.FailsIn.joined (CodePieces.failsIn_fixed [.text ",", .wrap]) hs
      exact (CodePieces.FailsIn.append (CodePieces.failsIn_fixed _) hj).layout hP

theorem namedHeader (h : d.FailsIn P) {fs : List (String × PropertyPieces)}
    (hfs : ∀ p ∈ fs, p.2.FailsIn P) : (d.namedHeader fs).FailsIn P := by
  have ha := Layout.failsIn_annotated (Argument.failsIn_flag hP false) h.annotations
  have hk : (orFail (do return text (← d.decl.knownKind).keyword)).FailsIn P :=
    Layout.failsIn_orFail.2 ((d.decl.failsIn_knownKind hP).bind fun _ => trivial)
  have hn : (Layout.ofOption (d.decl.name.map fun n => text " " ++ text n)).FailsIn P := by simp
  have hc : (Layout.ofOption
      (d.primaryConstructor.map (TypePieces.primaryLayout fs))).FailsIn P := by
    simpa using fun f hf => primaryLayout hP (h.primaryConstructor f hf) hfs
  exact ⟨⟨⟨⟨⟨⟨⟨⟨h.kdoc, ha⟩, Layout.failsIn_modifiers _ _⟩, hk⟩, hn⟩,
    Layout.failsIn_typeVariables hP h.typeVariables⟩,
    Layout.failsIn_whereClause hP h.typeVariables _⟩, hc⟩, h.supertypes hP⟩

theorem anonymousHeader (h : d.FailsIn P) {arguments : Forms} (ha : arguments.FailsIn P) :
    (d.anonymousHeader arguments).FailsIn P := by
  have hi : ∀ cs : List Layout, (∀ c ∈ cs, c.FailsIn P) → Ends P (∀ c ∈ ·, c.FailsIn P) (do
      let interfaces ← d.superinterfaces.mapM fun s => do
        s.1.checkType " %T"
        return text " " ++ s.1.argument .type
      return cs ++ interfaces) := by
    intro cs hcs
    refine (Ends.mapM fun s hs => ?_).bind fun is his => List.forall_mem_append.2 ⟨hcs, his⟩
    have hs := (h.superinterfaces s hs).1
    exact (hs.checkType hP _).bind fun _ => ⟨trivial, hs.argument hP .type⟩
  have hs : Ends P (∀ c ∈ ·, c.FailsIn P) (d.anonymousSupertypes arguments) := by
    unfold TypePieces.anonymousSupertypes
    split
    · refine (h.superclass.checkType hP _).bind fun _ => hi _ (List.forall_mem_singleton.2 ?_)
      exact ⟨⟨⟨⟨trivial, h.superclass.argument hP .type⟩, trivial⟩, ha.literal⟩, trivial⟩
    · exact hi [] (List.forall_mem_nil _)
  refine ⟨trivial, ?_⟩
  split
  · next he => exact hs.failsIn.of_error he
  · trivial
  · next he =>
      rw [he] at hs
      exact ⟨trivial, Layout.failsIn_separated.2 hs⟩

theorem constantHeader (h : d.FailsIn P) {label : Layout} (hl : label.FailsIn P) :
    (d.constantHeader label).FailsIn P := by
  have ha := Layout.failsIn_annotated (Argument.failsIn_flag hP false) h.annotations
  refine ⟨⟨⟨h.kdoc, ha⟩, hl⟩, ?_⟩
  unfold constantArguments
  split
  · exact hP.lacking
  · next arguments harg =>
      split
      · have hl := (h.anonymous arguments harg).literal
        exact Layout.failsIn_when.2 fun _ => ⟨⟨trivial, hl⟩, trivial⟩
      · exact hP.lacking

omit hP in
theorem constantMembers {cs : List Layout} (h : ∀ c ∈ cs, c.FailsIn P) (more : Bool) :
    ∀ c ∈ TypePieces.constantMembers more cs, c.FailsIn P := by
  induction cs with
  | nil => exact List.forall_mem_nil _
  | cons c cs ih =>
      obtain ⟨hc, hcs⟩ := List.forall_mem_cons.1 h
      cases cs with
      | nil => exact List.forall_mem_singleton.2 ⟨hc, trivial⟩
      | cons e cs => exact List.forall_mem_cons.2 ⟨⟨hc, trivial⟩, ih hcs⟩

theorem constructorMembers {implied : Except Error (List Modifier)}
    (hi : KotlinDecl.FailsIn P implied) {fs : List (Option FunPieces)}
    (h : ∀ o ∈ fs, ∀ f ∈ o, f.FailsIn P) :
    ∀ m ∈ TypePieces.constructorMembers implied fs, Ends P (·.FailsIn P) m := by
  induction fs with
  | nil => exact List.forall_mem_nil _
  | cons o fs ih =>
      obtain ⟨ho, hfs⟩ := List.forall_mem_cons.1 h
      cases o with
      | none => exact List.forall_mem_singleton.2 hP.lacking
      | some f =>
          rw [TypePieces.constructorMembers]
          split
          · exact List.forall_mem_cons.2 ⟨(ho f rfl).layout_orFail hP hi, ih hfs⟩
          · exact ih hfs

theorem functionMembers {implied : Except Error (List Modifier)}
    (hi : KotlinDecl.FailsIn P implied) {fs : List (Option FunPieces)}
    (h : ∀ o ∈ fs, ∀ f ∈ o, f.FailsIn P) :
    ∀ c ∈ TypePieces.functionMembers implied fs, c.FailsIn P := by
  intro c hc
  obtain ⟨f, hf, hc⟩ := List.mem_filterMap.1 hc
  obtain ⟨o, ho, rfl⟩ := List.mem_filterMap.1 hf
  split at hc
  · cases hc
  · cases hc
    exact (h _ ho f rfl).layout_orFail hP hi

theorem memberList (h : d.FailsIn P) (names : List String) :
    ∀ m ∈ d.memberList names, Ends P (·.FailsIn P) m := by
  have hk := d.decl.failsIn_knownKind hP
  have hm : KotlinDecl.FailsIn P d.decl.functionModifiers := hk.bind fun _ => trivial
  have hpm : KotlinDecl.FailsIn P d.decl.propertyModifiers := hk.bind fun _ => trivial
  have hok : ∀ ds : List Layout, (∀ c ∈ ds, c.FailsIn P) →
      ∀ m ∈ ds.map .ok, Ends P (·.FailsIn P) m := fun ds hds => List.forall_mem_map.2 hds
  unfold TypePieces.memberList
  simp only [List.forall_mem_append, and_assoc]
  refine ⟨?_, ?_, ?_, ?_, constructorMembers hP hm h.functions, ?_, hok _ h.types, ?_⟩
  · exact hok _ (constantMembers h.constants _)
  · refine List.forall_mem_map.2 fun p hp => Layout.failsIn_orFail.2 (hpm.map fun ms _ => ?_)
    exact (h.properties p (List.mem_filter.1 hp).1).memberLayout hP
      (Argument.failsIn_ofModifiers ms)
  · split
    · next f hf =>
        split
        · exact List.forall_mem_nil _
        · exact List.forall_mem_singleton.2
            ⟨trivial, Layout.failsIn_block.2 (h.primaryConstructor f hf).body⟩
    · exact List.forall_mem_nil _
  · split
    · exact List.forall_mem_nil _
    · exact List.forall_mem_singleton.2 h.initializer
  · exact hok _ (functionMembers hP hm h.functions)
  · exact hok _ (by simpa using h.companion)

theorem layout (h : d.FailsIn P) {label : Option Layout} (hl : ∀ l ∈ label, l.FailsIn P) :
    (d.layout label).FailsIn P := by
  refine Layout.failsIn_orFail.2 (h.folded.map fun fs hfs => ?_)
  have hb : ∀ names close, close.FailsIn P → (d.bodyLayout names close).FailsIn P :=
    fun names close hc => ⟨⟨⟨trivial, Layout.failsIn_members (h.memberList hP names)⟩, trivial⟩, hc⟩
  unfold foldedLayout
  split
  · refine ⟨h.constantHeader hP (hl _ rfl), ?_⟩
    split
    · trivial
    · exact hb _ _ trivial
  · next arguments ha =>
      refine ⟨h.anonymousHeader hP (h.anonymous arguments ha), ?_⟩
      split
      · trivial
      · exact hb _ _ trivial
  · refine ⟨h.namedHeader hP hfs, ?_⟩
    split
    · trivial
    · exact hb _ _ trivial

theorem written (h : d.FailsIn P) (told : List Argument) (ht : ∀ a ∈ told, a.FailsIn P) :
    (d.written told).FailsIn P := by
  unfold TypePieces.written
  split
  · exact h.layout hP nofun
  · next a =>
      refine h.layout hP fun l hl => ?_
      have ha := (ht a List.mem_cons_self).label
      unfold Argument.label? at hl
      split at hl
      · cases hl
      · cases hl
        exact ha
  · exact hP.unsuited

end FailsIn

end TypePieces

end

end KotlinDecl
