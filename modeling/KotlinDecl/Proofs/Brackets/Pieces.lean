import KotlinDecl.Proofs.Brackets.Basic
import KotlinDecl.Proofs.Failures.Pieces

namespace KotlinDecl

open BracketKind Layout

variable {kinds : List BracketKind}

theorem BracketKind.balanced_append {s t : String} (hs : IsBalanced kinds s.toList)
    (ht : IsBalanced kinds t.toList) : IsBalanced kinds (s ++ t).toList := by
  rw [String.toList_append]
  exact hs.append ht

def Mention.Level (kinds : List BracketKind) (m : Mention) : Prop :=
  ∀ t s, m.value = .type t → m.text = .ok s → IsBalanced kinds s.toList

/-- The value is balanced where it is written, if what it is told is. -/
structure Forms.Level (kinds : List BracketKind) (f : Forms) : Prop where
  mention : f.toMention.Level kinds
  literal : f.literal.Level kinds
  written (told : List Argument) : (∀ a ∈ told, a.label.Level kinds) → (f.written told).Level kinds
  variableName {name : String} {bounds : List Value} {variance : Option Variance}
    {reified nullable : Bool} : f.value = .type (.typeVar name bounds variance reified nullable) →
    IsBalanced kinds name.toList
  bounds : ∀ m ∈ f.bounds, m.Level kinds

structure ParameterPieces.Level (kinds : List BracketKind) (p : ParameterPieces) : Prop where
  name : IsBalanced kinds p.decl.name.toList
  type : p.type.Level kinds
  annotations : ∀ f ∈ p.annotations, f.Level kinds
  defaultValue : ∀ d ∈ p.defaultValue, d.Level kinds

structure AnnotationPieces.Level (kinds : List BracketKind) (a : AnnotationPieces) : Prop where
  type : a.type.Level kinds
  members : ∀ d ∈ a.members, d.Level kinds

structure FunPieces.Level (kinds : List BracketKind) (f : FunPieces) : Prop where
  name : IsBalanced kinds f.decl.name.toList
  kdoc : f.kdoc.Level kinds
  annotations : ∀ a ∈ f.annotations, a.Level kinds
  typeVariables : ∀ v ∈ f.typeVariables, v.Level kinds
  receiver : ∀ m ∈ f.receiver, m.Level kinds
  returns : ∀ m ∈ f.returns, m.Level kinds
  parameters : ∀ p ∈ f.parameters, p.Level kinds
  body : f.body.Level kinds
  delegationArgs : ∀ d ∈ f.delegationArgs, d.Level kinds

structure PropertyPieces.Level (kinds : List BracketKind) (p : PropertyPieces) : Prop where
  name : IsBalanced kinds p.decl.name.toList
  type : p.type.Level kinds
  kdoc : p.kdoc.Level kinds
  annotations : ∀ a ∈ p.annotations, a.Level kinds
  initializer : ∀ d ∈ p.initializer, d.Level kinds
  getter : ∀ f ∈ p.getter, f.Level kinds
  setter : ∀ f ∈ p.setter, f.Level kinds

structure TypePieces.Level (kinds : List BracketKind) (d : TypePieces) : Prop where
  name : ∀ n ∈ d.decl.name, IsBalanced kinds n.toList
  kdoc : d.kdoc.Level kinds
  annotations : ∀ a ∈ d.annotations, a.Level kinds
  anonymous : ∀ f ∈ d.anonymous, f.Level kinds
  typeVariables : ∀ v ∈ d.typeVariables, v.Level kinds
  primaryConstructor : ∀ f ∈ d.primaryConstructor, f.Level kinds
  superclass : d.superclass.Level kinds
  superclassArgs : ∀ c ∈ d.superclassArgs, c.Level kinds
  superinterfaces : ∀ s ∈ d.superinterfaces, s.1.Level kinds ∧ ∀ c ∈ s.2, c.Level kinds
  constants : ∀ c ∈ d.constants, c.Level kinds
  properties : ∀ p ∈ d.properties, p.Level kinds
  initializer : d.initializer.Level kinds
  functions : ∀ o ∈ d.functions, ∀ f ∈ o, f.Level kinds
  types : ∀ t ∈ d.types, t.Level kinds
  companion : ∀ c ∈ d.companion, c.Level kinds

theorem Modifier.balanced_inspected (m : Modifier) : IsBalanced kinds m.inspected.toList := by
  have hangle : Encloses angle "<KModifier.".toList "'>".toList :=
    encloses_of (f := []) (g := "'".toList) (o := '<') (c := '>') rfl rfl rfl rfl rfl
  have hmid : IsBalanced kinds ": '".toList := .of_all (by decide)
  have hb := hangle.balanced ((m.free_name.balanced.append hmid).append m.free_keyword.balanced)
  simpa [Modifier.inspected, Modifier.shown] using hb

namespace Argument

theorem level_flag (b : Bool) : (flag b).label.Level kinds := by
  cases b <;> exact level_fixed (by decide)

theorem level_nothing : nothing.label.Level kinds := level_fixed (by decide)

theorem level_noModifiers : noModifiers.label.Level kinds := level_fixed (by decide)

theorem level_ofModifiers (ms : List Modifier) : (ofModifiers ms).label.Level kinds := by
  have hitems : IsBalanced kinds (", ".intercalate (ms.map Modifier.inspected)).toList := by
    rw [String.toList_intercalate, List.map_map]
    exact .intercalate (.of_all (by decide)) (List.forall_mem_map.2 fun m _ => m.balanced_inspected)
  have hround : Encloses round "frozenset(".toList ")".toList :=
    encloses_of (f := "frozenset".toList) (g := []) (o := '(') (c := ')') rfl rfl rfl rfl rfl
  have hcurly : Encloses curly "\x7b".toList "\x7d".toList :=
    encloses_of (f := []) (g := []) (o := '\x7b') (c := '\x7d') rfl rfl rfl rfl rfl
  refine level_text ?_
  unfold Kind.inspectedSet
  split
  · exact .of_all (by decide)
  · simpa using hround.balanced (hcurly.balanced hitems)

end Argument

namespace Mention

theorem type_of_checkType {m : Mention} {format : String} (h : m.checkType format = .ok ()) :
    ∃ t, m.value = .type t := by
  unfold checkType at h
  split at h
  · next t ht => exact ⟨t, ht⟩
  · exact absurd h (bind_ne_ok fun _ => nofun)

theorem Level.between {m : Mention} (h : m.Level kinds) (format : String) {front back : String}
    (hf : IsBalanced kinds front.toList) (hb : IsBalanced kinds back.toList) :
    (m.between format front back).Level kinds := by
  unfold Mention.between
  split
  · next hc =>
      obtain ⟨t, ht⟩ := type_of_checkType hc
      exact ((level_text hf).append (level_ofText fun s => h t s ht)).append (level_text hb)
  · exact level_fail _

end Mention

namespace Layout

theorem level_annotated {inline : Argument} {fs : List Forms} (hi : inline.label.Level kinds)
    (h : ∀ f ∈ fs, f.Level kinds) : (annotated inline fs).Level kinds := by
  induction fs with
  | nil => exact level_empty
  | cons f fs ih =>
      obtain ⟨hf, hfs⟩ := List.forall_mem_cons.1 h
      have hs : (text (if inline.isTrue then " " else "\n")).Level kinds := by
        split <;> exact level_fixed (by decide)
      exact ((hf.written [inline] (List.forall_mem_singleton.2 hi)).append hs).append (ih hfs)

theorem level_typeVariable {f : Forms} (h : f.Level kinds) : (typeVariable f).Level kinds := by
  unfold typeVariable
  split
  · next name bounds variance reified nullable hv =>
      have hvariance : (ofOption (variance.map fun v => text (v.modifier.keyword ++ " "))).Level
          kinds := by
        refine level_ofOption fun d hd => ?_
        obtain ⟨v, _, rfl⟩ := Option.map_eq_some_iff.1 hd
        exact level_keyword v.modifier
      have hreified : (Layout.when reified (text "reified ")).Level kinds :=
        level_when (level_fixed (by decide))
      refine ((hvariance.append hreified).append (level_text (h.variableName hv))).append ?_
      split
      · next bound hb =>
          split
          · exact level_empty
          · exact (h.bounds bound (by simp [hb])).between _ (IsBalanced.of_all (by decide))
              balanced_nil
      · exact level_empty
  · exact level_fail _

theorem level_typeVariables {fs : List Forms} (h : ∀ f ∈ fs, f.Level kinds) :
    (typeVariables fs).Level kinds := by
  unfold typeVariables
  split
  · exact level_empty
  · refine Level.enclosed (level_separated (level_fixed (by decide)) ?_) encloses_angles
    exact List.forall_mem_map.2 fun f hf => level_typeVariable (h f hf)

theorem level_whereEntries {ms : List Mention} (h : ∀ m ∈ ms, m.Level kinds) (first : Bool)
    {name : String} (hn : IsBalanced kinds name.toList) :
    (whereEntries first name ms).Level kinds := by
  induction ms generalizing first with
  | nil => exact level_empty
  | cons m ms ih =>
      obtain ⟨hm, hms⟩ := List.forall_mem_cons.1 h
      have hs : (text (if first then " where " else ", ")).Level kinds := by
        cases first <;> exact level_fixed (by decide)
      have hb : (m.between "%L : %T" (name ++ " : ") "").Level kinds :=
        hm.between _ (balanced_append hn (IsBalanced.of_all (by decide))) balanced_nil
      exact (hs.append hb).append (ih hms false)

theorem level_whereClause {fs : List Forms} (h : ∀ f ∈ fs, f.Level kinds) (first : Bool) :
    (whereClause first fs).Level kinds := by
  induction fs generalizing first with
  | nil => exact level_empty
  | cons f fs ih =>
      obtain ⟨hf, hfs⟩ := List.forall_mem_cons.1 h
      unfold whereClause
      split
      · next hv =>
          split
          · exact ih hfs first
          · exact (level_whereEntries hf.bounds first (hf.variableName hv)).append (ih hfs false)
      · exact level_fail _

end Layout

namespace ParameterPieces.Level

variable {p : ParameterPieces}

theorem valueLayout (h : p.Level kinds) : p.valueLayout.Level kinds := by
  refine level_ofOption fun d hd => ?_
  obtain ⟨c, hc, rfl⟩ := Option.map_eq_some_iff.1 hd
  exact (level_fixed (by decide)).append (h.defaultValue c hc)

theorem layout (h : p.Level kinds) (withType : Bool) : (p.layout withType).Level kinds := by
  have ha := level_annotated (Argument.level_flag true) h.annotations
  refine ((ha.append (level_modifiers _ _)).append ?_).append h.valueLayout
  split
  · exact h.type.between _ (balanced_append h.name (IsBalanced.of_all (by decide))) balanced_nil
  · exact level_text h.name

theorem written (h : p.Level kinds) (told : List Argument) : (p.written told).Level kinds := by
  unfold ParameterPieces.written
  split
  · exact h.layout true
  · exact h.layout _
  · exact level_fail _

end ParameterPieces.Level

namespace AnnotationPieces.Level

variable {a : AnnotationPieces}

theorem layout (h : a.Level kinds) : a.layout.Level kinds :=
  (h.type.between _ (IsBalanced.of_all (by decide)) balanced_nil).append
    (level_when (level_parenthesized h.members))

theorem written (h : a.Level kinds) (told : List Argument) : (a.written told).Level kinds := by
  unfold AnnotationPieces.written
  split
  · exact h.layout
  · exact level_fail _

end AnnotationPieces.Level

namespace FunPieces.Level

variable {f : FunPieces}

theorem parameterList (h : f.Level kinds) (withType : Bool) :
    (f.parameterList withType).Level kinds :=
  level_parenthesized (List.forall_mem_map.2 fun p hp => (h.parameters p hp).layout withType)

theorem constructorSignature (h : f.Level kinds) : f.constructorSignature.Level kinds := by
  refine ((level_fixed (by decide)).append (h.parameterList true)).append ?_
  refine level_ofOption fun d hd => ?_
  obtain ⟨c, _, rfl⟩ := Option.map_eq_some_iff.1 hd
  have hc : (text (" : " ++ c.keyword)).Level kinds := by
    cases c <;> exact level_fixed (by decide)
  exact hc.append (level_parenthesized h.delegationArgs)

theorem returnType (h : f.Level kinds) : f.returnType.Level kinds := by
  unfold FunPieces.returnType
  split
  · exact level_empty
  · next m hm =>
      split
      · exact level_empty
      · exact (h.returns m hm).between _ (IsBalanced.of_all (by decide)) balanced_nil

theorem functionSignature (h : f.Level kinds) : f.functionSignature.Level kinds := by
  have hvariables : (Layout.when (!f.typeVariables.isEmpty)
      (Layout.typeVariables f.typeVariables ++ text " ")).Level kinds :=
    level_when ((level_typeVariables h.typeVariables).append (level_fixed (by decide)))
  have hreceiver : (ofOption (f.receiver.map (·.between "%T." "" "."))).Level kinds := by
    refine level_ofOption fun d hd => ?_
    obtain ⟨m, hm, rfl⟩ := Option.map_eq_some_iff.1 hd
    exact (h.receiver m hm).between _ balanced_nil (IsBalanced.of_all (by decide))
  have hstart : (text "fun ").Level kinds := level_fixed (by decide)
  exact (((((hstart.append hvariables).append hreceiver).append (level_text h.name)).append
    (h.parameterList true)).append h.returnType).append (level_whereClause h.typeVariables true)

theorem signature (h : f.Level kinds) : f.signature.Level kinds := by
  unfold FunPieces.signature
  split
  · exact h.constructorSignature
  · split
    · exact (level_text h.name).append (h.parameterList false)
    · exact h.functionSignature

theorem layout (h : f.Level kinds) (implied : List Modifier) : (f.layout implied).Level kinds := by
  have ha := level_annotated (Argument.level_flag false) h.annotations
  refine (((h.kdoc.append ha).append (level_modifiers _ _)).append h.signature).append ?_
  split
  · exact level_fixed (by decide)
  · exact level_block h.body

theorem layout_orFail (h : f.Level kinds) (implied : Except Error (List Modifier)) :
    (orFail (implied.map f.layout)).Level kinds := by
  cases implied with
  | ok ms => exact h.layout ms
  | error e => exact level_fail e

theorem written (h : f.Level kinds) (told : List Argument) : (f.written told).Level kinds := by
  unfold FunPieces.written
  split
  · exact h.layout []
  · exact h.layout_orFail _
  · exact level_fail _

end FunPieces.Level

namespace PropertyPieces.Level

variable {p : PropertyPieces}

theorem core (h : p.Level kinds) (implied : List Modifier) : (p.core implied).Level kinds := by
  have hk : (text (if p.decl.mutable.isTrue then "var " else "val ")).Level kinds := by
    split <;> exact level_fixed (by decide)
  exact ((level_modifiers _ _).append hk).append
    (h.type.between _ (balanced_append h.name (IsBalanced.of_all (by decide))) balanced_nil)

theorem initializerLayout (h : p.Level kinds) : p.initializerLayout.Level kinds := by
  refine level_ofOption fun d hd => ?_
  obtain ⟨c, hc, rfl⟩ := Option.map_eq_some_iff.1 hd
  have hs : (text (if p.decl.delegated then " by " else " = ")).Level kinds := by
    split <;> exact level_fixed (by decide)
  exact ((hs.append level_empty).append (h.initializer c hc)).append level_empty

theorem accessor {implied : Argument} (hi : implied.label.Level kinds) {o : Option Forms}
    (h : ∀ f ∈ o, f.Level kinds) : (PropertyPieces.accessor implied o).Level kinds := by
  refine level_ofOption fun d hd => ?_
  obtain ⟨f, hf, rfl⟩ := Option.map_eq_some_iff.1 hd
  have hw := (h f hf).written [implied] (List.forall_mem_singleton.2 hi)
  exact (Level.append (a := .indent) level_empty hw).append level_empty

theorem layout (h : p.Level kinds) {implied inline : Argument} (hi : implied.label.Level kinds)
    (hn : inline.label.Level kinds) (withInitializer : Bool) :
    (p.layout implied withInitializer inline).Level kinds := by
  have hc : (orFail (implied.implied.map p.core)).Level kinds := by
    cases implied.implied with
    | ok ms => exact h.core ms
    | error e => exact level_fail e
  have hx : (text "\n" ++ PropertyPieces.accessor implied p.getter ++
      PropertyPieces.accessor implied p.setter).Level kinds :=
    ((level_fixed (by decide)).append (accessor hi h.getter)).append (accessor hi h.setter)
  exact ((((level_when h.kdoc).append (level_annotated hn h.annotations)).append hc).append
    (level_when h.initializerLayout)).append (level_when hx)

theorem memberLayout (h : p.Level kinds) {implied : Argument} (hi : implied.label.Level kinds) :
    (p.memberLayout implied).Level kinds :=
  h.layout hi (Argument.level_flag false) true

theorem written (h : p.Level kinds) (told : List Argument)
    (ht : ∀ a ∈ told, a.label.Level kinds) : (p.written told).Level kinds := by
  unfold PropertyPieces.written
  split
  · exact h.memberLayout (ht _ (by simp))
  · exact h.layout (ht _ (by simp)) (Argument.level_flag false) _
  · exact h.layout (ht _ (by simp)) (ht _ (by simp)) _
  · exact level_fail _

end PropertyPieces.Level

theorem Forms.Level.argument_type {f : Forms} (h : f.Level kinds) :
    (f.argument .type).Level kinds :=
  h.written [] (List.forall_mem_nil _)

namespace TypePieces.Level

variable {d : TypePieces}

theorem folded (h : d.Level kinds) : Gives (∀ p ∈ ·, p.2.Level kinds) d.folded :=
  ends_folded (fun _ _ => failsIn_true _) h.properties (List.forall_mem_nil _)

theorem primaryLayout {f : FunPieces} {fs : List (String × PropertyPieces)} (hf : f.Level kinds)
    (hfs : ∀ p ∈ fs, p.2.Level kinds) : (TypePieces.primaryLayout fs f).Level kinds := by
  have ha := level_annotated (Argument.level_flag true) hf.annotations
  have hs : (text " ").Level kinds := level_fixed (by decide)
  have hc : (text FunDecl.constructorName).Level kinds := level_fixed (by decide)
  refine (level_when (((hs.append ha).append (level_modifiers _ _)).append hc)).append ?_
  refine level_parenthesized (List.forall_mem_map.2 fun p hp => ?_)
  have hp := hf.parameters p hp
  unfold constructorParameter
  split
  · exact hp.layout true
  · next q hq =>
      obtain ⟨front, back, rfl, _⟩ := List.lookup_eq_some_iff.1 hq
      have hq := hfs (p.decl.name, q) (by simp)
      exact (hq.layout (Argument.level_ofModifiers _) (Argument.level_flag true) false).append
        hp.valueLayout

theorem superclassPieces (h : d.Level kinds) :
    Gives (∀ c ∈ ·, c.Level kinds) d.superclassPieces := by
  have ht := h.superclass.argument_type
  have hj : d.superclassCode.Level kinds :=
    .joined (CodePieces.level_fixed (by decide)) h.superclassArgs
  unfold TypePieces.superclassPieces
  split
  · refine (failsIn_true _).bind fun secondary => ?_
    split
    · refine (failsIn_true _).bind fun _ => List.forall_mem_singleton.2 ⟨?_, rfl⟩
      have hp : (text "(" ++ d.superclassCode.layout ++ text ")").Level kinds :=
        hj.layout.enclosed encloses_parentheses
      simpa [Layout.Level, CodePieces.layout, code, CodePieces.codeArgument, raw] using
        IsBalanced.append ht hp
    · refine (failsIn_true _).bind fun _ => List.forall_mem_singleton.2 ⟨?_, rfl⟩
      exact ht.append level_empty
  · exact List.forall_mem_nil _

theorem superinterfacePieces {ss : List (Forms × Option CodePieces)}
    (h : ∀ s ∈ ss, s.1.Level kinds ∧ ∀ c ∈ s.2, c.Level kinds) :
    Gives (∀ c ∈ ·, c.Level kinds) (TypePieces.superinterfacePieces ss) := by
  induction ss with
  | nil => exact List.forall_mem_nil _
  | cons s ss ih =>
      obtain ⟨f, o⟩ := s
      obtain ⟨⟨hf, ho⟩, hss⟩ := List.forall_mem_cons.1 h
      have ht := hf.argument_type
      cases o with
      | none =>
          refine (failsIn_true _).bind fun _ => (ih hss).bind fun cs hcs => ?_
          exact List.forall_mem_cons.2 ⟨⟨ht.append level_empty, rfl⟩, hcs⟩
      | some c =>
          have hby : (⟨[.argument .type, .text " by "], [f.argument]⟩ : CodePieces).Level kinds :=
            ⟨ht.append ((level_fixed (by decide)).append level_empty), rfl⟩
          refine (failsIn_true _).bind fun _ => (ih hss).bind fun cs hcs => ?_
          exact List.forall_mem_cons.2 ⟨hby.append (ho c rfl), hcs⟩

theorem supertypes (h : d.Level kinds) : d.supertypes.Level kinds := by
  have hs : Gives (∀ c ∈ ·, c.Level kinds)
      (do return (← d.superclassPieces) ++ (← TypePieces.superinterfacePieces d.superinterfaces)) :=
    h.superclassPieces.bind fun cs hcs => (superinterfacePieces h.superinterfaces).bind
      fun is his => List.forall_mem_append.2 ⟨hcs, his⟩
  unfold TypePieces.supertypes
  split
  · exact level_fail _
  · exact level_empty
  · next cs _ he =>
      rw [he] at hs
      have hcomma : (CodePieces.fixed [.text ",", .wrap]).Level kinds :=
        ⟨(level_fixed (by decide)).append ((level_fixed (by decide)).append level_empty), rfl⟩
      have hcolon : (CodePieces.fixed [.text " : "]).Level kinds :=
        CodePieces.level_fixed (by decide)
      exact (hcolon.append (.joined hcomma hs)).layout

theorem namedHeader (h : d.Level kinds) {fs : List (String × PropertyPieces)}
    (hfs : ∀ p ∈ fs, p.2.Level kinds) : (d.namedHeader fs).Level kinds := by
  have ha := level_annotated (Argument.level_flag false) h.annotations
  have hk : (orFail (do return text (← d.decl.knownKind).keyword)).Level kinds := by
    refine level_orFail ((failsIn_true d.decl.knownKind).bind fun k => ?_)
    cases k <;> exact level_fixed (by decide)
  have hn : (ofOption (d.decl.name.map fun n => text " " ++ text n)).Level kinds := by
    refine level_ofOption fun l hl => ?_
    obtain ⟨n, hn, rfl⟩ := Option.map_eq_some_iff.1 hl
    exact (level_fixed (by decide)).append (level_text (h.name n hn))
  have hc : (ofOption (d.primaryConstructor.map (TypePieces.primaryLayout fs))).Level kinds := by
    refine level_ofOption fun l hl => ?_
    obtain ⟨f, hf, rfl⟩ := Option.map_eq_some_iff.1 hl
    exact primaryLayout (h.primaryConstructor f hf) hfs
  exact (((((((h.kdoc.append ha).append (level_modifiers _ _)).append hk).append hn).append
    (level_typeVariables h.typeVariables)).append
    (level_whereClause h.typeVariables true)).append hc).append h.supertypes

theorem anonymousSupertypes (h : d.Level kinds) {arguments : Forms} (ha : arguments.Level kinds) :
    Gives (∀ l ∈ ·, l.Level kinds) (d.anonymousSupertypes arguments) := by
  have hi : ∀ ls : List Layout, (∀ l ∈ ls, l.Level kinds) → Gives (∀ l ∈ ·, l.Level kinds) (do
      let interfaces ← d.superinterfaces.mapM fun s => do
        s.1.checkType " %T"
        return text " " ++ s.1.argument .type
      return ls ++ interfaces) := by
    intro ls hls
    refine (Ends.mapM fun s hs => ?_).bind fun is his => List.forall_mem_append.2 ⟨hls, his⟩
    exact (failsIn_true _).bind fun _ =>
      (level_fixed (by decide)).append (h.superinterfaces s hs).1.argument_type
  unfold TypePieces.anonymousSupertypes
  split
  · refine (failsIn_true _).bind fun _ => hi _ (List.forall_mem_singleton.2 ?_)
    have ht : (text " " ++ d.superclass.argument .type).Level kinds :=
      (level_fixed (by decide)).append h.superclass.argument_type
    exact ht.enclosed_behind ha.literal encloses_parentheses
  · exact hi [] (List.forall_mem_nil _)

theorem anonymousHeader (h : d.Level kinds) {arguments : Forms} (ha : arguments.Level kinds) :
    (d.anonymousHeader arguments).Level kinds := by
  have hs := h.anonymousSupertypes ha
  refine (level_fixed (by decide)).append ?_
  split
  · exact level_fail _
  · exact level_empty
  · next he =>
      rw [he] at hs
      exact (level_fixed (by decide)).append (level_separated (level_fixed (by decide)) hs)

theorem constantHeader (h : d.Level kinds) {label : Layout} (hl : label.Level kinds) :
    (d.constantHeader label).Level kinds := by
  have ha := level_annotated (Argument.level_flag false) h.annotations
  refine ((h.kdoc.append ha).append hl).append ?_
  unfold constantArguments
  split
  · exact level_fail _
  · next arguments harg =>
      split
      · exact level_when ((h.anonymous arguments harg).literal.enclosed encloses_parentheses)
      · exact level_fail _

theorem constantMembers {cs : List Layout} (h : ∀ c ∈ cs, c.Level kinds) (more : Bool) :
    ∀ c ∈ TypePieces.constantMembers more cs, c.Level kinds := by
  induction cs with
  | nil => exact List.forall_mem_nil _
  | cons c cs ih =>
      obtain ⟨hc, hcs⟩ := List.forall_mem_cons.1 h
      cases cs with
      | nil =>
          have hm : (text (if more then ";\n" else "\n")).Level kinds := by
            cases more <;> exact level_fixed (by decide)
          exact List.forall_mem_singleton.2 (hc.append hm)
      | cons e cs => exact List.forall_mem_cons.2 ⟨hc.append (level_fixed (by decide)), ih hcs⟩

theorem constructorMembers {fs : List (Option FunPieces)} (h : ∀ o ∈ fs, ∀ f ∈ o, f.Level kinds)
    (implied : Except Error (List Modifier)) :
    ∀ m ∈ TypePieces.constructorMembers implied fs, Gives (·.Level kinds) m := by
  induction fs with
  | nil => exact List.forall_mem_nil _
  | cons o fs ih =>
      obtain ⟨ho, hfs⟩ := List.forall_mem_cons.1 h
      cases o with
      | none => exact List.forall_mem_singleton.2 trivial
      | some f =>
          rw [TypePieces.constructorMembers]
          split
          · exact List.forall_mem_cons.2 ⟨(ho f rfl).layout_orFail implied, ih hfs⟩
          · exact ih hfs

theorem functionMembers {fs : List (Option FunPieces)} (h : ∀ o ∈ fs, ∀ f ∈ o, f.Level kinds)
    (implied : Except Error (List Modifier)) :
    ∀ c ∈ TypePieces.functionMembers implied fs, c.Level kinds := by
  intro c hc
  obtain ⟨f, hf, hc⟩ := List.mem_filterMap.1 hc
  obtain ⟨o, ho, rfl⟩ := List.mem_filterMap.1 hf
  split at hc
  · cases hc
  · cases hc
    exact (h _ ho f rfl).layout_orFail implied

theorem memberList (h : d.Level kinds) (names : List String) :
    ∀ m ∈ d.memberList names, Gives (·.Level kinds) m := by
  have hok : ∀ ds : List Layout, (∀ c ∈ ds, c.Level kinds) →
      ∀ m ∈ ds.map .ok, Gives (·.Level kinds) m := fun ds hds => List.forall_mem_map.2 hds
  unfold TypePieces.memberList
  simp only [List.forall_mem_append, and_assoc]
  refine ⟨hok _ (constantMembers h.constants _), ?_, ?_, ?_, constructorMembers h.functions _,
    hok _ (functionMembers h.functions _), hok _ h.types, hok _ (by simpa using h.companion)⟩
  · refine List.forall_mem_map.2 fun p hp => level_orFail ?_
    have hp := h.properties p (List.mem_filter.1 hp).1
    exact (failsIn_true _).map fun ms _ => hp.memberLayout (Argument.level_ofModifiers ms)
  · split
    · next f hf =>
        split
        · exact List.forall_mem_nil _
        · exact List.forall_mem_singleton.2
            ((level_fixed (by decide)).append (level_block (h.primaryConstructor f hf).body))
    · exact List.forall_mem_nil _
  · split
    · exact List.forall_mem_nil _
    · exact List.forall_mem_singleton.2 h.initializer

theorem bodyLayout (h : d.Level kinds) (names : List String) {close : Layout}
    (hc : close.Level kinds) : (d.bodyLayout names close).Level kinds := by
  have hm : (Layout.body (.decl none (.typeDecl d.decl))
      (Layout.members true (d.memberList names))).Level kinds := level_members (h.memberList names)
  exact (hm.enclosed encloses_braces).append hc

theorem layout (h : d.Level kinds) {label : Option Layout} (hl : ∀ l ∈ label, l.Level kinds) :
    (d.layout label).Level kinds := by
  refine level_orFail (h.folded.map fun fs hfs => ?_)
  unfold foldedLayout
  split
  · refine (h.constantHeader (hl _ rfl)).append ?_
    split
    · exact level_empty
    · exact h.bodyLayout _ level_empty
  · next arguments ha =>
      refine (h.anonymousHeader (h.anonymous arguments ha)).append ?_
      split
      · exact level_fixed (by decide)
      · exact h.bodyLayout _ level_empty
  · refine (h.namedHeader hfs).append ?_
    split
    · exact level_fixed (by decide)
    · exact h.bodyLayout _ (level_fixed (by decide))

theorem written (h : d.Level kinds) (told : List Argument)
    (ht : ∀ a ∈ told, a.label.Level kinds) : (d.written told).Level kinds := by
  unfold TypePieces.written
  split
  · exact h.layout nofun
  · next a =>
      refine h.layout fun l hl => ?_
      unfold Argument.label? at hl
      split at hl
      · cases hl
      · cases hl
        exact ht a List.mem_cons_self
  · exact level_fail _

end TypePieces.Level

end KotlinDecl
