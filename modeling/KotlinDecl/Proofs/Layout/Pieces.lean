import KotlinDecl.Proofs.Folding
import KotlinDecl.Proofs.Layout.Discipline

namespace KotlinDecl

namespace CodePieces

def Keeps (K : Discipline) (b : Bool) (c : CodePieces) : Prop :=
  ∀ (ps : List Part) (as : List (Placeholder → Layout)),
    K.Keeps b (.code ps as) → K.Keeps b (.code (c.parts ++ ps) (c.args ++ as))

variable {K : Discipline} {b : Bool}

theorem Keeps.append {c d : CodePieces} (hc : c.Keeps K b) (hd : d.Keeps K b) :
    (c ++ d).Keeps K b := by
  intro ps as h
  have hcd := hc (d.parts ++ ps) (d.args ++ as) (hd ps as h)
  rwa [← List.append_assoc, ← List.append_assoc] at hcd

theorem keeps_nil : (fixed []).Keeps K b := fun _ _ h => h

theorem keeps_text (s : String) : (fixed [.text s]).Keeps K b := fun _ _ h => (K.text s b).append h

theorem keeps_wrap : (fixed [.wrap]).Keeps K b := fun _ _ h => (K.text " " b).append h

theorem keeps_argument {a : Placeholder → Layout} {p : Placeholder} (h : K.Keeps b (a p)) :
    (CodePieces.mk [.argument p] [a]).Keeps K b :=
  fun _ _ hr => h.append hr

theorem Keeps.joined {sep : CodePieces} {cs : List CodePieces} (hsep : sep.Keeps K b)
    (h : ∀ c ∈ cs, c.Keeps K b) : (joined sep cs).Keeps K b := by
  induction cs with
  | nil => exact keeps_nil
  | cons c cs ih =>
      have hc := h c List.mem_cons_self
      have hr := ih fun d hd => h d (List.mem_cons_of_mem _ hd)
      cases cs with
      | nil => exact hc
      | cons d cs => exact (hc.append hsep).append hr

theorem Keeps.layout {c : CodePieces} (h : c.Keeps K b) : K.Keeps b c.layout := by
  have hl := h [] [] (K.empty b)
  rwa [List.append_nil, List.append_nil] at hl

end CodePieces

structure Forms.IsType (f : Forms) : Prop where
  mention : f.toMention.IsType
  written : ∃ s, f.written [] = .text s

theorem Forms.IsType.keeps {f : Forms} (h : f.IsType) (K : Discipline) (b : Bool) :
    K.Keeps b (f.written []) := by
  obtain ⟨s, hs⟩ := h.written
  rw [hs]
  exact K.text s b

def Forms.Annotates (K : Discipline) (b : Bool) (f : Forms) : Prop :=
  ∀ told, K.Keeps b (f.written [told])

def Forms.Functions (K : Discipline) (b : Bool) (f : Forms) : Prop :=
  ∀ told, (∃ ms, told.implied = .ok ms) → K.Keeps b (f.written [told])

structure ParameterPieces.Keeps (K : Discipline) (b : Bool) (p : ParameterPieces) : Prop where
  type : p.type.IsType
  annotations : ∀ f ∈ p.annotations, f.Annotates K b
  defaultValue : ∀ d ∈ p.defaultValue, K.Keeps b d

namespace ParameterPieces.Keeps

variable {K : Discipline} {p : ParameterPieces} {b : Bool}

theorem valueLayout (h : p.Keeps K b) : K.Keeps b p.valueLayout := by
  refine .ofOption fun c hc => ?_
  obtain ⟨d, hd, rfl⟩ := Option.map_eq_some_iff.1 hc
  exact (K.text _ b).append (h.defaultValue d hd)

theorem layout (h : p.Keeps K b) (withType : Bool) : K.Keeps b (p.layout withType) := by
  have ha := Discipline.Keeps.annotated fun f hf => h.annotations f hf (.flag true)
  refine .append (.append (.append ha (K.modifiers _ _ b)) ?_) h.valueLayout
  split
  · exact K.between h.type _ _ _ b
  · exact K.text _ b

end ParameterPieces.Keeps

theorem AnnotationPieces.keeps_layout {K : Discipline} {a : AnnotationPieces} {b : Bool}
    (ht : a.type.IsType) (hm : ∀ d ∈ a.members, K.Keeps b d) : K.Keeps b a.layout :=
  .append (K.between ht _ _ _ b) (.when _ fun _ => .parenthesized hm)

structure FunPieces.Keeps (K : Discipline) (b : Bool) (f : FunPieces) : Prop where
  kdoc : K.Keeps b f.kdoc
  annotations : ∀ a ∈ f.annotations, a.Annotates K b
  typeVariables : ∀ v ∈ f.typeVariables, v.IsTypeVariable
  receiver : ∀ m ∈ f.receiver, m.IsType
  returns : ∀ m ∈ f.returns, m.IsType
  parameters : ∀ p ∈ f.parameters, p.Keeps K b
  body : K.Keeps b f.body
  delegationArgs : ∀ d ∈ f.delegationArgs, K.Keeps b d

namespace FunPieces.Keeps

variable {K : Discipline} {f : FunPieces} {b : Bool}

theorem parameterList (h : f.Keeps K b) (withType : Bool) :
    K.Keeps b (f.parameterList withType) :=
  .parenthesized (List.forall_mem_map.2 fun p hp => (h.parameters p hp).layout withType)

theorem constructorSignature (h : f.Keeps K b) : K.Keeps b f.constructorSignature := by
  refine .append (.append (K.text _ b) (h.parameterList true)) (.ofOption fun c hc => ?_)
  obtain ⟨d, _, rfl⟩ := Option.map_eq_some_iff.1 hc
  exact (K.text _ b).append (.parenthesized h.delegationArgs)

theorem returnType (h : f.Keeps K b) : K.Keeps b f.returnType := by
  unfold FunPieces.returnType
  split
  · exact K.empty b
  · next m hm =>
      split
      · exact K.empty b
      · exact K.between (h.returns m hm) _ _ _ b

theorem functionSignature (h : f.Keeps K b) : K.Keeps b f.functionSignature := by
  have hv := K.typeVariables h.typeVariables b
  have hr : K.Keeps b (.ofOption (f.receiver.map (·.between "%T." "" "."))) := by
    refine .ofOption fun c hc => ?_
    obtain ⟨m, hm, rfl⟩ := Option.map_eq_some_iff.1 hc
    exact K.between (h.receiver m hm) _ _ _ b
  have hw := K.whereClause h.typeVariables true b
  exact .append (.append (.append (.append (.append (.append (K.text _ b)
    (.when _ fun _ => hv.append (K.text _ b))) hr) (K.text _ b)) (h.parameterList true))
    h.returnType) hw

theorem signature (h : f.Keeps K b) : K.Keeps b f.signature := by
  unfold FunPieces.signature
  split
  · exact h.constructorSignature
  · split
    · exact (K.text _ b).append (h.parameterList false)
    · exact h.functionSignature

theorem layout (h : f.Keeps K b) (implied : List Modifier) : K.Keeps b (f.layout implied) := by
  have ha := Discipline.Keeps.annotated fun a hf => h.annotations a hf (.flag false)
  refine .append (.append (.append (h.kdoc.append ha) (K.modifiers _ _ b)) h.signature) ?_
  split
  · exact K.text _ b
  · exact K.block h.body

end FunPieces.Keeps

/-- The initializer becomes a statement, so there is none inside a statement. -/
structure PropertyPieces.Keeps (K : Discipline) (b : Bool) (p : PropertyPieces) : Prop where
  type : p.type.IsType
  kdoc : K.Keeps b p.kdoc
  annotations : ∀ a ∈ p.annotations, a.Annotates K b
  initializer : ∀ d ∈ p.initializer, (K.strict → b = false) ∧ K.Keeps true d
  getter : ∀ f ∈ p.getter, f.Functions K b
  setter : ∀ f ∈ p.setter, f.Functions K b

namespace PropertyPieces.Keeps

variable {K : Discipline} {p : PropertyPieces} {b : Bool}

theorem core (h : p.Keeps K b) (implied : List Modifier) : K.Keeps b (p.core implied) :=
  .append (.append (K.modifiers _ _ b) (K.text _ b)) (K.between h.type _ _ _ b)

theorem initializerLayout (h : p.Keeps K b) : K.Keeps b p.initializerLayout := by
  refine .ofOption fun c hc => ?_
  obtain ⟨d, hd, rfl⟩ := Option.map_eq_some_iff.1 hc
  obtain ⟨hb, hs⟩ := h.initializer d hd
  exact K.statement _ hb hs

theorem accessor {f : Option Forms} {told : Argument} (h : ∀ g ∈ f, g.Functions K b)
    (ht : ∃ ms, told.implied = .ok ms) : K.Keeps b (PropertyPieces.accessor told f) := by
  refine .ofOption fun c hc => ?_
  obtain ⟨g, hg, rfl⟩ := Option.map_eq_some_iff.1 hc
  exact K.indented (h g hg told ht)

theorem layout (h : p.Keeps K b) {told : Argument} (ht : ∃ ms, told.implied = .ok ms)
    (withInitializer : Bool) (inline : Argument) :
    K.Keeps b (p.layout told withInitializer inline) := by
  obtain ⟨ms, hms⟩ := ht
  have ha := Discipline.Keeps.annotated fun a ha => h.annotations a ha inline
  have hc : K.Keeps b (.orFail (told.implied.map p.core)) := by
    rw [hms]
    exact h.core ms
  exact .append (.append (.append (.append (.when _ fun _ => h.kdoc) ha) hc)
    (.when _ fun _ => h.initializerLayout)) (.when _ fun _ => .append (.append (K.text _ b)
      (accessor h.getter ⟨ms, hms⟩)) (accessor h.setter ⟨ms, hms⟩))

end PropertyPieces.Keeps

theorem PropertyDecl.foldsInto_ok {ps : List (String × Key)} (h : ∀ p ∈ ps, p.2.Comparable)
    (p : PropertyDecl) (type : Key) : ∃ b, p.foldsInto type ps = .ok b := by
  unfold PropertyDecl.foldsInto
  split
  · exact ⟨false, rfl⟩
  · next other ho =>
      obtain ⟨front, back, rfl, _⟩ := List.lookup_eq_some_iff.1 ho
      obtain ⟨b, hb⟩ := h (p.name, other) (by simp) false type
      rw [hb]
      cases b <;> exact ⟨_, rfl⟩

structure TypePieces.Keeps (K : Discipline) (d : TypePieces) : Prop where
  kind : ∃ k, d.decl.kind = .kind k
  kdoc : K.Keeps false d.kdoc
  annotations : ∀ a ∈ d.annotations, a.Annotates K false
  anonymous : ∀ f ∈ d.anonymous, (∃ c, f.value = .code c) ∧ K.Keeps false f.literal
  typeVariables : ∀ v ∈ d.typeVariables, v.IsTypeVariable
  primaryConstructor : ∀ f ∈ d.primaryConstructor, f.Keeps K false
  superclass : d.superclass.IsType
  superclassArgs : ∀ c ∈ d.superclassArgs, c.Keeps K false
  superinterfaces : ∀ s ∈ d.superinterfaces, s.1.IsType ∧ ∀ c ∈ s.2, c.Keeps K false
  constants : ∀ c ∈ d.constants, K.Keeps false c
  properties : ∀ p ∈ d.properties, p.Keeps K false
  initializer : K.Keeps false d.initializer
  functions : ∀ o ∈ d.functions, ∃ f, o = some f ∧ f.Keeps K false
  types : ∀ t ∈ d.types, K.Keeps false t
  companion : ∀ c ∈ d.companion, K.Keeps false c

namespace TypePieces.Keeps

variable {K : Discipline} {d : TypePieces}

/-- Which properties fold is settled without an error, because types can be compared. -/
theorem folded (h : d.Keeps K) :
    ∃ fs, d.folded = .ok fs ∧ ∀ f ∈ fs, f.2.Keeps K false := by
  have hp : ∀ p ∈ d.constructorParameters, p.2.Comparable := by
    unfold constructorParameters
    split
    · exact List.forall_mem_nil _
    · next f hf =>
        exact List.forall_mem_map.2 fun p hp =>
          ((h.primaryConstructor f hf).parameters p hp).type.key
  have hf : ∀ p ∈ d.properties, ∃ b, p.decl.foldsInto p.type.key d.constructorParameters = .ok b :=
    fun p _ => p.decl.foldsInto_ok hp p.type.key
  obtain ⟨fs, hfs⟩ := folded_ok hf []
  refine ⟨fs, hfs, fun f hf => ?_⟩
  rcases mem_of_folded hfs hf with hm | ⟨hm, _, _⟩
  · cases hm
  · exact h.properties f.2 hm

theorem primaryLayout {f : FunPieces} {fs : List (String × PropertyPieces)} (hf : f.Keeps K false)
    (hfs : ∀ p ∈ fs, p.2.Keeps K false) : K.Keeps false (TypePieces.primaryLayout fs f) := by
  have ha := Discipline.Keeps.annotated fun a ha => hf.annotations a ha (.flag true)
  refine .append (.when _ fun _ => .append (.append (.append (K.text _ _) ha)
    (K.modifiers _ _ _)) (K.text _ _)) (.parenthesized (List.forall_mem_map.2 ?_))
  intro p hp
  unfold constructorParameter
  split
  · exact (hf.parameters p hp).layout true
  · next q hq =>
      obtain ⟨front, back, rfl, _⟩ := List.lookup_eq_some_iff.1 hq
      have hs := hfs (p.decl.name, q) (by simp)
      exact (hs.layout ⟨_, rfl⟩ false _).append (hf.parameters p hp).valueLayout

theorem hasConstructor_ok {fs : List (Option FunPieces)}
    (h : ∀ o ∈ fs, ∃ f, o = some f ∧ f.Keeps K false) : ∃ b, hasConstructor fs = .ok b := by
  induction fs with
  | nil => exact ⟨false, rfl⟩
  | cons o fs ih =>
      obtain ⟨f, rfl, _⟩ := h o List.mem_cons_self
      rw [hasConstructor]
      split
      · exact ⟨true, rfl⟩
      · exact ih fun o ho => h o (List.mem_cons_of_mem _ ho)

theorem superclassPieces (h : d.Keeps K) :
    ∃ cs, d.superclassPieces = .ok cs ∧ ∀ c ∈ cs, c.Keeps K false := by
  have ht : (CodePieces.mk [.argument .type] [d.superclass.argument]).Keeps K false :=
    CodePieces.keeps_argument (h.superclass.keeps K false)
  have hc : (CodePieces.mk [.argument .literal]
      [CodePieces.codeArgument d.superclassCode.layout]).Keeps K false :=
    CodePieces.keeps_argument
      (CodePieces.Keeps.joined (CodePieces.keeps_text _) h.superclassArgs).layout
  have htc := ((ht.append (CodePieces.keeps_text "(")).append hc).append
    (CodePieces.keeps_text ")")
  unfold TypePieces.superclassPieces
  split
  · obtain ⟨b, hb⟩ := hasConstructor_ok h.functions
    simp only [hb, h.superclass.mention.checkType, bind, Except.bind]
    split
    · exact ⟨_, rfl, List.forall_mem_singleton.2 htc⟩
    · exact ⟨_, rfl, List.forall_mem_singleton.2 ht⟩
  · exact ⟨[], rfl, List.forall_mem_nil _⟩

theorem superinterfacePieces {ss : List (Forms × Option CodePieces)}
    (h : ∀ s ∈ ss, s.1.IsType ∧ ∀ c ∈ s.2, c.Keeps K false) :
    ∃ cs, TypePieces.superinterfacePieces ss = .ok cs ∧ ∀ c ∈ cs, c.Keeps K false := by
  induction ss with
  | nil => exact ⟨[], rfl, List.forall_mem_nil _⟩
  | cons s ss ih =>
      obtain ⟨f, o⟩ := s
      obtain ⟨hf, ho⟩ := h (f, o) List.mem_cons_self
      obtain ⟨cs, hcs, hs⟩ := ih fun s hs => h s (List.mem_cons_of_mem _ hs)
      have ht : (CodePieces.mk [.argument .type] [f.argument]).Keeps K false :=
        CodePieces.keeps_argument (hf.keeps K false)
      cases o with
      | none =>
          refine ⟨_ :: cs, ?_, List.forall_mem_cons.2 ⟨ht, hs⟩⟩
          simp [TypePieces.superinterfacePieces, hf.mention.checkType, hcs]
          rfl
      | some c =>
          have hc := (ht.append (CodePieces.keeps_text " by ")).append (ho c rfl)
          refine ⟨_ :: cs, ?_, List.forall_mem_cons.2 ⟨hc, hs⟩⟩
          simp [TypePieces.superinterfacePieces, hf.mention.checkType, hcs]
          rfl

theorem supertypes (h : d.Keeps K) : K.Keeps false d.supertypes := by
  obtain ⟨cs, hcs, hs⟩ := h.superclassPieces
  obtain ⟨cs', hcs', hs'⟩ := superinterfacePieces h.superinterfaces
  have hj := CodePieces.Keeps.joined
    ((CodePieces.keeps_text ",").append (CodePieces.keeps_wrap))
    (List.forall_mem_append.2 ⟨hs, hs'⟩)
  simp only [TypePieces.supertypes, hcs, hcs', bind, Except.bind, pure, Except.pure]
  split
  · next he => cases he
  · exact K.empty false
  · next he => exact Except.ok.inj he ▸ ((CodePieces.keeps_text " : ").append hj).layout

theorem namedHeader (h : d.Keeps K) {fs : List (String × PropertyPieces)}
    (hfs : ∀ p ∈ fs, p.2.Keeps K false) : K.Keeps false (d.namedHeader fs) := by
  have ha := Discipline.Keeps.annotated fun a ha => h.annotations a ha (.flag false)
  have hk : K.Keeps false (.orFail (do return .text (← d.decl.knownKind).keyword)) := by
    obtain ⟨k, hk⟩ := h.kind
    simp only [TypeDecl.knownKind, hk]
    exact K.text _ _
  have hn : K.Keeps false (.ofOption (d.decl.name.map fun n => .text " " ++ .text n)) := by
    refine .ofOption fun c hc => ?_
    obtain ⟨n, _, rfl⟩ := Option.map_eq_some_iff.1 hc
    exact (K.text _ _).append (K.text _ _)
  have hc : K.Keeps false
      (.ofOption (d.primaryConstructor.map (TypePieces.primaryLayout fs))) := by
    refine .ofOption fun c hc => ?_
    obtain ⟨f, hf, rfl⟩ := Option.map_eq_some_iff.1 hc
    exact primaryLayout (h.primaryConstructor f hf) hfs
  exact .append (.append (.append (.append (.append (.append (.append (h.kdoc.append ha)
    (K.modifiers _ _ _)) hk) hn) (K.typeVariables h.typeVariables _))
    (K.whereClause h.typeVariables _ _)) hc) h.supertypes

theorem anonymousSupertypes (h : d.Keeps K) {arguments : Forms}
    (ha : K.Keeps false arguments.literal) :
    ∃ ds, d.anonymousSupertypes arguments = .ok ds ∧ ∀ c ∈ ds, K.Keeps false c := by
  have hi : ∀ s ∈ d.superinterfaces, ∃ c, (do
      s.1.checkType " %T"
      return Layout.text " " ++ s.1.argument .type) = .ok c ∧ K.Keeps false c := by
    intro s hs
    have ht := (h.superinterfaces s hs).1
    exact ⟨_, by rw [ht.mention.checkType]; rfl, (K.text _ _).append (ht.keeps K _)⟩
  obtain ⟨ds, hds, hs⟩ := mapM_all_ok hi
  unfold TypePieces.anonymousSupertypes
  rw [hds, h.superclass.mention.checkType]
  split
  · refine ⟨_, rfl, List.forall_mem_append.2 ⟨List.forall_mem_singleton.2 ?_, hs⟩⟩
    exact ((((K.text _ _).append (h.superclass.keeps K _)).append (K.text _ _)).append
      ha).append (K.text _ _)
  · exact ⟨ds, rfl, hs⟩

theorem anonymousHeader (h : d.Keeps K) {arguments : Forms} (ha : K.Keeps false arguments.literal) :
    K.Keeps false (d.anonymousHeader arguments) := by
  obtain ⟨ds, hds, hs⟩ := h.anonymousSupertypes ha
  simp only [TypePieces.anonymousHeader, hds]
  refine .append (K.text _ _) ?_
  split
  · next he => cases he
  · exact K.empty _
  · next he =>
      rw [← Except.ok.inj he]
      exact (K.text _ _).append (.separated (K.text _ _) hs)

theorem constantHeader (h : d.Keeps K) {label : Layout} (hl : K.Keeps false label)
    (ha : d.anonymous.isSome = true) : K.Keeps false (d.constantHeader label) := by
  have hn := Discipline.Keeps.annotated fun a ha => h.annotations a ha (.flag false)
  refine .append (.append (h.kdoc.append hn) hl) ?_
  obtain ⟨f, hf⟩ := Option.isSome_iff_exists.1 ha
  obtain ⟨⟨c, hc⟩, hs⟩ := h.anonymous f hf
  simp only [constantArguments, hf, hc]
  exact .when _ fun _ => ((K.text _ _).append hs).append (K.text _ _)

theorem constantMembers {cs : List Layout} (h : ∀ c ∈ cs, K.Keeps false c) (more : Bool) :
    ∀ c ∈ TypePieces.constantMembers more cs, K.Keeps false c := by
  induction cs with
  | nil => exact List.forall_mem_nil _
  | cons c cs ih =>
      have hc := h c List.mem_cons_self
      have hr := ih fun c hc => h c (List.mem_cons_of_mem _ hc)
      cases cs with
      | nil => exact List.forall_mem_singleton.2 (hc.append (K.text _ _))
      | cons e cs => exact List.forall_mem_cons.2 ⟨hc.append (K.text _ _), hr⟩

theorem constructorMembers {fs : List (Option FunPieces)}
    (h : ∀ o ∈ fs, ∃ f, o = some f ∧ f.Keeps K false) (ms : List Modifier) :
    ∀ m ∈ TypePieces.constructorMembers (.ok ms) fs, ∃ c, m = .ok c ∧ K.Keeps false c := by
  induction fs with
  | nil => exact List.forall_mem_nil _
  | cons o fs ih =>
      obtain ⟨f, rfl, hf⟩ := h o List.mem_cons_self
      have hr := ih fun o ho => h o (List.mem_cons_of_mem _ ho)
      rw [TypePieces.constructorMembers]
      split
      · exact List.forall_mem_cons.2 ⟨⟨_, rfl, hf.layout ms⟩, hr⟩
      · exact hr

theorem functionMembers {fs : List (Option FunPieces)}
    (h : ∀ o ∈ fs, ∃ f, o = some f ∧ f.Keeps K false) (ms : List Modifier) :
    ∀ c ∈ TypePieces.functionMembers (.ok ms) fs, K.Keeps false c := by
  intro c hc
  obtain ⟨f, hf, hc⟩ := List.mem_filterMap.1 hc
  obtain ⟨o, ho, rfl⟩ := List.mem_filterMap.1 hf
  obtain ⟨f', he, hf'⟩ := h _ ho
  split at hc
  · cases hc
  · cases hc
    cases he
    exact hf'.layout ms

theorem memberList (h : d.Keeps K) (names : List String) :
    ∀ m ∈ d.memberList names, ∃ c, m = .ok c ∧ K.Keeps false c := by
  have hok : ∀ {cs : List Layout}, (∀ c ∈ cs, K.Keeps false c) →
      ∀ m ∈ cs.map Except.ok, ∃ c, m = (.ok c : Except Error Layout) ∧ K.Keeps false c :=
    fun hcs => List.forall_mem_map.2 fun c hc => ⟨c, rfl, hcs c hc⟩
  obtain ⟨k, hk⟩ := h.kind
  have hp : ∃ ms, d.decl.propertyModifiers = .ok ms := by
    simp only [TypeDecl.propertyModifiers, TypeDecl.knownKind, hk]
    exact ⟨_, rfl⟩
  have hf : ∃ ms, d.decl.functionModifiers = .ok ms := by
    simp only [TypeDecl.functionModifiers, TypeDecl.knownKind, hk]
    exact ⟨_, rfl⟩
  obtain ⟨ps, hps⟩ := hp
  obtain ⟨fs, hfs⟩ := hf
  unfold TypePieces.memberList
  rw [hps, hfs]
  simp only [List.forall_mem_append]
  refine ⟨⟨⟨⟨⟨⟨⟨?_, ?_⟩, ?_⟩, ?_⟩, ?_⟩, ?_⟩, ?_⟩, ?_⟩
  · exact hok (constantMembers h.constants _)
  · refine List.forall_mem_map.2 fun p hp => ⟨_, rfl, ?_⟩
    exact (h.properties p (List.mem_filter.1 hp).1).layout ⟨_, rfl⟩ _ _
  · split
    · next f hf =>
        split
        · exact List.forall_mem_nil _
        · exact List.forall_mem_singleton.2
            ⟨_, rfl, (K.text _ _).append (K.block (h.primaryConstructor f hf).body)⟩
    · exact List.forall_mem_nil _
  · split
    · exact List.forall_mem_nil _
    · exact List.forall_mem_singleton.2 ⟨_, rfl, h.initializer⟩
  · exact constructorMembers h.functions fs
  · exact hok (functionMembers h.functions fs)
  · exact hok h.types
  · exact hok fun c hc => h.companion c (Option.mem_toList.1 hc)

theorem bodyLayout (h : d.Keeps K) (names : List String) {close : Layout}
    (hc : K.Keeps false close) : K.Keeps false (d.bodyLayout names close) :=
  .append (.append (.append (K.text _ _) (K.body _ (.members (h.memberList names) true)))
    (K.text _ _)) hc

theorem foldedLayout (h : d.Keeps K) {label : Option Layout}
    (hl : ∀ l ∈ label, K.Keeps false l ∧ d.anonymous.isSome = true)
    {fs : List (String × PropertyPieces)} (hfs : ∀ p ∈ fs, p.2.Keeps K false) :
    K.Keeps false (d.foldedLayout label fs) := by
  unfold TypePieces.foldedLayout
  split
  · next l =>
      refine (h.constantHeader (hl l rfl).1 (hl l rfl).2).append ?_
      split
      · exact K.empty _
      · exact h.bodyLayout _ (K.empty _)
  · next arguments ha =>
      refine (h.anonymousHeader (h.anonymous arguments ha).2).append ?_
      split
      · exact K.text _ _
      · exact h.bodyLayout _ (K.empty _)
  · refine (h.namedHeader hfs).append ?_
    split
    · exact K.text _ _
    · exact h.bodyLayout _ (K.text _ _)

theorem contents (h : d.Keeps K) {label : Option Layout}
    (hl : ∀ l ∈ label, K.Keeps false l ∧ d.anonymous.isSome = true) :
    K.Keeps false (.orFail (d.folded.map (d.foldedLayout label))) := by
  obtain ⟨fs, hfs, hs⟩ := h.folded
  rw [hfs]
  exact h.foldedLayout hl hs

theorem layout (h : d.Keeps K) {label : Option Layout}
    (hl : ∀ l ∈ label, K.Keeps false l ∧ d.anonymous.isSome = true) (b : Bool) :
    K.Keeps b (d.layout label) :=
  K.declaration b (h.contents hl)

theorem unlabelled (h : d.Keeps K) (b : Bool) : K.Keeps b (d.layout none) := by
  refine h.layout (fun l hl => ?_) b
  cases hl

end TypePieces.Keeps

end KotlinDecl
