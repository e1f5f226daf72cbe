import KotlinDecl.Proofs.Drafting

namespace KotlinDecl

open Edit

def Feature.kinds : Feature → List Kind
  | superclass => [.classKind, .objectKind]
  | delegation => [.classKind]
  | companion => [.classKind, .interfaceKind]
  | primaryConstructor => [.classKind, .enumKind, .annotationKind]
  | initializerBlock => [.classKind, .objectKind, .enumKind]
  | enumConstants => [.enumKind]

theorem Kind.accepts_iff (k : Kind) (f : Feature) : k.accepts f = true ↔ k ∈ f.kinds := by
  cases k <;> cases f <;> decide

namespace TypeDecl

def IsOneOf (d : TypeDecl) (ks : List Kind) : Prop := ∃ k ∈ ks, d.kind = .kind k

theorem Accepts.isOneOf {d : TypeDecl} {f : Feature} (h : d.Accepts f) : d.IsOneOf f.kinds := by
  obtain ⟨k, hk, ha⟩ := h
  exact ⟨k, (k.accepts_iff f).1 ha, hk⟩

/-- What is checked call by call: the features that the kind admits, what is no part of an
anonymous declaration, and the members of interfaces and annotation classes. -/
structure Admissible (d : TypeDecl) : Prop where
  superclass : d.superclass ≠ .type .anyType ∨ d.superclassArgs ≠ [] →
    d.IsOneOf [.classKind, .objectKind]
  delegates : ∀ s ∈ d.superinterfaces, s.delegate.isSome = true →
    d.IsOneOf [.classKind] ∧ d.isAnonymous = false ∧ s.type.nullable? = some false
  companion : ∀ c ∈ d.companion, d.IsOneOf [.classKind, .interfaceKind] ∧
    c.isKind .objectKind = true ∧ c.modifiers.contains .companion = true
  primaryConstructor : ∀ f ∈ d.primaryConstructor,
    d.IsOneOf [.classKind, .enumKind, .annotationKind] ∧ f.isConstructor = true
  initializer : d.initializer.isEmpty = false → d.IsOneOf [.classKind, .objectKind, .enumKind]
  constants : ∀ c ∈ d.constants,
    d.IsOneOf [.enumKind] ∧ isName c.name = true ∧ c.body.isAnonymous = true
  plainHeader : d.isAnonymous = true → d.modifiers.toList = [] ∧ d.typeVariables = []
  interfaceFunctions : d.isKind .interfaceKind = true →
    ∀ v ∈ d.functions, ∃ ms, InterfaceFunction v ms
  annotationFunctions : d.isKind .annotationKind = true →
    ∀ v ∈ d.functions, ∃ ms body, AnnotationFunction v ms body
  annotationProperties : d.isKind .annotationKind = true →
    ∀ p ∈ d.properties, hasAccessor p = false
  annotationTypes : d.isKind .annotationKind = true → d.types = []

variable {unit : IndentUnit} {typed : Prop}

theorem Begins.admissible {d : TypeDecl} (h : d.Begins typed) : d.Admissible := by
  cases h with
  | plain kind name anonymous _ _ _ =>
      constructor <;> simp [TypeDecl.plain, CodeBlock.isEmpty, CodeBlock.empty, ModifierSet.empty]
  | marked kind name m _ =>
      constructor <;> simp [TypeDecl.plain, CodeBlock.isEmpty, CodeBlock.empty, isAnonymous]

theorem Step.admissible {d e : TypeDecl} (h : Step unit typed d e) (hd : d.Admissible) :
    e.Admissible := by
  cases h with
  | modifier m ha =>
      refine { hd with plainHeader := fun h => ?_ }
      exact absurd (ha.symm.trans h) Bool.false_ne_true
  | typeVariable v ha _ =>
      refine { hd with plainHeader := fun h => ?_ }
      exact absurd (ha.symm.trans h) Bool.false_ne_true
  | companion c hf ho hc _ =>
      refine { hd with companion := ?_ }
      rintro _ ⟨⟩
      exact ⟨hf.isOneOf, ho, hc⟩
  | primaryConstructor o hf ho _ =>
      exact { hd with primaryConstructor := fun f hm => ⟨hf.isOneOf, ho f hm⟩ }
  | superclass v hf _ _ => exact { hd with superclass := fun _ => hf.isOneOf }
  | superclassArg c hf _ => exact { hd with superclass := fun _ => hf.isOneOf }
  | superinterface v _ _ =>
      refine { hd with delegates := forall_mem_snoc hd.delegates ?_ }
      rintro ⟨⟩
  | delegate t c ss hf ha ht _ hs _ =>
      refine { hd with delegates := fun s hm hsome => ?_ }
      rcases mem_putSuperinterface hs s hm with hm | rfl | ⟨y, hy, hfound, rfl⟩
      · exact hd.delegates s hm hsome
      · exact ⟨hf.isOneOf, ha, congrArg some ht⟩
      · -- The entry keeps its own type, which is nullable only if the type that found it is.
        refine ⟨hf.isOneOf, ha, ?_⟩
        exact (Value.nullable?_of_finds hfound).trans (congrArg some ht)
  | constant s body hf hs hb _ =>
      refine { hd with constants := fun c hm => ?_ }
      rcases mem_putConstant c hm with rfl | hm
      · exact ⟨hf.isOneOf, hs, hb⟩
      · exact hd.constants c hm
  | property p _ ha _ =>
      exact { hd with
        annotationProperties := fun hk => forall_mem_snoc (hd.annotationProperties hk) (ha hk) }
  | initializer c hf _ _ _ => exact { hd with initializer := fun _ => hf.isOneOf }
  | function v hi ha _ _ =>
      exact { hd with
        interfaceFunctions := fun hk => forall_mem_snoc (hd.interfaceFunctions hk) (hi hk)
        annotationFunctions := fun hk => forall_mem_snoc (hd.annotationFunctions hk) (ha hk) }
  | type v hk _ =>
      refine { hd with annotationTypes := fun h => ?_ }
      exact absurd (hk.symm.trans h) Bool.false_ne_true
  | _ => exact { hd with }

/-- All the rules together. A constructor declared among the functions is a secondary one. -/
structure Consistent (unit : IndentUnit) (d : TypeDecl) : Prop extends
    d.Regular unit, d.Admissible where
  someConstant : d.isKind .enumKind = true → d.constants ≠ []
  companionOfNameless : d.name = none → d.isAnonymous = false →
    d.modifiers.contains .companion = true
  concreteFunctions : d.isKind .classKind = true → d.modifiers.contains .abstractDecl = false →
    ∀ v ∈ d.functions, ∃ ms, v.carriedModifiers = .ok ms ∧ ms.contains .abstractDecl = false
  secondaryConstructors : d.primaryConstructor = none → d.superclassArgs ≠ [] →
    ∀ v ∈ d.functions, ∃ f, v.asFunction = .ok f ∧ f.isConstructor = false
  expectedProperties : d.isExpected = true →
    ∀ p ∈ d.properties, p.initializer = none ∧ hasAccessor p = false
  expectedFunctions : d.isExpected = true →
    ∀ v ∈ d.functions, ∃ body, v.carriedBody = .ok body ∧ body.isEmpty = true
  expectedInitializer : d.isExpected = true → d.initializer.isEmpty = true
  foldedProperties : d.isKind .annotationKind = true →
    ∃ names, d.foldedNames unit = .ok names ∧ ∀ p ∈ d.properties, p.name ∈ names

theorem defective_ne_ok (d : TypeDecl) (defect : Defect) : d.defective defect ≠ .ok () := nofun

theorem checkIdentity_ok {d : TypeDecl} (h : d.checkIdentity = .ok ()) :
    (d.isKind .enumKind = true → d.constants ≠ []) ∧
      (d.name = none → d.isAnonymous = false → d.modifiers.contains .companion = true) := by
  obtain ⟨hc, h⟩ := ok_of_check h nofun
  obtain ⟨hn, _⟩ := ok_of_check h (d.defective_ne_ok _)
  refine ⟨fun hk he => hc ?_, fun hname ha => ?_⟩
  · simp [hk, he]
  · have ha : d.anonymous = none := by simpa [isAnonymous] using ha
    simpa [hname, ha] using hn

theorem checkAbstract_ok {d : TypeDecl} (h : d.checkAbstract = .ok ())
    (hk : d.isKind .classKind = true) (hm : d.modifiers.contains .abstractDecl = false) :
    ∀ v ∈ d.functions, ∃ ms, v.carriedModifiers = .ok ms ∧ ms.contains .abstractDecl = false := by
  intro v hv
  rw [checkAbstract, if_pos (by rw [hk, hm]; rfl)] at h
  obtain ⟨ms, hms, h⟩ := ok_of_bind (forall_of_forM_ok h v hv)
  obtain ⟨ha, _⟩ := ok_of_check h (bind_ne_ok fun _ => d.defective_ne_ok _)
  exact ⟨ms, hms, by simpa using ha⟩

theorem hasSecondaryConstructor_false {vs : List Value}
    (h : hasSecondaryConstructor vs = .ok false) :
    ∀ v ∈ vs, ∃ f, v.asFunction = .ok f ∧ f.isConstructor = false := by
  induction vs with
  | nil => exact List.forall_mem_nil _
  | cons v vs ih =>
      obtain ⟨f, hf, h⟩ := ok_of_bind h
      obtain ⟨hc, h⟩ := ok_of_check h nofun
      exact List.forall_mem_cons.2 ⟨⟨f, hf, by simpa using hc⟩, ih h⟩

theorem checkConstructors_ok {d : TypeDecl} (h : d.checkConstructors = .ok ())
    (hp : d.primaryConstructor = none) (hs : d.superclassArgs ≠ []) :
    ∀ v ∈ d.functions, ∃ f, v.asFunction = .ok f ∧ f.isConstructor = false := by
  rw [checkConstructors, hp] at h
  obtain ⟨b, hb, h⟩ := ok_of_bind h
  obtain ⟨hn, _⟩ := ok_of_check h (d.defective_ne_ok _)
  have hf : b = false := by simpa [hs] using hn
  rw [hf] at hb
  exact hasSecondaryConstructor_false hb

theorem checkExpectedProperty_ok {d : TypeDecl} {p : PropertyDecl}
    (h : d.checkExpectedProperty unit p = .ok ()) :
    p.initializer = none ∧ hasAccessor p = false := by
  obtain ⟨hi, h⟩ := ok_of_check h (bind_ne_ok fun _ => nofun)
  obtain ⟨ha, _⟩ := ok_of_check h (bind_ne_ok fun _ => d.defective_ne_ok _)
  exact ⟨by simpa using hi, by simpa using ha⟩

theorem checkExpected_ok {d : TypeDecl} (h : d.checkExpected unit = .ok ())
    (he : d.isExpected = true) :
    (∀ p ∈ d.properties, p.initializer = none ∧ hasAccessor p = false) ∧
      (∀ v ∈ d.functions, ∃ body, v.carriedBody = .ok body ∧ body.isEmpty = true) ∧
      d.initializer.isEmpty = true := by
  rw [checkExpected, if_pos he] at h
  obtain ⟨_, hp, h⟩ := ok_of_bind h
  obtain ⟨_, hf, h⟩ := ok_of_bind h
  obtain ⟨hi, _⟩ := ok_of_check h (bind_ne_ok fun _ => d.defective_ne_ok _)
  refine ⟨fun p hm => checkExpectedProperty_ok (forall_of_forM_ok hp p hm), fun v hv => ?_, ?_⟩
  · obtain ⟨body, hb, hv⟩ := ok_of_bind (forall_of_forM_ok hf v hv)
    obtain ⟨hne, _⟩ := ok_of_check hv (bind_ne_ok fun _ => bind_ne_ok fun _ => d.defective_ne_ok _)
    exact ⟨body, hb, by simpa using hne⟩
  · simpa using hi

theorem checkAnnotationClass_ok {d : TypeDecl} (h : d.checkAnnotationClass unit = .ok ())
    (hk : d.isKind .annotationKind = true) :
    ∃ names, d.foldedNames unit = .ok names ∧ ∀ p ∈ d.properties, p.name ∈ names := by
  rw [checkAnnotationClass, if_pos hk] at h
  obtain ⟨names, hn, h⟩ := ok_of_bind h
  refine ⟨names, hn, fun p hp => ?_⟩
  obtain ⟨hc, _⟩ := ok_of_check (forall_of_forM_ok h p hp) (d.defective_ne_ok _)
  simpa using hc

/-- Whatever moves are made, and whether they fail or not, what is finished in the end keeps to
all the rules. -/
theorem consistent_of_build {ok : Draft.Move → Prop} {d e : TypeDecl}
    (hd : Draft.Reached unit ok (.typeDecl d)) (he : d.build unit = .ok e) :
    e.Consistent unit := by
  have ht : (Draft.typeDecl d).Traced unit False := hd.traced False.elim
  obtain ⟨c, hc, hsteps⟩ := ht.typeDecl
  have hregular : d.Regular unit := ht.regular
  have hadmissible : d.Admissible := keeps_of_steps hsteps Step.admissible hc.admissible
  obtain ⟨rfl, hidentity, habstract, hconstructors, hexpected, hannotation⟩ := build_ok he
  exact { hregular, hadmissible with
    someConstant := (checkIdentity_ok hidentity).1
    companionOfNameless := (checkIdentity_ok hidentity).2
    concreteFunctions := checkAbstract_ok habstract
    secondaryConstructors := checkConstructors_ok hconstructors
    expectedProperties := fun h => (checkExpected_ok hexpected h).1
    expectedFunctions := fun h => (checkExpected_ok hexpected h).2.1
    expectedInitializer := fun h => (checkExpected_ok hexpected h).2.2
    foldedProperties := checkAnnotationClass_ok hannotation }

/-- The second modifier is refused and the first one stays; the delegate comes after that. -/
theorem consistent_of_build_delegated :
    let i : Value := .type (.named none ["I"] false)
    let x : CodeBlock := ⟨[.text "x"], []⟩
    let d := { plain (.kind .classKind) (some "C") none with
      modifiers := ⟨[.openDecl]⟩
      superinterfaces := [⟨i, some x⟩] }
    Draft.Reached (.ok "  ") (fun _ => True) (.typeDecl d) ∧ d.build (.ok "  ") = .ok d ∧
      d.Consistent (.ok "  ") := by
  intro i x d
  have hstart : Draft.Reached (.ok "  ") (fun _ => True)
      (.typeDecl (plain (.kind .classKind) (some "C") none)) :=
    .start (x := .named .classKind (.str "C")) trivial rfl
  have hopen : Draft.Reached (.ok "  ") (fun _ => True) (.typeDecl
      { plain (.kind .classKind) (some "C") none with modifiers := ⟨[.openDecl]⟩ }) :=
    .call (c := .typeDecl (.addModifiers [.modifier .openDecl, .str "data"])) trivial hstart
  have hd : Draft.Reached (.ok "  ") (fun _ => True) (.typeDecl d) :=
    .call (c := .typeDecl (.addSuperinterface i (.code x))) trivial hopen
  exact ⟨hd, rfl, consistent_of_build hd rfl⟩

end TypeDecl

end KotlinDecl
