import KotlinDecl.Proofs.Copying
import KotlinDecl.Proofs.Folding
import KotlinDecl.Proofs.Layout.Scopes
import KotlinDecl.Proofs.TypeDecl.Members

namespace KotlinDecl

open Layout (text annotated modifiers orFail)

theorem Modifier.mem_all (m : Modifier) : m ∈ all := by
  cases m <;> simp [all]

theorem Modifier.mem_canonical {m : Modifier} {ms : List Modifier} : m ∈ canonical ms ↔ m ∈ ms := by
  simp [canonical, mem_all]

namespace ModifierSet

def tidy (without : List Modifier) (s : ModifierSet) : ModifierSet :=
  ⟨(Modifier.canonical s.toList).filter (· ∉ without)⟩

variable {s t : ModifierSet} {without : List Modifier}

theorem mem_tidy {m : Modifier} : m ∈ (s.tidy without).toList ↔ m ∈ s.toList ∧ m ∉ without := by
  simp [tidy, Modifier.mem_canonical]

/-- Sets have the same tidy form if they have the same members, apart from those left out. -/
theorem tidy_eq_iff :
    s.tidy without = t.tidy without ↔ ∀ m ∉ without, m ∈ s.toList ↔ m ∈ t.toList := by
  constructor
  · intro h m hm
    have hmem : m ∈ (s.tidy without).toList ↔ m ∈ (t.tidy without).toList := by rw [h]
    simpa [mem_tidy, hm] using hmem
  · intro h
    simp only [tidy, Modifier.canonical, List.filter_filter, mk.injEq]
    apply List.filter_congr
    intro m _
    by_cases hm : m ∈ without
    · simp [hm]
    · simp [hm, h m hm]

theorem contains_tidy {m : Modifier} (hm : m ∉ without) :
    (s.tidy without).contains m = s.contains m := by
  rw [Bool.eq_iff_iff]
  simp [contains, mem_tidy, hm]

theorem isEmpty_tidy : (s.tidy []).toList.isEmpty = s.toList.isEmpty := by
  rw [Bool.eq_iff_iff, List.isEmpty_iff, List.isEmpty_iff, List.eq_nil_iff_forall_not_mem,
    List.eq_nil_iff_forall_not_mem]
  simp [mem_tidy]

end ModifierSet

theorem Layout.modifiers_tidy {without implied : List Modifier} (h : without ⊆ implied)
    (s : ModifierSet) : modifiers (s.tidy without) implied = modifiers s implied := by
  have hmembers : (Modifier.canonical (s.tidy without).toList).filter (· ∉ implied) =
      (Modifier.canonical s.toList).filter (· ∉ implied) := by
    simp only [Modifier.canonical, List.filter_filter]
    apply List.filter_congr
    intro m _
    by_cases hm : m ∈ implied
    · simp [hm]
    · have hw : m ∉ without := fun hw => hm (h hw)
      simp [hm, hw, ModifierSet.mem_tidy]
  rw [modifiers, hmembers, modifiers]

def Value.unnumbered (vs : List Value) : List Value := vs.map (·.numbered none)

theorem Layout.annotated_unnumbered (unit : IndentUnit) (inline : Argument) (vs : List Value) :
    annotated inline ((Value.unnumbered vs).map (·.forms unit)) =
      annotated inline (vs.map (·.forms unit)) := by
  induction vs with
  | nil => rfl
  | cons v vs ih =>
      simp only [Value.unnumbered, List.map_cons, annotated, Value.written_numbered] at ih ⊢
      rw [ih]

def Parameter.tidy (p : Parameter) : Parameter :=
  { p with
    annotations := Value.unnumbered p.annotations
    modifiers := p.modifiers.tidy [] }

def FunDecl.tidy (without : List Modifier) (f : FunDecl) : FunDecl :=
  { f with
    annotations := Value.unnumbered f.annotations
    modifiers := f.modifiers.tidy without
    parameters := f.parameters.map Parameter.tidy }

def Value.tidyFunction : Value → Value
  | .decl _ (.function f) => .decl none (.function (f.tidy [.publicVis]))
  | v => v

def PropertyDecl.tidy (p : PropertyDecl) : PropertyDecl :=
  { p with
    annotations := Value.unnumbered p.annotations
    modifiers := p.modifiers.tidy [.publicVis]
    getter := p.getter.map Value.tidyFunction
    setter := p.setter.map Value.tidyFunction }

mutual

def Value.tidyType : Value → Value
  | .decl serial d => d.tidyType serial
  | v => v
termination_by structural v => v

def Decl.tidyType (serial : Option Nat) : Decl → Value
  | .typeDecl d => .decl none (.typeDecl d.tidy)
  | d => .decl serial d

def Value.tidyTypes : List Value → List Value
  | [] => []
  | v :: rest => v.tidyType :: Value.tidyTypes rest

def EnumConstant.tidy : EnumConstant → EnumConstant
  | ⟨name, body⟩ => ⟨name, body.tidy⟩

def EnumConstant.tidyAll : List EnumConstant → List EnumConstant
  | [] => []
  | c :: rest => c.tidy :: EnumConstant.tidyAll rest

/-- The declaration with all modifiers in canonical order and without `public` where that goes
without saying. Serial numbers of members do not count. -/
def TypeDecl.tidy : TypeDecl → TypeDecl
  | ⟨kind, name, anonymous, kdoc, annotations, modifiers, typeVariables, companion,
      primaryConstructor, superclass, superclassArgs, superinterfaces, constants, properties,
      initializer, functions, types⟩ =>
    { kind, name, anonymous, kdoc, typeVariables, superclass, superclassArgs, superinterfaces,
      initializer
      annotations := Value.unnumbered annotations
      modifiers := modifiers.tidy [.publicVis]
      companion := TypeDecl.tidy? companion
      primaryConstructor := primaryConstructor.map (FunDecl.tidy [])
      constants := EnumConstant.tidyAll constants
      properties := properties.map PropertyDecl.tidy
      functions := functions.map Value.tidyFunction
      types := Value.tidyTypes types }

def TypeDecl.tidy? : Option TypeDecl → Option TypeDecl
  | none => none
  | some d => some d.tidy

end

theorem TypeDecl.tidy_eq (d : TypeDecl) :
    d.tidy = { d with
      annotations := Value.unnumbered d.annotations
      modifiers := d.modifiers.tidy [.publicVis]
      companion := d.companion.map TypeDecl.tidy
      primaryConstructor := d.primaryConstructor.map (FunDecl.tidy [])
      constants := d.constants.map EnumConstant.tidy
      properties := d.properties.map PropertyDecl.tidy
      functions := d.functions.map Value.tidyFunction
      types := d.types.map Value.tidyType } := by
  have hconstants := map_of_cons (f := EnumConstant.tidy) (g := EnumConstant.tidyAll) rfl
    fun _ _ => rfl
  have htypes := map_of_cons (f := Value.tidyType) (g := Value.tidyTypes) rfl fun _ _ => rfl
  cases d with
  | mk _ _ _ _ _ _ _ companion =>
      rw [TypeDecl.tidy, hconstants, htypes]
      cases companion <;> rfl

section Pieces

variable (unit : IndentUnit)

theorem Parameter.pieces_tidy (p : Parameter) :
    p.tidy.pieces unit = { p.pieces unit with
      decl := p.tidy
      annotations := (Value.unnumbered p.annotations).map (·.forms unit) } := by
  cases p
  simp only [Parameter.tidy, Parameter.pieces, Value.formsAll_eq]

theorem FunDecl.pieces_tidy (without : List Modifier) (f : FunDecl) :
    (f.tidy without).pieces unit = { f.pieces unit with
      decl := f.tidy without
      annotations := (Value.unnumbered f.annotations).map (·.forms unit)
      parameters := f.parameters.map fun p => p.tidy.pieces unit } := by
  cases f
  simp only [FunDecl.tidy, FunDecl.pieces, Value.formsAll_eq, Parameter.piecesAll_eq, List.map_map]
  rfl

theorem PropertyDecl.pieces_tidy (p : PropertyDecl) :
    p.tidy.pieces unit = { p.pieces unit with
      decl := p.tidy
      annotations := (Value.unnumbered p.annotations).map (·.forms unit)
      getter := p.getter.map fun v => v.tidyFunction.forms unit
      setter := p.setter.map fun v => v.tidyFunction.forms unit } := by
  cases p
  simp only [PropertyDecl.tidy, PropertyDecl.pieces, Value.formsAll_eq, Value.forms?_eq,
    Option.map_map]
  rfl

theorem TypeDecl.pieces_tidy (d : TypeDecl) :
    d.tidy.pieces unit = { d.pieces unit with
      decl := d.tidy
      annotations := (Value.unnumbered d.annotations).map (·.forms unit)
      primaryConstructor := d.primaryConstructor.map fun f => (f.tidy []).pieces unit
      constants := d.constants.map fun c => c.tidy.layout unit
      properties := d.properties.map fun p => p.tidy.pieces unit
      functions := d.functions.map fun v => v.tidyFunction.functionPieces unit
      types := d.types.map fun v => (v.tidyType.forms unit).written [.nothing]
      companion := d.companion.map fun c => (c.tidy.pieces unit).layout none } := by
  rw [tidy_eq]
  cases d
  simp only [TypeDecl.pieces, Value.formsAll_eq, FunDecl.pieces?_eq, EnumConstant.layouts_eq,
    PropertyDecl.piecesAll_eq, Value.functionPiecesAll_eq, TypeDecl.layout?_eq, List.map_map,
    Option.map_map]
  rfl

theorem Parameter.annotations_pieces (p : Parameter) :
    (p.pieces unit).annotations = p.annotations.map (·.forms unit) := by
  cases p
  exact Value.formsAll_eq _ _

theorem FunDecl.annotations_pieces (f : FunDecl) :
    (f.pieces unit).annotations = f.annotations.map (·.forms unit) := by
  cases f
  exact Value.formsAll_eq _ _

theorem PropertyDecl.annotations_pieces (p : PropertyDecl) :
    (p.pieces unit).annotations = p.annotations.map (·.forms unit) := by
  cases p
  exact Value.formsAll_eq _ _

theorem PropertyDecl.getter_pieces (p : PropertyDecl) :
    (p.pieces unit).getter = p.getter.map (·.forms unit) := by
  cases p
  exact Value.forms?_eq _ _

theorem PropertyDecl.setter_pieces (p : PropertyDecl) :
    (p.pieces unit).setter = p.setter.map (·.forms unit) := by
  cases p
  exact Value.forms?_eq _ _

theorem TypeDecl.annotations_pieces (d : TypeDecl) :
    (d.pieces unit).annotations = d.annotations.map (·.forms unit) := by
  cases d
  exact Value.formsAll_eq _ _

end Pieces

section Members

variable {unit : IndentUnit}

theorem Parameter.layout_tidy (p : Parameter) (withType : Bool) :
    (p.tidy.pieces unit).layout withType = (p.pieces unit).layout withType := by
  have hmodifiers : Layout.modifiers p.tidy.modifiers [] = Layout.modifiers p.modifiers [] :=
    Layout.modifiers_tidy (List.Subset.refl []) p.modifiers
  unfold ParameterPieces.layout
  rw [pieces_tidy, Layout.annotated_unnumbered, ← annotations_pieces, hmodifiers, decl_pieces]
  rfl

theorem FunDecl.parameterList_tidy (without : List Modifier) (f : FunDecl) (withType : Bool) :
    ((f.tidy without).pieces unit).parameterList withType =
      (f.pieces unit).parameterList withType := by
  unfold FunPieces.parameterList
  rw [pieces_tidy, parameters_pieces]
  dsimp only
  rw [List.map_map, List.map_map]
  apply congrArg
  apply List.map_congr_left
  intro p _
  exact p.layout_tidy withType

theorem FunDecl.signature_tidy (without : List Modifier) (f : FunDecl) :
    ((f.tidy without).pieces unit).signature = (f.pieces unit).signature := by
  unfold FunPieces.signature FunPieces.constructorSignature FunPieces.accessorSignature
    FunPieces.functionSignature
  rw [parameterList_tidy, parameterList_tidy]
  cases f
  rfl

theorem FunDecl.omitsBody_tidy (f : FunDecl) (implied : List Modifier) :
    ((f.tidy [.publicVis]).pieces unit).omitsBody implied = (f.pieces unit).omitsBody implied := by
  have hcontains : ∀ m, m ≠ .publicVis →
      (f.tidy [.publicVis]).modifiers.contains m = f.modifiers.contains m := by
    intro m hm
    apply ModifierSet.contains_tidy
    simpa using hm
  simp only [FunPieces.omitsBody, decl_pieces]
  rw [hcontains .abstractDecl nofun, hcontains .external nofun, hcontains .expect nofun]
  rfl

theorem FunDecl.layout_tidy (f : FunDecl) {implied : List Modifier} (h : .publicVis ∈ implied) :
    ((f.tidy [.publicVis]).pieces unit).layout implied = (f.pieces unit).layout implied := by
  have hmodifiers : Layout.modifiers (f.tidy [.publicVis]).modifiers implied =
      Layout.modifiers f.modifiers implied :=
    Layout.modifiers_tidy (by simpa using h) f.modifiers
  unfold FunPieces.layout
  rw [signature_tidy, omitsBody_tidy, decl_pieces, decl_pieces, hmodifiers, pieces_tidy,
    Layout.annotated_unnumbered, ← annotations_pieces]

theorem Value.written_tidyFunction (v : Value) {implied : Argument}
    (h : ∀ ms, implied.implied = .ok ms → .publicVis ∈ ms) :
    (v.tidyFunction.forms unit).written [implied] = (v.forms unit).written [implied] := by
  unfold tidyFunction
  split
  · next n f =>
      show orFail (implied.implied.map ((f.tidy [.publicVis]).pieces unit).layout) =
        orFail (implied.implied.map (f.pieces unit).layout)
      cases hms : implied.implied with
      | error e => rfl
      | ok ms => exact f.layout_tidy (h ms hms)
  · rfl

theorem PropertyDecl.layout_tidy (p : PropertyDecl) {implied : Argument}
    (h : ∀ ms, implied.implied = .ok ms → .publicVis ∈ ms) (withInitializer : Bool)
    (inline : Argument) :
    (p.tidy.pieces unit).layout implied withInitializer inline =
      (p.pieces unit).layout implied withInitializer inline := by
  have haccessor : ∀ o : Option Value,
      PropertyPieces.accessor implied (o.map fun v => v.tidyFunction.forms unit) =
        PropertyPieces.accessor implied (o.map (·.forms unit)) := by
    intro o
    cases o with
    | none => rfl
    | some v => simp only [PropertyPieces.accessor, Option.map_some, v.written_tidyFunction h]
  have hcore : orFail (implied.implied.map (p.tidy.pieces unit).core) =
      orFail (implied.implied.map (p.pieces unit).core) := by
    cases hms : implied.implied with
    | error e => rfl
    | ok ms =>
        have hmodifiers : Layout.modifiers p.tidy.modifiers ms = Layout.modifiers p.modifiers ms :=
          Layout.modifiers_tidy (by simpa using h ms hms) p.modifiers
        show (p.tidy.pieces unit).core ms = (p.pieces unit).core ms
        unfold PropertyPieces.core
        rw [decl_pieces, decl_pieces, hmodifiers]
        cases p
        rfl
  have hinitializer : (p.tidy.pieces unit).initializerLayout =
      (p.pieces unit).initializerLayout := by
    cases p
    rfl
  unfold PropertyPieces.layout
  rw [hcore, hinitializer, pieces_tidy, Layout.annotated_unnumbered, haccessor, haccessor,
    ← annotations_pieces, ← getter_pieces, ← setter_pieces]

end Members

namespace TypeDecl

variable {unit : IndentUnit} (d : TypeDecl)

theorem constructorParameters_tidy :
    (d.tidy.pieces unit).constructorParameters = (d.pieces unit).constructorParameters := by
  unfold TypePieces.constructorParameters
  rw [pieces_tidy, primaryConstructor_pieces]
  cases d.primaryConstructor with
  | none => rfl
  | some f =>
      simp only [Option.map_some, FunDecl.pieces_tidy, FunDecl.parameters_pieces, List.map_map]
      apply List.map_congr_left
      intro p _
      simp only [Function.comp_apply, Parameter.pieces_tidy, Parameter.decl_pieces]
      rfl

theorem folded_tidy :
    (d.tidy.pieces unit).folded =
      (d.foldedProperties unit).map (List.map (Prod.map id (·.tidy.pieces unit))) := by
  unfold TypePieces.folded
  rw [constructorParameters_tidy, pieces_tidy]
  refine (folded_map (fun p : PropertyDecl => p.tidy.pieces unit) _ _ [] d.properties).trans ?_
  simp only [Function.comp_def, PropertyDecl.pieces_tidy]
  rfl

theorem constructorParameter_tidy (fs : List (String × PropertyDecl)) (p : Parameter) :
    TypePieces.constructorParameter (fs.map (Prod.map id (·.tidy.pieces unit)))
        (p.tidy.pieces unit) =
      TypePieces.constructorParameter (fs.map (Prod.map id (·.pieces unit))) (p.pieces unit) := by
  have hvalue : (p.tidy.pieces unit).valueLayout = (p.pieces unit).valueLayout := by
    rw [Parameter.pieces_tidy]
    rfl
  have hname : p.tidy.name = p.name := rfl
  unfold TypePieces.constructorParameter
  rw [Parameter.decl_pieces, Parameter.decl_pieces, hname, lookup_map, lookup_map]
  cases fs.lookup p.name with
  | none => exact p.layout_tidy true
  | some q =>
      have hfolded : (q.tidy.pieces unit).foldedLayout = (q.pieces unit).foldedLayout := by
        apply q.layout_tidy
        intro ms hms
        cases hms
        exact List.mem_cons_self
      simp only [Option.map_some, hfolded, hvalue]

theorem primaryLayout_tidy (fs : List (String × PropertyDecl)) (f : FunDecl) :
    TypePieces.primaryLayout (fs.map (Prod.map id (·.tidy.pieces unit)))
        ((f.tidy []).pieces unit) =
      TypePieces.primaryLayout (fs.map (Prod.map id (·.pieces unit))) (f.pieces unit) := by
  have hmodifiers : Layout.modifiers (f.tidy []).modifiers [] = Layout.modifiers f.modifiers [] :=
    Layout.modifiers_tidy (List.Subset.refl []) f.modifiers
  have hempty : (f.tidy []).modifiers.toList.isEmpty = f.modifiers.toList.isEmpty :=
    ModifierSet.isEmpty_tidy
  have hannotations : ((Value.unnumbered f.annotations).map (·.forms unit)).isEmpty =
      (f.annotations.map (·.forms unit)).isEmpty := by
    simp [Value.unnumbered]
  unfold TypePieces.primaryLayout
  rw [FunDecl.pieces_tidy, Layout.annotated_unnumbered, hmodifiers, hempty, hannotations,
    FunDecl.annotations_pieces, FunDecl.parameters_pieces, FunDecl.decl_pieces, List.map_map,
    List.map_map]
  simp only [Function.comp_def, constructorParameter_tidy]

theorem functionPieces_tidy (unit : IndentUnit) (v : Value) {implied : Except Error (List Modifier)}
    (h : ∀ ms, implied = .ok ms → .publicVis ∈ ms) :
    v.tidyFunction.functionPieces unit = none ∧ v.functionPieces unit = none ∨
      ∃ f g, v.tidyFunction.functionPieces unit = some f ∧ v.functionPieces unit = some g ∧
        f.decl.isConstructor = g.decl.isConstructor ∧
        orFail (implied.map f.layout) = orFail (implied.map g.layout) := by
  by_cases hv : ∃ n f, v = .decl n (.function f)
  · obtain ⟨n, f, rfl⟩ := hv
    refine .inr ⟨_, _, rfl, rfl, ?_, ?_⟩
    · rw [FunDecl.decl_pieces, FunDecl.decl_pieces]
      rfl
    · cases himplied : implied with
      | error e => rfl
      | ok ms => exact f.layout_tidy (h ms himplied)
  · have hsame : v.tidyFunction = v := by
      unfold Value.tidyFunction
      split
      · next n f => exact absurd ⟨n, f, rfl⟩ hv
      · rfl
    rw [hsame]
    cases v.functionPieces unit with
    | none => exact .inl ⟨rfl, rfl⟩
    | some f => exact .inr ⟨f, f, rfl, rfl, rfl, rfl⟩

theorem hasConstructor_tidy (vs : List Value) :
    TypePieces.hasConstructor (vs.map fun v => v.tidyFunction.functionPieces unit) =
      TypePieces.hasConstructor (vs.map (·.functionPieces unit)) := by
  induction vs with
  | nil => rfl
  | cons v vs ih =>
      simp only [List.map_cons]
      have hnone : ∀ ms, (.error .lacking : Except Error (List Modifier)) = .ok ms →
          .publicVis ∈ ms := nofun
      obtain ⟨hf, hg⟩ | ⟨f, g, hf, hg, hfg, _⟩ := functionPieces_tidy unit v hnone
      · rw [hf, hg]
        rfl
      · rw [hf, hg]
        simp only [TypePieces.hasConstructor, hfg, ih]

variable {implied : Except Error (List Modifier)} (h : ∀ ms, implied = .ok ms → .publicVis ∈ ms)

include h in
theorem constructorMembers_tidy (vs : List Value) :
    TypePieces.constructorMembers implied
        (vs.map fun v => v.tidyFunction.functionPieces unit) =
      TypePieces.constructorMembers implied (vs.map (·.functionPieces unit)) := by
  induction vs with
  | nil => rfl
  | cons v vs ih =>
      simp only [List.map_cons]
      obtain ⟨hf, hg⟩ | ⟨f, g, hf, hg, hfg, hlayout⟩ := functionPieces_tidy unit v h
      · rw [hf, hg]
        rfl
      · rw [hf, hg]
        simp only [TypePieces.constructorMembers, hfg, hlayout, ih]

include h in
theorem functionMembers_tidy (vs : List Value) :
    TypePieces.functionMembers implied (vs.map fun v => v.tidyFunction.functionPieces unit) =
      TypePieces.functionMembers implied (vs.map (·.functionPieces unit)) := by
  unfold TypePieces.functionMembers
  induction vs with
  | nil => rfl
  | cons v vs ih =>
      simp only [List.map_cons]
      obtain ⟨hf, hg⟩ | ⟨f, g, hf, hg, hfg, hlayout⟩ := functionPieces_tidy unit v h
      · rw [hf, hg]
        exact ih
      · have hcons : ∀ (f : FunPieces) os, (some f :: os).filterMap id = f :: os.filterMap id :=
          fun _ _ => rfl
        rw [hf, hg, hcons, hcons, List.filterMap_cons, List.filterMap_cons, hfg, hlayout, ih]

theorem supertypes_tidy : (d.tidy.pieces unit).supertypes = (d.pieces unit).supertypes := by
  have hfunctions : TypePieces.hasConstructor (d.tidy.pieces unit).functions =
      TypePieces.hasConstructor (d.pieces unit).functions := by
    rw [pieces_tidy, functions_pieces]
    exact hasConstructor_tidy d.functions
  have hprimary : (d.tidy.pieces unit).primaryConstructor.isSome =
      (d.pieces unit).primaryConstructor.isSome := by
    rw [pieces_tidy, primaryConstructor_pieces]
    simp
  unfold TypePieces.supertypes TypePieces.superclassPieces TypePieces.hasSuperclass
  rw [hfunctions, hprimary, decl_pieces, decl_pieces, tidy_eq]
  cases d
  rfl

theorem header_tidy (label : Option Layout) (fs : List (String × PropertyDecl)) :
    (d.tidy.pieces unit).header label (fs.map (Prod.map id (·.tidy.pieces unit))) =
      (d.pieces unit).header label (fs.map (Prod.map id (·.pieces unit))) := by
  have hanonymous : (d.tidy.pieces unit).anonymous = (d.pieces unit).anonymous := by
    rw [pieces_tidy]
  have hannotated : annotated (.flag false) (d.tidy.pieces unit).annotations =
      annotated (.flag false) (d.pieces unit).annotations := by
    rw [pieces_tidy, annotations_pieces]
    exact Layout.annotated_unnumbered unit _ d.annotations
  unfold TypePieces.header
  rw [hanonymous]
  split
  · unfold TypePieces.constantHeader TypePieces.constantArguments
    rw [hanonymous, hannotated, pieces_tidy]
  · unfold TypePieces.anonymousHeader TypePieces.anonymousSupertypes TypePieces.hasSuperclass
    rw [decl_pieces, decl_pieces, pieces_tidy, tidy_eq]
  · have hmodifiers : Layout.modifiers d.tidy.modifiers [.publicVis] =
        Layout.modifiers d.modifiers [.publicVis] := by
      rw [tidy_eq]
      exact Layout.modifiers_tidy (List.Subset.refl _) d.modifiers
    have hprimary : (d.tidy.pieces unit).primaryConstructor.map
          (TypePieces.primaryLayout (fs.map (Prod.map id (·.tidy.pieces unit)))) =
        (d.pieces unit).primaryConstructor.map
          (TypePieces.primaryLayout (fs.map (Prod.map id (·.pieces unit)))) := by
      rw [pieces_tidy, primaryConstructor_pieces, Option.map_map, Option.map_map]
      apply congrFun
      apply congrArg
      funext f
      exact primaryLayout_tidy fs f
    unfold TypePieces.namedHeader
    rw [supertypes_tidy, hannotated, hprimary, decl_pieces, decl_pieces, hmodifiers, pieces_tidy,
      tidy_eq]
    rfl

theorem hasConstructorBody_tidy : d.tidy.hasConstructorBody = d.hasConstructorBody := by
  rw [tidy_eq]
  unfold hasConstructorBody
  cases d.primaryConstructor <;> rfl

theorem hasNoBody_tidy (names : List String) : d.tidy.hasNoBody names = d.hasNoBody names := by
  unfold hasNoBody
  rw [hasConstructorBody_tidy, tidy_eq]
  simp only [List.all_map, List.isEmpty_map, Option.isNone_map]
  rfl

theorem hasMembersAfterConstants_tidy (names : List String) :
    d.tidy.hasMembersAfterConstants names = d.hasMembersAfterConstants names := by
  unfold hasMembersAfterConstants
  rw [hasConstructorBody_tidy, tidy_eq]
  simp only [List.any_map, List.isEmpty_map, Option.isSome_map]
  rfl

theorem isExpected_tidy : d.tidy.isExpected = d.isExpected := by
  rw [tidy_eq]
  exact ModifierSet.contains_tidy (by simp)

theorem propertyModifiers_tidy : d.tidy.propertyModifiers = d.propertyModifiers := by
  unfold propertyModifiers
  rw [isExpected_tidy, tidy_eq]
  rfl

theorem functionModifiers_tidy : d.tidy.functionModifiers = d.functionModifiers := by
  unfold functionModifiers
  rw [isExpected_tidy, tidy_eq]
  rfl

/-- Only the properties of annotation classes are not public without saying so, and those have no
body to be written in. -/
theorem public_propertyModifiers {names : List String} (hbody : d.hasNoBody names = false)
    {ms : List Modifier} (hms : d.propertyModifiers = .ok ms) : .publicVis ∈ ms := by
  obtain ⟨k, hk, hms⟩ := ok_of_bind hms
  cases hms
  apply List.mem_append_left
  cases k with
  | annotationKind =>
      have hkind : d.isKind .annotationKind = true := by
        unfold knownKind at hk
        unfold isKind
        split at hk
        · cases hk
          rfl
        · cases hk
      simp [hasNoBody, hkind] at hbody
  | _ => exact List.mem_cons_self

theorem public_functionModifiers {ms : List Modifier} (hms : d.functionModifiers = .ok ms) :
    .publicVis ∈ ms := by
  obtain ⟨k, _, hms⟩ := ok_of_bind hms
  cases hms
  apply List.mem_append_left
  cases k <;> exact List.mem_cons_self

end TypeDecl

theorem TypePieces.constantMembers_congr (more : Bool) {cs ds : List Layout}
    (h : cs.map Layout.run = ds.map Layout.run) :
    (constantMembers more cs).map Layout.run = (constantMembers more ds).map Layout.run := by
  induction cs generalizing ds with
  | nil =>
      rw [List.map_nil, eq_comm, List.map_eq_nil_iff] at h
      rw [h]
  | cons c cs ih =>
      cases ds with
      | nil => cases h
      | cons d ds =>
          obtain ⟨hc, hcs⟩ := List.cons.inj h
          have hmarked : ∀ s, (c ++ text s).run = (d ++ text s).run :=
            fun s => Layout.run_append_congr hc rfl
          cases cs with
          | nil =>
              obtain rfl : ds = [] := by simpa using hcs.symm
              simp only [constantMembers, List.map_cons, hmarked]
          | cons c' cs =>
              cases ds with
              | nil => cases hcs
              | cons d' ds => simp only [constantMembers, List.map_cons, hmarked, ih hcs]

namespace TypeDecl

variable {unit : IndentUnit} {d : TypeDecl}

theorem propertyMembers_tidy {names : List String} (hbody : d.hasNoBody names = false) :
    (((d.tidy.pieces unit).properties.filter fun p => !names.contains p.decl.name).map fun p =>
        (.ok (orFail (d.propertyModifiers.map fun ms => p.memberLayout (.ofModifiers ms))) :
          Except Error Layout)) =
      ((d.pieces unit).properties.filter fun p => !names.contains p.decl.name).map fun p =>
        .ok (orFail (d.propertyModifiers.map fun ms => p.memberLayout (.ofModifiers ms))) := by
  have hproperty : ∀ p : PropertyDecl,
      orFail (d.propertyModifiers.map fun ms =>
          (p.tidy.pieces unit).memberLayout (.ofModifiers ms)) =
        orFail (d.propertyModifiers.map fun ms =>
          (p.pieces unit).memberLayout (.ofModifiers ms)) := by
    intro p
    cases hms : d.propertyModifiers with
    | error e => rfl
    | ok ms =>
        apply p.layout_tidy
        intro ms' hms'
        cases hms'
        exact d.public_propertyModifiers hbody hms
  rw [pieces_tidy, properties_pieces]
  simp only [List.filter_map, List.map_map, Function.comp_def, PropertyDecl.decl_pieces,
    hproperty]
  rfl

theorem primaryMembers_tidy :
    (((d.tidy.pieces unit).primaryConstructor.toList.filter (!·.decl.body.isEmpty)).map fun f =>
        (.ok (text "init" ++ Layout.block f.body) : Except Error Layout)) =
      ((d.pieces unit).primaryConstructor.toList.filter (!·.decl.body.isEmpty)).map fun f =>
        .ok (text "init" ++ Layout.block f.body) := by
  apply initMembers_congr
  rw [tidy_eq]
  exact Option.map_map ..

theorem memberList_tidy {names : List String} (hbody : d.hasNoBody names = false)
    (hconstants : ∀ c ∈ d.constants, (c.tidy.layout unit).run = (c.layout unit).run)
    (htypes : ∀ v ∈ d.types, ((v.tidyType.forms unit).written [.nothing]).run =
      ((v.forms unit).written [.nothing]).run)
    (hcompanion : ∀ c ∈ d.companion,
      ((c.tidy.pieces unit).layout none).run = ((c.pieces unit).layout none).run) :
    ((d.tidy.pieces unit).memberList names).map (Except.map Layout.run) =
      ((d.pieces unit).memberList names).map (Except.map Layout.run) := by
  have hok : ∀ ds : List Layout, (ds.map .ok).map (Except.map Layout.run) =
      (ds.map Layout.run).map (.ok : _ → Except Error _) := by
    intro ds
    rw [List.map_map, List.map_map]
    rfl
  have hpublic : ∀ ms, d.functionModifiers = .ok ms → .publicVis ∈ ms :=
    fun _ => d.public_functionModifiers
  have hconstants' : (d.tidy.pieces unit).constants.map Layout.run =
      (d.pieces unit).constants.map Layout.run := by
    rw [pieces_tidy, constants_pieces, List.map_map, List.map_map]
    exact List.map_congr_left hconstants
  have htypes' : (d.tidy.pieces unit).types.map Layout.run =
      (d.pieces unit).types.map Layout.run := by
    rw [pieces_tidy, types_pieces, List.map_map, List.map_map]
    exact List.map_congr_left htypes
  have hcompanion' : (d.tidy.pieces unit).companion.toList.map Layout.run =
      (d.pieces unit).companion.toList.map Layout.run := by
    rw [pieces_tidy, companion_pieces]
    cases hc : d.companion with
    | none => rfl
    | some c => exact congrArg (fun k => [k]) (hcompanion c hc)
  have hfunctions : (d.tidy.pieces unit).functions =
      d.functions.map fun v => v.tidyFunction.functionPieces unit := by
    rw [pieces_tidy]
  have hinitializer : (d.tidy.pieces unit).initializer = (d.pieces unit).initializer := by
    rw [pieces_tidy]
  have hinitializer' : d.tidy.initializer = d.initializer := by
    rw [tidy_eq]
  rw [TypePieces.memberList_eq, TypePieces.memberList_eq, TypePieces.laterMembers_eq,
    TypePieces.laterMembers_eq]
  simp only [decl_pieces, hasMembersAfterConstants_tidy, propertyModifiers_tidy,
    functionModifiers_tidy, List.map_append, hok, hinitializer, hinitializer', hfunctions,
    htypes', hcompanion', constructorMembers_tidy hpublic, functionMembers_tidy hpublic,
    propertyMembers_tidy hbody, primaryMembers_tidy, functions_pieces,
    TypePieces.constantMembers_congr _ hconstants']

end TypeDecl

theorem TypeDecl.foldedLayout_tidy {unit : IndentUnit} {d : TypeDecl}
    (hmembers : ∀ names, d.hasNoBody names = false →
      ((d.tidy.pieces unit).memberList names).map (Except.map Layout.run) =
        ((d.pieces unit).memberList names).map (Except.map Layout.run))
    (label : Option Layout) (fs : List (String × PropertyDecl)) :
    ((d.tidy.pieces unit).foldedLayout label (fs.map (Prod.map id (·.tidy.pieces unit)))).run =
      ((d.pieces unit).foldedLayout label (fs.map (Prod.map id (·.pieces unit)))).run := by
  have hnames : ∀ g : PropertyDecl → PropertyPieces,
      (fs.map (Prod.map id g)).map (·.1) = fs.map (·.1) := by
    intro g
    rw [List.map_map]
    rfl
  have hanonymous : (d.tidy.pieces unit).anonymous = (d.pieces unit).anonymous := by
    rw [pieces_tidy]
  have hbodiless : (d.tidy.pieces unit).bodiless label = (d.pieces unit).bodiless label := by
    unfold TypePieces.bodiless
    rw [hanonymous]
  have hclosing : (d.tidy.pieces unit).closing label = (d.pieces unit).closing label := by
    unfold TypePieces.closing
    rw [hanonymous]
  rw [TypePieces.foldedLayout_eq, TypePieces.foldedLayout_eq, header_tidy, hnames, hnames,
    decl_pieces, decl_pieces, hasNoBody_tidy, hbodiless, hclosing]
  apply Layout.run_append_congr rfl
  by_cases hbody : d.hasNoBody (fs.map (·.1)) = true
  · rw [if_pos hbody, if_pos hbody]
  · rw [if_neg hbody, if_neg hbody]
    refine Layout.run_append_congr
      (Layout.run_append_congr (Layout.run_append_congr rfl ?_) rfl) rfl
    apply Layout.run_body_congr
    exact Layout.run_members_congr (hmembers _ (Bool.eq_false_iff.2 hbody)) true

/-- A declaration is written like its tidy form, and so are the types declared inside it. -/
theorem hereditary_tidy (unit : IndentUnit) :
    Hereditary
      (fun v => ((v.tidyType.forms unit).written [.nothing]).run =
        ((v.forms unit).written [.nothing]).run)
      (fun _ => True) (fun _ => True) (fun _ => True) (fun _ => True) (fun _ => True)
      (fun _ => True)
      (fun d => ∀ label, ((d.tidy.pieces unit).layout label).run =
        ((d.pieces unit).layout label).run) where
  null := rfl
  bool _ := rfl
  int _ := rfl
  str _ := rfl
  list _ _ := rfl
  modifier _ := rfl
  kind _ := rfl
  type _ _ := rfl
  code _ _ := rfl
  declAnnotation _ _ _ := rfl
  declParameter _ _ _ := rfl
  declProperty _ _ _ := rfl
  declFunction _ _ _ := rfl
  declType _ _ h := h none
  named _ _ _ := trivial
  generic _ _ _ _ _ := trivial
  typeVar _ _ _ _ _ _ := trivial
  block _ _ := trivial
  annotationUse _ _ := trivial
  parameter _ _ := trivial
  function _ _ := trivial
  property _ _ := trivial
  typeDecl d _ ih label := by
    have hmembers : ∀ names, d.hasNoBody names = false →
        ((d.tidy.pieces unit).memberList names).map (Except.map Layout.run) =
          ((d.pieces unit).memberList names).map (Except.map Layout.run) := by
      intro names hbody
      refine TypeDecl.memberList_tidy hbody (fun c hc => ?_) ih.types fun c hc => ?_
      · cases c with
        | mk name body => exact ih.constants _ hc (some (.text name))
      · exact ih.companion c hc none
    unfold TypePieces.layout
    rw [TypeDecl.folded_tidy, TypeDecl.folded_pieces]
    apply Layout.run_declaration_congr
    cases d.foldedProperties unit with
    | error e => rfl
    | ok fs => exact TypeDecl.foldedLayout_tidy hmembers label fs

theorem TypeDecl.run_tidy (unit : IndentUnit) (d : TypeDecl) (label : Option Layout) :
    ((d.tidy.pieces unit).layout label).run = ((d.pieces unit).layout label).run :=
  (hereditary_tidy unit).ofTypeDecl d label

/-- Declarations that have the same tidy form are written alike: they may differ in the order of
modifiers anywhere inside them, and in `public` on types, properties, accessors and functions
other than primary constructors. -/
theorem TypeDecl.modifier_order_hidden {d e : TypeDecl} (h : d.tidy = e.tidy) (unit : IndentUnit)
    (label : Option Layout) (w : Writer) :
    ((d.pieces unit).layout label).run w = ((e.pieces unit).layout label).run w := by
  rw [← run_tidy unit d, ← run_tidy unit e, h]

/-- A function, a folded property and a constructor inside a companion, each with modifiers in
another order or with `public` besides. -/
theorem TypeDecl.modifier_order_hidden_companion :
    let method (n : Nat) (ms : ModifierSet) : Value :=
      .decl (some n) (.function { FunDecl.plain "run" with modifiers := ms })
    let field (ms : ModifierSet) : PropertyDecl :=
      { PropertyDecl.plain "x" (.type .unitType) with
        modifiers := ms
        initializer := some ⟨[.argument .name], [.str "x"]⟩ }
    let primary (ms : ModifierSet) : FunDecl :=
      { FunDecl.plain FunDecl.constructorName with
        modifiers := ms
        parameters := [.plain "x" (.type .unitType)] }
    let nested (n : Nat) (ms ns ps : ModifierSet) : TypeDecl :=
      { TypeDecl.plain (.kind .classKind) (some "A") none with
        modifiers := ns
        primaryConstructor := some (primary ps)
        properties := [field ms]
        functions := [method n ms] }
    let whole (c : TypeDecl) : TypeDecl :=
      { TypeDecl.plain (.kind .classKind) (some "B") none with companion := some c }
    let d := whole (nested 1 ⟨[.openDecl, .override]⟩ ⟨[.publicVis]⟩ ⟨[.privateVis, .actual]⟩)
    let e := whole (nested 2 ⟨[.publicVis, .override, .openDecl]⟩ ⟨[]⟩ ⟨[.actual, .privateVis]⟩)
    d.tidy = e.tidy ∧ ∀ w, ((d.pieces (.ok "  ")).layout none).run w =
      ((e.pieces (.ok "  ")).layout none).run w := by
  intro method field primary nested whole d e
  have htidy : d.tidy = e.tidy := rfl
  exact ⟨htidy, modifier_order_hidden htidy (.ok "  ") none⟩

end KotlinDecl
