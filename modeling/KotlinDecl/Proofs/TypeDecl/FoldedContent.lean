import KotlinDecl.Proofs.TypeDecl.Inlining

namespace KotlinDecl

variable {unit : IndentUnit} {names : List String}

namespace PropertyDecl

def bareAt (names : List String) (p : PropertyDecl) : PropertyDecl :=
  if p.name ∈ names then { p with getter := none, setter := none } else p

theorem bareAt_of_not_mem {p : PropertyDecl} (h : p.name ∉ names) : p.bareAt names = p := if_neg h

theorem bareAt_eq_self_iff {p : PropertyDecl} :
    p.bareAt names = p ↔ (p.name ∈ names → p.getter = none ∧ p.setter = none) := by
  by_cases h : p.name ∈ names
  · cases p
    simp_all [bareAt, eq_comm]
  · simp [bareAt_of_not_mem h, h]

@[simp] theorem name_bareAt (p : PropertyDecl) : (p.bareAt names).name = p.name := by
  unfold bareAt
  split <;> rfl

theorem foldsInto_bareAt (p : PropertyDecl) (parameters : List (String × Key)) :
    (p.bareAt names).foldsInto ((p.bareAt names).pieces unit).type.key parameters =
      p.foldsInto (p.pieces unit).type.key parameters := by
  unfold bareAt
  cases p
  split <;> rfl

theorem foldedLayout_bareAt (p : PropertyDecl) :
    ((p.bareAt names).pieces unit).foldedLayout = (p.pieces unit).foldedLayout := by
  unfold bareAt
  cases p
  split <;> rfl

end PropertyDecl

namespace Parameter

def bareAt (names : List String) (q : Parameter) : Parameter :=
  if q.name ∈ names then { q with annotations := [], modifiers := .empty } else q

theorem bareAt_of_not_mem {q : Parameter} (h : q.name ∉ names) : q.bareAt names = q := if_neg h

theorem bareAt_eq_self_iff {q : Parameter} :
    q.bareAt names = q ↔ (q.name ∈ names → q.annotations = [] ∧ q.modifiers = .empty) := by
  by_cases h : q.name ∈ names
  · cases q
    simp_all [bareAt, eq_comm]
  · simp [bareAt_of_not_mem h, h]

@[simp] theorem name_bareAt (q : Parameter) : (q.bareAt names).name = q.name := by
  unfold bareAt
  split <;> rfl

theorem key_bareAt (q : Parameter) :
    ((q.bareAt names).pieces unit).type.key = (q.pieces unit).type.key := by
  unfold bareAt
  cases q
  split <;> rfl

theorem valueLayout_bareAt (q : Parameter) :
    ((q.bareAt names).pieces unit).valueLayout = (q.pieces unit).valueLayout := by
  unfold bareAt
  cases q
  split <;> rfl

end Parameter

def FunDecl.bareAt (names : List String) (f : FunDecl) : FunDecl :=
  { f with parameters := f.parameters.map (·.bareAt names) }

theorem FunDecl.bareAt_eq_self_iff {f : FunDecl} :
    f.bareAt names = f ↔ ∀ q ∈ f.parameters, q.bareAt names = q := by
  cases f with
  | mk name kdoc annotations modifiers typeVariables receiver returns parameters =>
      have hmap := List.map_inj_left (f := (·.bareAt names)) (g := id) (l := parameters)
      rw [List.map_id] at hmap
      simpa [bareAt] using hmap

namespace TypePieces

theorem foldedPlaces_of_map {α : Type} {d : TypePieces} {as : List α} {g : α → PropertyPieces}
    (h : d.properties = as.map g) :
    d.foldedPlaces = (KotlinDecl.folded (fun x => (g x.1).decl.name)
      (fun x => (g x.1).decl.foldsInto (g x.1).type.key d.constructorParameters) []
      as.zipIdx).map (List.map (Prod.map id Prod.snd)) := by
  have hmap := folded_map (Prod.map g id) (fun x : PropertyPieces × Nat => x.1.decl.name)
    (fun x => x.1.decl.foldsInto x.1.type.key d.constructorParameters) [] as.zipIdx
  rw [foldedPlaces, placedFolds, h, List.zipIdx_map]
  refine (congrArg _ hmap).trans ?_
  simp only [Function.comp_def, Prod.map_fst]
  cases KotlinDecl.folded (fun x : α × Nat => (g x.1).decl.name)
    (fun x => (g x.1).decl.foldsInto (g x.1).type.key d.constructorParameters) [] as.zipIdx with
  | error e => rfl
  | ok xs => exact congrArg Except.ok (List.map_map ..)

end TypePieces

namespace TypeDecl

/-- The declaration with its properties and the parameters of its primary constructor bare where
they have one of the names. -/
def bareAt (names : List String) (d : TypeDecl) : TypeDecl :=
  { d with
    primaryConstructor := d.primaryConstructor.map (·.bareAt names)
    properties := d.properties.map (·.bareAt names) }

theorem bareAt_eq_self_iff {d : TypeDecl} :
    d.bareAt names = d ↔
      (∀ p ∈ d.properties, p.name ∈ names → p.getter = none ∧ p.setter = none) ∧
      ∀ f ∈ d.primaryConstructor, ∀ q ∈ f.parameters, q.name ∈ names →
        q.annotations = [] ∧ q.modifiers = .empty := by
  cases d with
  | mk kind name anonymous kdoc annotations modifiers typeVariables companion primaryConstructor
      superclass superclassArgs superinterfaces constants properties =>
      have hmap := List.map_inj_left (f := (·.bareAt names)) (g := id) (l := properties)
      rw [List.map_id] at hmap
      have hprimary : primaryConstructor.map (·.bareAt names) = primaryConstructor ↔
          ∀ f ∈ primaryConstructor, f.bareAt names = f := by
        cases primaryConstructor <;> simp
      simp only [bareAt, TypeDecl.mk.injEq, true_and, and_true, hprimary, hmap, id_eq,
        FunDecl.bareAt_eq_self_iff, Parameter.bareAt_eq_self_iff, PropertyDecl.bareAt_eq_self_iff]
      exact and_comm

variable (d : TypeDecl)

theorem properties_bareAt :
    ((d.bareAt names).pieces unit).properties =
      d.properties.map fun p => (p.bareAt names).pieces unit := by
  rw [properties_pieces]
  exact List.map_map ..

theorem primaryConstructor_bareAt :
    ((d.bareAt names).pieces unit).primaryConstructor =
      d.primaryConstructor.map fun f => (f.bareAt names).pieces unit := by
  rw [primaryConstructor_pieces]
  exact Option.map_map ..

theorem constructorParameters_bareAt :
    ((d.bareAt names).pieces unit).constructorParameters =
      (d.pieces unit).constructorParameters := by
  unfold TypePieces.constructorParameters
  rw [primaryConstructor_bareAt, primaryConstructor_pieces]
  cases d.primaryConstructor with
  | none => rfl
  | some f =>
      simp [FunDecl.bareAt, FunDecl.parameters_pieces, Parameter.key_bareAt, Function.comp_def]

theorem foldedPlaces_bareAt :
    ((d.bareAt names).pieces unit).foldedPlaces = (d.pieces unit).foldedPlaces := by
  rw [TypePieces.foldedPlaces_of_map d.properties_bareAt,
    TypePieces.foldedPlaces_of_map (d.properties_pieces unit), constructorParameters_bareAt]
  simp only [PropertyDecl.decl_pieces, PropertyDecl.name_bareAt, PropertyDecl.foldsInto_bareAt]

theorem parameterSketch_bareAt (fs : List (String × Nat)) (q : Parameter) :
    TypePieces.parameterSketch fs ((q.bareAt (fs.map (·.1))).pieces unit) =
      TypePieces.parameterSketch fs (q.pieces unit) := by
  unfold TypePieces.parameterSketch
  rw [Parameter.decl_pieces, Parameter.decl_pieces, Parameter.name_bareAt]
  cases hl : fs.lookup q.name with
  | some place => rw [Parameter.valueLayout_bareAt]
  | none =>
      have hn : q.name ∉ fs.map (·.1) := by
        intro hn
        obtain ⟨place, hp⟩ := exists_lookup hn
        rw [hp] at hl
        cases hl
      rw [Parameter.bareAt_of_not_mem hn]

theorem primarySketch_bareAt (fs : List (String × Nat)) (f : FunDecl) :
    TypePieces.primarySketch fs ((f.bareAt (fs.map (·.1))).pieces unit) =
      TypePieces.primarySketch fs (f.pieces unit) := by
  have hkeyword : TypePieces.constructorKeyword ((f.bareAt (fs.map (·.1))).pieces unit) =
      TypePieces.constructorKeyword (f.pieces unit) := by
    cases f
    rfl
  rw [TypePieces.primarySketch, TypePieces.primarySketch, hkeyword, FunDecl.parameters_pieces,
    FunDecl.parameters_pieces, FunDecl.bareAt]
  simp [parameterSketch_bareAt, Function.comp_def]

theorem headerSketch_bareAt (label : Option Layout) (fs : List (String × Nat)) :
    ((d.bareAt (fs.map (·.1))).pieces unit).headerSketch label fs =
      (d.pieces unit).headerSketch label fs := by
  cases d with
  | mk kind name anonymous kdoc annotations modifiers typeVariables companion primaryConstructor =>
      cases label with
      | some l => rfl
      | none =>
          cases anonymous with
          | some a => rfl
          | none =>
              cases primaryConstructor with
              | none => rfl
              | some f =>
                  show Sketch.fixed _ ++ TypePieces.primarySketch fs
                    ((f.bareAt (fs.map (·.1))).pieces unit) ++ Sketch.fixed _ = _
                  rw [primarySketch_bareAt]
                  rfl

theorem hasConstructorBody_bareAt : (d.bareAt names).hasConstructorBody = d.hasConstructorBody := by
  show (d.primaryConstructor.map (·.bareAt names)).any _ = _
  cases h : d.primaryConstructor <;> simp [hasConstructorBody, h, FunDecl.bareAt]

theorem hasNoBody_bareAt (ns : List String) : (d.bareAt names).hasNoBody ns = d.hasNoBody ns := by
  rw [hasNoBody, hasNoBody, hasConstructorBody_bareAt]
  simp [bareAt, isKind, Function.comp_def]

theorem hasMembersAfterConstants_bareAt (ns : List String) :
    (d.bareAt names).hasMembersAfterConstants ns = d.hasMembersAfterConstants ns := by
  rw [hasMembersAfterConstants, hasMembersAfterConstants, hasConstructorBody_bareAt]
  simp [bareAt, Function.comp_def]

theorem otherMembers_bareAt :
    ((d.bareAt names).pieces unit).otherMembers = (d.pieces unit).otherMembers := by
  have hbody : (d.bareAt names).primaryConstructor.map (·.body) =
      d.primaryConstructor.map (·.body) := Option.map_map ..
  unfold TypePieces.otherMembers
  rw [TypePieces.laterMembers_eq, TypePieces.laterMembers_eq, initMembers_congr _ _ hbody]
  cases d
  rfl

theorem memberPlaces_bareAt (ns : List String) :
    ((d.bareAt names).pieces unit).memberPlaces ns = (d.pieces unit).memberPlaces ns := by
  rw [TypePieces.memberPlaces, TypePieces.memberPlaces, properties_bareAt, properties_pieces,
    List.zipIdx_map, List.zipIdx_map, List.filter_map, List.filter_map, List.map_map, List.map_map]
  simp [Function.comp_def]

theorem bodySketch_bareAt (ns : List String) (close : Layout) :
    ((d.bareAt names).pieces unit).bodySketch ns close = (d.pieces unit).bodySketch ns close := by
  rw [TypePieces.bodySketch, TypePieces.bodySketch, otherMembers_bareAt, memberPlaces_bareAt,
    decl_pieces, decl_pieces, hasMembersAfterConstants_bareAt, constants_pieces, constants_pieces]
  rfl

theorem sketch_bareAt (label : Option Layout) (fs : List (String × Nat)) :
    ((d.bareAt (fs.map (·.1))).pieces unit).sketch label fs = (d.pieces unit).sketch label fs := by
  rw [TypePieces.sketch, TypePieces.sketch, headerSketch_bareAt, bodySketch_bareAt, decl_pieces,
    decl_pieces, hasNoBody_bareAt]
  cases d
  rfl

theorem propertyAt_bareAt {place : Nat} {inline : Bool}
    (h : inline = false → place ∈ (d.pieces unit).memberPlaces names) :
    ((d.bareAt names).pieces unit).propertyAt place inline =
      (d.pieces unit).propertyAt place inline := by
  rw [TypePieces.propertyAt, TypePieces.propertyAt, properties_bareAt, properties_pieces,
    List.getElem?_map, List.getElem?_map, decl_pieces, decl_pieces]
  cases hp : d.properties[place]? with
  | none => rfl
  | some p =>
      cases inline with
      | true => exact p.foldedLayout_bareAt
      | false =>
          obtain ⟨p', hp', hn⟩ := TypePieces.mem_memberPlaces.1 (h rfl)
          rw [properties_pieces, List.getElem?_map, hp] at hp'
          cases hp'
          rw [PropertyDecl.decl_pieces] at hn
          show Layout.orFail (d.propertyModifiers.map fun ms =>
            ((p.bareAt names).pieces unit).memberLayout (.ofModifiers ms)) = _
          rw [PropertyDecl.bareAt_of_not_mem hn]
          rfl

theorem run_layout_bareAt (h : d.foldedNames unit = .ok names) (label : Option Layout) :
    (((d.bareAt names).pieces unit).layout label).run = ((d.pieces unit).layout label).run := by
  obtain ⟨fs, hfs, rfl⟩ := foldedPlaces_of_foldedNames h
  have hbare : ((d.bareAt (fs.map (·.1))).pieces unit).foldedPlaces = .ok fs :=
    d.foldedPlaces_bareAt.trans hfs
  rw [TypePieces.layout_eq_fill hbare, TypePieces.layout_eq_fill hfs, sketch_bareAt]
  apply Layout.run_declaration_congr
  apply Sketch.run_fill_congr
  intro g hg
  rw [propertyAt_bareAt d fun hi => TypePieces.mem_memberPlaces_of_gap hg hi]

/-- Of a property that folds no accessor is written, and of the parameter that it folds into no
annotation and no modifier: the text is that of the declaration without them. So it is complete
if and only if there are none. -/
theorem folded_content_unwritten {unit : String} {d e : TypeDecl}
    (hd : Draft.Reached (.ok unit) (fun m => m.wellTyped = true) (.typeDecl d))
    (he : d.build (.ok unit) = .ok e) (label : Option Layout) :
    ∃ names, e.foldedNames (.ok unit) = .ok names ∧
      (((e.bareAt names).pieces (.ok unit)).layout label).run =
        ((e.pieces (.ok unit)).layout label).run ∧
      (e.bareAt names = e ↔
        (∀ p ∈ e.properties, p.name ∈ names → p.getter = none ∧ p.setter = none) ∧
        ∀ f ∈ e.primaryConstructor, ∀ q ∈ f.parameters, q.name ∈ names →
          q.annotations = [] ∧ q.modifiers = .empty) := by
  obtain ⟨names, hnames⟩ := foldedNames_ok (wellTyped_of_build hd he) unit
  exact ⟨names, hnames, run_layout_bareAt e hnames label, bareAt_eq_self_iff⟩

/-- A parameter that takes any number of arguments is written as if it took one. -/
theorem folded_content_unwritten_vararg :
    let string : Value := .type (.named (some "kotlin") ["String"] false)
    let q := { Parameter.plain "xs" string with modifiers := ⟨[.vararg]⟩ }
    let f := { FunDecl.plain FunDecl.constructorName with parameters := [q] }
    let p := { PropertyDecl.plain "xs" string with
      initializer := some ⟨[.argument .name], [.str "xs"]⟩ }
    let d := { plain (.kind .classKind) (some "A") none with
      primaryConstructor := some f
      properties := [p] }
    Draft.Reached (.ok "  ") (fun m => m.wellTyped = true) (.typeDecl d) ∧
      d.build (.ok "  ") = .ok d ∧ d.foldedNames (.ok "  ") = .ok ["xs"] ∧
      d.bareAt ["xs"] ≠ d ∧
      (((d.bareAt ["xs"]).pieces (.ok "  ")).layout none).run =
        ((d.pieces (.ok "  ")).layout none).run := by
  intro string q f p d
  have hs : Draft.Reached (.ok "  ") (fun m => m.wellTyped = true)
      (.typeDecl (plain (.kind .classKind) (some "A") none)) :=
    .start (x := .named .classKind (.str "A")) rfl rfl
  have hd : Draft.Reached (.ok "  ") (fun m => m.wellTyped = true) (.typeDecl d) :=
    hs.calls [.typeDecl (.primaryConstructor (.decl none (.function f))),
      .typeDecl (.addProperty (.decl none (.property p)) .null [])] (by decide)
  have hnames : d.foldedNames (.ok "  ") = .ok ["xs"] := rfl
  obtain ⟨names, hn, hrun, hbare⟩ := folded_content_unwritten hd rfl none
  rw [hnames] at hn
  cases hn
  refine ⟨hd, rfl, hnames, fun h => ?_, hrun⟩
  have hq := (hbare.1 h).2 f rfl q List.mem_cons_self List.mem_cons_self
  cases hq.2

/-- The parameter alone is marked, and a member has its accessor; neither is in the text of the
declaration. -/
theorem folding_drops_vararg_and_getter :
    let string : Value := .type (.named (some "kotlin") ["String"] false)
    let q := { Parameter.plain "xs" string with modifiers := ⟨[.vararg]⟩ }
    let f := { FunDecl.plain FunDecl.constructorName with parameters := [q] }
    let g := { FunDecl.plain FunDecl.getterName with
      body := ⟨[.openStatement, .text "return y\n", .closeStatement], []⟩ }
    let p := { PropertyDecl.plain "xs" string with
      initializer := some ⟨[.argument .name], [.str "xs"]⟩
      getter := some (.decl none (.function g)) }
    let d := { plain (.kind .classKind) (some "A") none with
      primaryConstructor := some f
      properties := [p] }
    Draft.Reached (.ok "  ") (fun m => m.wellTyped = true) (.typeDecl d) ∧
      d.build (.ok "  ") = .ok d ∧
      (((q.pieces (.ok "  ")).layout true).run (Writer.fresh "  ")).text =
        "vararg xs: String".toList ∧
      (((p.pieces (.ok "  ")).memberLayout .noModifiers).run (Writer.fresh "  ")).text =
        "val xs: String = xs\n  get() \x7b\n    return y\n  \x7d\n".toList ∧
      (((d.pieces (.ok "  ")).layout none).run (Writer.fresh "  ")).text =
        "class A(val xs: String)\n".toList := by
  intro string q f g p d
  have hs : Draft.Reached (.ok "  ") (fun m => m.wellTyped = true)
      (.typeDecl (plain (.kind .classKind) (some "A") none)) :=
    .start (x := .named .classKind (.str "A")) rfl rfl
  refine ⟨?_, rfl, by decide, by decide, by decide⟩
  exact hs.calls [.typeDecl (.primaryConstructor (.decl none (.function f))),
    .typeDecl (.addProperty (.decl none (.property p)) .null [])] (by decide)

end TypeDecl

end KotlinDecl
