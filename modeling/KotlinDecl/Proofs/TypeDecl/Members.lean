import KotlinDecl.Proofs.Folding
import KotlinDecl.Proofs.Forms

namespace KotlinDecl

open Layout (text empty block orFail)

namespace TypePieces

def header (d : TypePieces) (label : Option Layout) (fs : List (String × PropertyPieces)) :
    Layout :=
  match label, d.anonymous with
  | some label, _ => d.constantHeader label
  | none, some arguments => d.anonymousHeader arguments
  | none, none => d.namedHeader fs

def bodiless (d : TypePieces) (label : Option Layout) : Layout :=
  match label, d.anonymous with
  | some _, _ => empty
  | none, some _ => text " \x7b \x7d"
  | none, none => text "\n"

def closing (d : TypePieces) (label : Option Layout) : Layout :=
  match label, d.anonymous with
  | none, none => text "\n"
  | _, _ => empty

theorem foldedLayout_eq (d : TypePieces) (label : Option Layout)
    (fs : List (String × PropertyPieces)) :
    d.foldedLayout label fs = d.header label fs ++
      if d.decl.hasNoBody (fs.map (·.1)) then d.bodiless label
      else d.bodyLayout (fs.map (·.1)) (d.closing label) := by
  unfold foldedLayout header bodiless closing
  cases label with
  | some l => rfl
  | none => cases d.anonymous <;> rfl

theorem constantMembers_concat (more : Bool) (front : List Layout) (last : Layout) :
    constantMembers more (front ++ [last]) =
      front.map (· ++ text ",\n") ++ [last ++ text (if more then ";\n" else "\n")] := by
  induction front with
  | nil => rfl
  | cons c front ih =>
      have hcons : constantMembers more (c :: (front ++ [last])) =
          (c ++ text ",\n") :: constantMembers more (front ++ [last]) := by
        cases front <;> rfl
      rw [List.cons_append, hcons, ih]
      rfl

theorem length_constantMembers (more : Bool) (cs : List Layout) :
    (constantMembers more cs).length = cs.length := by
  rcases List.eq_nil_or_concat cs with rfl | ⟨front, last, rfl⟩
  · rfl
  · simp [constantMembers_concat]

def laterMembers (d : TypePieces) (names : List String) : List (Except Error Layout) :=
  (d.memberList names).drop d.constants.length

theorem memberList_eq (d : TypePieces) (names : List String) :
    d.memberList names =
      (constantMembers (d.decl.hasMembersAfterConstants names) d.constants).map .ok ++
        d.laterMembers names := by
  have hlength : ((constantMembers (d.decl.hasMembersAfterConstants names) d.constants).map
      (Except.ok (ε := Error))).length = d.constants.length := by
    rw [List.length_map, length_constantMembers]
  rw [laterMembers, ← hlength]
  simp only [memberList, List.append_assoc, List.drop_left]

theorem laterMembers_eq (d : TypePieces) (names : List String) :
    d.laterMembers names =
      ((d.properties.filter fun p => !names.contains p.decl.name).map fun p =>
        .ok (orFail (d.decl.propertyModifiers.map fun ms => p.memberLayout (.ofModifiers ms)))) ++
      ((d.primaryConstructor.toList.filter (!·.decl.body.isEmpty)).map fun f =>
        .ok (text "init" ++ block f.body)) ++
      (if d.decl.initializer.isEmpty then [] else [.ok d.initializer]) ++
      constructorMembers d.decl.functionModifiers d.functions ++
      (functionMembers d.decl.functionModifiers d.functions).map .ok ++
      d.types.map .ok ++ d.companion.toList.map .ok := by
  apply List.append_cancel_left
  rw [← memberList_eq]
  cases hp : d.primaryConstructor with
  | none => simp [memberList, hp]
  | some f => by_cases hf : f.decl.body.isEmpty = true <;> simp [memberList, hp, hf]

/-- Each function is a member, as a constructor or not; what is no function is one too, and
fails. -/
theorem functions_eq_nil_iff (implied : Except Error (List Modifier))
    (fs : List (Option FunPieces)) :
    constructorMembers implied fs = [] ∧ functionMembers implied fs = [] ↔ fs = [] := by
  cases fs with
  | nil => simp [constructorMembers, functionMembers]
  | cons f fs =>
      cases f with
      | none => simp [constructorMembers]
      | some f =>
          by_cases hf : f.decl.isConstructor = true
          · simp [constructorMembers, hf]
          · simp [functionMembers, hf]

end TypePieces

@[simp] theorem PropertyDecl.decl_pieces (unit : IndentUnit) (p : PropertyDecl) :
    (p.pieces unit).decl = p := by cases p; rfl

@[simp] theorem Parameter.decl_pieces (unit : IndentUnit) (p : Parameter) :
    (p.pieces unit).decl = p := by cases p; rfl

@[simp] theorem FunDecl.decl_pieces (unit : IndentUnit) (f : FunDecl) :
    (f.pieces unit).decl = f := by cases f; rfl

@[simp] theorem FunDecl.body_pieces (unit : IndentUnit) (f : FunDecl) :
    (f.pieces unit).body = f.body.layout unit := by cases f; rfl

theorem FunDecl.parameters_pieces (unit : IndentUnit) (f : FunDecl) :
    (f.pieces unit).parameters = f.parameters.map (·.pieces unit) := by
  cases f
  exact Parameter.piecesAll_eq _ _

namespace TypeDecl

variable (unit : IndentUnit) (d : TypeDecl) (names : List String)

@[simp] theorem decl_pieces : (d.pieces unit).decl = d := by cases d; rfl

@[simp] theorem constants_pieces :
    (d.pieces unit).constants = d.constants.map (·.layout unit) := by
  cases d
  exact EnumConstant.layouts_eq _ _

@[simp] theorem properties_pieces :
    (d.pieces unit).properties = d.properties.map (·.pieces unit) := by
  cases d
  exact PropertyDecl.piecesAll_eq _ _

@[simp] theorem primaryConstructor_pieces :
    (d.pieces unit).primaryConstructor = d.primaryConstructor.map (·.pieces unit) := by
  cases d
  exact FunDecl.pieces?_eq _ _

@[simp] theorem initializer_pieces :
    (d.pieces unit).initializer = d.initializer.layout unit := by cases d; rfl

@[simp] theorem functions_pieces :
    (d.pieces unit).functions = d.functions.map (·.functionPieces unit) := by
  cases d
  exact Value.functionPiecesAll_eq _ _

@[simp] theorem types_pieces :
    (d.pieces unit).types = d.types.map fun v => (v.forms unit).written [.nothing] := by
  cases d
  show (Value.formsAll unit _).map _ = _
  rw [Value.formsAll_eq, List.map_map]
  rfl

@[simp] theorem companion_pieces :
    (d.pieces unit).companion = d.companion.map fun c => (c.pieces unit).layout none := by
  cases d
  exact TypeDecl.layout?_eq _ _

def foldedProperties (unit : IndentUnit) (d : TypeDecl) :
    Except Error (List (String × PropertyDecl)) :=
  folded (·.name)
    (fun p => p.foldsInto (p.pieces unit).type.key (d.pieces unit).constructorParameters) []
    d.properties

theorem folded_pieces {unit : IndentUnit} {d : TypeDecl} :
    (d.pieces unit).folded =
      (d.foldedProperties unit).map (List.map (Prod.map id (·.pieces unit))) := by
  unfold TypePieces.folded
  rw [properties_pieces]
  refine (folded_map (fun p : PropertyDecl => p.pieces unit) _ _ [] d.properties).trans ?_
  simp only [Function.comp_def, PropertyDecl.decl_pieces]
  rfl

theorem initMembers_congr {e : TypeDecl}
    (h : d.primaryConstructor.map (·.body) = e.primaryConstructor.map (·.body)) :
    (((d.pieces unit).primaryConstructor.toList.filter (!·.decl.body.isEmpty)).map fun f =>
        (.ok (text "init" ++ block f.body) : Except Error Layout)) =
      ((e.pieces unit).primaryConstructor.toList.filter (!·.decl.body.isEmpty)).map fun f =>
        .ok (text "init" ++ block f.body) := by
  rw [primaryConstructor_pieces, primaryConstructor_pieces]
  cases hd : d.primaryConstructor with
  | none =>
      cases he : e.primaryConstructor with
      | none => rfl
      | some g => simp [hd, he] at h
  | some f =>
      cases he : e.primaryConstructor with
      | none => simp [hd, he] at h
      | some g =>
          have hbody : f.body = g.body := by simpa [hd, he] using h
          by_cases hf : g.body.isEmpty = true <;> simp [hbody, hf]

theorem hasConstructorBody_eq_false :
    d.hasConstructorBody = false ↔ ∀ f, d.primaryConstructor = some f → f.body.isEmpty = true := by
  unfold hasConstructorBody
  cases d.primaryConstructor <;> simp

theorem laterMembers_eq_nil_iff :
    (d.pieces unit).laterMembers names = [] ↔ d.hasMembersAfterConstants names = false := by
  have hfunctions := TypePieces.functions_eq_nil_iff d.functionModifiers
    (d.functions.map (·.functionPieces unit))
  rw [List.map_eq_nil_iff] at hfunctions
  rw [TypePieces.laterMembers_eq]
  simp [hasMembersAfterConstants, hasConstructorBody_eq_false, and_assoc, ← hfunctions]

theorem isEmpty_laterMembers :
    ((d.pieces unit).laterMembers names).isEmpty = !d.hasMembersAfterConstants names := by
  rw [Bool.eq_iff_iff, List.isEmpty_iff, laterMembers_eq_nil_iff, Bool.not_eq_true']

theorem memberList_eq_nil_iff :
    (d.pieces unit).memberList names = [] ↔
      d.constants = [] ∧ d.hasMembersAfterConstants names = false := by
  rw [TypePieces.memberList_eq, List.append_eq_nil_iff, laterMembers_eq_nil_iff,
    List.map_eq_nil_iff, ← List.length_eq_zero_iff, TypePieces.length_constantMembers,
    List.length_eq_zero_iff, constants_pieces, List.map_eq_nil_iff]

theorem memberList_of_constants {front : List EnumConstant} {last : EnumConstant}
    (hc : d.constants = front ++ [last]) :
    (d.pieces unit).memberList names =
      front.map (fun c => .ok (c.layout unit ++ text ",\n")) ++
        .ok (last.layout unit ++
          text (if d.hasMembersAfterConstants names then ";\n" else "\n")) ::
        (d.pieces unit).laterMembers names := by
  rw [TypePieces.memberList_eq, constants_pieces, hc, List.map_append, List.map_singleton,
    TypePieces.constantMembers_concat, decl_pieces]
  simp [Function.comp_def]

theorem hasNoBody_iff (hk : d.isKind .annotationKind = false) :
    d.hasNoBody names = true ↔ d.constants = [] ∧ d.hasMembersAfterConstants names = false := by
  simp only [hasNoBody, hasMembersAfterConstants, hk, Bool.false_or, Bool.and_eq_true,
    Bool.or_eq_false_iff, List.all_eq_true, List.any_eq_false, Bool.not_eq_true',
    Bool.not_eq_false', List.isEmpty_iff, Option.isNone_iff_eq_none, Option.isSome_eq_false_iff,
    Bool.not_eq_false]
  constructor
  · rintro ⟨⟨⟨⟨⟨⟨hp, hc⟩, he⟩, hi⟩, hb⟩, hf⟩, ht⟩
    exact ⟨he, ⟨⟨⟨⟨hp, hb⟩, hi⟩, hf⟩, ht⟩, hc⟩
  · rintro ⟨he, ⟨⟨⟨⟨hp, hb⟩, hi⟩, hf⟩, ht⟩, hc⟩
    exact ⟨⟨⟨⟨⟨⟨hp, hc⟩, he⟩, hi⟩, hb⟩, hf⟩, ht⟩

theorem memberList_ne_nil (h : d.hasNoBody names = false) :
    (d.pieces unit).memberList names ≠ [] := by
  intro hnil
  cases hk : d.isKind .annotationKind with
  | true => simp [hasNoBody, hk] at h
  | false =>
      have hbodiless := (hasNoBody_iff d names hk).2 ((memberList_eq_nil_iff unit d names).1 hnil)
      rw [hbodiless] at h
      cases h

/-- The tests agree with the members: there is a body exactly if there are members, and a
semicolon behind the constants exactly if there are others. -/
theorem body_iff_members (unit : IndentUnit) {d : TypeDecl}
    (hk : d.isKind .annotationKind = false) :
    let ps := d.pieces unit
    d.isBodiless unit = (d.foldedNames unit).map (fun names => (ps.memberList names).isEmpty) ∧
      (∀ label, ps.layout label = .declaration (orFail (ps.folded.map fun fs =>
        ps.header label fs ++
          if (ps.memberList (fs.map (·.1))).isEmpty then ps.bodiless label
          else ps.bodyLayout (fs.map (·.1)) (ps.closing label)))) ∧
      ∀ names,
        let members := ps.memberList names
        let later := members.drop d.constants.length
        (d.hasNoBody names = true ↔ members = []) ∧
          (d.hasMembersAfterConstants names = true ↔ later ≠ []) ∧
          (d.hasNoBody names = true ↔
            d.constants = [] ∧ d.hasMembersAfterConstants names = false) ∧
          ∀ front last, d.constants = front ++ [last] →
            members = front.map (fun c => .ok (c.layout unit ++ text ",\n")) ++
              .ok (last.layout unit ++ text (if later.isEmpty then "\n" else ";\n")) :: later := by
  intro ps
  have hbody : ∀ names, d.hasNoBody names = (ps.memberList names).isEmpty := by
    intro names
    rw [Bool.eq_iff_iff, List.isEmpty_iff, memberList_eq_nil_iff, hasNoBody_iff d names hk]
  refine ⟨?_, fun label => ?_, fun names => ?_⟩
  · unfold isBodiless
    rw [if_neg (by simp [hk])]
    cases d.foldedNames unit with
    | error e => rfl
    | ok names => exact congrArg Except.ok (hbody names)
  · unfold TypePieces.layout
    apply congrArg fun k => Layout.declaration (orFail (ps.folded.map k))
    funext fs
    rw [TypePieces.foldedLayout_eq, decl_pieces, hbody]
  · intro members later
    have hlength : ps.constants.length = d.constants.length := by simp [ps]
    have hlater : later = ps.laterMembers names := by
      rw [TypePieces.laterMembers, hlength]
    refine ⟨?_, ?_, hasNoBody_iff d names hk, fun front last hc => ?_⟩
    · rw [hbody, List.isEmpty_iff]
    · rw [hlater, Ne, laterMembers_eq_nil_iff, Bool.not_eq_false]
    · have hmark : (if later.isEmpty then "\n" else ";\n") =
          if d.hasMembersAfterConstants names then ";\n" else "\n" := by
        rw [hlater, isEmpty_laterMembers]
        cases d.hasMembersAfterConstants names <;> rfl
      rw [hmark, hlater]
      exact memberList_of_constants unit d names hc

/-- Two constants in front of a function. -/
theorem body_iff_members_enum :
    let constant := plain (.kind .classKind) none (some (.code .empty))
    let f : FunDecl := .plain "f"
    let d := { plain (.kind .enumKind) (some "E") none with
      constants := [⟨"A", constant⟩, ⟨"B", constant⟩]
      functions := [.decl none (.function f)] }
    let unit : IndentUnit := .ok "  "
    d.isKind .annotationKind = false ∧ d.isBodiless unit = .ok false ∧
      (d.pieces unit).memberList [] =
        [.ok (EnumConstant.layout unit ⟨"A", constant⟩ ++ text ",\n"),
          .ok (EnumConstant.layout unit ⟨"B", constant⟩ ++ text ";\n"),
          .ok ((f.pieces unit).layout [.publicVis])] := by
  intro constant f d unit
  have hk : d.isKind .annotationKind = false := rfl
  obtain ⟨hbodiless, _, hmembers⟩ := body_iff_members unit hk
  obtain ⟨_, _, _, hconstants⟩ := hmembers []
  have hlater : ((d.pieces unit).memberList []).drop d.constants.length =
      [.ok ((f.pieces unit).layout [.publicVis])] := rfl
  rw [hlater] at hconstants
  exact ⟨hk, hbodiless, hconstants [⟨"A", constant⟩] ⟨"B", constant⟩ rfl⟩

end TypeDecl

end KotlinDecl
