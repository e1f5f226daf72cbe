import Mathlib.Data.List.Basic
import KotlinDecl.Proofs.Folding
import KotlinDecl.Proofs.Layout.Scopes
import KotlinDecl.Proofs.TypeDecl.Members

namespace KotlinDecl

open Layout (text empty orFail)

section Places

variable {α β : Type} {p : α → Bool} {as : List α}

def placesOf (p : α → Bool) (as : List α) : List Nat := (as.zipIdx.filter (p ·.1)).map (·.2)

theorem mem_placesOf {place : Nat} :
    place ∈ placesOf p as ↔ ∃ a, as[place]? = some a ∧ p a = true := by
  simp only [placesOf, List.mem_map, List.mem_filter]
  constructor
  · rintro ⟨⟨a, place'⟩, ⟨hm, ha⟩, rfl⟩
    exact ⟨a, List.mk_mem_zipIdx_iff_getElem?.1 hm, ha⟩
  · rintro ⟨a, hm, ha⟩
    exact ⟨(a, place), ⟨List.mk_mem_zipIdx_iff_getElem?.2 hm, ha⟩, rfl⟩

theorem nodup_placesOf (p : α → Bool) (as : List α) : (placesOf p as).Nodup := by
  refine List.Nodup.sublist (List.Sublist.map _ List.filter_sublist) ?_
  rw [List.zipIdx_map_snd]
  exact List.nodup_range'

theorem map_placesOf {g : Nat → β} {h : α → β}
    (hg : ∀ {place a}, as[place]? = some a → g place = h a) :
    (placesOf p as).map g = (as.filter p).map h := by
  have hfilter := List.filter_map (f := Prod.fst) (l := as.zipIdx) (p := p)
  rw [List.zipIdx_map_fst] at hfilter
  rw [hfilter, placesOf, List.map_map, List.map_map]
  apply List.map_congr_left
  intro x hx
  exact hg (List.mk_mem_zipIdx_iff_getElem?.1 (List.mem_filter.1 hx).1)

end Places

/-- A layout with gaps. A gap is for the item at a place of some list, and tells whether the item
stands in a line with others. -/
inductive Sketch
  | fixed (d : Layout)
  | gap (place : Nat) (inline : Bool)
  | seq (a b : Sketch)
  | body (s : Sketch)

namespace Sketch

instance : Append Sketch := ⟨seq⟩

def fill (scope : Value) (write : Nat → Bool → Layout) : Sketch → Layout
  | fixed d => d
  | gap place inline => write place inline
  | seq a b => a.fill scope write ++ b.fill scope write
  | body s => .body scope (s.fill scope write)

def gaps : Sketch → List (Nat × Bool)
  | fixed _ => []
  | gap place inline => [(place, inline)]
  | seq a b => a.gaps ++ b.gaps
  | body s => s.gaps

def separated (sep : Layout) : List Sketch → Sketch
  | [] => fixed empty
  | [s] => s
  | s :: rest => s ++ fixed sep ++ separated sep rest

def members (first : Bool) : List (Except Error Sketch) → Sketch
  | [] => fixed empty
  | .error e :: _ => fixed (.fail e)
  | .ok s :: rest => fixed (Layout.when (!first) (text "\n")) ++ s ++ members false rest

variable (scope : Value) (write : Nat → Bool → Layout)

@[simp] theorem fill_fixed (d : Layout) : (fixed d).fill scope write = d := rfl

@[simp] theorem fill_append (a b : Sketch) :
    (a ++ b).fill scope write = a.fill scope write ++ b.fill scope write := rfl

@[simp] theorem gaps_fixed (d : Layout) : (fixed d).gaps = [] := rfl

@[simp] theorem gaps_append (a b : Sketch) : (a ++ b).gaps = a.gaps ++ b.gaps := rfl

theorem fill_separated (sep : Layout) (ss : List Sketch) :
    (separated sep ss).fill scope write = Layout.separated sep (ss.map (fill scope write)) := by
  induction ss with
  | nil => rfl
  | cons s ss ih =>
      cases ss with
      | nil => rfl
      | cons t ss =>
          show _ ++ (separated sep (t :: ss)).fill scope write = _
          rw [ih]
          rfl

theorem gaps_separated (sep : Layout) (ss : List Sketch) :
    (separated sep ss).gaps = ss.flatMap gaps := by
  induction ss with
  | nil => rfl
  | cons s ss ih =>
      cases ss with
      | nil => simp [separated]
      | cons t ss =>
          show (s.gaps ++ []) ++ (separated sep (t :: ss)).gaps = _
          rw [ih, List.append_nil]
          rfl

theorem fill_members (first : Bool) (ss : List (Except Error Sketch)) :
    (members first ss).fill scope write =
      Layout.members first (ss.map (Except.map (fill scope write))) := by
  induction ss generalizing first with
  | nil => rfl
  | cons s ss ih =>
      cases s with
      | error e => rfl
      | ok s =>
          show _ ++ (members false ss).fill scope write = _
          rw [ih]
          rfl

/-- An error cuts off the gaps behind it, but here there are none. -/
theorem gaps_members (first : Bool) (ss : List Sketch) (ds : List (Except Error Layout)) :
    (members first (ss.map .ok ++ ds.map (Except.map fixed))).gaps = ss.flatMap gaps := by
  induction ss generalizing first with
  | nil =>
      induction ds generalizing first with
      | nil => rfl
      | cons d ds ih =>
          cases d with
          | error e => rfl
          | ok d => exact ih false
  | cons s ss ih =>
      rw [List.map_cons, List.cons_append, members, gaps_append, ih, gaps_append, gaps_fixed,
        List.nil_append, List.flatMap_cons]

/-- What is written depends only on what is written in the gaps. -/
theorem run_fill_congr {write write' : Nat → Bool → Layout} {s : Sketch}
    (h : ∀ g ∈ s.gaps, (write g.1 g.2).run = (write' g.1 g.2).run) (scope scope' : Value) :
    (s.fill scope write).run = (s.fill scope' write').run := by
  induction s with
  | fixed d => rfl
  | gap place inline => exact h (place, inline) List.mem_cons_self
  | seq a b iha ihb =>
      apply Layout.run_append_congr
      · exact iha fun g hg => h g (List.mem_append_left _ hg)
      · exact ihb fun g hg => h g (List.mem_append_right _ hg)
  | body s ih => exact Layout.run_body_congr (ih h) scope scope'

end Sketch

namespace TypePieces

def placedFolds (d : TypePieces) : Except Error (List (String × PropertyPieces × Nat)) :=
  KotlinDecl.folded (·.1.decl.name)
    (fun x => x.1.decl.foldsInto x.1.type.key d.constructorParameters) [] d.properties.zipIdx

def foldedPlaces (d : TypePieces) : Except Error (List (String × Nat)) :=
  d.placedFolds.map (List.map (Prod.map id Prod.snd))

def propertyAt (d : TypePieces) (place : Nat) (inline : Bool) : Layout :=
  match d.properties[place]? with
  | none => empty
  | some p =>
    if inline then p.foldedLayout
    else orFail (d.decl.propertyModifiers.map fun ms => p.memberLayout (.ofModifiers ms))

def parameterSketch (fs : List (String × Nat)) (q : ParameterPieces) : Sketch :=
  match fs.lookup q.decl.name with
  | none => .fixed (q.layout true)
  | some place => .gap place true ++ .fixed q.valueLayout

def constructorKeyword (f : FunPieces) : Layout :=
  Layout.when (!f.annotations.isEmpty || !f.decl.modifiers.toList.isEmpty)
    (text " " ++ Layout.annotated (.flag true) f.annotations ++
      Layout.modifiers f.decl.modifiers [] ++ text FunDecl.constructorName)

def primarySketch (fs : List (String × Nat)) (f : FunPieces) : Sketch :=
  .fixed (constructorKeyword f) ++ (.fixed (text "(") ++
    .separated (text ", ") (f.parameters.map (parameterSketch fs)) ++ .fixed (text ")"))

def headline (d : TypePieces) : Layout :=
  d.kdoc ++ Layout.annotated (.flag false) d.annotations ++
    Layout.modifiers d.decl.modifiers [.publicVis] ++
    orFail (do return text (← d.decl.knownKind).keyword) ++
    Layout.ofOption (d.decl.name.map fun n => text " " ++ text n) ++
    Layout.typeVariables d.typeVariables ++ Layout.whereClause true d.typeVariables

def headerSketch (d : TypePieces) (label : Option Layout) (fs : List (String × Nat)) : Sketch :=
  match label, d.anonymous, d.primaryConstructor with
  | none, none, some f => .fixed d.headline ++ primarySketch fs f ++ .fixed d.supertypes
  | _, _, _ => .fixed (d.header label [])

def otherMembers (d : TypePieces) : List (Except Error Layout) :=
  { d with properties := [] }.laterMembers []

def memberPlaces (d : TypePieces) (names : List String) : List Nat :=
  (d.properties.zipIdx.filter fun x => !names.contains x.1.decl.name).map (·.2)

def bodySketch (d : TypePieces) (names : List String) (close : Layout) : Sketch :=
  let constants := constantMembers (d.decl.hasMembersAfterConstants names) d.constants
  let front := constants.map .fixed ++ (d.memberPlaces names).map (.gap · false)
  .fixed (text " \x7b\n") ++
    .body (.members true (front.map .ok ++ d.otherMembers.map (Except.map .fixed))) ++
    .fixed (text "\x7d") ++ .fixed close

/-- The declaration with gaps for its properties, if those at the places `fs` fold. -/
def sketch (d : TypePieces) (label : Option Layout) (fs : List (String × Nat)) : Sketch :=
  let names := fs.map (·.1)
  d.headerSketch label fs ++
    if d.decl.hasNoBody names then .fixed (d.bodiless label)
    else d.bodySketch names (d.closing label)

def parameterNames (d : TypePieces) : List String := d.constructorParameters.map (·.1)

def isNamed (d : TypePieces) (label : Option Layout) : Bool := label.isNone && d.anonymous.isNone

theorem gaps_primarySketch (fs : List (String × Nat)) (f : FunPieces) :
    (primarySketch fs f).gaps =
      ((f.parameters.map (·.decl.name)).filterMap fun n => fs.lookup n).map (·, true) := by
  have hgaps (q : ParameterPieces) :
      (parameterSketch fs q).gaps = (fs.lookup q.decl.name).toList.map (·, true) := by
    unfold parameterSketch
    cases fs.lookup q.decl.name <;> rfl
  simp only [primarySketch, Sketch.gaps_append, Sketch.gaps_fixed, Sketch.gaps_separated,
    List.nil_append, List.append_nil, List.flatMap_map, hgaps, List.map_flatMap,
    List.filterMap_eq_flatMap_toList]

theorem gaps_headerSketch (d : TypePieces) (label : Option Layout) (fs : List (String × Nat)) :
    (d.headerSketch label fs).gaps =
      if d.isNamed label then (d.parameterNames.filterMap fun n => fs.lookup n).map (·, true)
      else [] := by
  unfold headerSketch isNamed parameterNames constructorParameters
  cases label with
  | some l => rfl
  | none =>
      cases d.anonymous with
      | some a => rfl
      | none =>
          cases d.primaryConstructor with
          | none => rfl
          | some f => simp [gaps_primarySketch, Function.comp_def]

theorem gaps_bodySketch (d : TypePieces) (names : List String) (close : Layout) :
    (d.bodySketch names close).gaps = (d.memberPlaces names).map (·, false) := by
  simp only [bodySketch, Sketch.gaps_append, Sketch.gaps_fixed, List.nil_append, List.append_nil]
  refine (Sketch.gaps_members true _ _).trans ?_
  rw [List.flatMap_append, List.flatMap_map, List.flatMap_map, List.map_eq_flatMap]
  simp [Sketch.gaps]

theorem gaps_sketch (d : TypePieces) (label : Option Layout) (fs : List (String × Nat)) :
    (d.sketch label fs).gaps =
      (if d.isNamed label then (d.parameterNames.filterMap fun n => fs.lookup n).map (·, true)
        else []) ++
      if d.decl.hasNoBody (fs.map (·.1)) then []
      else (d.memberPlaces (fs.map (·.1))).map (·, false) := by
  rw [sketch, Sketch.gaps_append, gaps_headerSketch]
  apply congrArg
  split
  · rfl
  · exact gaps_bodySketch d _ _

theorem memberPlaces_eq (d : TypePieces) (names : List String) :
    d.memberPlaces names = placesOf (fun p => !names.contains p.decl.name) d.properties := rfl

theorem mem_memberPlaces {d : TypePieces} {names : List String} {place : Nat} :
    place ∈ d.memberPlaces names ↔
      ∃ p, d.properties[place]? = some p ∧ p.decl.name ∉ names := by
  simp only [memberPlaces_eq, mem_placesOf, Bool.not_eq_true', List.contains_eq_mem,
    decide_eq_false_iff_not]

variable {d : TypePieces} {fs : List (String × Nat)}

theorem mem_memberPlaces_of_gap {label : Option Layout} {g : Nat × Bool}
    (hg : g ∈ (d.sketch label fs).gaps) (hi : g.2 = false) :
    g.1 ∈ d.memberPlaces (fs.map (·.1)) := by
  rw [gaps_sketch, List.mem_append] at hg
  rcases hg with hg | hg
  · split at hg
    · obtain ⟨place, _, rfl⟩ := List.mem_map.1 hg
      cases hi
    · cases hg
  · split at hg
    · cases hg
    · obtain ⟨place, hp, rfl⟩ := List.mem_map.1 hg
      exact hp

theorem folded_eq (d : TypePieces) :
    d.folded = d.placedFolds.map (List.map (Prod.map id Prod.fst)) := by
  have hmap := folded_map Prod.fst (fun p : PropertyPieces => p.decl.name)
    (fun p => p.decl.foldsInto p.type.key d.constructorParameters) [] d.properties.zipIdx
  rwa [List.zipIdx_map_fst] at hmap

theorem foldedPlaces_ok (h : d.foldedPlaces = .ok fs) :
    ∃ xs : List (String × PropertyPieces × Nat), fs = xs.map (Prod.map id Prod.snd) ∧
      d.folded = .ok (xs.map (Prod.map id Prod.fst)) ∧
      ∀ x ∈ xs, d.properties[x.2.2]? = some x.2.1 ∧ x.1 = x.2.1.decl.name := by
  rw [folded_eq]
  unfold foldedPlaces at h
  cases hx : d.placedFolds with
  | error e =>
      rw [hx] at h
      cases h
  | ok xs =>
      rw [hx] at h
      cases h
      refine ⟨xs, rfl, rfl, fun x hm => ?_⟩
      rcases mem_of_folded hx hm with hm | ⟨hm, hname, _⟩
      · cases hm
      · exact ⟨List.mk_mem_zipIdx_iff_getElem?.1 hm, hname⟩

variable (scope : Value)

theorem fill_parameterSketch {xs : List (String × PropertyPieces × Nat)}
    (hx : ∀ x ∈ xs, d.properties[x.2.2]? = some x.2.1) (q : ParameterPieces) :
    (parameterSketch (xs.map (Prod.map id Prod.snd)) q).fill scope d.propertyAt =
      constructorParameter (xs.map (Prod.map id Prod.fst)) q := by
  unfold parameterSketch constructorParameter
  rw [lookup_map, lookup_map]
  cases hl : xs.lookup q.decl.name with
  | none => rfl
  | some x =>
      obtain ⟨front, back, rfl, _⟩ := List.lookup_eq_some_iff.1 hl
      have hp : d.properties[x.2]? = some x.1 := hx (q.decl.name, x) (by simp)
      show d.propertyAt x.2 true ++ _ = _
      rw [propertyAt, hp]
      rfl

theorem fill_headerSketch {xs : List (String × PropertyPieces × Nat)}
    (hx : ∀ x ∈ xs, d.properties[x.2.2]? = some x.2.1) (label : Option Layout) :
    (d.headerSketch label (xs.map (Prod.map id Prod.snd))).fill scope d.propertyAt =
      d.header label (xs.map (Prod.map id Prod.fst)) := by
  cases label with
  | some l => rfl
  | none =>
      cases ha : d.anonymous with
      | some a => simp only [headerSketch, header, ha, Sketch.fill_fixed]
      | none =>
          cases hf : d.primaryConstructor with
          | none => simp only [headerSketch, header, namedHeader, ha, hf, Sketch.fill_fixed,
              Option.map_none]
          | some f =>
              have hps : f.parameters.map (Sketch.fill scope d.propertyAt ∘
                  parameterSketch (xs.map (Prod.map id Prod.snd))) =
                  f.parameters.map (constructorParameter (xs.map (Prod.map id Prod.fst))) :=
                List.map_congr_left fun q _ => fill_parameterSketch scope hx q
              simp only [headerSketch, header, namedHeader, primarySketch, ha, hf,
                Sketch.fill_append, Sketch.fill_fixed, Sketch.fill_separated, List.map_map, hps,
                Option.map_some]
              rfl

theorem laterMembers_eq_otherMembers (d : TypePieces) (names : List String) :
    d.laterMembers names =
      ((d.properties.filter fun p => !names.contains p.decl.name).map fun p =>
        .ok (orFail (d.decl.propertyModifiers.map fun ms => p.memberLayout (.ofModifiers ms)))) ++
      d.otherMembers := by
  rw [otherMembers, laterMembers_eq, laterMembers_eq]
  simp only [List.filter_nil, List.map_nil, List.nil_append, List.append_assoc]

theorem memberPlaces_map (d : TypePieces) (names : List String) :
    (d.memberPlaces names).map (fun place => Except.ok (ε := Error) (d.propertyAt place false)) =
      (d.properties.filter fun p => !names.contains p.decl.name).map fun p =>
        .ok (orFail (d.decl.propertyModifiers.map fun ms => p.memberLayout (.ofModifiers ms))) := by
  rw [memberPlaces_eq]
  apply map_placesOf
  intro place p hp
  simp only [propertyAt, hp, Bool.false_eq_true, if_false]

theorem fill_bodySketch (d : TypePieces) (names : List String) (close : Layout) :
    (d.bodySketch names close).fill (.decl none (.typeDecl d.decl)) d.propertyAt =
      d.bodyLayout names close := by
  have hothers : d.otherMembers.map (Except.map (Sketch.fill (.decl none (.typeDecl d.decl))
      d.propertyAt) ∘ Except.map Sketch.fixed) = d.otherMembers := by
    apply List.map_id''
    intro m
    cases m <;> rfl
  rw [bodyLayout, memberList_eq, laterMembers_eq_otherMembers, ← memberPlaces_map, bodySketch]
  simp only [Sketch.fill_append, Sketch.fill, Sketch.fill_members, List.map_append, List.map_map,
    hothers, List.append_assoc]
  rfl

theorem layout_eq_fill (h : d.foldedPlaces = .ok fs) (label : Option Layout) :
    d.layout label = .declaration
      ((d.sketch label fs).fill (.decl none (.typeDecl d.decl)) d.propertyAt) := by
  obtain ⟨xs, rfl, hfolded, hx⟩ := foldedPlaces_ok h
  have hnames : (xs.map (Prod.map id Prod.fst)).map Prod.fst =
      (xs.map (Prod.map id Prod.snd)).map Prod.fst := by simp
  rw [layout, hfolded]
  show Layout.declaration (d.foldedLayout label _) = _
  rw [foldedLayout_eq, sketch, Sketch.fill_append, fill_headerSketch _ fun x hm => (hx x hm).1,
    hnames]
  split
  · rfl
  · rw [fill_bodySketch]

end TypePieces

namespace TypeDecl

variable {unit : IndentUnit} {d : TypeDecl}

theorem foldedNames_eq (unit : IndentUnit) (d : TypeDecl) :
    d.foldedNames unit = (d.pieces unit).foldedPlaces.map (List.map (·.1)) := by
  unfold foldedNames TypePieces.foldedPlaces
  rw [TypePieces.folded_eq]
  cases (d.pieces unit).placedFolds with
  | error e => rfl
  | ok xs =>
      show Except.ok _ = Except.ok _
      simp

theorem foldedPlaces_of_foldedNames {names : List String} (h : d.foldedNames unit = .ok names) :
    ∃ fs, (d.pieces unit).foldedPlaces = .ok fs ∧ fs.map (·.1) = names := by
  rw [foldedNames_eq] at h
  cases hfs : (d.pieces unit).foldedPlaces with
  | error e =>
      rw [hfs] at h
      cases h
  | ok fs =>
      rw [hfs] at h
      exact ⟨fs, rfl, Except.ok.inj h⟩

end TypeDecl

end KotlinDecl
