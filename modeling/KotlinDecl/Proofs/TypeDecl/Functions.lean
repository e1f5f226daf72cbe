import KotlinDecl.Proofs.TypeDecl.Body
import KotlinDecl.Proofs.TypeDecl.Inlining

namespace KotlinDecl

open Layout (text empty block orFail)

/-- Somewhere in the text stands what `d` writes. -/
def Written.Shows (r : Written) (d : Layout) : Prop :=
  ∃ (front back : List Char) (w : Writer),
    (d.run w).error = none ∧ r.text = front ++ (d.run w).text ++ back

namespace Layout

variable {a b c d : Layout} {w : Writer}

theorem shows_self (h : (d.run w).error = none) : (d.run w).Shows d :=
  ⟨[], [], w, h, by rw [List.nil_append, List.append_nil]⟩

theorem shows_left (h : (a.run w).error = none) (hd : (a.run w).Shows d) :
    ((a ++ b).run w).Shows d := by
  obtain ⟨front, back, w', hw, ht⟩ := hd
  refine ⟨front, back ++ (b.run (a.run w).writer).text, w', hw, ?_⟩
  rw [text_run_append h, ht, List.append_assoc]

theorem shows_right (h : (a.run w).error = none) (hd : (b.run (a.run w).writer).Shows d) :
    ((a ++ b).run w).Shows d := by
  obtain ⟨front, back, w', hw, ht⟩ := hd
  refine ⟨(a.run w).text ++ front, back, w', hw, ?_⟩
  rw [text_run_append h, ht, List.append_assoc, List.append_assoc, List.append_assoc]

theorem shows_of_append {r : Written} (h : r.Shows (a ++ b ++ c)) : r.Shows (b ++ c) := by
  obtain ⟨front, back, w, hw, ht⟩ := h
  rw [run_append_assoc] at hw ht
  obtain ⟨ha, hbc⟩ := Written.error_of_andThen hw
  refine ⟨front ++ (a.run w).text, back, (a.run w).writer, hbc, ?_⟩
  simp only [ht, text_run_append ha, List.append_assoc]

end Layout

theorem Sketch.shows_gap {s : Sketch} {scope : Value} {write : Nat → Bool → Layout} {w : Writer}
    (h : ((s.fill scope write).run w).error = none) {g : Nat × Bool} (hg : g ∈ s.gaps) :
    ((s.fill scope write).run w).Shows (write g.1 g.2) := by
  induction s generalizing w with
  | fixed d => cases hg
  | gap place inline =>
      rw [List.mem_singleton.1 hg]
      exact Layout.shows_self h
  | seq a b iha ihb =>
      obtain ⟨ha, hb⟩ := Written.error_of_andThen h
      rcases List.mem_append.1 hg with hg | hg
      · exact Layout.shows_left ha (iha ha hg)
      · exact Layout.shows_right ha (ihb hb hg)
  | body s ih => exact ih h hg

def FunDecl.isBodiless (f : FunDecl) : Bool :=
  f.modifiers.contains .abstractDecl || f.modifiers.contains .external ||
    f.modifiers.contains .expect

def functionPlaces (fs : List FunDecl) : List Nat :=
  placesOf (·.isConstructor) fs ++ placesOf (!·.isConstructor) fs

theorem count_functionPlaces {fs : List FunDecl} {place : Nat} {f : FunDecl}
    (h : fs[place]? = some f) : (functionPlaces fs).count place = 1 := by
  rw [functionPlaces, List.count_append, List.Nodup.count (nodup_placesOf _ _),
    List.Nodup.count (nodup_placesOf _ _)]
  by_cases hf : f.isConstructor = true <;> simp [mem_placesOf, h, hf]

theorem functionPlaces_congr {fs gs : List FunDecl}
    (h : gs.map (·.isConstructor) = fs.map (·.isConstructor)) :
    functionPlaces gs = functionPlaces fs := by
  have hplaces (p : Bool → Bool) (as : List FunDecl) :
      placesOf (fun f => p f.isConstructor) as = placesOf p (as.map (·.isConstructor)) := by
    rw [placesOf, placesOf, List.zipIdx_map, List.filter_map, List.map_map]
    rfl
  have htrue := hplaces id
  have hfalse := hplaces not
  simp only [id_eq] at htrue
  rw [functionPlaces, functionPlaces, htrue, htrue, hfalse, hfalse, h]

namespace TypePieces

def membersBefore (d : TypePieces) (names : List String) : List Layout :=
  constantMembers (d.decl.hasMembersAfterConstants names) d.constants ++
    ((d.properties.filter fun p => !names.contains p.decl.name).map fun p =>
      orFail (d.decl.propertyModifiers.map fun ms => p.memberLayout (.ofModifiers ms))) ++
    ((d.primaryConstructor.toList.filter (!·.decl.body.isEmpty)).map fun f =>
      text "init" ++ block f.body) ++
    if d.decl.initializer.isEmpty then [] else [d.initializer]

def membersBehind (d : TypePieces) : List Layout := d.types ++ d.companion.toList

theorem memberList_around (d : TypePieces) (names : List String) :
    d.memberList names = (d.membersBefore names).map .ok ++
      (constructorMembers d.decl.functionModifiers d.functions ++
        (functionMembers d.decl.functionModifiers d.functions).map .ok) ++
      d.membersBehind.map .ok := by
  rw [memberList_eq, laterMembers_eq, membersBefore, membersBehind]
  by_cases hi : d.decl.initializer.isEmpty = true <;> simp [hi, Function.comp_def]

def functionSketch (d : TypePieces) (label : Option Layout) (fs : List (String × PropertyPieces))
    (places : List Nat) : Sketch :=
  let names := fs.map (·.1)
  let front := (d.membersBefore names).map .fixed ++ places.map (.gap · false)
  .fixed (d.header label fs) ++
    if d.decl.hasNoBody names then .fixed (d.bodiless label)
    else .fixed (text " \x7b\n") ++
      .body (.members true
        (front.map .ok ++ (d.membersBehind.map .ok).map (Except.map .fixed))) ++
      .fixed (text "\x7d") ++ .fixed (d.closing label)

theorem gaps_functionSketch {d : TypePieces} {fs : List (String × PropertyPieces)}
    (hbody : d.decl.hasNoBody (fs.map (·.1)) = false) (label : Option Layout) (places : List Nat) :
    (d.functionSketch label fs places).gaps = places.map (·, false) := by
  simp only [functionSketch, hbody, Bool.false_eq_true, if_false, Sketch.gaps_append,
    Sketch.gaps_fixed, List.nil_append, List.append_nil]
  refine (Sketch.gaps_members true _ _).trans ?_
  rw [List.flatMap_append, List.flatMap_map, List.flatMap_map]
  simp [Sketch.gaps, List.map_eq_flatMap]

end TypePieces

namespace TypeDecl

variable {unit : IndentUnit} {e : TypeDecl} {fs : List FunDecl}

def functionAt (unit : IndentUnit) (e : TypeDecl) (fs : List FunDecl) (place : Nat) (_ : Bool) :
    Layout :=
  match fs[place]? with
  | none => empty
  | some f => orFail (e.functionModifiers.map (f.pieces unit).layout)

theorem functionMembers_eq_places (unit : IndentUnit) (e : TypeDecl) (fs : List FunDecl) :
    TypePieces.constructorMembers e.functionModifiers (fs.map fun f => some (f.pieces unit)) ++
        (TypePieces.functionMembers e.functionModifiers
          (fs.map fun f => some (f.pieces unit))).map .ok =
      ((functionPlaces fs).map (e.functionAt unit fs · false)).map .ok := by
  have hplaces (p : FunDecl → Bool) : (placesOf p fs).map (e.functionAt unit fs · false) =
      (fs.filter p).map fun f => orFail (e.functionModifiers.map (f.pieces unit).layout) := by
    apply map_placesOf
    intro place f hf
    rw [functionAt, hf]
  rw [constructorMembers_eq, functionMembers_eq, functionPlaces, List.map_append, List.map_append,
    hplaces, hplaces, List.map_map, List.map_map]
  rfl

theorem functionPieces_of_mapM {vs : List Value} (h : vs.mapM Value.asFunction = .ok fs) :
    vs.map (·.functionPieces unit) = fs.map fun f => some (f.pieces unit) := by
  induction vs generalizing fs with
  | nil =>
      cases h
      rfl
  | cons v vs ih =>
      rw [List.mapM_cons] at h
      obtain ⟨f, hf, h⟩ := ok_of_bind h
      obtain ⟨gs, hgs, h⟩ := ok_of_bind h
      cases h
      obtain ⟨n, rfl⟩ := Value.asFunction_ok hf
      exact congrArg (some (f.pieces unit) :: ·) (ih hgs)

theorem layout_eq_fill_functions (hfs : e.functions.mapM Value.asFunction = .ok fs)
    {ps : List (String × PropertyPieces)} (hps : (e.pieces unit).folded = .ok ps)
    (label : Option Layout) :
    (e.pieces unit).layout label = .declaration
      (((e.pieces unit).functionSketch label ps (functionPlaces fs)).fill
        (.decl none (.typeDecl e)) (e.functionAt unit fs)) := by
  have hmembers : (e.pieces unit).memberList (ps.map (·.1)) =
      (((e.pieces unit).membersBefore (ps.map (·.1))).map .ok ++
        ((functionPlaces fs).map (e.functionAt unit fs · false)).map .ok ++
        (e.pieces unit).membersBehind.map .ok) := by
    rw [TypePieces.memberList_around, decl_pieces, functions_pieces, functionPieces_of_mapM hfs,
      functionMembers_eq_places]
  rw [TypePieces.layout, hps]
  show Layout.declaration ((e.pieces unit).foldedLayout label ps) = _
  rw [TypePieces.foldedLayout_eq, TypePieces.functionSketch, Sketch.fill_append]
  split
  · rfl
  · rw [TypePieces.bodyLayout, hmembers, decl_pieces]
    simp only [Sketch.fill_append, Sketch.fill, Sketch.fill_members, List.map_append, List.map_map,
      List.append_assoc]
    rfl

theorem hasConstructor_congr {fs gs : List FunDecl}
    (h : gs.map (·.isConstructor) = fs.map (·.isConstructor)) :
    TypePieces.hasConstructor (gs.map fun f => some (f.pieces unit)) =
      TypePieces.hasConstructor (fs.map fun f => some (f.pieces unit)) := by
  induction gs generalizing fs with
  | nil => rw [List.map_eq_nil_iff.1 h.symm]
  | cons g gs ih =>
      cases fs with
      | nil => cases h
      | cons f fs =>
          obtain ⟨hf, hr⟩ := List.cons.inj h
          simp only [List.map_cons, TypePieces.hasConstructor, FunDecl.decl_pieces, hf, ih hr]

theorem isEmpty_of_mapM {vs : List Value} (h : vs.mapM Value.asFunction = .ok fs) :
    vs.isEmpty = fs.isEmpty := by
  cases vs with
  | nil =>
      cases h
      rfl
  | cons v vs =>
      rw [List.mapM_cons] at h
      obtain ⟨f, _, h⟩ := ok_of_bind h
      obtain ⟨gs, _, h⟩ := ok_of_bind h
      cases h
      rfl

theorem folded_functions (e : TypeDecl) (vs : List Value) :
    (({ e with functions := vs } : TypeDecl).pieces unit).folded = (e.pieces unit).folded := by
  cases e
  rfl

theorem header_of_supertypes {vs : List Value}
    (h : (({ e with functions := vs } : TypeDecl).pieces unit).supertypes =
      (e.pieces unit).supertypes) (label : Option Layout) (ps : List (String × PropertyPieces)) :
    (({ e with functions := vs } : TypeDecl).pieces unit).header label ps =
      (e.pieces unit).header label ps := by
  unfold TypePieces.header TypePieces.namedHeader
  rw [h]
  cases e
  rfl

/-- Apart from the gaps, all that is written of the functions is which of them are
constructors. -/
theorem functionSketch_exchange {vs : List Value} {gs : List FunDecl}
    (hfs : e.functions.mapM Value.asFunction = .ok fs) (hgs : vs.mapM Value.asFunction = .ok gs)
    (h : gs.map (·.isConstructor) = fs.map (·.isConstructor)) (label : Option Layout)
    (ps : List (String × PropertyPieces)) (places : List Nat) :
    (({ e with functions := vs } : TypeDecl).pieces unit).functionSketch label ps places =
      (e.pieces unit).functionSketch label ps places := by
  have hempty : vs.isEmpty = e.functions.isEmpty := by
    rw [isEmpty_of_mapM hfs, isEmpty_of_mapM hgs]
    simpa using congrArg List.isEmpty h
  have hsupertypes : (({ e with functions := vs } : TypeDecl).pieces unit).supertypes =
      (e.pieces unit).supertypes := by
    have hconstructor : TypePieces.hasConstructor
        (({ e with functions := vs } : TypeDecl).pieces unit).functions =
        TypePieces.hasConstructor (e.pieces unit).functions := by
      rw [functions_pieces, functions_pieces, functionPieces_of_mapM hgs,
        functionPieces_of_mapM hfs, hasConstructor_congr h]
    unfold TypePieces.supertypes TypePieces.superclassPieces
    rw [hconstructor]
    cases e
    rfl
  have hheader := header_of_supertypes hsupertypes label ps
  have hbody (names : List String) :
      ({ e with functions := vs } : TypeDecl).hasNoBody names = e.hasNoBody names := by
    simp only [hasNoBody, hempty]
    rfl
  have hmore (names : List String) :
      ({ e with functions := vs } : TypeDecl).hasMembersAfterConstants names =
        e.hasMembersAfterConstants names := by
    simp only [hasMembersAfterConstants, hempty]
    rfl
  simp only [TypePieces.functionSketch, TypePieces.membersBefore, hheader, decl_pieces, hbody,
    hmore]
  cases e
  rfl

theorem folded_of_ok {label : Option Layout} {w : Writer}
    (hok : (((e.pieces unit).layout label).run w).error = none) :
    ∃ ps, (e.pieces unit).folded = .ok ps := by
  cases hps : (e.pieces unit).folded with
  | ok ps => exact ⟨ps, rfl⟩
  | error x =>
      rw [TypePieces.layout, hps] at hok
      cases hok

theorem hasNoBody_of_functions (hk : e.isKind .annotationKind = false) (hne : e.functions ≠ [])
    (names : List String) : e.hasNoBody names = false := by
  simp [hasNoBody, hk, hne]

/-- Nothing of an annotation class is due to its functions: even its header names no superclass,
whose arguments a secondary constructor would suppress. -/
theorem Admissible.layout_of_annotation (ha : e.Admissible)
    (hk : e.isKind .annotationKind = true) (vs : List Value) (label : Option Layout) :
    (({ e with functions := vs } : TypeDecl).pieces unit).layout label =
      (e.pieces unit).layout label := by
  have hsuper : e.superclass = .type .anyType := by
    by_contra hs
    obtain ⟨k, hmem, hkind⟩ := ha.superclass (.inl hs)
    rw [isKind, hkind] at hk
    rw [show k = .annotationKind from of_decide_eq_true hk] at hmem
    exact absurd hmem (by decide)
  have hsupertypes : (({ e with functions := vs } : TypeDecl).pieces unit).supertypes =
      (e.pieces unit).supertypes := by
    unfold TypePieces.supertypes TypePieces.superclassPieces TypePieces.hasSuperclass
    rw [decl_pieces, decl_pieces, hsuper]
    cases e
    rfl
  rw [TypePieces.layout, TypePieces.layout, folded_functions]
  cases (e.pieces unit).folded with
  | error x => rfl
  | ok ps =>
      have hbody (d : TypeDecl) (hd : d.isKind .annotationKind = true) :
          d.hasNoBody (ps.map (·.1)) = true := by
        rw [hasNoBody, hd, Bool.true_or]
      show Layout.declaration (TypePieces.foldedLayout _ label ps) =
        .declaration (TypePieces.foldedLayout _ label ps)
      rw [TypePieces.foldedLayout_eq, TypePieces.foldedLayout_eq, decl_pieces, decl_pieces,
        hbody e hk, hbody { e with functions := vs } hk, header_of_supertypes hsupertypes]
      cases e
      rfl

theorem functions_of_ok (hk : e.isKind .annotationKind = false) {label : Option Layout} {w : Writer}
    (hok : (((e.pieces unit).layout label).run w).error = none) :
    ∃ fs, e.functions.mapM Value.asFunction = .ok fs := by
  apply mapM_ok
  by_cases hne : e.functions = []
  · rw [hne]
    exact List.forall_mem_nil _
  · obtain ⟨ps, hps⟩ := folded_of_ok hok
    rw [(run_layout_of_body label hps (hasNoBody_of_functions hk hne _) w).2] at hok
    obtain ⟨_, hmembers⟩ := Layout.ok_of_run_braces hok
    obtain ⟨ds, hds⟩ := Layout.ok_of_run_members hmembers
    exact functions_of_memberList unit e _ hds

/-- In an expected declaration all bodies are empty, so the modifiers that go without saying leave
out none. -/
theorem Consistent.omitsBody (hc : e.Consistent unit)
    (hfs : e.functions.mapM Value.asFunction = .ok fs) {f : FunDecl} (hf : f ∈ fs)
    (hbody : f.body.isEmpty = false) {ms : List Modifier} (hms : e.functionModifiers = .ok ms) :
    (f.pieces unit).omitsBody ms = f.isBodiless := by
  have hexpected : e.isExpected = false := by
    rw [← Bool.not_eq_true]
    intro he
    obtain ⟨v, hv, hvf⟩ := exists_of_mapM_ok hfs f hf
    obtain ⟨body, hb, hempty⟩ := hc.expectedFunctions he v hv
    obtain ⟨n, rfl⟩ := Value.asFunction_ok hvf
    cases hb
    rw [hbody] at hempty
    cases hempty
  have hm : ms.contains .expect = false := by
    obtain ⟨k, _, hms⟩ := ok_of_bind hms
    cases hms
    rw [hexpected]
    cases k <;> rfl
  rw [FunPieces.omitsBody, FunDecl.decl_pieces, hm, hbody, Bool.and_false, Bool.or_false,
    Bool.or_false]
  rfl

/-- What is written of a function, if it is written at all: something in front of the signature,
the signature, and the body or the end of the line. -/
theorem functionAt_of_shows (hc : e.Consistent unit)
    (hfs : e.functions.mapM Value.asFunction = .ok fs) {place : Nat} {f : FunDecl}
    (hf : fs[place]? = some f) {r : Written} (hr : r.Shows (e.functionAt unit fs place false)) :
    ∃ opening ending,
      e.functionAt unit fs place false = opening ++ (f.pieces unit).signature ++ ending ∧
      r.Shows ((f.pieces unit).signature ++ ending) ∧
      (f.body.isEmpty = false →
        ending = if f.isBodiless then text "\n" else block (f.body.layout unit)) := by
  have hat : e.functionAt unit fs place false =
      orFail (e.functionModifiers.map (f.pieces unit).layout) := by
    rw [functionAt, hf]
  rw [hat] at hr ⊢
  cases hms : e.functionModifiers with
  | error x =>
      rw [hms] at hr
      obtain ⟨_, _, _, hx, _⟩ := hr
      cases hx
  | ok ms =>
      rw [hms] at hr
      refine ⟨_, _, rfl, Layout.shows_of_append hr, fun hbody => ?_⟩
      rw [hc.omitsBody hfs (List.mem_of_getElem? hf) hbody hms, FunDecl.body_pieces]

/-- Each function is written once. A function with a body is written with it, unless it is
abstract, external or expected. The sketch does not depend on the functions: other functions,
constructors in the places of constructors, are written in the same gaps and nowhere else. But an
annotation class, which accepts functions too, is written as it would be with any others. -/
theorem functions_written_once (he : e.Built unit) {label : Option Layout} {w : Writer}
    (hok : (((e.pieces unit).layout label).run w).error = none) :
    (e.isKind .annotationKind = true → ∀ vs : List Value,
      (({ e with functions := vs } : TypeDecl).pieces unit).layout label =
        (e.pieces unit).layout label) ∧
    (e.isKind .annotationKind = false →
      ∃ (fs : List FunDecl) (s : Sketch), e.functions.mapM Value.asFunction = .ok fs ∧
        (∀ (vs : List Value) (gs : List FunDecl), vs.mapM Value.asFunction = .ok gs →
          gs.map (·.isConstructor) = fs.map (·.isConstructor) →
          let d := { e with functions := vs }
          (d.pieces unit).layout label =
            .declaration (s.fill (.decl none (.typeDecl d)) (d.functionAt unit gs))) ∧
        ∀ place f, fs[place]? = some f → s.times place = 1 ∧
          ∃ opening ending,
            e.functionAt unit fs place false = opening ++ (f.pieces unit).signature ++ ending ∧
            (((e.pieces unit).layout label).run w).Shows ((f.pieces unit).signature ++ ending) ∧
            (f.body.isEmpty = false →
              ending = if f.isBodiless then text "\n" else block (f.body.layout unit))) := by
  obtain ⟨d, hd, hb⟩ := he
  have hc := consistent_of_build hd hb
  refine ⟨fun hk vs => hc.layout_of_annotation hk vs label, fun hk => ?_⟩
  obtain ⟨ps, hps⟩ := folded_of_ok hok
  obtain ⟨fs, hfs⟩ := functions_of_ok hk hok
  refine ⟨fs, (e.pieces unit).functionSketch label ps (functionPlaces fs), hfs, ?_, ?_⟩
  · intro vs gs hgs h d
    have hfold : (d.pieces unit).folded = .ok ps := (folded_functions e vs).trans hps
    rw [layout_eq_fill_functions hgs hfold, functionSketch_exchange hfs hgs h,
      functionPlaces_congr h]
  · intro place f hf
    have hne : e.functions ≠ [] := by
      intro hnil
      rw [hnil] at hfs
      cases hfs
      cases hf
    have hbody : (e.pieces unit).decl.hasNoBody (ps.map (·.1)) = false := by
      rw [decl_pieces]
      exact hasNoBody_of_functions hk hne _
    have hgaps := TypePieces.gaps_functionSketch hbody label (functionPlaces fs)
    have hcount := count_functionPlaces hf
    refine ⟨?_, ?_⟩
    · rw [Sketch.times, hgaps, List.map_map]
      simpa [Function.comp_def] using hcount
    · apply functionAt_of_shows hc hfs hf
      rw [layout_eq_fill_functions hfs hps] at hok ⊢
      refine Sketch.shows_gap hok (g := (place, false)) ?_
      rw [hgaps]
      exact List.mem_map_of_mem (List.count_pos_iff.1 (by omega))

/-- The constructor is written in front of the function, though it was added after it; of the
annotation class nothing is written but its name. -/
theorem functions_written_once_secondary :
    let f := { FunDecl.plain "f" with body := ⟨[.text "g()\n"], []⟩ }
    let c := FunDecl.plain FunDecl.constructorName
    let e := { plain (.kind .classKind) (some "A") none with
      functions := [.decl none (.function f), .decl none (.function c)] }
    let r := ((e.pieces (.ok "  ")).layout none).run (.fresh "  ")
    let k : FunDecl := { FunDecl.plain "k" with modifiers := ⟨[.publicVis, .abstractDecl]⟩ }
    let b := plain (.kind .annotationKind) (some "B") none
    let b' := { b with functions := [.decl none (.function k)] }
    (e.Built (.ok "  ") ∧ e.isKind .annotationKind = false ∧ r.error = none ∧
      ∃ s : Sketch, (e.pieces (.ok "  ")).layout none = .declaration
          (s.fill (.decl none (.typeDecl e)) (e.functionAt (.ok "  ") [f, c])) ∧
        s.times 0 = 1 ∧ s.times 1 = 1 ∧
        r.Shows ((f.pieces (.ok "  ")).signature ++ block (f.body.layout (.ok "  ")))) ∧
      b'.Built (.ok "  ") ∧ b'.isKind .annotationKind = true ∧
        (b.pieces (.ok "  ")).layout none = (b'.pieces (.ok "  ")).layout none := by
  intro f c e r k b b'
  have hs : Draft.Reached (.ok "  ") (fun _ => True)
      (.typeDecl (plain (.kind .classKind) (some "A") none)) :=
    .start (x := .named .classKind (.str "A")) trivial rfl
  have ht : Draft.Reached (.ok "  ") (fun _ => True) (.typeDecl b) :=
    .start (x := .named .annotationKind (.str "B")) trivial rfl
  have he : e.Built (.ok "  ") :=
    ⟨e, hs.calls [.typeDecl (.addFunction (.decl none (.function f))),
      .typeDecl (.addFunction (.decl none (.function c)))] (by simp), rfl⟩
  have hb : b'.Built (.ok "  ") :=
    ⟨b', ht.call (c := .typeDecl (.addFunction (.decl none (.function k)))) trivial, rfl⟩
  have hok : r.error = none := by decide
  obtain ⟨fs, s, hfs, hlayout, honce⟩ := (functions_written_once he hok).2 rfl
  cases hfs
  obtain ⟨hf, _, ending, _, hshown, hending⟩ := honce 0 f rfl
  rw [hending rfl] at hshown
  have hokb : (((b'.pieces (.ok "  ")).layout none).run (.fresh "  ")).error = none := by decide
  exact ⟨⟨he, rfl, hok, s, hlayout _ _ rfl rfl, hf, (honce 1 c rfl).1, hshown⟩, hb, rfl,
    (functions_written_once hb hokb).1 rfl []⟩

/-- Three sorts of functions lose their bodies, and an annotation class loses its functions. -/
theorem functions_left_out :
    let body : CodeBlock := ⟨[.text "x()\n"], []⟩
    let marked (name : String) (m : Modifier) : Value :=
      .decl none (.function { FunDecl.plain name with body := body, modifiers := ⟨[m]⟩ })
    let d := { plain (.kind .classKind) (some "A") none with
      modifiers := ⟨[.abstractDecl]⟩
      functions := [marked "f" .abstractDecl, marked "g" .external, marked "h" .expect] }
    let k : FunDecl := { FunDecl.plain "k" with modifiers := ⟨[.publicVis, .abstractDecl]⟩ }
    let e := { plain (.kind .annotationKind) (some "B") none with
      functions := [.decl none (.function k)] }
    d.Built (.ok "  ") ∧
      (((d.pieces (.ok "  ")).layout none).run (.fresh "  ")).text =
        ("abstract class A \x7b\n  abstract fun f()\n\n  external fun g()\n\n" ++
          "  expect fun h()\n\x7d\n").toList ∧
      e.Built (.ok "  ") ∧
      (((e.pieces (.ok "  ")).layout none).run (.fresh "  ")).text =
        "annotation class B\n".toList := by
  intro body marked d k e
  have hs : Draft.Reached (.ok "  ") (fun _ => True)
      (.typeDecl (plain (.kind .classKind) (some "A") none)) :=
    .start (x := .named .classKind (.str "A")) trivial rfl
  have ht : Draft.Reached (.ok "  ") (fun _ => True)
      (.typeDecl (plain (.kind .annotationKind) (some "B") none)) :=
    .start (x := .named .annotationKind (.str "B")) trivial rfl
  refine ⟨⟨d, ?_, rfl⟩, by decide, ⟨e, ?_, rfl⟩, by decide⟩
  · exact hs.calls [.typeDecl (.addModifiers [.modifier .abstractDecl]),
      .typeDecl (.addFunction (marked "f" .abstractDecl)),
      .typeDecl (.addFunction (marked "g" .external)),
      .typeDecl (.addFunction (marked "h" .expect))] (by simp)
  · exact ht.call (c := .typeDecl (.addFunction (.decl none (.function k)))) trivial

end TypeDecl

end KotlinDecl
