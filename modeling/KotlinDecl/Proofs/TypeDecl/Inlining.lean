import Mathlib.Data.List.NodupEquivFin
import KotlinDecl.Proofs.MarkerFaults
import KotlinDecl.Proofs.TypeDecl.Consistency
import KotlinDecl.Proofs.TypeDecl.Sketch

namespace KotlinDecl

/-- How often the item at a place is written. -/
def Sketch.times (s : Sketch) (place : Nat) : Nat := (s.gaps.map (·.1)).count place

theorem count_le_one_iff {names : List String} {n : String} :
    names.count n ≤ 1 ↔ ∀ i j : Nat, names[i]? = some n → names[j]? = some n → i = j := by
  rw [← Nat.not_lt, Nat.lt_iff_add_one_le, ← List.duplicate_iff_two_le_count,
    List.duplicate_iff_exists_distinct_get]
  constructor
  · intro h i j hi hj
    obtain ⟨hil, hi⟩ := List.getElem?_eq_some_iff.1 hi
    obtain ⟨hjl, hj⟩ := List.getElem?_eq_some_iff.1 hj
    by_contra hij
    rcases Nat.lt_or_gt_of_ne hij with hlt | hlt
    · exact h ⟨⟨i, hil⟩, ⟨j, hjl⟩, hlt, hi.symm, hj.symm⟩
    · exact h ⟨⟨j, hjl⟩, ⟨i, hil⟩, hlt, hj.symm, hi.symm⟩
  · rintro h ⟨i, j, hlt, hi, hj⟩
    have hij := h i j (List.getElem?_eq_some_iff.2 ⟨i.2, hi.symm⟩)
      (List.getElem?_eq_some_iff.2 ⟨j.2, hj.symm⟩)
    exact absurd hij (Nat.ne_of_lt hlt)

namespace TypePieces

variable {d : TypePieces} {fs : List (String × Nat)} {place : Nat} {p : PropertyPieces}

theorem count_memberPlaces (hp : d.properties[place]? = some p) (names : List String) :
    (d.memberPlaces names).count place = if p.decl.name ∈ names then 0 else 1 := by
  rw [List.Nodup.count (memberPlaces_eq d names ▸ nodup_placesOf _ _)]
  by_cases hn : p.decl.name ∈ names <;> simp [mem_memberPlaces, hp, hn]

theorem property_of_lookup (h : d.foldedPlaces = .ok fs) {n : String}
    (hl : fs.lookup n = some place) :
    n ∈ fs.map (·.1) ∧ ∃ p, d.properties[place]? = some p ∧ p.decl.name = n := by
  obtain ⟨xs, rfl, _, hx⟩ := foldedPlaces_ok h
  rw [lookup_map, Option.map_eq_some_iff] at hl
  obtain ⟨x, hl, rfl⟩ := hl
  obtain ⟨front, back, rfl, _⟩ := List.lookup_eq_some_iff.1 hl
  obtain ⟨hp, hn⟩ := hx (n, x) (by simp)
  exact ⟨by simp, x.1, hp, hn.symm⟩

theorem times_eq (d : TypePieces) (label : Option Layout) (fs : List (String × Nat))
    (place : Nat) :
    (d.sketch label fs).times place =
      (if d.isNamed label then d.parameterNames.countP fun n => fs.lookup n == some place else 0) +
      if d.decl.hasNoBody (fs.map (·.1)) then 0
      else (d.memberPlaces (fs.map (·.1))).count place := by
  rw [Sketch.times, gaps_sketch, List.map_append, List.count_append]
  congr 1
  · split <;> simp [List.count_filterMap, Function.comp_def]
  · split <;> simp [Function.comp_def]

/-- The parameters that a property is written in are those of its name, if it is the one that is
kept for that name. -/
theorem countP_lookup (h : d.foldedPlaces = .ok fs) (hp : d.properties[place]? = some p) :
    (d.parameterNames.countP fun n => fs.lookup n == some place) =
      if fs.lookup p.decl.name = some place then d.parameterNames.count p.decl.name else 0 := by
  have hname {n : String} (hl : fs.lookup n = some place) : n = p.decl.name := by
    obtain ⟨_, p', hp', rfl⟩ := property_of_lookup h hl
    rw [hp] at hp'
    cases hp'
    rfl
  split
  · next hl =>
      apply List.countP_congr
      intro n _
      simp only [beq_iff_eq]
      exact ⟨hname, fun hn => hn ▸ hl⟩
  · next hl =>
      apply List.countP_eq_zero.2
      intro n _ hn
      rw [beq_iff_eq] at hn
      exact hl (hname hn ▸ hn)

/-- A property whose name folds is left out of the body, also if it does not fold itself. -/
theorem times_sketch (h : d.foldedPlaces = .ok fs)
    (hall : d.decl.hasNoBody (fs.map (·.1)) = true →
      ∀ p ∈ d.properties, p.decl.name ∈ fs.map (·.1))
    (label : Option Layout) (hp : d.properties[place]? = some p) :
    (d.sketch label fs).times place =
      if p.decl.name ∈ fs.map (·.1) then
        if d.isNamed label = true ∧ fs.lookup p.decl.name = some place then
          d.parameterNames.count p.decl.name
        else 0
      else 1 := by
  have hbody : (if d.decl.hasNoBody (fs.map (·.1)) then 0
      else (d.memberPlaces (fs.map (·.1))).count place) =
      if p.decl.name ∈ fs.map (·.1) then 0 else 1 := by
    split
    · next hb => rw [if_pos (hall hb p (List.mem_of_getElem? hp))]
    · rw [count_memberPlaces hp]
  rw [times_eq, countP_lookup h hp, hbody]
  by_cases hmem : p.decl.name ∈ fs.map (·.1)
  · rw [if_pos hmem, if_pos hmem, Nat.add_zero]
    by_cases hn : d.isNamed label = true <;> simp [hn]
  · have hl : fs.lookup p.decl.name ≠ some place := fun hl => hmem (property_of_lookup h hl).1
    rw [if_neg hmem, if_neg hmem, if_neg hl, ite_self]

theorem times_eq_one_iff (h : d.foldedPlaces = .ok fs)
    (hall : d.decl.hasNoBody (fs.map (·.1)) = true →
      ∀ p ∈ d.properties, p.decl.name ∈ fs.map (·.1))
    (label : Option Layout) :
    (∀ place < d.properties.length, (d.sketch label fs).times place = 1) ↔
      ∀ n ∈ fs.map (·.1), d.isNamed label = true ∧
        (d.properties.map (·.decl.name)).count n = 1 ∧ d.parameterNames.count n = 1 := by
  have hnames (i : Nat) (n : String) : (d.properties.map (·.decl.name))[i]? = some n ↔
      ∃ p, d.properties[i]? = some p ∧ p.decl.name = n := by
    rw [List.getElem?_map, Option.map_eq_some_iff]
  constructor
  · intro hw n hn
    -- a property whose name folds is written once only if it is the one that is kept
    have hkept {i : Nat} (hi : (d.properties.map (·.decl.name))[i]? = some n) :
        (d.isNamed label = true ∧ fs.lookup n = some i) ∧ d.parameterNames.count n = 1 := by
      obtain ⟨p, hp, rfl⟩ := (hnames i n).1 hi
      have ht := hw i (List.getElem?_eq_some_iff.1 hp).1
      rw [times_sketch h hall label hp, if_pos hn] at ht
      split at ht
      · next hk => exact ⟨hk, ht⟩
      · cases ht
    obtain ⟨i, hi⟩ := exists_lookup hn
    have hat := (hnames i n).2 (property_of_lookup h hi).2
    have hle : (d.properties.map (·.decl.name)).count n ≤ 1 := by
      apply count_le_one_iff.2
      intro j k hj hk
      exact Option.some.inj ((hkept hj).1.2.symm.trans (hkept hk).1.2)
    have hpos := List.one_le_count_iff.2 (List.mem_of_getElem? hat)
    exact ⟨(hkept hat).1.1, Nat.le_antisymm hle hpos, (hkept hat).2⟩
  · intro hn i hi
    have hp := List.getElem?_eq_getElem hi
    rw [times_sketch h hall label hp]
    split
    · next hmem =>
        obtain ⟨hnamed, hcount, hparameters⟩ := hn _ hmem
        obtain ⟨j, hj⟩ := exists_lookup hmem
        have hij := count_le_one_iff.1 (Nat.le_of_eq hcount) i j ((hnames i _).2 ⟨_, hp, rfl⟩)
          ((hnames j _).2 (property_of_lookup h hj).2)
        rw [if_pos ⟨hnamed, hij ▸ hj⟩, hparameters]
    · rfl

end TypePieces

namespace TypeDecl

theorem foldedNames_ok {d : TypeDecl} (hw : d.wellTyped = true) (unit : String) :
    ∃ names, d.foldedNames (.ok unit) = .ok names := by
  have hk := (Layout.reads_tameness unit).settles.ofTypeDecl d hw False.elim
  obtain ⟨fs, hfs, _⟩ := hk.folded
  refine ⟨fs.map (·.1), ?_⟩
  rw [foldedNames, hfs]
  rfl

theorem folded_of_hasNoBody {unit : IndentUnit} {d : TypeDecl} {names : List String}
    (hc : d.Consistent unit) (hn : d.foldedNames unit = .ok names)
    (hb : d.hasNoBody names = true) : ∀ p ∈ d.properties, p.name ∈ names := by
  intro p hp
  rw [hasNoBody, Bool.or_eq_true] at hb
  rcases hb with hk | hb
  · obtain ⟨names', hn', hall⟩ := hc.foldedProperties hk
    rw [hn] at hn'
    cases hn'
    exact hall p hp
  · simp only [Bool.and_eq_true, List.all_eq_true, List.contains_iff_mem] at hb
    exact hb.1.1.1.1.1.1 p hp

theorem isNamed_pieces (unit : IndentUnit) (d : TypeDecl) (label : Option Layout) :
    (d.pieces unit).isNamed label = true ↔ label = none ∧ d.anonymous = none := by
  have ha : (d.pieces unit).anonymous = none ↔ d.anonymous = none := by
    rw [← Option.not_isSome_iff_eq_none, isSome_anonymous_pieces, isAnonymous,
      Option.not_isSome_iff_eq_none]
  simp [TypePieces.isNamed, ha]

/-- Each property is written exactly once if and only if nothing folds, or the declaration has a
name, and each name that folds is the name of one property and of one parameter. -/
theorem properties_written_once_iff {unit : String} {d e : TypeDecl}
    (hd : Draft.Reached (.ok unit) (fun m => m.wellTyped = true) (.typeDecl d))
    (he : d.build (.ok unit) = .ok e) (label : Option Layout) :
    let ps := e.pieces (.ok unit)
    ∃ fs, ps.foldedPlaces = .ok fs ∧ e.foldedNames (.ok unit) = .ok (fs.map (·.1)) ∧
      ps.layout label = .declaration
        ((ps.sketch label fs).fill (.decl none (.typeDecl e)) ps.propertyAt) ∧
      ((∀ place < e.properties.length, (ps.sketch label fs).times place = 1) ↔
        ∀ n ∈ fs.map (·.1), (label = none ∧ e.anonymous = none) ∧
          (e.properties.map (·.name)).count n = 1 ∧ ps.parameterNames.count n = 1) := by
  intro ps
  obtain ⟨names, hnames⟩ := foldedNames_ok (wellTyped_of_build hd he) unit
  obtain ⟨fs, hfs, rfl⟩ := foldedPlaces_of_foldedNames hnames
  have hall : ps.decl.hasNoBody (fs.map (·.1)) = true →
      ∀ p ∈ ps.properties, p.decl.name ∈ fs.map (·.1) := by
    rw [decl_pieces, properties_pieces]
    intro hb q hq
    obtain ⟨p, hp, rfl⟩ := List.mem_map.1 hq
    rw [PropertyDecl.decl_pieces]
    exact folded_of_hasNoBody (consistent_of_build hd he) hnames hb p hp
  have hlayout := TypePieces.layout_eq_fill hfs label
  rw [decl_pieces] at hlayout
  refine ⟨fs, hfs, hnames, hlayout, ?_⟩
  have honce := TypePieces.times_eq_one_iff hfs hall label
  simpa [ps, isNamed_pieces, Function.comp_def] using honce

/-- One property folds and the other one does not. -/
theorem properties_written_once_iff_mixed :
    let int : Value := .type (.named (some "kotlin") ["Int"] false)
    let f := { FunDecl.plain FunDecl.constructorName with parameters := [Parameter.plain "x" int] }
    let x := { PropertyDecl.plain "x" int with
      initializer := some ⟨[.argument .name], [.str "x"]⟩ }
    let d := { plain (.kind .classKind) (some "A") none with
      primaryConstructor := some f
      properties := [PropertyDecl.plain "y" int, x] }
    Draft.Reached (.ok "  ") (fun m => m.wellTyped = true) (.typeDecl d) ∧
      d.build (.ok "  ") = .ok d ∧
      ∃ fs, (d.pieces (.ok "  ")).foldedPlaces = .ok fs ∧
        ∀ place < 2, ((d.pieces (.ok "  ")).sketch none fs).times place = 1 := by
  intro int f x d
  have hs : Draft.Reached (.ok "  ") (fun m => m.wellTyped = true)
      (.typeDecl (plain (.kind .classKind) (some "A") none)) :=
    .start (x := .named .classKind (.str "A")) rfl rfl
  have hd : Draft.Reached (.ok "  ") (fun m => m.wellTyped = true) (.typeDecl d) :=
    hs.calls [.typeDecl (.primaryConstructor (.decl none (.function f))),
      .typeDecl (.addProperty (.decl none (.property (PropertyDecl.plain "y" int))) .null []),
      .typeDecl (.addProperty (.decl none (.property x)) .null [])] (by decide)
  have hfs : (d.pieces (.ok "  ")).foldedPlaces = .ok [("x", 1)] := rfl
  refine ⟨hd, rfl, [("x", 1)], hfs, ?_⟩
  obtain ⟨fs, hfs', _, _, honce⟩ := properties_written_once_iff hd rfl none
  rw [hfs] at hfs'
  cases hfs'
  apply honce.2
  decide

/-- The second property of a name is left out, though it does not fold; and where there is no
parameter list, a property that folds is left out too. -/
theorem folding_leaves_out :
    let int : Value := .type (.named (some "kotlin") ["Int"] false)
    let f := { FunDecl.plain FunDecl.constructorName with parameters := [Parameter.plain "x" int] }
    let x := { PropertyDecl.plain "x" int with
      initializer := some ⟨[.argument .name], [.str "x"]⟩ }
    let y := { PropertyDecl.plain "x" int with
      initializer := some ⟨[.argument .literal], [.int 1]⟩ }
    let d := { plain (.kind .classKind) (some "A") none with
      primaryConstructor := some f
      properties := [x, y] }
    let e := { plain (.kind .classKind) none (some (.code .empty)) with
      primaryConstructor := some f
      properties := [x] }
    Draft.Reached (.ok "  ") (fun m => m.wellTyped = true) (.typeDecl d) ∧
      d.build (.ok "  ") = .ok d ∧
      (d.pieces (.ok "  ")).foldedPlaces = .ok [("x", 0)] ∧
      ((d.pieces (.ok "  ")).sketch none [("x", 0)]).times 1 = 0 ∧
      (((d.pieces (.ok "  ")).layout none).run (Writer.fresh "  ")).text =
        "class A(val x: Int)\n".toList ∧
      Draft.Reached (.ok "  ") (fun m => m.wellTyped = true) (.typeDecl e) ∧
      e.build (.ok "  ") = .ok e ∧
      (e.pieces (.ok "  ")).foldedPlaces = .ok [("x", 0)] ∧
      ((e.pieces (.ok "  ")).sketch none [("x", 0)]).times 0 = 0 ∧
      (((e.pieces (.ok "  ")).layout none).run (Writer.fresh "  ")).text =
        "object \x7b \x7d".toList := by
  intro int f x y d e
  have hs : Draft.Reached (.ok "  ") (fun m => m.wellTyped = true)
      (.typeDecl (plain (.kind .classKind) (some "A") none)) :=
    .start (x := .named .classKind (.str "A")) rfl rfl
  have ht : Draft.Reached (.ok "  ") (fun m => m.wellTyped = true)
      (.typeDecl (plain (.kind .classKind) none (some (.code .empty)))) :=
    .start (x := .anonymous (.str "") []) rfl rfl
  refine ⟨?_, rfl, rfl, rfl, by decide, ?_, rfl, rfl, rfl, by decide⟩
  · exact hs.calls [.typeDecl (.primaryConstructor (.decl none (.function f))),
      .typeDecl (.addProperty (.decl none (.property x)) .null []),
      .typeDecl (.addProperty (.decl none (.property y)) .null [])] (by decide)
  · exact ht.calls [.typeDecl (.primaryConstructor (.decl none (.function f))),
      .typeDecl (.addProperty (.decl none (.property x)) .null [])] (by decide)

end TypeDecl

end KotlinDecl
