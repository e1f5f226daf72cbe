import KotlinDecl.Folding.Values
import KotlinDecl.Proofs.Folding
import KotlinDecl.Proofs.TypeDecl.Members
import KotlinDecl.Proofs.TypeName.Lookup
import Mathlib.Data.List.Basic

namespace KotlinDecl

section Entries

variable {α : Type}

theorem keys_setEntry (key : String) (a : α) (es : List (String × α)) :
    (setEntry key a es).map (·.1) =
      if key ∈ es.map (·.1) then es.map (·.1) else es.map (·.1) ++ [key] := by
  induction es with
  | nil => rfl
  | cons e es ih =>
      rw [setEntry]
      by_cases he : e.1 = key
      · simp [he]
      · simp only [if_neg he, List.map_cons, ih, List.mem_cons, Ne.symm he, false_or]
        split <;> rfl

theorem lookup_cons_eq (e : String × α) (es : List (String × α)) (key : String) :
    (e :: es).lookup key = if key = e.1 then some e.2 else es.lookup key := by
  rw [List.lookup_cons]
  by_cases h : key = e.1
  · rw [if_pos h, h, beq_self_eq_true]
  · rw [if_neg h, beq_false_of_ne h]

theorem lookup_setEntry (key : String) (a : α) (es : List (String × α)) (sought : String) :
    (setEntry key a es).lookup sought = if sought = key then some a else es.lookup sought := by
  induction es with
  | nil => exact lookup_cons_eq (key, a) [] sought
  | cons e es ih =>
      rw [setEntry, lookup_cons_eq]
      by_cases he : e.1 = key
      · rw [if_pos he, lookup_cons_eq, he]
        by_cases hs : sought = key
        · rw [if_pos hs, if_pos hs]
        · rw [if_neg hs, if_neg hs, if_neg hs]
      · rw [if_neg he, lookup_cons_eq, ih]
        by_cases hs : sought = key
        · rw [if_pos hs, if_pos hs, hs, if_neg (Ne.symm he)]
        · rw [if_neg hs, if_neg hs]

theorem setEntry_of_not_mem {key : String} (a : α) {es : List (String × α)}
    (h : key ∉ es.map (·.1)) : setEntry key a es = es ++ [(key, a)] := by
  induction es with
  | nil => rfl
  | cons e es ih =>
      obtain ⟨he, hes⟩ := List.ne_and_not_mem_of_not_mem_cons h
      rw [setEntry, if_neg he.symm, ih hes]
      rfl

def setEntries (name : α → String) (as : List α) : List (String × α) :=
  as.foldl (fun es a => setEntry (name a) a es) []

variable {name : α → String}

theorem setEntries_concat (as : List α) (a : α) :
    setEntries name (as ++ [a]) = setEntry (name a) a (setEntries name as) := by
  simp [setEntries]

/-- Each name has the place in which it comes first. -/
theorem keys_setEntries (as : List α) :
    (setEntries name as).map (·.1) = (as.map name).eraseDups := by
  induction as using List.reverseRecOn with
  | nil => rfl
  | append_singleton as a ih =>
      rw [setEntries_concat, keys_setEntry, ih, List.map_append, List.eraseDups_append]
      by_cases ha : name a ∈ as.map name
      · have hnone : [name a].removeAll (as.map name) = [] := by
          rw [List.removeAll, List.filter_cons_of_neg (by simpa using ha), List.filter_nil]
        rw [if_pos (List.mem_eraseDups.2 ha), List.map_singleton, hnone, List.eraseDups_nil,
          List.append_nil]
      · have hone : [name a].removeAll (as.map name) = [name a] := by
          rw [List.removeAll, List.filter_cons_of_pos (by simpa using ha), List.filter_nil]
        rw [if_neg (mt List.mem_eraseDups.1 ha), List.map_singleton, hone]
        rfl

/-- Each name has the item that comes last. -/
theorem lookup_setEntries (as : List α) (key : String) :
    (setEntries name as).lookup key = as.reverse.find? (name · = key) := by
  induction as using List.reverseRecOn with
  | nil => rfl
  | append_singleton as a ih =>
      rw [setEntries_concat, lookup_setEntry, ih, List.reverse_append]
      by_cases ha : key = name a
      · simp [ha]
      · simp [ha, Ne.symm ha]

theorem setEntries_of_nodup {as : List α} (h : (as.map name).Nodup) :
    setEntries name as = as.map fun a => (name a, a) := by
  induction as using List.reverseRecOn with
  | nil => rfl
  | append_singleton as a ih =>
      rw [List.map_append, List.nodup_append] at h
      obtain ⟨has, _, ha⟩ := h
      have hnew : name a ∉ (setEntries name as).map (·.1) := by
        rw [keys_setEntries, List.mem_eraseDups]
        intro hmem
        exact ha _ hmem _ List.mem_cons_self rfl
      rw [setEntries_concat, setEntry_of_not_mem a hnew, ih has, List.map_append]
      rfl

theorem nodup_keys_setEntries {as : List α} (h : (as.map name).Nodup) :
    ((setEntries name as).map (·.1)).Nodup := by
  rw [setEntries_of_nodup h, List.map_map]
  exact h

theorem setEntries_perm {as bs : List α} (h : bs.Perm as) (hn : (as.map name).Nodup) :
    (setEntries name bs).Perm (setEntries name as) := by
  rw [setEntries_of_nodup hn, setEntries_of_nodup ((h.map name).nodup_iff.2 hn)]
  exact h.map _

theorem lookup_eq_some_iff_mem {es : List (String × α)} (hn : (es.map (·.1)).Nodup) {key : String}
    {a : α} : es.lookup key = some a ↔ (key, a) ∈ es := by
  induction es with
  | nil => simp
  | cons e es ih =>
      obtain ⟨hnew, hes⟩ := List.nodup_cons.1 hn
      rw [lookup_cons_eq, List.mem_cons]
      by_cases he : key = e.1
      · have hmem : (key, a) ∉ es := fun hm => hnew (List.mem_map.2 ⟨_, hm, he⟩)
        rw [if_pos he, Option.some.injEq, or_iff_left hmem, Prod.ext_iff]
        exact ⟨fun h => ⟨he, h.symm⟩, fun h => h.2.symm⟩
      · have hne : (key, a) ≠ e := fun h => he (congrArg Prod.fst h)
        rw [if_neg he, or_iff_right hne, ih hes]

theorem lookup_perm {es fs : List (String × α)} (h : fs.Perm es) (hn : (es.map (·.1)).Nodup)
    (key : String) : fs.lookup key = es.lookup key := by
  apply Option.ext
  intro a
  rw [lookup_eq_some_iff_mem hn, lookup_eq_some_iff_mem ((h.map _).nodup_iff.2 hn), h.mem_iff]

theorem folded_eq_setEntries {folds : α → Except Error Bool} {good : α → Bool} {as : List α}
    (h : ∀ a ∈ as, folds a = .ok (good a)) :
    folded name folds [] as = .ok (setEntries name (as.filter good)) := by
  have hfrom : ∀ found, folded name folds found as =
      .ok ((as.filter good).foldl (fun es a => setEntry (name a) a es) found) := by
    induction as with
    | nil => exact fun _ => rfl
    | cons a as ih =>
        intro found
        obtain ⟨ha, has⟩ := List.forall_mem_cons.1 h
        rw [folded, ha]
        cases hgood : good a with
        | true =>
            rw [List.filter_cons_of_pos hgood]
            exact ih has _
        | false =>
            rw [List.filter_cons_of_neg (Bool.eq_false_iff.1 hgood)]
            exact ih has found
  exact hfrom []

end Entries

namespace Value

variable {unit : IndentUnit} {u v : Value}

theorem IsProperType.equal_inside (h : u.IsProperType) (unit : IndentUnit) (k : Key) :
    (u.key unit).equal false k = (u.key unit).equal true k := by
  cases u with
  | type t => cases t <;> cases k <;> rfl
  | _ => cases h.1

theorem IsProperType.equal_iff (h : u.IsProperType) :
    (u.key unit).equal false (v.key unit) = .ok true ↔ u = v := by
  rw [h.equal_inside]
  constructor
  · intro he
    have hu := (hereditary_equalInStep unit).ofValue u (isBasic_of_type h.1 h.2)
    exact (hu.type he h.1).symm
  · rintro rfl
    exact ((hereditary_lawful unit).ofValue u h.1 h.2).equal

theorem IsProperType.comparable (h : u.IsProperType) : (u.key unit).Comparable :=
  ((legible h.2 unit).isType h.1).key

end Value

theorem CodeBlock.isReference_iff {c : CodeBlock} {name : String} :
    c.isReference name = true ↔ c = ⟨[.argument .name], [.str name]⟩ := by
  constructor
  · intro h
    unfold isReference at h
    split at h
    · rw [of_decide_eq_true h]
    · cases h
  · rintro rfl
    exact decide_eq_true rfl

theorem PropertyDecl.isStored_iff {p : PropertyDecl} :
    p.isStored = true ↔
      p.delegated = false ∧ p.initializer = some ⟨[.argument .name], [.str p.name]⟩ := by
  rw [isStored, Bool.and_eq_true, Bool.not_eq_true', Option.any_eq_true]
  simp [CodeBlock.isReference_iff]

def Value.isEqual (unit : IndentUnit) (u v : Value) : Bool :=
  match (u.key unit).equal false (v.key unit) with
  | .ok equal => equal
  | .error _ => false

theorem Value.IsProperType.equal_eq {u : Value} (h : u.IsProperType) (unit : IndentUnit)
    (v : Value) : (u.key unit).equal false (v.key unit) = .ok (u.isEqual unit v) := by
  obtain ⟨b, hb⟩ := h.comparable false (v.key unit)
  rw [isEqual, hb]

theorem Value.IsProperType.isEqual_iff {u : Value} (h : u.IsProperType) {unit : IndentUnit}
    {v : Value} : u.isEqual unit v = true ↔ u = v := by
  rw [← h.equal_iff, h.equal_eq, Except.ok.injEq]

namespace FunDecl

variable {unit : IndentUnit} {f : FunDecl}

/-- Whether a property merely stores the first parameter of its name, which has its type. -/
def takes (unit : IndentUnit) (f : FunDecl) (p : PropertyDecl) : Bool :=
  (f.parameter? p.name).any (·.type.isEqual unit p.type) && p.isStored

theorem mem_of_parameter? {name : String} {q : Parameter} (h : f.parameter? name = some q) :
    q ∈ f.parameters :=
  List.mem_of_find?_eq_some h

theorem takes_iff (hf : ∀ q ∈ f.parameters, q.type.IsProperType) {p : PropertyDecl} :
    f.takes unit p = true ↔
      p.delegated = false ∧ (∃ q, f.parameter? p.name = some q ∧ q.type = p.type) ∧
        p.initializer = some ⟨[.argument .name], [.str p.name]⟩ := by
  have hparameter : (f.parameter? p.name).any (·.type.isEqual unit p.type) = true ↔
      ∃ q, f.parameter? p.name = some q ∧ q.type = p.type := by
    rw [Option.any_eq_true]
    constructor
    · rintro ⟨q, hq, he⟩
      exact ⟨q, hq, (hf q (mem_of_parameter? hq)).isEqual_iff.1 he⟩
    · rintro ⟨q, hq, he⟩
      exact ⟨q, hq, (hf q (mem_of_parameter? hq)).isEqual_iff.2 he⟩
  rw [takes, Bool.and_eq_true, hparameter, PropertyDecl.isStored_iff]
  exact and_left_comm

theorem lookup_parameters (name : String) :
    (f.parameters.map fun q => (q.name, q.type.key unit)).lookup name =
      (f.parameter? name).map (·.type.key unit) := by
  rw [parameter?]
  induction f.parameters with
  | nil => rfl
  | cons q qs ih =>
      rw [List.map_cons, lookup_cons_eq, List.find?_cons, ih]
      by_cases hn : name = q.name
      · simp [hn]
      · simp [hn, Ne.symm hn]

theorem foldsInto_property (hf : ∀ q ∈ f.parameters, q.type.IsProperType) (p : PropertyDecl) :
    p.foldsInto (p.type.key unit) (f.parameters.map fun q => (q.name, q.type.key unit)) =
      .ok (f.takes unit p) := by
  unfold PropertyDecl.foldsInto takes
  rw [lookup_parameters]
  cases hq : f.parameter? p.name with
  | none => rfl
  | some q =>
      show ((q.type.key unit).equal false (p.type.key unit) >>= _) = _
      rw [(hf q (mem_of_parameter? hq)).equal_eq]
      show _ = Except.ok (q.type.isEqual unit p.type && p.isStored)
      cases q.type.isEqual unit p.type <;> rfl

theorem foldsInto_value (serial s : Option Nat) (p : PropertyDecl) :
    Value.foldsInto unit (.decl serial (.function f)) (.decl s (.property p)) =
      p.foldsInto (p.type.key unit) (f.parameters.map fun q => (q.name, q.type.key unit)) := by
  unfold PropertyDecl.foldsInto Value.foldsInto
  rw [lookup_parameters]
  simp only [Value.asFunction, Value.carriedName, Value.carriedType, Value.asProperty, bind,
    Except.bind, Option.bind_some]
  cases f.parameter? p.name <;> rfl

end FunDecl

namespace Value

def ofConstructor (serial : Option Nat) (c : Option FunDecl) : Value :=
  c.elim .null fun f => .decl serial (.function f)

def ofProperty (p : Option Nat × PropertyDecl) : Value := .decl p.1 (.property p.2)

theorem foldedInto_eq (unit : IndentUnit) (serial : Option Nat) {c : Option FunDecl}
    (hc : ∀ f ∈ c, ∀ q ∈ f.parameters, q.type.IsProperType)
    (ps : List (Option Nat × PropertyDecl)) :
    (ofConstructor serial c).foldedInto unit (ps.map ofProperty) =
      .ok ((setEntries (·.2.name) (ps.filter fun p => c.any (·.takes unit p.2))).map
        (Prod.map id ofProperty)) := by
  cases c with
  | none =>
      have hnone : ps.filter (fun _ => false) = [] := List.filter_false _
      show Except.ok [] = Except.ok ((setEntries _ (ps.filter fun _ => false)).map _)
      rw [hnone]
      rfl
  | some f =>
      have hfolds : ∀ p ∈ ps, Value.foldsInto unit (.decl serial (.function f)) (ofProperty p) =
          .ok (f.takes unit p.2) := by
        intro p _
        rw [ofProperty, FunDecl.foldsInto_value]
        exact FunDecl.foldsInto_property (hc f rfl) p.2
      have hfolded : folded (fun p : Option Nat × PropertyDecl => p.2.name) _ [] ps = _ :=
        folded_eq_setEntries hfolds
      have hmap := folded_map ofProperty (·.name?.getD "")
        (Value.foldsInto unit (.decl serial (.function f))) [] ps
      exact hmap.trans (congrArg (Except.map _) hfolded)

end Value

namespace TypePieces

theorem constructorParameter_congr {fs gs : List (String × PropertyPieces)}
    (h : ∀ key, gs.lookup key = fs.lookup key) :
    constructorParameter gs = constructorParameter fs := by
  funext p
  rw [constructorParameter, constructorParameter, h]

theorem header_congr (d : TypePieces) {fs gs : List (String × PropertyPieces)}
    (h : ∀ key, gs.lookup key = fs.lookup key) (label : Option Layout) :
    d.header label gs = d.header label fs := by
  have hprimary : primaryLayout gs = primaryLayout fs := by
    funext f
    rw [primaryLayout, primaryLayout, constructorParameter_congr h]
  have hnamed : d.namedHeader gs = d.namedHeader fs := by
    rw [namedHeader, namedHeader, hprimary]
  unfold header
  cases label with
  | some l => rfl
  | none =>
      cases d.anonymous with
      | some v => rfl
      | none => exact hnamed

end TypePieces

namespace TypeDecl

variable {unit : IndentUnit} {d : TypeDecl}

theorem constructorParameters_pieces :
    (d.pieces unit).constructorParameters =
      d.primaryConstructor.elim [] fun f =>
        f.parameters.map fun q => (q.name, q.type.key unit) := by
  unfold TypePieces.constructorParameters
  rw [primaryConstructor_pieces]
  cases d.primaryConstructor with
  | none => rfl
  | some f =>
      show (f.pieces unit).parameters.map _ = _
      rw [FunDecl.parameters_pieces, List.map_map]
      apply List.map_congr_left
      intro q _
      cases q
      rfl

theorem foldedProperties_eq
    (hc : ∀ f ∈ d.primaryConstructor, ∀ q ∈ f.parameters, q.type.IsProperType) :
    d.foldedProperties unit =
      .ok (setEntries (·.name)
        (d.properties.filter fun p => d.primaryConstructor.any (·.takes unit p))) := by
  apply folded_eq_setEntries
  intro p _
  have htype : (p.pieces unit).type.key = p.type.key unit := by cases p; rfl
  rw [htype, constructorParameters_pieces]
  cases hf : d.primaryConstructor with
  | none => rfl
  | some f => exact FunDecl.foldsInto_property (hc f hf) p

theorem header_permuted (ps : List PropertyDecl) (label : Option Layout)
    (fs : List (String × PropertyPieces)) :
    (({ d with properties := ps } : TypeDecl).pieces unit).header label fs =
      (d.pieces unit).header label fs := by
  cases d
  rfl

theorem layout_eq_header {fs : List (String × PropertyPieces)}
    (hfs : (d.pieces unit).folded = .ok fs) (label : Option Layout) :
    ∃ rest, (d.pieces unit).layout label =
      .declaration ((d.pieces unit).header label fs ++ rest) := by
  rw [TypePieces.layout, hfs]
  exact ⟨_, congrArg Layout.declaration (TypePieces.foldedLayout_eq _ label fs)⟩

/-- Without repeated names, the order of the properties makes no difference to what folds, nor to
what stands in front of the body. -/
theorem header_of_perm (hc : ∀ f ∈ d.primaryConstructor, ∀ q ∈ f.parameters, q.type.IsProperType)
    {ps : List PropertyDecl} (hps : ps.Perm d.properties)
    (hn : (d.properties.map (·.name)).Nodup) :
    let e : TypeDecl := { d with properties := ps }
    ∃ fs gs, (d.pieces unit).folded = .ok fs ∧ (e.pieces unit).folded = .ok gs ∧ gs.Perm fs ∧
      ∀ label, ∃ rest rest',
        (d.pieces unit).layout label =
          .declaration ((d.pieces unit).header label fs ++ rest) ∧
        (e.pieces unit).layout label =
          .declaration ((d.pieces unit).header label fs ++ rest') := by
  intro e
  let good : PropertyDecl → Bool := fun p => d.primaryConstructor.any (·.takes unit p)
  have hfs : (d.pieces unit).folded = _ := folded_pieces
  have hgs : (e.pieces unit).folded = _ := folded_pieces
  rw [foldedProperties_eq hc] at hfs
  rw [foldedProperties_eq (d := e) hc] at hgs
  have hnames : ((d.properties.filter good).map (·.name)).Nodup :=
    hn.sublist (List.filter_sublist.map _)
  have hperm := (setEntries_perm (hps.filter good) hnames).map
    (Prod.map id (PropertyDecl.pieces unit))
  have hkeys : (((setEntries (·.name) (d.properties.filter good)).map
      (Prod.map id (PropertyDecl.pieces unit))).map (·.1)).Nodup := by
    rw [List.map_map]
    exact nodup_keys_setEntries hnames
  refine ⟨_, _, hfs, hgs, hperm, fun label => ?_⟩
  obtain ⟨rest, hrest⟩ := layout_eq_header hfs label
  obtain ⟨rest', hrest'⟩ := layout_eq_header hgs label
  refine ⟨rest, rest', hrest, hrest'.trans ?_⟩
  have hheader := (e.pieces unit).header_congr (lookup_perm hperm hkeys) label
  exact congrArg (fun h => Layout.declaration (h ++ rest'))
    (hheader.trans (header_permuted ps label _))

end TypeDecl

/-- Whatever the order and however often a name comes, the properties that fold are those which
merely store the first parameter of their name: each such name is found in the place of the first
of them, with the last. Without repeated names, another order of the properties gives the same
entries in another order, and the same text in front of the body of a declaration. -/
theorem Value.foldedInto_exact (unit : IndentUnit) (serial : Option Nat) (c : Option FunDecl)
    (hc : ∀ f ∈ c, ∀ q ∈ f.parameters, q.type.IsProperType) :
    let good : PropertyDecl → Bool := fun p => c.any (·.takes unit p)
    let found (ps : List (Option Nat × PropertyDecl)) :=
      (ofConstructor serial c).foldedInto unit (ps.map ofProperty)
    (∀ p, good p = true ↔
      p.delegated = false ∧
        (∃ f ∈ c, ∃ q, f.parameter? p.name = some q ∧ q.type = p.type) ∧
        p.initializer = some ⟨[.argument .name], [.str p.name]⟩) ∧
    (∀ ps, ∃ fs, found ps = .ok fs ∧
      fs.map (·.1) = ((ps.filter (good ·.2)).map (·.2.name)).eraseDups ∧
      (∀ key, fs.lookup key =
        ((ps.filter (good ·.2)).reverse.find? (·.2.name = key)).map ofProperty) ∧
      (c = none → fs = []) ∧
      ∀ ps' : List (Option Nat × PropertyDecl), ps'.Perm ps → (ps.map (·.2.name)).Nodup →
        ∃ fs', found ps' = .ok fs' ∧ fs'.Perm fs) ∧
    ∀ (d : TypeDecl) (ps : List PropertyDecl), d.primaryConstructor = c →
      ps.Perm d.properties → (d.properties.map (·.name)).Nodup →
      let e : TypeDecl := { d with properties := ps }
      ∃ fs gs, (d.pieces unit).folded = .ok fs ∧ (e.pieces unit).folded = .ok gs ∧ gs.Perm fs ∧
        ∀ label, ∃ rest rest',
          (d.pieces unit).layout label =
            .declaration ((d.pieces unit).header label fs ++ rest) ∧
          (e.pieces unit).layout label =
            .declaration ((d.pieces unit).header label fs ++ rest') := by
  intro good found
  refine ⟨fun p => ?_, fun ps => ?_, ?_⟩
  · cases c with
    | none => simp [good]
    | some f => simpa [good] using FunDecl.takes_iff (hc f rfl)
  · have hfs := foldedInto_eq unit serial hc ps
    refine ⟨_, hfs, ?_, fun key => ?_, ?_, fun ps' hps hn => ?_⟩
    · rw [List.map_map]
      exact keys_setEntries _
    · rw [lookup_map, lookup_setEntries]
    · rintro rfl
      exact Except.ok.inj hfs.symm
    · have hnames : ((ps.filter (good ·.2)).map (·.2.name)).Nodup :=
        hn.sublist (List.filter_sublist.map _)
      exact ⟨_, foldedInto_eq unit serial hc ps', (setEntries_perm (hps.filter _) hnames).map _⟩
  · rintro d ps rfl hps hn
    exact TypeDecl.header_of_perm hc hps hn

/-- The second parameter `x` does not count, and of the properties `y` the last does, in the place
of the first. -/
theorem Value.foldedInto_exact_repeated :
    let int : Value := .type (.named (some "kotlin") ["Int"] false)
    let string : Value := .type (.named (some "kotlin") ["String"] false)
    let f := { FunDecl.plain FunDecl.constructorName with
      parameters := [.plain "x" int, .plain "x" string, .plain "y" int] }
    let stored (name : String) (type : Value) : PropertyDecl :=
      { PropertyDecl.plain name type with initializer := some ⟨[.argument .name], [.str name]⟩ }
    let last : PropertyDecl := { stored "y" int with mutable := .bool true }
    let ps := [stored "y" int, stored "x" string, stored "x" int, last].map ((none : Option Nat), ·)
    let d := { TypeDecl.plain (.kind .classKind) (some "A") none with
      primaryConstructor := some f
      properties := [stored "x" int, stored "y" int] }
    (∃ fs, (ofConstructor none (some f)).foldedInto (.ok "  ") (ps.map ofProperty) = .ok fs ∧
      fs.map (·.1) = ["y", "x"] ∧
      fs.lookup "y" = some (ofProperty (none, last))) ∧
    ∃ fs rest rest', (d.pieces (.ok "  ")).folded = .ok fs ∧
      (d.pieces (.ok "  ")).layout none =
        .declaration ((d.pieces (.ok "  ")).header none fs ++ rest) ∧
      (({ d with properties := d.properties.reverse } : TypeDecl).pieces (.ok "  ")).layout none =
        .declaration ((d.pieces (.ok "  ")).header none fs ++ rest') := by
  intro int string f stored last ps d
  have hf : ∀ g ∈ some f, ∀ q ∈ g.parameters, q.type.IsProperType := by
    intro g hg q hq
    rw [← Option.some.inj hg] at hq
    simp only [f, List.mem_cons, List.not_mem_nil, or_false] at hq
    rcases hq with rfl | rfl | rfl <;> exact ⟨rfl, rfl⟩
  obtain ⟨_, hfound, hheader⟩ := foldedInto_exact (.ok "  ") none (some f) hf
  constructor
  · obtain ⟨fs, hfs, hkeys, hlookup, _⟩ := hfound ps
    exact ⟨fs, hfs, hkeys, hlookup "y"⟩
  · obtain ⟨fs, _, hfs, _, _, hlayout⟩ := hheader d d.properties.reverse rfl
      (List.reverse_perm _) (by decide)
    obtain ⟨rest, rest', hrest, hrest'⟩ := hlayout none
    exact ⟨fs, rest, rest', hfs, hrest, hrest'⟩

end KotlinDecl
