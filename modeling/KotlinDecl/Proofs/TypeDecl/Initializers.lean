import KotlinDecl.Proofs.TypeDecl.Functions

namespace KotlinDecl

open Layout (text empty block)

theorem Layout.shows_members {ms : List (Except Error Layout)} {d : Layout} (hd : .ok d ∈ ms)
    {first : Bool} {w : Writer} (h : ((members first ms).run w).error = none) :
    ((members first ms).run w).Shows d := by
  induction ms generalizing first w with
  | nil => cases hd
  | cons m ms ih =>
      cases m with
      | error e => cases h
      | ok c =>
          obtain ⟨hc, hms⟩ := Written.error_of_andThen h
          rcases List.mem_cons.1 hd with hd | hd
          · cases hd
            obtain ⟨hsep, hc'⟩ := Written.error_of_andThen hc
            exact shows_left hc (shows_right hsep (shows_self hc'))
          · exact shows_right hc (ih hd hms)

namespace TypePieces

def membersAhead (d : TypePieces) (names : List String) : List Layout :=
  constantMembers (d.decl.hasMembersAfterConstants names) d.constants ++
    (d.properties.filter fun p => !names.contains p.decl.name).map fun p =>
      .orFail (d.decl.propertyModifiers.map fun ms => p.memberLayout (.ofModifiers ms))

def initializers (d : TypePieces) : List Layout :=
  ((d.primaryConstructor.toList.filter (!·.decl.body.isEmpty)).map fun f =>
      text "init" ++ block f.body) ++
    if d.decl.initializer.isEmpty then [] else [d.initializer]

def membersAfter (d : TypePieces) : List (Except Error Layout) :=
  constructorMembers d.decl.functionModifiers d.functions ++
    (functionMembers d.decl.functionModifiers d.functions).map .ok ++ d.membersBehind.map .ok

theorem memberList_split (d : TypePieces) (names : List String) :
    d.memberList names =
      (d.membersAhead names ++ d.initializers).map .ok ++ d.membersAfter := by
  rw [memberList_around, membersAhead, initializers, membersAfter, membersBefore]
  simp only [List.append_assoc]

/-- The declaration with `inits` in the place of initializer code. -/
def layoutAround (d : TypePieces) (label : Option Layout) (fs : List (String × PropertyPieces))
    (inits : List Layout) : Layout :=
  let names := fs.map (·.1)
  .declaration (d.header label fs ++
    if d.decl.hasNoBody names then d.bodiless label
    else text " \x7b\n" ++
      .body (.decl none (.typeDecl d.decl))
        (.members true ((d.membersAhead names ++ inits).map .ok ++ d.membersAfter)) ++
      text "\x7d" ++ d.closing label)

theorem layout_eq_layoutAround {d : TypePieces} {fs : List (String × PropertyPieces)}
    (h : d.folded = .ok fs) (label : Option Layout) :
    d.layout label = d.layoutAround label fs d.initializers := by
  rw [layout, h, layoutAround, ← memberList_split]
  exact congrArg Layout.declaration (foldedLayout_eq d label fs)

theorem layoutAround_of_bodiless {d : TypePieces} {fs : List (String × PropertyPieces)}
    (h : d.decl.hasNoBody (fs.map (·.1)) = true) (label : Option Layout)
    (inits inits' : List Layout) :
    d.layoutAround label fs inits = d.layoutAround label fs inits' := by
  simp only [layoutAround, if_pos h]

theorem shows_layoutAround {d : TypePieces} {fs : List (String × PropertyPieces)}
    (hbody : d.decl.hasNoBody (fs.map (·.1)) = false) {label : Option Layout}
    {inits : List Layout} {c : Layout} (hc : c ∈ inits) {w : Writer}
    (h : ((d.layoutAround label fs inits).run w).error = none) :
    ((d.layoutAround label fs inits).run w).Shows c := by
  have hmem : .ok c ∈ (d.membersAhead (fs.map (·.1)) ++ inits).map .ok ++ d.membersAfter := by
    simp [hc]
  simp only [layoutAround, hbody, Bool.false_eq_true, if_false] at h ⊢
  obtain ⟨hheader, hrest⟩ := Written.error_of_andThen h
  obtain ⟨hclosed, _⟩ := Written.error_of_andThen hrest
  obtain ⟨hmembers, _⟩ := Written.error_of_andThen hclosed
  obtain ⟨hopen, hbody⟩ := Written.error_of_andThen hmembers
  have hshown := Layout.shows_members hmem hbody
  exact Layout.shows_right hheader (Layout.shows_left hclosed (Layout.shows_left hmembers
    (Layout.shows_right hopen hshown)))

end TypePieces

namespace TypeDecl

variable {unit : IndentUnit} {e : TypeDecl}

def constructorCode (e : TypeDecl) : List CodeBlock :=
  (e.primaryConstructor.toList.filter (!·.body.isEmpty)).map (·.body)

theorem constructorCode_eq_nil_iff : e.constructorCode = [] ↔ e.hasConstructorBody = false := by
  rw [hasConstructorBody_eq_false, constructorCode, List.map_eq_nil_iff]
  simp

def initBlock (unit : IndentUnit) (c : CodeBlock) : Layout := text "init" ++ block (c.layout unit)

theorem initializers_pieces (h : e.initializer.isEmpty = true) :
    (e.pieces unit).initializers = e.constructorCode.map (initBlock unit) := by
  rw [TypePieces.initializers, decl_pieces, if_pos h, primaryConstructor_pieces, constructorCode]
  cases e.primaryConstructor with
  | none => rfl
  | some f => by_cases hf : f.body.isEmpty = true <;> simp [hf, initBlock]

/-- An expected declaration has no free initializer code. What is written for initializer code is
the body of the primary constructor, and it is left out only if it is empty or if there are no
members at all. -/
theorem expected_initializers (he : e.Built unit) (hexpected : e.isExpected = true)
    {label : Option Layout} {w : Writer}
    (hok : (((e.pieces unit).layout label).run w).error = none) :
    let inits := if e.isKind .annotationKind then [] else e.constructorCode
    e.initializer.isEmpty = true ∧
      (∃ fs, (e.pieces unit).folded = .ok fs ∧ (e.pieces unit).layout label =
        (e.pieces unit).layoutAround label fs (inits.map (initBlock unit))) ∧
      (∀ c ∈ inits, (((e.pieces unit).layout label).run w).Shows (initBlock unit c)) ∧
      (inits = [] ↔ e.isKind .annotationKind = true ∨ e.hasConstructorBody = false) := by
  intro inits
  obtain ⟨fs, hfs⟩ := folded_of_ok hok
  have hempty : e.initializer.isEmpty = true := by
    obtain ⟨d, hd, hb⟩ := he
    exact (consistent_of_build hd hb).expectedInitializer hexpected
  have hlayout := TypePieces.layout_eq_layoutAround hfs label
  rw [initializers_pieces hempty] at hlayout
  refine ⟨hempty, ?_⟩
  cases hk : e.isKind .annotationKind with
  | true =>
      have hinits : inits = [] := if_pos hk
      have hbody : (e.pieces unit).decl.hasNoBody (fs.map (·.1)) = true := by
        simp [hasNoBody, hk]
      rw [TypePieces.layoutAround_of_bodiless hbody label _ []] at hlayout
      rw [hinits]
      exact ⟨⟨fs, hfs, hlayout⟩, List.forall_mem_nil _, by simp⟩
  | false =>
      have hinits : inits = e.constructorCode := if_neg (by simp [hk])
      rw [hinits]
      refine ⟨⟨fs, hfs, hlayout⟩, fun c hc => ?_, by simp [constructorCode_eq_nil_iff]⟩
      have hcode : e.hasConstructorBody = true := by
        rw [← Bool.not_eq_false, ← constructorCode_eq_nil_iff]
        exact List.ne_nil_of_mem hc
      have hbody : (e.pieces unit).decl.hasNoBody (fs.map (·.1)) = false := by
        simp [hasNoBody, hk, hcode]
      rw [hlayout] at hok ⊢
      exact TypePieces.shows_layoutAround hbody (List.mem_map_of_mem hc) hok

/-- The constructor and its body come before `expect` is set. -/
theorem expected_initializers_late :
    let body : CodeBlock := ⟨[.text "x()\n"], []⟩
    let init : FunDecl := { FunDecl.plain FunDecl.constructorName with body := body }
    let e := { plain (.kind .enumKind) (some "A") none with
      modifiers := ⟨[.expect]⟩
      primaryConstructor := some init
      constants := [⟨"B", emptyConstant⟩] }
    let ps := e.pieces (.ok "  ")
    let r := (ps.layout none).run (.fresh "  ")
    e.Built (.ok "  ") ∧ e.isExpected = true ∧ r.error = none ∧
      ps.layout none = ps.layoutAround none [] [initBlock (.ok "  ") body] ∧
      r.Shows (initBlock (.ok "  ") body) := by
  intro body init e ps r
  have hs : Draft.Reached (.ok "  ") (fun _ => True)
      (.typeDecl (plain (.kind .enumKind) (some "A") none)) :=
    .start (x := .named .enumKind (.str "A")) trivial rfl
  have he : e.Built (.ok "  ") :=
    ⟨e, hs.calls [.typeDecl (.primaryConstructor (.decl none (.function init))),
      .typeDecl (.addConstant (.str "B") .null),
      .typeDecl (.addModifiers [.modifier .expect])] (by simp), rfl⟩
  have hok : r.error = none := by decide
  obtain ⟨_, ⟨fs, hfs, hlayout⟩, hshown, _⟩ := expected_initializers he rfl hok
  cases hfs
  exact ⟨he, rfl, hok, hlayout, hshown body List.mem_cons_self⟩

/-- The body of the constructor of an expected class is written as an `init` block. -/
theorem expected_constructor_body :
    let body : CodeBlock := ⟨[.openStatement, .text "x()", .text "\n", .closeStatement], []⟩
    let init : FunDecl := { FunDecl.plain FunDecl.constructorName with body := body }
    let d := { plain (.kind .classKind) (some "A") none with modifiers := ⟨[.expect]⟩ }
    let e := { d with primaryConstructor := some init }
    startExpected (.ok "  ") (.str "A") = .ok d ∧
      (Call.primaryConstructor (.decl none (.function init))).apply (.ok "  ") d = .ok () e ∧
      e.build (.ok "  ") = .ok e ∧
      (((e.pieces (.ok "  ")).layout none).run (.fresh "  ")).text =
        "expect class A() \x7b\n  init \x7b\n    x()\n  \x7d\n\x7d\n".toList := by
  exact ⟨rfl, rfl, rfl, by decide⟩

end TypeDecl

end KotlinDecl
