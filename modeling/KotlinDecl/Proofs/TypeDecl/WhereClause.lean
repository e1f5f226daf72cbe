import KotlinDecl.Proofs.TypeDecl.Supertypes

namespace KotlinDecl

open Layout (text empty ofOption annotated modifiers block)

namespace Layout

theorem text_append_eq_nil {a b : Layout} {w : Writer} (h : (a.run w).error = none) :
    ((a ++ b).run w).text = [] ↔ (a.run w).text = [] ∧ (b.run (a.run w).writer).text = [] := by
  rw [text_run_append h, List.append_eq_nil_iff]

theorem text_line_ne_nil {s : String} {c : Char} {cs : List Char} (hs : s.toList = c :: cs)
    (h : '\n' ∉ c :: cs) (w : Writer) : ((text s).run w).text ≠ [] := by
  rw [run_line hs h]
  exact List.append_ne_nil_of_right_ne_nil _ (List.cons_ne_nil _ _)

theorem parenthesized_ne_nil {ds : List Layout} {w : Writer}
    (h : ((parenthesized ds).run w).error = none) : ((parenthesized ds).run w).text ≠ [] := by
  obtain ⟨hfront, _⟩ := Written.error_of_andThen h
  intro hnil
  exact text_line_ne_nil rfl (by decide) _ ((text_append_eq_nil hfront).1 hnil).2

end Layout

namespace Value

variable {unit : IndentUnit} {v : Value} {vs bs : List Value}

theorem readable_of_whereEntries {first : Bool} {name : String} {w : Writer}
    (h : ((Layout.whereEntries first name (bs.map fun b => (b.forms unit).toMention)).run w).error =
      none) : ∀ b ∈ bs, b.Readable unit := by
  induction bs generalizing first w with
  | nil => exact List.forall_mem_nil _
  | cons b bs ih =>
      obtain ⟨hentry, hrest⟩ := Written.error_of_andThen h
      obtain ⟨_, hbound⟩ := Written.error_of_andThen hentry
      exact List.forall_mem_cons.2 ⟨readable_of_between hbound, ih hrest⟩

/-- Only what is a type variable gets past the clause, and only with bounds that have a text. -/
theorem writable_of_whereClause {first : Bool} {w : Writer}
    (h : ((Layout.whereClause first (vs.map (·.forms unit))).run w).error = none) :
    ∀ v ∈ vs, v.Writable unit .clause := by
  induction vs generalizing first w with
  | nil => exact List.forall_mem_nil _
  | cons v vs ih =>
      rw [List.map_cons, Layout.whereClause, value_forms] at h
      split at h
      · next name bounds variance reified nullable =>
          let v := Value.type (.typeVar name bounds variance reified nullable)
          rw [bounds_forms, List.length_map] at h
          split at h
          · next hlen =>
              have hfew : ¬2 ≤ v.bounds.length := Nat.not_le.2 hlen
              refine List.forall_mem_cons.2 ⟨⟨rfl, ?_⟩, ih h⟩
              rw [boundsAt_clause_of_few hfew]
              exact List.forall_mem_nil _
          · next hlen =>
              have hseveral : 2 ≤ v.bounds.length := Nat.not_lt.1 hlen
              obtain ⟨hentries, hrest⟩ := Written.error_of_andThen h
              refine List.forall_mem_cons.2 ⟨⟨rfl, ?_⟩, ih hrest⟩
              rw [boundsAt_of_several hseveral]
              exact readable_of_whereEntries hentries
      · cases h

theorem run_whereClause_of_ok {w : Writer}
    (h : ((Layout.whereClause true (vs.map (·.forms unit))).run w).error = none) :
    (Layout.whereClause true (vs.map (·.forms unit))).run =
      (Layout.text (clauseText unit vs)).run :=
  run_whereClause (writable_of_whereClause h) true

end Value

namespace FunPieces

def front (f : FunPieces) (implied : List Modifier) : Layout :=
  f.kdoc ++ annotated (.flag false) f.annotations ++ modifiers f.decl.modifiers implied ++
    (text "fun " ++
      Layout.when (!f.typeVariables.isEmpty) (Layout.typeVariables f.typeVariables ++ text " ") ++
      ofOption (f.receiver.map (·.between "%T." "" ".")) ++
      text f.decl.name ++ f.parameterList true ++ f.returnType)

def ending (f : FunPieces) (implied : List Modifier) : Layout :=
  if f.omitsBody implied then text "\n" else block f.body

theorem run_layout_of_ordinary {f : FunPieces} (hc : f.decl.isConstructor = false)
    (ha : f.decl.isAccessor = false) (implied : List Modifier) :
    (f.layout implied).run =
      (f.front implied ++ Layout.whereClause true f.typeVariables ++ f.ending implied).run := by
  have hsignature : f.signature = f.functionSignature := by simp [signature, hc, ha]
  rw [layout, hsignature]
  refine Layout.run_append_congr ?_ rfl
  exact (Layout.run_append_assoc _ _ _).symm

end FunPieces

namespace TypePieces

def heading (d : TypePieces) : Layout :=
  d.kdoc ++ annotated (.flag false) d.annotations ++ modifiers d.decl.modifiers [.publicVis] ++
    Layout.orFail (do return text (← d.decl.knownKind).keyword) ++
    ofOption (d.decl.name.map fun n => text " " ++ text n) ++ Layout.typeVariables d.typeVariables

def afterClause (d : TypePieces) (fs : List (String × PropertyPieces)) : Layout :=
  ofOption (d.primaryConstructor.map (primaryLayout fs)) ++ d.supertypes

theorem run_front (d : TypePieces) (fs : List (String × PropertyPieces)) :
    (d.front fs ++ d.supertypes).run =
      (d.heading ++ Layout.whereClause true d.typeVariables ++ d.afterClause fs).run :=
  Layout.run_append_assoc _ _ _

theorem primaryLayout_ne_nil {fs : List (String × PropertyPieces)} {f : FunPieces} {w : Writer}
    (h : ((primaryLayout fs f).run w).error = none) : ((primaryLayout fs f).run w).text ≠ [] := by
  obtain ⟨hkeyword, hparameters⟩ := Written.error_of_andThen h
  intro hnil
  exact Layout.parenthesized_ne_nil hparameters ((Layout.text_append_eq_nil hkeyword).1 hnil).2

theorem superinterfacePieces_eq_nil {ss : List (Forms × Option CodePieces)} {is : List CodePieces}
    (h : superinterfacePieces ss = .ok is) : is = [] ↔ ss = [] := by
  match ss with
  | [] =>
      cases h
      exact iff_of_true rfl rfl
  | (f, none) :: ss | (f, some c) :: ss =>
      obtain ⟨_, _, h⟩ := ok_of_bind h
      obtain ⟨_, _, h⟩ := ok_of_bind h
      cases h
      simp

theorem superclassPieces_eq_nil {d : TypePieces} {cs : List CodePieces}
    (h : d.superclassPieces = .ok cs) : cs = [] ↔ d.hasSuperclass = false := by
  rw [superclassPieces] at h
  split at h
  · next hsuper =>
      obtain ⟨secondary, _, h⟩ := ok_of_bind h
      split at h <;> obtain ⟨_, _, h⟩ := ok_of_bind h <;> cases h <;> simp [hsuper]
  · next hsuper =>
      cases h
      simpa using hsuper

theorem supertypes_eq_nil {d : TypePieces} {w : Writer} (h : (d.supertypes.run w).error = none) :
    (d.supertypes.run w).text = [] ↔ d.hasSuperclass = false ∧ d.superinterfaces = [] := by
  obtain ⟨cs, is, hcs, his, hsupertypes⟩ := supertypes_of_ok h
  rw [← superclassPieces_eq_nil hcs, ← superinterfacePieces_eq_nil his, ← List.append_eq_nil_iff,
    hsupertypes]
  by_cases hnone : cs ++ is = []
  · simp only [hnone, List.isEmpty_nil, if_true, iff_true]
    rfl
  · have hcolon := Layout.text_append_eq_nil (a := text " : ")
      (b := (CodePieces.joined (.fixed [.text ",", .wrap]) (cs ++ is)).layout) (w := w) rfl
    rw [if_neg (by simpa using hnone), hcolon]
    simp only [hnone, iff_false, not_and]
    exact fun hnil => absurd hnil (Layout.text_line_ne_nil rfl (by decide) w)

theorem afterClause_eq_nil {d : TypePieces} {fs : List (String × PropertyPieces)} {w : Writer}
    (h : ((d.afterClause fs).run w).error = none) :
    ((d.afterClause fs).run w).text = [] ↔
      d.primaryConstructor = none ∧ d.hasSuperclass = false ∧ d.superinterfaces = [] := by
  obtain ⟨hprimary, hsupertypes⟩ := Written.error_of_andThen h
  rw [afterClause, Layout.text_append_eq_nil hprimary, supertypes_eq_nil hsupertypes]
  refine and_congr_left fun _ => ?_
  cases hf : d.primaryConstructor with
  | none => exact iff_of_true rfl rfl
  | some f =>
      rw [hf] at hprimary
      exact iff_of_false (primaryLayout_ne_nil hprimary) (Option.some_ne_none f)

end TypePieces

namespace TypeDecl

variable {unit : IndentUnit} {e : TypeDecl}

theorem typeVariables_pieces :
    (e.pieces unit).typeVariables = e.typeVariables.map (·.forms unit) := by
  cases e
  exact Value.formsAll_eq _ _

theorem afterClause_pieces_eq_nil {fs : List (String × PropertyPieces)} {w : Writer}
    (h : (((e.pieces unit).afterClause fs).run w).error = none) :
    (((e.pieces unit).afterClause fs).run w).text = [] ↔
      e.primaryConstructor = none ∧ e.superclass = .type .anyType ∧ e.superinterfaces = [] := by
  have hany : (e.pieces unit).hasSuperclass = false ↔ e.superclass = .type .anyType := by
    rw [TypePieces.hasSuperclass, decl_pieces, Bool.not_eq_false']
    exact Value.isNamed_iff
  rw [TypePieces.afterClause_eq_nil h, hany, primaryConstructor_pieces, superinterfaces_pieces,
    Option.map_eq_none_iff, List.map_eq_nil_iff]

theorem run_layout_of_clause (hnamed : e.isAnonymous = false) {w : Writer}
    (hok : (((e.pieces unit).layout none).run w).error = none) :
    ∃ fs, (e.pieces unit).folded = .ok fs ∧
      ((e.pieces unit).layout none).run = (Layout.declaration ((e.pieces unit).heading ++
        text (Value.clauseText unit e.typeVariables) ++ (e.pieces unit).afterClause fs ++
        (e.pieces unit).ending fs)).run := by
  obtain ⟨fs, hfs⟩ := folded_of_ok hok
  refine ⟨fs, hfs, ?_⟩
  have hlayout := TypePieces.layout_of_named hfs (anonymous_pieces hnamed)
  rw [hlayout] at hok ⊢
  obtain ⟨hheader, _⟩ := Written.error_of_andThen hok
  rw [TypePieces.run_front] at hheader
  obtain ⟨hclause, _⟩ := Written.error_of_andThen hheader
  obtain ⟨_, hclause⟩ := Written.error_of_andThen hclause
  rw [typeVariables_pieces] at hclause
  have hrun := Value.run_whereClause_of_ok hclause
  rw [← typeVariables_pieces] at hrun
  refine Layout.run_declaration_congr (Layout.run_append_congr ?_ rfl)
  rw [TypePieces.run_front]
  exact Layout.run_append_congr (Layout.run_append_congr rfl hrun) rfl

end TypeDecl

theorem FunDecl.run_layout_of_clause {unit : IndentUnit} {f : FunDecl}
    (hc : f.isConstructor = false) (ha : f.isAccessor = false) {implied : List Modifier}
    {w : Writer} (hok : (((f.pieces unit).layout implied).run w).error = none) :
    ((f.pieces unit).layout implied).run = ((f.pieces unit).front implied ++
      text (Value.clauseText unit f.typeVariables) ++ (f.pieces unit).ending implied).run := by
  have hlayout := FunPieces.run_layout_of_ordinary (f := f.pieces unit) (by rwa [decl_pieces])
    (by rwa [decl_pieces]) implied
  rw [hlayout] at hok ⊢
  obtain ⟨hsignature, _⟩ := Written.error_of_andThen hok
  obtain ⟨_, hclause⟩ := Written.error_of_andThen hsignature
  rw [typeVariables_pieces] at hclause ⊢
  have hrun := Value.run_whereClause_of_ok hclause
  exact Layout.run_append_congr (Layout.run_append_congr rfl hrun) rfl

namespace TypeDecl

/-- In a declaration the clause stands in front of the primary constructor and the supertypes, so it
ends the header just if there are none. In a function it ends the signature. -/
theorem where_clause_place (unit : IndentUnit) :
    (∀ (e : TypeDecl) (w : Writer), e.isAnonymous = false →
      (∃ v ∈ e.typeVariables, 2 ≤ v.bounds.length) →
      (((e.pieces unit).layout none).run w).error = none →
      Value.clauseText unit e.typeVariables ≠ "" ∧ ∃ fs, (e.pieces unit).folded = .ok fs ∧
        ((e.pieces unit).layout none).run = (Layout.declaration ((e.pieces unit).heading ++
          text (Value.clauseText unit e.typeVariables) ++ (e.pieces unit).afterClause fs ++
          (e.pieces unit).ending fs)).run ∧
        ∀ w', (((e.pieces unit).afterClause fs).run w').error = none →
          ((((e.pieces unit).afterClause fs).run w').text = [] ↔
            e.primaryConstructor = none ∧ e.superclass = .type .anyType ∧
              e.superinterfaces = [])) ∧
    ∀ (f : FunDecl) (implied : List Modifier) (w : Writer), f.isConstructor = false →
      f.isAccessor = false → (∃ v ∈ f.typeVariables, 2 ≤ v.bounds.length) →
      (((f.pieces unit).layout implied).run w).error = none →
      Value.clauseText unit f.typeVariables ≠ "" ∧
        ((f.pieces unit).layout implied).run = ((f.pieces unit).front implied ++
          text (Value.clauseText unit f.typeVariables) ++ (f.pieces unit).ending implied).run := by
  refine ⟨fun e w hnamed hbounds hok => ?_, fun f implied w hc ha hbounds hok => ?_⟩
  · obtain ⟨fs, hfs, hrun⟩ := run_layout_of_clause hnamed hok
    exact ⟨Value.clauseText_ne_empty.2 hbounds, fs, hfs, hrun,
      fun _ hafter => afterClause_pieces_eq_nil hafter⟩
  · exact ⟨Value.clauseText_ne_empty.2 hbounds, FunDecl.run_layout_of_clause hc ha hok⟩

/-- A declaration whose header goes on behind the clause, and a function. -/
theorem where_clause_place_bounded :
    let unit : IndentUnit := .ok "  "
    let v : Value := .type (.typeVar "T" [.type (.named none ["X"] false),
      .type (.named none ["Y"] false)] none false false)
    let e := { plain (.kind .classKind) (some "A") none with
      typeVariables := [v]
      superinterfaces := [⟨.type (.named none ["I"] false), none⟩] }
    let f := { FunDecl.plain "f" with
      typeVariables := [v]
      returns := some v }
    let ps := e.pieces unit
    let qs := f.pieces unit
    e.Built unit ∧ ((ps.layout none).run (.fresh "  ")).error = none ∧
      (ps.layout none).run = (Layout.declaration (ps.heading ++ text " where T : X, T : Y" ++
        ps.afterClause [] ++ ps.ending [])).run ∧
      ((ps.afterClause []).run (.fresh "  ")).text ≠ [] ∧
      (qs.whole.run (.fresh "  ")).error = none ∧
      qs.whole.run =
        (qs.front [.publicVis] ++ text " where T : X, T : Y" ++ qs.ending [.publicVis]).run := by
  intro unit v e f ps qs
  have hs : Draft.Reached unit (fun _ => True)
      (.typeDecl (plain (.kind .classKind) (some "A") none)) :=
    .start (x := .named .classKind (.str "A")) trivial rfl
  have he : e.Built unit := ⟨e, hs.calls [.typeDecl (.addTypeVariable v),
    .typeDecl (.addSuperinterface (.type (.named none ["I"] false)) .null)] (by simp), rfl⟩
  have hv : ∃ u ∈ [v], 2 ≤ u.bounds.length := ⟨v, List.mem_singleton_self v, Nat.le_refl 2⟩
  have hok : ((ps.layout none).run (.fresh "  ")).error = none := by decide
  have hfok : (qs.whole.run (.fresh "  ")).error = none := by decide +kernel
  obtain ⟨_, fs, hfs, hrun, hafter⟩ := (where_clause_place unit).1 e (.fresh "  ") rfl hv hok
  obtain ⟨_, hfrun⟩ :=
    (where_clause_place unit).2 f [.publicVis] (.fresh "  ") rfl rfl hv hfok
  cases hfs
  refine ⟨he, hok, hrun, fun hnil => ?_, hfok, hfrun⟩
  obtain ⟨_, _, hinterfaces⟩ := (hafter (.fresh "  ") (by decide)).1 hnil
  exact List.cons_ne_nil _ _ hinterfaces

/-- The primary constructor and the superclass come behind the bounds. -/
theorem where_clause_amid_header :
    let unit : IndentUnit := .ok "  "
    let v : Value := .type (.typeVar "T" [.type (.named (some "") ["X"] false),
      .type (.named (some "") ["Y"] false)] none false false)
    let constructor := { FunDecl.plain FunDecl.constructorName with
      parameters := [⟨"x", .type (.named (some "") ["Int"] false), [], .empty, none⟩] }
    let calls : List Call := [.addTypeVariable v,
      .primaryConstructor (.decl none (.function constructor)),
      .superclass (.type (.named (some "") ["B"] false))]
    let d := plain (.kind .classKind) (some "A") none
    let e := { d with
      typeVariables := [v]
      primaryConstructor := some constructor
      superclass := .type (.named (some "") ["B"] false) }
    startNamed unit .classKind (.str "A") = .ok d ∧
      Edit.forEach (Call.apply unit) calls d = .ok () e ∧ e.build unit = .ok e ∧
      (((e.pieces unit).layout none).run (.fresh "  ")).text =
        "class A<T> where T : X, T : Y(x: Int) : B()\n".toList := by
  exact ⟨rfl, rfl, rfl, by decide⟩

end TypeDecl

end KotlinDecl
