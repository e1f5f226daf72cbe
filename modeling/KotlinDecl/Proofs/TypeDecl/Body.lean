import KotlinDecl.Proofs.Layout.Lines
import KotlinDecl.Proofs.TypeDecl.Consistency
import KotlinDecl.Proofs.TypeDecl.Members

namespace KotlinDecl

open Edit

open Layout (text empty block orFail memberTexts endsLine_text endsLine_block EndsLine)

theorem FunPieces.endsLine_layout (f : FunPieces) (implied : List Modifier) :
    (f.layout implied).EndsLine := by
  apply EndsLine.prepend
  split
  · exact endsLine_text rfl
  · exact endsLine_block f.body

theorem Value.asFunction_ok {v : Value} {f : FunDecl} (h : v.asFunction = .ok f) :
    ∃ n, v = .decl n (.function f) := by
  unfold Value.asFunction at h
  split at h
  · cases h
    exact ⟨_, rfl⟩
  · cases h

theorem PropertyPieces.keepsLine_accessor {unit : IndentUnit} {v? : Option Value}
    (h : ∀ v ∈ v?, ∃ f, v.asFunction = .ok f) (implied : Argument) :
    (accessor implied (Value.forms? unit v?)).KeepsLine := by
  cases v? with
  | none => exact Layout.keepsLine_empty
  | some v =>
      obtain ⟨f, hf⟩ := h v rfl
      obtain ⟨n, rfl⟩ := Value.asFunction_ok hf
      have hwritten : (orFail (implied.implied.map (f.pieces unit).layout)).EndsLine :=
        EndsLine.orFail_map (f.pieces unit).endsLine_layout _
      exact ((hwritten.prepend .indent).append Layout.keepsLine_unindent).keepsLine

namespace PropertyDecl

def accessors (p : PropertyDecl) : List Value := p.getter.toList ++ p.setter.toList

theorem endsLine_memberLayout {unit : IndentUnit} {p : PropertyDecl}
    (h : ∀ v ∈ p.accessors, ∃ f, v.asFunction = .ok f) (implied : Argument) :
    ((p.pieces unit).memberLayout implied).EndsLine := by
  cases p with
  | mk name type mutable kdoc annotations modifiers initializer delegated getter setter =>
      obtain ⟨hg, hs⟩ := List.forall_mem_append.1 h
      apply EndsLine.prepend
      refine ((endsLine_text rfl).append ?_).append ?_
      · exact PropertyPieces.keepsLine_accessor (fun v hv => hg v (Option.mem_toList.2 hv)) implied
      · exact PropertyPieces.keepsLine_accessor (fun v hv => hs v (Option.mem_toList.2 hv)) implied

end PropertyDecl

theorem TypePieces.run_bodyLayout (d : TypePieces) (front close : Layout) (names : List String) :
    (front ++ d.bodyLayout names close).run =
      (front ++ text " \x7b\n" ++
        .body (.decl none (.typeDecl d.decl)) (.members true (d.memberList names)) ++
        text "\x7d" ++ close).run := by
  rw [bodyLayout, ← Layout.run_append_assoc]
  apply Layout.run_append_congr _ rfl
  rw [← Layout.run_append_assoc]
  apply Layout.run_append_congr _ rfl
  rw [Layout.run_append_assoc]

theorem TypePieces.endsLine_layout {d : TypePieces} (h : d.anonymous = none) :
    (d.layout none).EndsLine := by
  apply EndsLine.declaration
  apply EndsLine.orFail_map
  intro fs
  rw [foldedLayout_eq]
  apply EndsLine.prepend
  simp only [bodiless, closing, h]
  split
  · exact endsLine_text rfl
  · exact EndsLine.prepend (endsLine_text rfl) _

namespace TypeDecl

/-- A member of a declaration. A constant comes with the mark that ends it. -/
inductive Member
  | constant (c : EnumConstant) (mark : String)
  | property (p : PropertyDecl)
  | constructorBody (code : CodeBlock)
  | initializer (code : CodeBlock)
  | function (f : FunDecl)
  | type (d : TypeDecl)

def Member.layout (unit : IndentUnit) (d : TypeDecl) : Member → Layout
  | constant c mark => c.layout unit ++ text mark
  | property p =>
    orFail (d.propertyModifiers.map fun ms => (p.pieces unit).memberLayout (.ofModifiers ms))
  | constructorBody code => text "init" ++ block (code.layout unit)
  | initializer code => code.layout unit
  | function f => orFail (d.functionModifiers.map (f.pieces unit).layout)
  | type e => (e.pieces unit).layout none

def markedConstants (more : Bool) : List EnumConstant → List Member
  | [] => []
  | [c] => [.constant c (if more then ";\n" else "\n")]
  | c :: cs => .constant c ",\n" :: markedConstants more cs

def membersAfterConstants (d : TypeDecl) (names : List String) : List Member :=
  let functions := d.functions.filterMap (·.asFunction.toOption)
  (d.properties.filter (!names.contains ·.name)).map .property ++
    (d.primaryConstructor.toList.filter (!·.body.isEmpty)).map (.constructorBody ·.body) ++
    (if d.initializer.isEmpty then [] else [.initializer d.initializer]) ++
    (functions.filter (·.isConstructor)).map .function ++
    (functions.filter (!·.isConstructor)).map .function ++
    (d.types.filterMap (·.asTypeDecl.toOption)).map .type ++ d.companion.toList.map .type

def members (d : TypeDecl) (names : List String) : List Member :=
  markedConstants (!(d.membersAfterConstants names).isEmpty) d.constants ++
    d.membersAfterConstants names

section

variable (unit : IndentUnit) (d : TypeDecl) (names : List String)

theorem constantMembers_eq (more : Bool) (cs : List EnumConstant) :
    TypePieces.constantMembers more (cs.map (·.layout unit)) =
      (markedConstants more cs).map (·.layout unit d) := by
  induction cs with
  | nil => rfl
  | cons c cs ih =>
      cases cs with
      | nil => rfl
      | cons c' cs => exact congrArg ((c.layout unit ++ text ",\n") :: ·) ih

theorem functionPieces_eq {vs : List Value} (h : ∀ v ∈ vs, ∃ f, v.asFunction = .ok f) :
    vs.map (·.functionPieces unit) =
      (vs.filterMap (·.asFunction.toOption)).map fun f => some (f.pieces unit) := by
  induction vs with
  | nil => rfl
  | cons v vs ih =>
      obtain ⟨⟨f, hf⟩, hvs⟩ := List.forall_mem_cons.1 h
      obtain ⟨n, rfl⟩ := Value.asFunction_ok hf
      exact congrArg (some (f.pieces unit) :: ·) (ih hvs)

theorem constructorMembers_eq (implied : Except Error (List Modifier)) (fs : List FunDecl) :
    TypePieces.constructorMembers implied (fs.map fun f => some (f.pieces unit)) =
      (fs.filter (·.isConstructor)).map fun f =>
        .ok (orFail (implied.map (f.pieces unit).layout)) := by
  induction fs with
  | nil => rfl
  | cons f fs ih =>
      by_cases hf : f.isConstructor = true
      · simp [TypePieces.constructorMembers, hf, ih]
      · simp [TypePieces.constructorMembers, hf, ih]

theorem functionMembers_eq (implied : Except Error (List Modifier)) (fs : List FunDecl) :
    TypePieces.functionMembers implied (fs.map fun f => some (f.pieces unit)) =
      (fs.filter (!·.isConstructor)).map fun f => orFail (implied.map (f.pieces unit).layout) := by
  induction fs with
  | nil => rfl
  | cons f fs ih =>
      have hcons : TypePieces.functionMembers implied
          ((f :: fs).map fun f => some (f.pieces unit)) =
          (if f.isConstructor then [] else [orFail (implied.map (f.pieces unit).layout)]) ++
            TypePieces.functionMembers implied (fs.map fun f => some (f.pieces unit)) := by
        by_cases hf : f.isConstructor = true <;> simp [TypePieces.functionMembers, hf]
      rw [hcons, ih]
      by_cases hf : f.isConstructor = true <;> simp [hf]

theorem nestedLayouts_eq {vs : List Value} (h : ∀ v ∈ vs, ∃ t, v.asTypeDecl = .ok t) :
    vs.map (fun v => (v.forms unit).written [.nothing]) =
      (vs.filterMap (·.asTypeDecl.toOption)).map fun t => (t.pieces unit).layout none := by
  induction vs with
  | nil => rfl
  | cons v vs ih =>
      obtain ⟨⟨t, ht⟩, hvs⟩ := List.forall_mem_cons.1 h
      obtain ⟨n, rfl⟩ := asTypeDecl_ok ht
      exact congrArg ((t.pieces unit).layout none :: ·) (ih hvs)

theorem laterMembers_eq (hf : ∀ v ∈ d.functions, ∃ f, v.asFunction = .ok f)
    (ht : ∀ v ∈ d.types, ∃ t, v.asTypeDecl = .ok t) :
    (d.pieces unit).laterMembers names =
      (d.membersAfterConstants names).map fun m => .ok (m.layout unit d) := by
  rw [TypePieces.laterMembers_eq]
  simp only [decl_pieces, properties_pieces, primaryConstructor_pieces, initializer_pieces,
    functions_pieces, types_pieces, companion_pieces, functionPieces_eq unit hf,
    constructorMembers_eq, functionMembers_eq, nestedLayouts_eq unit ht, membersAfterConstants,
    List.map_append, List.map_map, Option.toList_map, List.filter_map]
  by_cases hi : d.initializer.isEmpty = true
  · simp [hi, Function.comp_def, Member.layout]
  · simp [hi, Function.comp_def, Member.layout]

theorem memberList_eq_members (hf : ∀ v ∈ d.functions, ∃ f, v.asFunction = .ok f)
    (ht : ∀ v ∈ d.types, ∃ t, v.asTypeDecl = .ok t) :
    (d.pieces unit).memberList names =
      ((d.members names).map (·.layout unit d)).map .ok := by
  have hlater := laterMembers_eq unit d names hf ht
  have hmore : d.hasMembersAfterConstants names = !(d.membersAfterConstants names).isEmpty := by
    have hempty := isEmpty_laterMembers unit d names
    rw [hlater, List.isEmpty_map] at hempty
    rw [hempty, Bool.not_not]
  rw [TypePieces.memberList_eq, decl_pieces, constants_pieces, constantMembers_eq unit d, hlater,
    hmore, members, List.map_append, List.map_append, List.map_map, List.map_map]
  rfl

theorem asFunction_of_functionPieces {v : Value} {f : FunPieces}
    (h : v.functionPieces unit = some f) : ∃ g, v.asFunction = .ok g := by
  cases v with
  | decl n x =>
      cases x with
      | function g => exact ⟨g, rfl⟩
      | _ => cases h
  | _ => cases h

theorem functions_of_constructorMembers {implied : Except Error (List Modifier)} {vs : List Value}
    (h : ∀ m ∈ TypePieces.constructorMembers implied (vs.map (·.functionPieces unit)),
      ∃ x, m = .ok x) : ∀ v ∈ vs, ∃ f, v.asFunction = .ok f := by
  induction vs with
  | nil => exact List.forall_mem_nil _
  | cons v vs ih =>
      cases hv : v.functionPieces unit with
      | none =>
          obtain ⟨x, hx⟩ := h (.error .lacking) (by simp [TypePieces.constructorMembers, hv])
          cases hx
      | some f =>
          refine List.forall_mem_cons.2 ⟨asFunction_of_functionPieces unit hv, ih fun m hm => ?_⟩
          apply h m
          by_cases hf : f.decl.isConstructor = true
          · simp [TypePieces.constructorMembers, hv, hf, hm]
          · simp [TypePieces.constructorMembers, hv, hf, hm]

theorem functions_of_memberList {ds : List Layout}
    (h : (d.pieces unit).memberList names = ds.map .ok) :
    ∀ v ∈ d.functions, ∃ f, v.asFunction = .ok f := by
  have hok : ∀ m ∈ TypePieces.constructorMembers d.functionModifiers
      (d.functions.map (·.functionPieces unit)), ∃ x, m = .ok x := by
    intro m hm
    have hm : m ∈ (d.pieces unit).memberList names := by
      rw [TypePieces.memberList_eq, TypePieces.laterMembers_eq]
      simp [hm]
    rw [h] at hm
    obtain ⟨x, _, rfl⟩ := List.mem_map.1 hm
    exact ⟨x, rfl⟩
  exact functions_of_constructorMembers unit hok

theorem endsLine_markedConstants (more : Bool) (cs : List EnumConstant) :
    ∀ m ∈ markedConstants more cs, (m.layout unit d).EndsLine := by
  induction cs with
  | nil => exact List.forall_mem_nil _
  | cons c cs ih =>
      cases cs with
      | nil =>
          refine List.forall_mem_singleton.2 (EndsLine.prepend ?_ _)
          cases more <;> exact endsLine_text rfl
      | cons c' cs => exact List.forall_mem_cons.2 ⟨(endsLine_text rfl).prepend _, ih⟩

end

/-- A declaration that has been finished. -/
def Built (unit : IndentUnit) (e : TypeDecl) : Prop :=
  ∃ d, Draft.Reached unit (fun _ => True) (.typeDecl d) ∧ d.build unit = .ok e

variable {unit : IndentUnit} {e : TypeDecl}

theorem Built.keeps {P : TypeDecl → Prop} (h : e.Built unit)
    (hbegin : ∀ {d}, Begins False d → P d) (hstep : ∀ {c d}, Step unit False c d → P c → P d) :
    P e := by
  obtain ⟨d, hd, he⟩ := h
  have ht : (Draft.typeDecl d).Traced unit False := hd.traced False.elim
  obtain ⟨c, hc, hsteps⟩ := ht.typeDecl
  rw [(build_ok he).1]
  exact keeps_of_steps hsteps hstep (hbegin hc)

theorem InitializerCode.endsLine {c : CodeBlock} (h : InitializerCode c)
    (args : List (Placeholder → Layout)) : (Layout.code c.parts args).EndsLine := by
  cases h with
  | head =>
      exact (endsLine_text rfl).append (Layout.keepsLine_indent.append Layout.keepsLine_empty)
  | whole b =>
      apply EndsLine.code
      intro args
      exact ((endsLine_text rfl).append Layout.keepsLine_empty).prepend .unindent

/-- Initializer code consists of whole blocks and heads of blocks. -/
theorem Built.endsLine_initializer (h : e.Built unit) (hne : e.initializer.isEmpty = false) :
    (e.initializer.layout unit).EndsLine := by
  have hkeeps : e.initializer.isEmpty = true ∨
      ∀ args, (Layout.code e.initializer.parts args).EndsLine := by
    refine h.keeps (P := fun d => d.initializer.isEmpty = true ∨
      ∀ args, (Layout.code d.initializer.parts args).EndsLine) ?_ ?_
    · rintro d ⟨⟩ <;> exact .inl rfl
    · intro c d hs hc
      cases hs with
      | initializer x _ _ hx _ => exact .inr (EndsLine.code hx.endsLine _)
      | _ => exact hc
  rw [CodeBlock.layout_eq]
  rcases hkeeps with hempty | hends
  · rw [hempty] at hne
    cases hne
  · exact hends _

theorem Built.admissible (h : e.Built unit) : e.Admissible :=
  h.keeps Begins.admissible Step.admissible

theorem Built.companion_named (h : e.Built unit) {c : TypeDecl} (hc : c ∈ e.companion)
    (hb : c.Built unit) : c.isAnonymous = false := by
  obtain ⟨_, _, hmarked⟩ := h.admissible.companion c hc
  rw [← Bool.not_eq_true]
  intro ha
  have hnone := (hb.admissible.plainHeader ha).1
  simp [ModifierSet.contains, hnone] at hmarked

theorem endsLine_type {t : TypeDecl} (h : t.isAnonymous = false) :
    ((t.pieces unit).layout none).EndsLine := by
  apply TypePieces.endsLine_layout
  cases t with
  | mk kind name anonymous =>
      cases anonymous with
      | none => rfl
      | some v => cases h

theorem endsLine_members (he : e.Built unit) (hcompanion : ∀ c ∈ e.companion, c.Built unit)
    (haccessors : ∀ p ∈ e.properties, ∀ v ∈ p.accessors, ∃ f, v.asFunction = .ok f)
    (htypes : ∀ v ∈ e.types, ∃ t, v.asTypeDecl = .ok t ∧ t.isAnonymous = false)
    (names : List String) : ∀ m ∈ e.members names, (m.layout unit e).EndsLine := by
  simp only [members, membersAfterConstants, List.forall_mem_append, List.forall_mem_map]
  refine ⟨endsLine_markedConstants unit e _ _, ⟨⟨⟨⟨⟨⟨?_, ?_⟩, ?_⟩, ?_⟩, ?_⟩, ?_⟩, ?_⟩⟩
  · intro p hp
    have hp := (List.mem_filter.1 hp).1
    exact EndsLine.orFail_map (fun ms => PropertyDecl.endsLine_memberLayout (haccessors p hp) _) _
  · intro f _
    exact (endsLine_block _).prepend _
  · by_cases hi : e.initializer.isEmpty = true
    · rw [if_pos hi]
      exact List.forall_mem_nil _
    · rw [if_neg hi]
      exact List.forall_mem_singleton.2 (he.endsLine_initializer (by simpa using hi))
  · intro f _
    exact EndsLine.orFail_map (f.pieces unit).endsLine_layout _
  · intro f _
    exact EndsLine.orFail_map (f.pieces unit).endsLine_layout _
  · intro t ht
    obtain ⟨v, hv, ht⟩ := List.mem_filterMap.1 ht
    obtain ⟨t', ht', ha⟩ := htypes v hv
    rw [ht'] at ht
    cases ht
    exact endsLine_type ha
  · intro c hc
    have hc := Option.mem_toList.1 hc
    exact endsLine_type (he.companion_named hc (hcompanion c hc))

theorem closing_pieces (unit : IndentUnit) (e : TypeDecl) (label : Option Layout) :
    (e.pieces unit).closing label =
      Layout.when (label.isNone && !e.isAnonymous) (text "\n") := by
  cases e with
  | mk kind name anonymous =>
      cases label with
      | some l => rfl
      | none => cases anonymous <;> rfl

theorem run_layout_of_body (label : Option Layout) {fs : List (String × PropertyPieces)}
    (hfs : (e.pieces unit).folded = .ok fs) (hbody : e.hasNoBody (fs.map (·.1)) = false)
    (w : Writer) :
    let r := ((e.pieces unit).header label fs ++ text " \x7b\n" ++
      .body (.decl none (.typeDecl e))
        (.members true ((e.pieces unit).memberList (fs.map (·.1)))) ++
      text "\x7d" ++ Layout.when (label.isNone && !e.isAnonymous) (text "\n")).run
        { w with statement := -1 }
    (((e.pieces unit).layout label).run w).text = r.text ∧
      (((e.pieces unit).layout label).run w).error = r.error := by
  have hlayout : (e.pieces unit).layout label = .declaration ((e.pieces unit).header label fs ++
      (e.pieces unit).bodyLayout (fs.map (·.1)) ((e.pieces unit).closing label)) := by
    rw [TypePieces.layout, hfs]
    show Layout.declaration ((e.pieces unit).foldedLayout label fs) = _
    rw [TypePieces.foldedLayout_eq, decl_pieces, hbody]
    rfl
  have hrow := TypePieces.run_bodyLayout (e.pieces unit) ((e.pieces unit).header label fs)
    ((e.pieces unit).closing label) (fs.map (·.1))
  rw [closing_pieces, decl_pieces] at hrow
  intro r
  have hr : r = ((e.pieces unit).header label fs ++ (e.pieces unit).bodyLayout (fs.map (·.1))
      (Layout.when (label.isNone && !e.isAnonymous) (text "\n"))).run { w with statement := -1 } :=
    (congrFun hrow _).symm
  rw [hlayout, closing_pieces, hr]
  exact ⟨rfl, rfl⟩

/-- Whatever is written in full has members that can be written, and what is between the braces
are these members. -/
theorem memberList_of_ok {label : Option Layout} {w : Writer} {fs : List (String × PropertyPieces)}
    (htypes : ∀ v ∈ e.types, ∃ t, v.asTypeDecl = .ok t)
    (hfs : (e.pieces unit).folded = .ok fs) (hbody : e.hasNoBody (fs.map (·.1)) = false)
    (hok : (((e.pieces unit).layout label).run w).error = none) :
    (e.pieces unit).memberList (fs.map (·.1)) =
      ((e.members (fs.map (·.1))).map (·.layout unit e)).map .ok := by
  rw [(run_layout_of_body label hfs hbody w).2] at hok
  obtain ⟨_, hmembers⟩ := Layout.ok_of_run_braces hok
  obtain ⟨ds, hds⟩ := Layout.ok_of_run_members hmembers
  exact memberList_eq_members unit e _ (functions_of_memberList unit e _ hds) htypes

/-- A declaration with a body is a header that ends in the opening brace, the members in order
with a line break between neighbours, and the closing brace on a line of its own. A named one ends
its last line, with a body or without. -/
theorem body_layout {label : Option Layout} {w : Writer} {fs : List (String × PropertyPieces)}
    (he : e.Built unit) (hcompanion : ∀ c ∈ e.companion, c.Built unit)
    (haccessors : ∀ p ∈ e.properties, ∀ v ∈ p.accessors, ∃ f, v.asFunction = .ok f)
    (htypes : ∀ v ∈ e.types, ∃ t, v.asTypeDecl = .ok t ∧ t.isAnonymous = false)
    (hcomment : w.comment = false) (hfs : (e.pieces unit).folded = .ok fs)
    (hok : (((e.pieces unit).layout label).run w).error = none) :
    let r := ((e.pieces unit).layout label).run w
    let named := label.isNone && !e.isAnonymous
    let names := fs.map (·.1)
    (named = true → r.text.getLast? = some '\n') ∧
      (e.hasNoBody names = false →
        let opening := ((e.pieces unit).header label fs ++ text " \x7b\n").run
          { w with statement := -1 }
        let ts := memberTexts ((e.members names).map (·.layout unit e))
          ((opening.writer.pushScope (.decl none (.typeDecl e))).indent 1)
        r.text = opening.text ++ ['\n'].intercalate ts ++ opening.writer.indentation ++
            '\x7d' :: (if named then ['\n'] else []) ∧
          " \x7b\n".toList <:+ opening.text ∧ ts ≠ [] ∧ ∀ t ∈ ts, t.getLast? = some '\n') := by
  intro r named names
  refine ⟨fun hnamed => ?_, fun hbody => ?_⟩
  · obtain ⟨hlabel, ha⟩ : label = none ∧ e.isAnonymous = false := by simpa [named] using hnamed
    subst hlabel
    exact (endsLine_type ha w hcomment hok).text
  · intro opening ts
    have hlist := memberList_of_ok (fun v hv => (htypes v hv).imp fun _ ht => ht.1) hfs hbody hok
    obtain ⟨htext, herror⟩ := run_layout_of_body label hfs hbody w
    rw [herror, hlist] at hok
    rw [hlist] at htext
    have hne : (e.members names).map (·.layout unit e) ≠ [] := by
      intro hnil
      rw [hnil] at hlist
      exact memberList_ne_nil unit e names hbody hlist
    have hends : ∀ d ∈ (e.members names).map (·.layout unit e), d.EndsLine :=
      List.forall_mem_map.2 (endsLine_members he hcompanion haccessors htypes names)
    have hbraces := Layout.run_braces (w := { w with statement := -1 }) hne hcomment hends
      ((e.pieces unit).header label fs ++ text " \x7b\n") (.decl none (.typeDecl e)) named hok
    refine ⟨htext.trans hbraces.1, ?_, Layout.memberTexts_ne_nil hne _, hbraces.2⟩
    obtain ⟨hopening, _⟩ := Layout.ok_of_run_braces hok
    obtain ⟨hheader, _⟩ := Written.error_of_andThen hopening
    have hsuffix := Layout.opening_brace_suffix
      (((e.pieces unit).header label fs).comment_run (w := { w with statement := -1 }) hcomment)
    exact (Layout.text_run_append hheader _).symm ▸ hsuffix.trans (List.suffix_append _ _)

theorem body_layout_companion :
    let get : Value := .decl none (.function (.plain "get"))
    let x : PropertyDecl :=
      ⟨"x", .type .anyType, .bool false, .empty, [], .empty, none, false, some get, none⟩
    let o := { plain (.kind .objectKind) none none with modifiers := ⟨[.companion]⟩ }
    let e := { plain (.kind .classKind) (some "C") none with
      properties := [x]
      types := [.decl none (.typeDecl (plain (.kind .classKind) (some "D") none))]
      companion := some o }
    let r := ((e.pieces (.ok "  ")).layout none).run (.fresh "  ")
    e.Built (.ok "  ") ∧ o.Built (.ok "  ") ∧ r.error = none ∧
      ∃ front ts margin, ts.length = 3 ∧ " \x7b\n".toList <:+ front ∧
        r.text = front ++ ['\n'].intercalate ts ++ margin ++ ['\x7d', '\n'] ∧
        ∀ t ∈ ts, t.getLast? = some '\n' := by
  intro get x o e r
  have ho : o.Built (.ok "  ") := ⟨o, .start (x := .companion .null) trivial rfl, rfl⟩
  have hstart : Draft.Reached (.ok "  ") (fun _ => True)
      (.typeDecl (plain (.kind .classKind) (some "C") none)) :=
    .start (x := .named .classKind (.str "C")) trivial rfl
  have hx := hstart.call (c := .typeDecl (.addProperty (.decl none (.property x)) .null [])) trivial
  have hd := hx.call (c := .typeDecl
    (.addType (.decl none (.typeDecl (plain (.kind .classKind) (some "D") none))))) trivial
  have he : e.Built (.ok "  ") :=
    ⟨e, hd.call (c := .typeDecl (.companion (.decl none (.typeDecl o)))) trivial, rfl⟩
  have hcompanion : ∀ c ∈ e.companion, c.Built (.ok "  ") := by
    rintro c ⟨⟩
    exact ho
  have haccessors : ∀ p ∈ e.properties, ∀ v ∈ p.accessors, ∃ f, v.asFunction = .ok f :=
    List.forall_mem_singleton.2 (List.forall_mem_singleton.2 ⟨.plain "get", rfl⟩)
  have htypes : ∀ v ∈ e.types, ∃ t, v.asTypeDecl = .ok t ∧ t.isAnonymous = false :=
    List.forall_mem_singleton.2 ⟨_, rfl, rfl⟩
  have hok : r.error = none := by decide
  have hlayout := body_layout he hcompanion haccessors htypes rfl rfl hok
  obtain ⟨htext, hfront, _, hends⟩ := hlayout.2 rfl
  exact ⟨he, ho, hok, _, _, _, rfl, hfront, htext, hends⟩

end TypeDecl

end KotlinDecl
