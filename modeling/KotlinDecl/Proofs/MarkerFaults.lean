import KotlinDecl.Proofs.Restoring

namespace KotlinDecl

namespace Layout

/-- Wherever it is written, the layout fails at a marker or not at all. -/
def Tame (d : Layout) : Prop := ∀ w e, (d.run w).error = some e → e.isMarkerFault = true

theorem tame_text (s : String) : (text s).Tame := by
  intro w e h
  cases h

theorem tame_empty : empty.Tame := by
  intro w e h
  cases h

theorem tame_freshLine : freshLine.Tame := by
  intro w e h
  simp only [run, Writer.freshLine] at h
  split at h <;> cases h

theorem tame_indent : indent.Tame := by
  intro w e h
  cases h

theorem tame_unindent : unindent.Tame := fun _ _ h => Writer.unindent_error h

theorem tame_openStatement : openStatement.Tame := fun _ _ h => Writer.openStatement_error h

theorem tame_closeStatement : closeStatement.Tame := fun _ _ h => Writer.closeStatement_error h

theorem Tame.append {a b : Layout} (ha : a.Tame) (hb : b.Tame) : (a ++ b).Tame := by
  intro w e h
  change ((a.run w).andThen b.run).error = some e at h
  cases hr : (a.run w).error with
  | none =>
      rw [Written.andThen_of_ok hr] at h
      exact hb _ e h
  | some x =>
      rw [Written.andThen_of_error hr, hr] at h
      exact ha w e (hr.trans h)

theorem tame_fail {e : Error} (h : e.isMarkerFault = true) : (fail e).Tame := by
  intro w x hx
  cases hx
  exact h

def tameness : Discipline where
  Keeps _ d := d.Tame
  strict := False
  empty _ := tame_empty
  text s _ := tame_text s
  freshLine _ := tame_freshLine
  append := Tame.append
  comment h _ e he := h _ e he
  indented h := (tame_indent.append h).append tame_unindent
  block h := (((((tame_text _).append tame_indent).append h).append tame_freshLine).append
    tame_unindent).append (tame_text _)
  statement front _ h := (((tame_text front).append tame_openStatement).append h).append
    tame_closeStatement
  declaration _ h _ e he := h _ e he
  body _ h _ e he := h _ e he

/-- Each argument meets a placeholder that takes it, and the other parts are texts and markers. -/
theorem tame_code {u : IndentUnit} {parts : List Part} {args : List Value}
    (hm : Part.matched parts args = true) (hw : ∀ v ∈ args, v.wellTyped = true)
    (hl : ∀ v ∈ args, (v.forms u).literal.Tame) {ps : List Part}
    {as : List (Placeholder → Layout)} (h : (code ps as).Tame) :
    (code (parts ++ ps) (args.map (fun v => (v.forms u).argument) ++ as)).Tame := by
  induction parts generalizing args with
  | nil =>
      cases args with
      | nil => exact h
      | cons v args => cases hm
  | cons p parts ih =>
      cases p with
      | argument p =>
          cases args with
          | nil => cases hm
          | cons v args =>
              obtain ⟨hv, hm⟩ := Bool.and_eq_true_iff.1 hm
              rw [List.forall_mem_cons] at hw hl
              have ha : tameness.Keeps false ((v.forms u).argument p) :=
                Value.keeps_argument hw.1 hv fun _ => hl.1
              exact Tame.append ha (ih hm hw.2 hl.2)
      | text s => exact (tame_text s).append (ih hm hw hl)
      | percent | wrap => exact (tame_text _).append (ih hm hw hl)
      | indent => exact tame_indent.append (ih hm hw hl)
      | unindent => exact tame_unindent.append (ih hm hw hl)
      | openStatement => exact tame_openStatement.append (ih hm hw hl)
      | closeStatement => exact tame_closeStatement.append (ih hm hw hl)
      | split c => cases hm

theorem alone_of_error {d : Layout} {unit : String} {e : Error}
    (h : (d.run (Writer.fresh unit)).error = some e) : d.alone (.ok unit) = .error e := by
  simp [Layout.alone, render, h, bind, Except.bind]

theorem Tame.alone {d : Layout} (h : d.Tame) (unit : String) :
    (∃ s, d.alone (.ok unit) = .ok s) ∨
      ∃ e, d.alone (.ok unit) = .error e ∧ e.isMarkerFault = true := by
  cases hr : (d.run (Writer.fresh unit)).error with
  | none =>
      left
      simp [Layout.alone, render, hr, bind, Except.bind]
  | some e => exact .inr ⟨e, alone_of_error hr, h _ e hr⟩

theorem reads_tameness (unit : String) : tameness.Reads unit where
  code {c b} hw _ hl := by
    obtain ⟨hm, ha⟩ := (CodeBlock.wellTyped_iff c).1 hw
    rw [CodeBlock.pieces_eq]
    intro ps as h
    exact tame_code hm ha (fun v hv => hl v hv false False.elim) h
  alone h b := by
    rcases Tame.alone h unit with ⟨s, hs⟩ | ⟨e, he, hf⟩
    · exact tameness.ofText ⟨s, hs⟩ b
    · rw [he]
      exact tame_fail hf

end Layout

namespace TypeDecl

/-- A declaration that is built from well-typed arguments is written, or a marker in its code stops
the writer; nothing else does. Where the code is balanced, it is written. -/
theorem renders_or_marker_fault {unit : String} {d e : TypeDecl} (serial : Option Nat)
    (hd : Draft.Reached (.ok unit) (fun m => m.wellTyped = true) (.typeDecl d))
    (he : d.build (.ok unit) = .ok e) :
    let text := (Value.decl serial (.typeDecl e)).text (.ok unit)
    ((∃ s, text = .ok s) ∨ ∃ x, text = .error x ∧ x.isMarkerFault = true) ∧
      (e.balanced = true → ∃ s, text = .ok s) := by
  intro text
  have hw := wellTyped_of_build hd he
  refine ⟨?_, fun hb => ?_⟩
  · have ht := (Layout.reads_tameness unit).settles.ofTypeDecl e hw False.elim
    exact Layout.Tame.alone (ht.unlabelled false) unit
  · have hs := steady_pieces unit hw hb
    exact Layout.Steady.alone (TypePieces.Keeps.unlabelled hs false) unit

/-- A statement in a body is balanced, and the text is there. -/
theorem renders_or_marker_fault_body :
    let f := { FunDecl.plain "f" with
      body := ⟨[.openStatement, .text "g()\n", .closeStatement], []⟩ }
    let d := { plain (.kind .classKind) (some "A") none with
      functions := [.decl none (.function f)] }
    Draft.Reached (.ok "  ") (fun m => m.wellTyped = true) (.typeDecl d) ∧
      d.build (.ok "  ") = .ok d ∧ d.balanced = true ∧
      ∃ s, (Value.decl none (.typeDecl d)).text (.ok "  ") = .ok s := by
  intro f d
  have hs : Draft.Reached (.ok "  ") (fun m => m.wellTyped = true)
      (.typeDecl (plain (.kind .classKind) (some "A") none)) :=
    .start (x := .named .classKind (.str "A")) rfl rfl
  have hr : Draft.Reached (.ok "  ") (fun m => m.wellTyped = true) (.typeDecl d) :=
    .call (c := .typeDecl (.addFunction (.decl none (.function f)))) (by decide) hs
  have hb : d.balanced = true := by decide
  exact ⟨hr, rfl, hb, (renders_or_marker_fault none hr rfl).2 hb⟩

/-- The initializer of a property is a statement already, so it cannot hold another. The format is
accepted, the declaration is built, and writing it fails. -/
theorem rendering_fails_in_initializer :
    let c : CodeBlock := ⟨[.openStatement, .text "1", .closeStatement], []⟩
    let int : TypeName := .named (some "kotlin") ["Int"] false
    let p := { PropertyDecl.plain "x" (.type int) with initializer := some c }
    let d := { plain (.kind .classKind) (some "A") none with properties := [p] }
    CodeBlock.ofFormat (.ok "  ") (.str "%[1%]") [] = .ok c ∧
      Draft.Reached (.ok "  ") (fun m => m.wellTyped = true) (.typeDecl d) ∧
      d.build (.ok "  ") = .ok d ∧
      (Value.decl none (.typeDecl d)).text (.ok "  ") =
        .error (.codeFormat .statementTwice none) := by
  intro c int p d
  have hs : Draft.Reached (.ok "  ") (fun m => m.wellTyped = true)
      (.typeDecl (plain (.kind .classKind) (some "A") none)) :=
    .start (x := .named .classKind (.str "A")) rfl rfl
  refine ⟨rfl, ?_, rfl, Layout.alone_of_error (by decide)⟩
  exact .call (c := .typeDecl (.addProperty (.decl none (.property p)) .null [])) (by decide) hs

end TypeDecl

end KotlinDecl
