import KotlinDecl.Proofs.Drafting
import KotlinDecl.Proofs.Layout.Indentation
import KotlinDecl.Proofs.Rendering

namespace KotlinDecl

/-- A step that succeeds and leaves behind the writer as it was, apart from its place in the
line. -/
structure Written.Restores (r : Written) (w : Writer) : Prop where
  error : r.error = none
  level : r.writer.level = w.level
  statement : r.writer.statement = w.statement
  comment : r.writer.comment = w.comment
  scopes : r.writer.scopes = w.scopes

theorem Layout.Steady.restores {d : Layout} (h : d.Steady false) {w : Writer}
    (hc : w.comment = false) (hl : 0 ≤ w.level) : ((Layout.declaration d).run w).Restores w := by
  have hr := h.contents hl
  refine ⟨hr.error, ?_, rfl, ?_, hr.scopes⟩
  · have hlevel := hr.spot.level_of_outside
    exact hlevel.trans (by omega)
  · -- A comment may end in what is written, but here none is open.
    exact Bool.eq_iff_iff.2 ⟨hr.comment, fun h => absurd (hc ▸ h) Bool.false_ne_true⟩

namespace TypeDecl

theorem wellTyped_of_build {unit : IndentUnit} {d e : TypeDecl}
    (hd : Draft.Reached unit (fun m => m.wellTyped = true) (.typeDecl d))
    (he : d.build unit = .ok e) : e.wellTyped = true := by
  have ht : (Draft.typeDecl d).Traced unit True := hd.traced fun _ _ hm => hm
  rw [(build_ok he).1]
  exact ht.wellTyped trivial

/-- A balanced declaration that is built from well-typed arguments can be written at any level, in
a statement or not, and leaves the writer there. A label is for an anonymous declaration only. -/
theorem rendering_restores {unit : String} {d e : TypeDecl} (label : Option String) {w : Writer}
    (hd : Draft.Reached (.ok unit) (fun m => m.wellTyped = true) (.typeDecl d))
    (he : d.build (.ok unit) = .ok e) (hb : e.balanced = true)
    (hlabel : label.isSome = true → e.isAnonymous = true) (hc : w.comment = false)
    (hlevel : 0 ≤ w.level) :
    (((e.pieces (.ok unit)).layout (label.map .text)).run w).Restores w := by
  have hs := steady_pieces unit (wellTyped_of_build hd he) hb
  refine (hs.contents fun l hl => ?_).restores hc hlevel
  obtain ⟨n, rfl, rfl⟩ := Option.map_eq_some_iff.1 hl
  exact ⟨Layout.steady_text n false, by rw [isSome_anonymous_pieces, hlabel rfl]⟩

theorem rendering_restores_nested :
    let w := { Writer.fresh "\t" with level := 1, statement := 1, scopes := [.null] }
    Draft.Reached (.ok "\t") (fun m => m.wellTyped = true) (.typeDecl nestedExample) ∧
      nestedExample.build (.ok "\t") = .ok nestedExample ∧ nestedExample.balanced = true ∧
      (((nestedExample.pieces (.ok "\t")).layout none).run w).Restores w := by
  intro w
  have hs : Draft.Reached (.ok "\t") (fun m => m.wellTyped = true)
      (.typeDecl (plain (.kind .classKind) (some "C") none)) :=
    .start (x := .named .classKind (.str "C")) rfl rfl
  have hr : Draft.Reached (.ok "\t") (fun m => m.wellTyped = true) (.typeDecl nestedExample) :=
    .call (c := .typeDecl (.addProperty (.decl none (.property nestedProperty)) .null []))
      (by decide) hs
  have hb : nestedExample.balanced = true := by decide
  exact ⟨hr, rfl, hb, rendering_restores none hr rfl hb nofun rfl (by decide)⟩

/-- A writer may stand below the outermost level. There, stepping out of the body of a function
fails, and with it the declaration. -/
theorem rendering_fails_below_outermost :
    let d := { plain (.kind .classKind) (some "A") none with
      functions := [.decl none (.function (.plain "f"))] }
    let w := { Writer.fresh "  " with level := -2 }
    Draft.Reached (.ok "  ") (fun m => m.wellTyped = true) (.typeDecl d) ∧
      d.build (.ok "  ") = .ok d ∧ d.balanced = true ∧ w.comment = false ∧
      (((d.pieces (.ok "  ")).layout none).run w).error =
        some (.codeFormat (.unindent "1" 0) none) := by
  intro d w
  have hs : Draft.Reached (.ok "  ") (fun m => m.wellTyped = true)
      (.typeDecl (plain (.kind .classKind) (some "A") none)) :=
    .start (x := .named .classKind (.str "A")) rfl rfl
  refine ⟨?_, rfl, by decide, rfl, by decide⟩
  exact .call (c := .typeDecl (.addFunction (.decl none (.function (.plain "f"))))) (by decide) hs

end TypeDecl

end KotlinDecl
