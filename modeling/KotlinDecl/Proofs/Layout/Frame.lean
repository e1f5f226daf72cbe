import KotlinDecl.Proofs.Writer
import KotlinDecl.Rendering

namespace KotlinDecl

/-- The step is back in the scopes of `w` when it ends or fails, and no comment is left open. -/
structure Written.Leaves (r : Written) (w : Writer) : Prop where
  unit : r.writer.unit = w.unit
  scopes : r.writer.scopes = w.scopes
  comment : r.writer.comment = true → w.comment = true

theorem Written.Leaves.andThen {r : Written} {k : Writer → Written} {w : Writer}
    (hr : r.Leaves w) (hk : ∀ v, (k v).Leaves v) : (r.andThen k).Leaves w := by
  cases he : r.error with
  | some e => rwa [Written.andThen_of_error he]
  | none =>
      rw [Written.andThen_of_ok he]
      have hs := hk r.writer
      exact ⟨hs.unit.trans hr.unit, hs.scopes.trans hr.scopes,
        fun hc => hr.comment (hs.comment hc)⟩

structure Written.Silent (r : Written) (w : Writer) : Prop where
  text : r.text = []
  writer : ∃ level statement, r.writer = { w with level := level, statement := statement }

theorem Written.Silent.leaves {r : Written} {w : Writer} (h : r.Silent w) : r.Leaves w := by
  obtain ⟨level, statement, hw⟩ := h.writer
  refine ⟨?_, ?_, ?_⟩ <;> rw [hw]
  exact id

namespace Writer

theorem leaves_emit (w : Writer) (cs : List Char) : (wrote (w.emit cs)).Leaves w :=
  ⟨w.emit_unit cs, w.emit_scopes cs, fun hc => (w.emit_comment cs).symm.trans hc⟩

theorem silent_unindent (w : Writer) (n : Int) : (w.unindent n).Silent w := by
  unfold unindent unindentBy
  split <;> exact ⟨rfl, _, _, rfl⟩

theorem silent_openStatement (w : Writer) : w.openStatement.Silent w := by
  unfold openStatement
  split <;> exact ⟨rfl, _, _, rfl⟩

theorem silent_closeStatement (w : Writer) : w.closeStatement.Silent w := by
  have hu := w.silent_unindent continuation
  unfold closeStatement
  by_cases hs : w.statement = -1
  · rw [if_pos hs]
    exact ⟨rfl, _, _, rfl⟩
  · rw [if_neg hs]
    by_cases hp : 0 < w.statement
    · simp only [hp, if_true]
      split
      · exact hu
      · obtain ⟨level, statement, hw⟩ := hu.writer
        exact ⟨hu.text, level, -1, by rw [hw]⟩
    · simp only [hp, if_false]
      exact ⟨rfl, _, _, rfl⟩

theorem leaves_freshLine (w : Writer) : w.freshLine.Leaves w := by
  unfold freshLine
  split
  · exact ⟨rfl, rfl, id⟩
  · exact w.leaves_emit ['\n']

end Writer

theorem Layout.run_leaves (d : Layout) (w : Writer) : (d.run w).Leaves w := by
  induction d generalizing w with
  | empty | indent | fail e => exact ⟨rfl, rfl, id⟩
  | text s => exact w.leaves_emit s.toList
  | seq a b iha ihb => exact (iha w).andThen ihb
  | unindent => exact (w.silent_unindent 1).leaves
  | openStatement => exact w.silent_openStatement.leaves
  | closeStatement => exact w.silent_closeStatement.leaves
  | freshLine => exact w.leaves_freshLine
  | comment d ih =>
      have hd := ih { w with comment := true }
      exact ⟨hd.unit, hd.scopes, nofun⟩
  | declaration d ih =>
      have hd := ih { w with statement := -1 }
      exact ⟨hd.unit, hd.scopes, hd.comment⟩
  | body scope d ih =>
      -- The contents leave the scope that was pushed for them on top.
      have hd := ih ((w.pushScope scope).indent 1)
      exact ⟨hd.unit, congrArg List.tail hd.scopes, hd.comment⟩

namespace TypeDecl

/-- However a declaration ends, by itself or by an error at any depth, the statement around it and
the scopes are as before, and so is the level behind its members. -/
theorem rendering_unwinds (unit : IndentUnit) (d : TypeDecl) (label : Option Layout)
    (names : List String) (w : Writer) :
    let whole := ((d.pieces unit).layout label).run w
    let members := (Layout.body (.decl none (.typeDecl d))
      (.members true ((d.pieces unit).memberList names))).run w
    (whole.writer.statement = w.statement ∧ whole.writer.scopes = w.scopes) ∧
      members.writer.level = w.level ∧ members.writer.scopes = w.scopes := by
  intro whole members
  have hwhole : whole.Leaves w := Layout.run_leaves _ w
  have hmembers : members.Leaves w := Layout.run_leaves _ w
  exact ⟨⟨rfl, hwhole.scopes⟩, rfl, hmembers.scopes⟩

end TypeDecl

end KotlinDecl
