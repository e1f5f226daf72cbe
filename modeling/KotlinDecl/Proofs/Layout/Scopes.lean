import KotlinDecl.Layout.Pieces
import KotlinDecl.Proofs.Layout.Laws

namespace KotlinDecl

def Writer.within (ss : List Value) (w : Writer) : Writer := { w with scopes := ss }

def Written.within (ss : List Value) (r : Written) : Written :=
  { r with writer := r.writer.within ss }

theorem Written.andThen_within {ss : List Value} {k : Writer → Written}
    (hk : ∀ w, k (w.within ss) = (k w).within ss) (r : Written) :
    (r.within ss).andThen k = (r.andThen k).within ss := by
  have herror : (r.within ss).error = r.error := rfl
  cases hr : r.error with
  | some e => rw [andThen_of_error hr, andThen_of_error (herror.trans hr)]
  | none =>
      rw [andThen_of_ok hr, andThen_of_ok (herror.trans hr)]
      simp only [within, hk]

namespace Writer

variable (ss : List Value) (w : Writer)

theorem put_within (c : Char) : (w.within ss).put c = ((w.put c).1, (w.put c).2.within ss) := by
  unfold put
  by_cases hc : c = '\n'
  · rw [if_pos hc, if_pos hc]
    rfl
  · rw [if_neg hc, if_neg hc]
    cases hl : w.lineStart <;> simp [within, hl, indentation]

theorem emit_within (cs : List Char) :
    (w.within ss).emit cs = ((w.emit cs).1, (w.emit cs).2.within ss) := by
  induction cs generalizing w with
  | nil => rfl
  | cons c cs ih => simp only [emit, put_within, ih]

theorem unindent_within (n : Int) : (w.within ss).unindent n = (w.unindent n).within ss := by
  have hlevel : (w.within ss).level = w.level := rfl
  unfold unindent unindentBy
  rw [hlevel]
  split <;> rfl

theorem openStatement_within : (w.within ss).openStatement = w.openStatement.within ss := by
  have hstatement : (w.within ss).statement = w.statement := rfl
  unfold openStatement
  rw [hstatement]
  split <;> rfl

theorem closeStatement_within : (w.within ss).closeStatement = w.closeStatement.within ss := by
  have hstatement : (w.within ss).statement = w.statement := rfl
  have hlines : (if 0 < w.statement then (w.within ss).unindent continuation
      else (w.within ss).quiet) =
      (if 0 < w.statement then w.unindent continuation else w.quiet).within ss := by
    split
    · exact w.unindent_within ss continuation
    · rfl
  unfold closeStatement
  rw [hstatement, hlines]
  split
  · rfl
  · generalize (if 0 < w.statement then w.unindent continuation else w.quiet) = r
    have herror : (r.within ss).error = r.error := rfl
    dsimp only
    rw [herror]
    split <;> rfl

theorem freshLine_within : (w.within ss).freshLine = w.freshLine.within ss := by
  have hstart : (w.within ss).lineStart = w.lineStart := rfl
  unfold freshLine
  rw [hstart, emit_within]
  split <;> rfl

end Writer

namespace Layout

/-- What is written does not depend on the scopes, and they are left as they are. -/
theorem run_within (d : Layout) (ss : List Value) (w : Writer) :
    d.run (w.within ss) = (d.run w).within ss := by
  induction d generalizing w ss with
  | empty | indent | fail e => rfl
  | text s =>
      simp only [run, Writer.emit_within]
      rfl
  | seq a b iha ihb =>
      rw [run, iha]
      exact Written.andThen_within (ihb ss) _
  | unindent => exact w.unindent_within ss 1
  | openStatement => exact w.openStatement_within ss
  | closeStatement => exact w.closeStatement_within ss
  | freshLine => exact w.freshLine_within ss
  | comment d ih =>
      have hd : d.run { w.within ss with comment := true } = _ := ih ss { w with comment := true }
      simp only [run, hd]
      rfl
  | declaration d ih =>
      have hd : d.run { w.within ss with statement := -1 } = _ := ih ss { w with statement := -1 }
      simp only [run, hd]
      rfl
  | body scope d ih =>
      have hd : d.run (((w.within ss).pushScope scope).indent 1) = _ :=
        ih (scope :: ss) ((w.pushScope scope).indent 1)
      simp only [run, hd]
      rfl

theorem run_body (scope : Value) (d : Layout) (w : Writer) :
    (body scope d).run w =
      { d.run (w.indent 1) with
        writer := { (d.run (w.indent 1)).writer with level := w.level, scopes := w.scopes } } := by
  have hd : d.run ((w.pushScope scope).indent 1) = _ :=
    d.run_within (scope :: w.scopes) (w.indent 1)
  simp only [run, hd]
  rfl

variable {d e : Layout}

theorem run_body_congr (h : d.run = e.run) (scope scope' : Value) :
    (body scope d).run = (body scope' e).run := by
  funext w
  rw [run_body, run_body, h]

theorem run_declaration_congr (h : d.run = e.run) : (declaration d).run = (declaration e).run := by
  funext w
  simp only [run, h]

theorem run_members_congr {ds es : List (Except Error Layout)}
    (h : ds.map (Except.map run) = es.map (Except.map run)) (first : Bool) :
    (members first ds).run = (members first es).run := by
  induction ds generalizing es first with
  | nil =>
      cases es with
      | nil => rfl
      | cons e es => cases h
  | cons d ds ih =>
      cases es with
      | nil => cases h
      | cons e es =>
          rw [List.map_cons, List.map_cons, List.cons.injEq] at h
          obtain ⟨hd, hds⟩ := h
          cases d with
          | error x =>
              cases e with
              | ok e => cases hd
              | error y =>
                  cases hd
                  rfl
          | ok d =>
              cases e with
              | error y => cases hd
              | ok e =>
                  refine run_append_congr (run_append_congr rfl ?_) (ih hds false)
                  exact Except.ok.inj hd

end Layout

end KotlinDecl
