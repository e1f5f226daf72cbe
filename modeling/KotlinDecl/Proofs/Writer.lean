import KotlinDecl.Layout

namespace KotlinDecl

namespace Written

theorem andThen_of_ok {r : Written} (h : r.error = none) (k : Writer → Written) :
    r.andThen k = ⟨r.text ++ (k r.writer).text, (k r.writer).writer, (k r.writer).error⟩ := by
  simp [andThen, h]

theorem andThen_of_error {r : Written} {e : Error} (h : r.error = some e) (k : Writer → Written) :
    r.andThen k = r := by
  simp [andThen, h]

theorem error_of_andThen {r : Written} {k : Writer → Written} (h : (r.andThen k).error = none) :
    r.error = none ∧ (k r.writer).error = none := by
  cases hr : r.error with
  | none => exact ⟨rfl, by rwa [andThen_of_ok hr] at h⟩
  | some e => simp [andThen, hr] at h

end Written

/-- Whether the error is about a marker that does not fit the writer: a step out of the outermost
level, a statement in a statement, or the end of none. -/
def Error.isMarkerFault : Error → Bool
  | .codeFormat (.unindent _ _) none => true
  | .codeFormat .statementTwice none => true
  | .codeFormat .statementNotOpen none => true
  | _ => false

namespace Writer

theorem put_writer (w : Writer) (c : Char) :
    (w.put c).2 = if c = '\n' then w.broken else { w with lineStart := false } := by
  unfold put
  split
  · rfl
  · cases w with
    | mk unit level comment lineStart statement scopes => cases lineStart <;> rfl

def margin (w : Writer) : List Char :=
  if w.lineStart then w.indentation ++ if w.comment then [' ', '*', ' '] else [] else []

theorem put_of_ne (w : Writer) {c : Char} (hc : c ≠ '\n') :
    w.put c = (w.margin ++ [c], { w with lineStart := false }) := by
  cases w with
  | mk unit level comment lineStart statement scopes =>
      cases lineStart <;> simp [put, hc, margin, indentation]

theorem emit_line (w : Writer) {c : Char} {cs : List Char} (h : '\n' ∉ c :: cs) :
    w.emit (c :: cs) = (w.margin ++ c :: cs, { w with lineStart := false }) := by
  induction cs generalizing w c with
  | nil => simp [emit, put_of_ne w (List.ne_of_not_mem_cons h).symm]
  | cons d ds ih =>
      obtain ⟨hc, hds⟩ := List.ne_and_not_mem_of_not_mem_cons h
      have hm : ({ w with lineStart := false } : Writer).margin = [] := rfl
      rw [emit, put_of_ne w hc.symm, ih _ hds, hm]
      simp

@[simp] theorem emit_comment (w : Writer) (cs : List Char) : (w.emit cs).2.comment = w.comment := by
  induction cs generalizing w with
  | nil => rfl
  | cons c cs ih =>
      rw [emit, ih, put_writer]
      split <;> rfl

@[simp] theorem emit_scopes (w : Writer) (cs : List Char) : (w.emit cs).2.scopes = w.scopes := by
  induction cs generalizing w with
  | nil => rfl
  | cons c cs ih =>
      rw [emit, ih, put_writer]
      split <;> rfl

@[simp] theorem emit_unit (w : Writer) (cs : List Char) : (w.emit cs).2.unit = w.unit := by
  induction cs generalizing w with
  | nil => rfl
  | cons c cs ih =>
      rw [emit, ih, put_writer]
      split <;> rfl

theorem unindent_of_le {w : Writer} {n : Int} (h : n ≤ w.level) :
    w.unindent n = { w with level := w.level - n }.quiet := by
  have hn : ¬w.level - n < 0 := by omega
  simp [unindent, unindentBy, hn]

theorem le_of_unindent {w : Writer} {n : Int} (h : (w.unindent n).error = none) : n ≤ w.level := by
  by_cases hn : w.level - n < 0
  · simp [unindent, unindentBy, hn, failed] at h
  · omega

theorem openStatement_of_closed {w : Writer} (h : w.statement = -1) :
    w.openStatement = { w with statement := 0 }.quiet := by
  simp [openStatement, h]

theorem closed_of_openStatement {w : Writer} (h : w.openStatement.error = none) :
    w.statement = -1 := by
  by_cases hs : w.statement = -1
  · exact hs
  · simp [openStatement, hs, failed] at h

theorem closeStatement_of_open {w : Writer} (h : w.statement ≠ -1)
    (hl : 0 < w.statement → continuation ≤ w.level) :
    w.closeStatement =
      { w with
        level := if 0 < w.statement then w.level - continuation else w.level
        statement := -1 }.quiet := by
  by_cases hs : 0 < w.statement
  · simp [closeStatement, h, hs, unindent_of_le (hl hs), quiet]
  · simp [closeStatement, h, hs, quiet]

theorem open_of_closeStatement {w : Writer} (h : w.closeStatement.error = none) :
    w.statement ≠ -1 ∧ (0 < w.statement → continuation ≤ w.level) := by
  refine ⟨fun hs => ?_, fun hs => ?_⟩
  · simp [closeStatement, hs, failed] at h
  · have hn : w.statement ≠ -1 := by omega
    apply le_of_unindent
    cases he : (w.unindent continuation).error with
    | none => rfl
    | some e => simp [closeStatement, hn, hs, he] at h

theorem unindent_error {w : Writer} {n : Int} {e : Error} (h : (w.unindent n).error = some e) :
    e.isMarkerFault = true := by
  unfold unindent unindentBy at h
  split at h
  · cases h
    rfl
  · cases h

theorem openStatement_error {w : Writer} {e : Error} (h : w.openStatement.error = some e) :
    e.isMarkerFault = true := by
  unfold openStatement at h
  split at h
  · cases h
    rfl
  · cases h

/-- The levels that a statement gives back may be missing. -/
theorem closeStatement_error {w : Writer} {e : Error} (h : w.closeStatement.error = some e) :
    e.isMarkerFault = true := by
  by_cases hs : w.statement = -1
  · simp only [closeStatement, hs, if_true, failed, Option.some.injEq] at h
    rw [← h]
    rfl
  · by_cases hn : 0 < w.statement
    · apply unindent_error (w := w) (n := continuation)
      cases hu : (w.unindent continuation).error with
      | none => simp [closeStatement, hs, hn, hu] at h
      | some x => simpa [closeStatement, hs, hn, hu] using h
    · simp [closeStatement, hs, hn, quiet] at h

end Writer

end KotlinDecl
