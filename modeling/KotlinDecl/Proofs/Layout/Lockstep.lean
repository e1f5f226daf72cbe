import KotlinDecl.Proofs.Layout.Frame
import KotlinDecl.Proofs.Layout.Indentation
import KotlinDecl.Proofs.Layout.Scopes

namespace KotlinDecl

open Text

namespace Writer

variable {v w : Writer} {k : Int}

theorem lineStart_put (w : Writer) (c : Char) :
    (w.put c).2.lineStart = endsLine w.lineStart (w.put c).1 := by
  by_cases hc : c = '\n'
  · subst hc
    cases hm : w.comment && w.lineStart <;> simp [put, hm, broken, endsLine, endsLine_append]
  · simp [put_of_ne w hc, endsLine_append, endsLine, hc]

theorem lineStart_emit (w : Writer) (cs : List Char) :
    (w.emit cs).2.lineStart = endsLine w.lineStart (w.emit cs).1 := by
  induction cs generalizing w with
  | nil => rfl
  | cons c cs ih => rw [emit, ih, lineStart_put, endsLine_append]

structure Sound (w : Writer) : Prop where
  level : 0 ≤ w.level
  statement : -1 ≤ w.statement

theorem Sound.broken (h : w.Sound) : w.broken.Sound := by
  have hl := h.level
  have hs := h.statement
  constructor
  · simp only [Writer.broken, continuation]
    split <;> omega
  · simp only [Writer.broken]
    split <;> omega

theorem Sound.emit (h : w.Sound) (cs : List Char) : (w.emit cs).2.Sound := by
  induction cs generalizing w with
  | nil => exact h
  | cons c cs ih =>
      apply ih
      rw [put_writer]
      split
      · exact h.broken
      · exact ⟨h.level, h.statement⟩

theorem Sound.unindent (h : w.Sound) (n : Int) : (w.unindent n).writer.Sound := by
  by_cases hn : n ≤ w.level
  · rw [unindent_of_le hn]
    exact ⟨Int.sub_nonneg_of_le hn, h.statement⟩
  · have hlow : w.level - n < 0 := by omega
    simpa [Writer.unindent, unindentBy, hlow, failed] using h

theorem Sound.openStatement (h : w.Sound) : w.openStatement.writer.Sound := by
  unfold Writer.openStatement
  split
  · exact h
  · exact ⟨h.level, (by decide : (-1 : Int) ≤ 0)⟩

theorem Sound.closeStatement (h : w.Sound) : w.closeStatement.writer.Sound := by
  have hu := h.unindent continuation
  unfold Writer.closeStatement
  split
  · exact h
  · by_cases hp : 0 < w.statement
    · simp only [hp, if_true]
      split
      · exact hu
      · exact ⟨hu.level, Int.le_refl _⟩
    · simp only [hp, if_false]
      exact ⟨h.level, Int.le_refl _⟩

theorem Sound.freshLine (h : w.Sound) : w.freshLine.writer.Sound := by
  unfold Writer.freshLine
  split
  · exact h
  · exact h.emit _

/-- `w` is as far in its line as `v` and `k` levels deeper. It may be in a statement of several
lines where `v` is in none. -/
structure Nested (k : Int) (v w : Writer) : Prop where
  lineStart : w.lineStart = v.lineStart
  level : w.level = v.level + k
  statement : w.statement = v.statement ∨ v.statement = -1 ∧ 0 < w.statement

theorem Nested.broken (h : Nested k v w) : Nested k v.broken w.broken := by
  have hl := h.level
  have hs := h.statement
  refine ⟨rfl, ?_, ?_⟩
  · simp only [Writer.broken, continuation]
    split <;> split <;> omega
  · simp only [Writer.broken]
    split <;> split <;> omega

theorem Nested.emit (h : Nested k v w) (cs : List Char) :
    Nested k (v.emit cs).2 (w.emit cs).2 := by
  induction cs generalizing v w with
  | nil => exact h
  | cons c cs ih =>
      apply ih
      rw [put_writer, put_writer]
      by_cases hc : c = '\n'
      · rw [if_pos hc, if_pos hc]
        exact h.broken
      · rw [if_neg hc, if_neg hc]
        exact ⟨rfl, h.level, h.statement⟩

/-- The writer without the number of line breaks in a statement. -/
def settled (w : Writer) : Writer := { w with statement := min w.statement 1 }

end Writer

def Written.settled (r : Written) : Written := { r with writer := r.writer.settled }

namespace Written

variable {r s : Written} {k : Writer → Written}

theorem writer_of_settled (h : s.settled = r.settled) : s.writer.settled = r.writer.settled :=
  congrArg Written.writer h

theorem text_of_settled (h : s.settled = r.settled) : s.text = r.text := by
  change s.settled.text = r.settled.text
  rw [h]

theorem error_of_settled (h : s.settled = r.settled) : s.error = r.error := by
  change s.settled.error = r.settled.error
  rw [h]

theorem settled_andThen (hk : ∀ w, (k w.settled).settled = (k w).settled)
    (h : s.settled = r.settled) : (s.andThen k).settled = (r.andThen k).settled := by
  have herror := error_of_settled h
  cases hr : r.error with
  | some e =>
      rw [andThen_of_error hr, andThen_of_error (herror.trans hr)]
      exact h
  | none =>
      have hrest : (k s.writer).settled = (k r.writer).settled := by
        rw [← hk, writer_of_settled h, hk]
      rw [andThen_of_ok hr, andThen_of_ok (herror.trans hr), settled, settled,
        text_of_settled h, text_of_settled hrest, writer_of_settled hrest,
        error_of_settled hrest]

end Written

namespace Writer

variable (w : Writer)

theorem settled_settled : w.settled.settled = w.settled := by
  have h : min (min w.statement 1) 1 = min w.statement 1 := by omega
  simp only [settled, h]

theorem settled_quiet : w.settled.quiet.settled = w.quiet.settled :=
  congrArg quiet w.settled_settled

theorem settled_failed (e : Error) : (w.settled.failed e).settled = (w.failed e).settled :=
  congrArg (failed · e) w.settled_settled

theorem settled_broken : w.settled.broken.settled = w.broken.settled := by
  simp only [settled, broken, mk.injEq, true_and, and_true]
  constructor <;> grind

theorem settled_put (c : Char) :
    (w.settled.put c).1 = (w.put c).1 ∧ (w.settled.put c).2.settled = (w.put c).2.settled := by
  by_cases hc : c = '\n'
  · subst hc
    exact ⟨rfl, w.settled_broken⟩
  · rw [put_of_ne _ hc, put_of_ne _ hc]
    exact ⟨rfl, { w with lineStart := false }.settled_settled⟩

theorem settled_emit (cs : List Char) :
    (wrote (w.settled.emit cs)).settled = (wrote (w.emit cs)).settled := by
  induction cs generalizing w with
  | nil => exact w.settled_quiet
  | cons c cs ih =>
      obtain ⟨htext, hput⟩ := w.settled_put c
      have hrest : (wrote ((w.settled.put c).2.emit cs)).settled =
          (wrote ((w.put c).2.emit cs)).settled := by
        rw [← ih, hput, ih]
      have hchars : ((w.settled.put c).2.emit cs).1 = ((w.put c).2.emit cs).1 :=
        Written.text_of_settled hrest
      have hwriter : ((w.settled.put c).2.emit cs).2.settled = ((w.put c).2.emit cs).2.settled :=
        Written.writer_of_settled hrest
      simp only [emit, wrote, Written.settled, htext, hchars, hwriter]

theorem settled_unindent (n : Int) :
    (w.settled.unindent n).settled = (w.unindent n).settled := by
  have hlevel : w.settled.level = w.level := rfl
  unfold unindent unindentBy
  rw [hlevel]
  split
  · exact w.settled_failed _
  · exact ({ w with level := w.level - n } : Writer).settled_quiet

theorem settled_openStatement : w.settled.openStatement.settled = w.openStatement.settled := by
  have hopen : w.settled.statement ≠ -1 ↔ w.statement ≠ -1 := by
    simp only [settled]
    omega
  unfold openStatement
  simp only [hopen]
  split
  · exact w.settled_failed _
  · rfl

theorem settled_closeStatement : w.settled.closeStatement.settled = w.closeStatement.settled := by
  have hclosed : w.settled.statement = -1 ↔ w.statement = -1 := by
    simp only [settled]
    omega
  have hlines : 0 < w.settled.statement ↔ 0 < w.statement := by
    simp only [settled]
    omega
  have hunindent := w.settled_unindent continuation
  unfold closeStatement
  simp only [hclosed, hlines]
  split
  · exact w.settled_failed _
  · by_cases hp : 0 < w.statement
    · simp only [hp, if_true, Written.error_of_settled hunindent]
      split
      · exact hunindent
      · have hwriter := congrArg (fun v : Writer => { v with statement := -1 })
          (Written.writer_of_settled hunindent)
        simp only [Written.settled, Written.text_of_settled hunindent]
        exact congrArg (fun v : Writer => (⟨_, v.settled, _⟩ : Written)) hwriter
    · simp only [hp, if_false]
      rfl

theorem settled_freshLine : w.settled.freshLine.settled = w.freshLine.settled := by
  have hstart : w.settled.lineStart = w.lineStart := rfl
  unfold freshLine
  rw [hstart]
  split
  · exact w.settled_quiet
  · exact w.settled_emit _

end Writer

theorem Written.Silent.lineStart {r : Written} {w : Writer} (h : r.Silent w) :
    r.writer.lineStart = endsLine w.lineStart r.text := by
  obtain ⟨level, statement, hw⟩ := h.writer
  rw [hw, h.text]
  rfl

namespace Layout

theorem lineStart_run (d : Layout) (w : Writer) :
    (d.run w).writer.lineStart = endsLine w.lineStart (d.run w).text := by
  induction d generalizing w with
  | empty | indent | fail e => rfl
  | text s => exact w.lineStart_emit s.toList
  | seq a b iha ihb =>
      cases ha : (a.run w).error with
      | some e =>
          rw [run, Written.andThen_of_error ha]
          exact iha w
      | none =>
          rw [run, Written.andThen_of_ok ha, endsLine_append, ← iha]
          exact ihb _
  | unindent => exact (w.silent_unindent 1).lineStart
  | openStatement => exact w.silent_openStatement.lineStart
  | closeStatement => exact w.silent_closeStatement.lineStart
  | freshLine =>
      rw [run, Writer.freshLine]
      split
      · rfl
      · exact w.lineStart_emit _
  | comment d ih => exact ih { w with comment := true }
  | declaration d ih => exact ih { w with statement := -1 }
  | body scope d ih => exact ih ((w.pushScope scope).indent 1)

theorem run_sound (d : Layout) {w : Writer} (h : w.Sound) : (d.run w).writer.Sound := by
  induction d generalizing w with
  | empty | fail e => exact h
  | text s => exact h.emit s.toList
  | seq a b iha ihb =>
      cases ha : (a.run w).error with
      | some e =>
          rw [run, Written.andThen_of_error ha]
          exact iha h
      | none =>
          rw [run, Written.andThen_of_ok ha]
          exact ihb (iha h)
  | indent => exact ⟨Int.add_nonneg h.level (by decide), h.statement⟩
  | unindent => exact h.unindent 1
  | openStatement => exact h.openStatement
  | closeStatement => exact h.closeStatement
  | freshLine => exact h.freshLine
  | comment d ih =>
      have hd := ih (w := { w with comment := true }) ⟨h.level, h.statement⟩
      exact ⟨hd.level, hd.statement⟩
  | declaration d ih =>
      have hd := ih (w := { w with statement := -1 }) ⟨h.level, Int.le_refl _⟩
      exact ⟨hd.level, h.statement⟩
  | body scope d ih =>
      have hd := ih (w := (w.pushScope scope).indent 1)
        ⟨Int.add_nonneg h.level (by decide), h.statement⟩
      exact ⟨h.level, hd.statement⟩

/-- Where a layout succeeds on both writers, it takes them the same way. -/
theorem run_nested (d : Layout) {k : Int} {v w : Writer} (h : Writer.Nested k v w)
    (hv : (d.run v).error = none) (hw : (d.run w).error = none) :
    Writer.Nested k (d.run v).writer (d.run w).writer := by
  induction d generalizing v w with
  | empty => exact h
  | text s => exact h.emit s.toList
  | seq a b iha ihb =>
      obtain ⟨hva, hvb⟩ := Written.error_of_andThen hv
      obtain ⟨hwa, hwb⟩ := Written.error_of_andThen hw
      rw [run, run, Written.andThen_of_ok hva, Written.andThen_of_ok hwa]
      exact ihb (iha h hva hwa) hvb hwb
  | indent =>
      refine ⟨h.lineStart, ?_, h.statement⟩
      have hl := h.level
      simp only [run, Writer.quiet, Writer.indent]
      omega
  | unindent =>
      rw [run, run, Writer.unindent_of_le (Writer.le_of_unindent hv),
        Writer.unindent_of_le (Writer.le_of_unindent hw)]
      refine ⟨h.lineStart, ?_, h.statement⟩
      have hl := h.level
      simp only [Writer.quiet]
      omega
  | openStatement =>
      rw [run, run, Writer.openStatement_of_closed (Writer.closed_of_openStatement hv),
        Writer.openStatement_of_closed (Writer.closed_of_openStatement hw)]
      exact ⟨h.lineStart, h.level, .inl rfl⟩
  | closeStatement =>
      -- A statement that is closed in both is the same one, so both give back the same levels.
      obtain ⟨hsv, hlv⟩ := Writer.open_of_closeStatement hv
      obtain ⟨hsw, hlw⟩ := Writer.open_of_closeStatement hw
      have hs : w.statement = v.statement := h.statement.resolve_right fun hn => hsv hn.1
      have hl := h.level
      rw [run, run, Writer.closeStatement_of_open hsv hlv, Writer.closeStatement_of_open hsw hlw]
      refine ⟨h.lineStart, ?_, .inl rfl⟩
      simp only [Writer.quiet, hs]
      split <;> omega
  | freshLine =>
      have hstart := h.lineStart
      rw [run, run, Writer.freshLine, Writer.freshLine, hstart]
      split
      · exact h
      · exact h.emit _
  | comment d ih =>
      have hd := ih (v := { v with comment := true }) (w := { w with comment := true })
        ⟨h.lineStart, h.level, h.statement⟩ hv hw
      exact ⟨hd.lineStart, hd.level, hd.statement⟩
  | declaration d ih =>
      have hd := ih (v := { v with statement := -1 }) (w := { w with statement := -1 })
        ⟨h.lineStart, h.level, .inl rfl⟩ hv hw
      exact ⟨hd.lineStart, hd.level, h.statement⟩
  | body scope d ih =>
      have hl : w.level + 1 = v.level + 1 + k := by
        rw [h.level]
        omega
      have hd := ih (v := (v.pushScope scope).indent 1) (w := (w.pushScope scope).indent 1)
        ⟨h.lineStart, hl, h.statement⟩ hv hw
      exact ⟨hd.lineStart, h.level, hd.statement⟩
  | fail e => cases hv

theorem run_settled (d : Layout) (w : Writer) :
    (d.run w.settled).settled = (d.run w).settled := by
  induction d generalizing w with
  | empty => exact w.settled_quiet
  | text s => exact w.settled_emit s.toList
  | seq a b iha ihb => exact Written.settled_andThen ihb (iha w)
  | indent => exact (w.indent 1).settled_quiet
  | unindent => exact w.settled_unindent 1
  | openStatement => exact w.settled_openStatement
  | closeStatement => exact w.settled_closeStatement
  | freshLine => exact w.settled_freshLine
  | comment d ih =>
      have hd := ih { w with comment := true }
      exact congrArg (fun r : Written => { r with writer := { r.writer with comment := false } }) hd
  | declaration d ih =>
      let r := d.run { w with statement := -1 }
      exact congrArg (fun v : Writer => (⟨r.text, v, r.error⟩ : Written))
        ({ r.writer with statement := w.statement } : Writer).settled_settled
  | body scope d ih =>
      have hd := ih ((w.pushScope scope).indent 1)
      exact congrArg (fun r : Written => { r with
        writer := { r.writer with level := w.level, scopes := r.writer.scopes.tail } }) hd
  | fail e => exact w.settled_failed e

end Layout

namespace Written

/-- Two steps that fail alike and that the same can follow. The texts are the same, or the second
one is longer, which is to stray. -/
structure Strays (apart : Bool) (r s : Written) : Prop where
  error : s.error = r.error
  writer : s.writer.settled = r.writer.settled
  text (h : apart = false) : s.text = r.text
  longer (h : apart = true) (hok : r.error = none) : r.text.length < s.text.length

variable {apart : Bool} {r s : Written} {k : Writer → Written}

theorem Strays.andThen (h : Strays apart r s) (hk : ∀ w, (k w.settled).settled = (k w).settled) :
    Strays apart (r.andThen k) (s.andThen k) := by
  cases hr : r.error with
  | some e => rwa [andThen_of_error hr, andThen_of_error (h.error.trans hr)]
  | none =>
      have hrest : (k s.writer).settled = (k r.writer).settled := by
        rw [← hk, h.writer, hk]
      have herror := error_of_settled hrest
      have hwriter := writer_of_settled hrest
      have htext := text_of_settled hrest
      rw [andThen_of_ok hr, andThen_of_ok (h.error.trans hr)]
      refine ⟨herror, hwriter, fun ha => ?_, fun ha _ => ?_⟩
      · rw [h.text ha, htext]
      · have hlonger := h.longer ha hr
        simp only [List.length_append, htext]
        omega

theorem Strays.behind {l : Writer → Written}
    (h : r.error = none → Strays apart (k r.writer) (l r.writer)) :
    Strays apart (r.andThen k) (r.andThen l) := by
  cases hr : r.error with
  | some e =>
      rw [andThen_of_error hr, andThen_of_error hr]
      refine ⟨rfl, rfl, fun _ => rfl, fun _ hok => ?_⟩
      rw [hr] at hok
      cases hok
  | none =>
      have hrest := h hr
      rw [andThen_of_ok hr, andThen_of_ok hr]
      refine ⟨hrest.error, hrest.writer, fun ha => ?_, fun ha hok => ?_⟩
      · rw [hrest.text ha]
      · have hlonger := hrest.longer ha hok
        simp only [List.length_append]
        omega

theorem Strays.text_eq_iff (h : Strays apart r s) (hok : r.error = none) :
    r.text = s.text ↔ apart = false := by
  cases apart with
  | false => exact iff_of_true (h.text rfl).symm rfl
  | true =>
      refine iff_of_false (fun htext => ?_) Bool.noConfusion
      exact absurd (h.longer rfl hok) (by rw [htext]; exact Nat.lt_irrefl _)

end Written

namespace Layout

def Strays (apart : Bool) (a b : Layout) : Prop :=
  ∀ w : Writer, w.Sound → Written.Strays apart (a.run w) (b.run w)

namespace Strays

variable {apart : Bool} {a b : Layout}

theorem append (h : Strays apart a b) (d : Layout) : Strays apart (a ++ d) (b ++ d) :=
  fun w hw => (h w hw).andThen d.run_settled

theorem prepend (h : Strays apart a b) (d : Layout) : Strays apart (d ++ a) (d ++ b) :=
  fun _ hw => .behind fun _ => h _ (d.run_sound hw)

theorem of_run {a' b' : Layout} (h : Strays apart a b) (ha : a'.run = a.run)
    (hb : b'.run = b.run) : Strays apart a' b' := by
  intro w hw
  rw [ha, hb]
  exact h w hw

theorem body (h : Strays apart a b) (scope scope' : Value) :
    Strays apart (.body scope a) (.body scope' b) := by
  intro w hw
  have hr := h (w.indent 1) ⟨Int.add_nonneg hw.level (by decide), hw.statement⟩
  rw [run_body, run_body]
  exact ⟨hr.error, congrArg (fun v : Writer => { v with level := w.level, scopes := w.scopes })
    hr.writer, hr.text, hr.longer⟩

theorem members (h : Strays apart a b) (first : Bool) (front : List Layout)
    (back : List (Except Error Layout)) :
    Strays apart (.members first ((front ++ [a]).map .ok ++ back))
      (.members first ((front ++ [b]).map .ok ++ back)) := by
  induction front generalizing first with
  | nil => exact (h.prepend _).append _
  | cons d front ih => exact (ih false).prepend _

end Strays

/-- A declaration starts outside of any statement, so the level is all that has to be sound. -/
theorem Strays.declaration {apart : Bool} {a b : Layout} (h : Strays apart a b) {w : Writer}
    (hw : 0 ≤ w.level) :
    Written.Strays apart ((Layout.declaration a).run w) ((Layout.declaration b).run w) := by
  have hr := h { w with statement := -1 } ⟨hw, Int.le_refl _⟩
  exact ⟨hr.error, congrArg (fun v : Writer => { v with statement := w.statement }.settled)
    hr.writer, hr.text, hr.longer⟩

end Layout

end KotlinDecl
