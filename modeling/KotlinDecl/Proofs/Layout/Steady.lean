import KotlinDecl.Proofs.Balance
import KotlinDecl.Proofs.Layout.Discipline
import KotlinDecl.Proofs.Writer

namespace KotlinDecl

namespace Writer

/-- The level apart from what the first line break of an open statement has added to it. -/
def base (w : Writer) : Int := if 0 < w.statement then w.level - continuation else w.level

/-- The writer is at the spot `s` of something that is written from the level `ground` on. -/
structure At (w : Writer) (ground : Nat) (s : Spot) : Prop where
  base_eq : w.base = ground + s.depth
  statement_le : -1 ≤ w.statement
  inside_iff : s.inside = true ↔ w.statement ≠ -1

theorem At.base_le_level {w : Writer} {ground : Nat} {s : Spot} (h : w.At ground s) :
    (ground + s.depth : Int) ≤ w.level := by
  have hb := h.base_eq
  simp only [base, continuation] at hb
  split at hb <;> omega

theorem At.statement_of_outside {w : Writer} {ground n : Nat} (h : w.At ground ⟨n, false⟩) :
    w.statement = -1 := by
  by_cases hs : w.statement = -1
  · exact hs
  · exact absurd (h.inside_iff.2 hs) Bool.false_ne_true

theorem At.level_of_outside {w : Writer} {ground n : Nat} (h : w.At ground ⟨n, false⟩) :
    w.level = ground + n := by
  have hb := h.base_eq
  rw [base, h.statement_of_outside] at hb
  simpa using hb

theorem at_of_outside {w : Writer} {ground n : Nat} (hs : w.statement = -1)
    (hl : w.level = ground + n) : w.At ground ⟨n, false⟩ := by
  refine ⟨?_, by omega, by simp [hs]⟩
  simp [base, hs, hl]

/-- The first line break of a statement adds to the level, but not to the base. -/
theorem At.put {w : Writer} {ground : Nat} {s : Spot} (h : w.At ground s) (c : Char) :
    (w.put c).2.At ground s := by
  rw [put_writer]
  split
  · have hb := h.base_eq
    have hs := h.statement_le
    refine ⟨?_, ?_, ?_⟩
    · simp only [base, broken, continuation] at hb ⊢
      grind
    · simp only [broken]
      grind
    · rw [h.inside_iff]
      simp only [broken]
      grind
  · exact ⟨h.base_eq, h.statement_le, h.inside_iff⟩

theorem At.emit {w : Writer} {ground : Nat} {s : Spot} (h : w.At ground s) (cs : List Char) :
    (w.emit cs).2.At ground s := by
  induction cs generalizing w with
  | nil => exact h
  | cons c cs ih => exact ih (h.put c)

end Writer

/-- What a step from `w` has to leave behind to be at the spot `s`. A comment may end in it, but
not begin. -/
structure Written.EndsAt (r : Written) (w : Writer) (ground : Nat) (s : Spot) : Prop where
  error : r.error = none
  spot : r.writer.At ground s
  scopes : r.writer.scopes = w.scopes
  comment : r.writer.comment = true → w.comment = true

namespace Layout

/-- The layout takes any writer at the spot `s` to the spot `t`, and cannot fail there. -/
def Leads (d : Layout) (s t : Spot) : Prop :=
  ∀ (w : Writer) (ground : Nat), w.At ground s → (d.run w).EndsAt w ground t

theorem leads_empty (s : Spot) : empty.Leads s s :=
  fun _ _ h => ⟨rfl, h, rfl, id⟩

theorem leads_text (t : String) (s : Spot) : (text t).Leads s s :=
  fun w _ h => ⟨rfl, h.emit _, w.emit_scopes _, fun hc => by rwa [← w.emit_comment t.toList]⟩

theorem Leads.append {a b : Layout} {s t u : Spot} (ha : a.Leads s t) (hb : b.Leads t u) :
    (a ++ b).Leads s u := by
  intro w ground h
  have hra := ha w ground h
  have hrb := hb (a.run w).writer ground hra.spot
  have he : (a ++ b).run w = (a.run w).andThen b.run := rfl
  rw [he, Written.andThen_of_ok hra.error]
  exact ⟨hrb.error, hrb.spot, hrb.scopes.trans hra.scopes, fun hc => hra.comment (hrb.comment hc)⟩

theorem leads_indent (n : Nat) (b : Bool) : indent.Leads ⟨n, b⟩ ⟨n + 1, b⟩ := by
  intro w ground h
  refine ⟨rfl, ⟨?_, h.statement_le, h.inside_iff⟩, rfl, id⟩
  have hb := h.base_eq
  simp only [run, Writer.quiet, Writer.indent, Writer.base] at hb ⊢
  split at hb <;> simp_all <;> omega

theorem leads_unindent (n : Nat) (b : Bool) : unindent.Leads ⟨n + 1, b⟩ ⟨n, b⟩ := by
  intro w ground h
  have hl : 1 ≤ w.level := by have := h.base_le_level; simp at this; omega
  rw [run, Writer.unindent_of_le hl]
  refine ⟨rfl, ⟨?_, h.statement_le, h.inside_iff⟩, rfl, id⟩
  have hb := h.base_eq
  simp only [Writer.quiet, Writer.base] at hb ⊢
  split at hb <;> simp_all <;> omega

theorem leads_openStatement (n : Nat) : openStatement.Leads ⟨n, false⟩ ⟨n, true⟩ := by
  intro w ground h
  rw [run, Writer.openStatement_of_closed h.statement_of_outside]
  refine ⟨rfl, ⟨?_, by simp [Writer.quiet], by simp [Writer.quiet]⟩, rfl, id⟩
  simpa [Writer.quiet, Writer.base] using h.level_of_outside

theorem leads_closeStatement (n : Nat) : closeStatement.Leads ⟨n, true⟩ ⟨n, false⟩ := by
  intro w ground h
  have hb := h.base_eq
  have hs : w.statement ≠ -1 := h.inside_iff.1 rfl
  have hl : 0 < w.statement → Writer.continuation ≤ w.level := by
    intro hp
    rw [Writer.base, if_pos hp] at hb
    omega
  rw [run, Writer.closeStatement_of_open hs hl]
  exact ⟨rfl, Writer.at_of_outside rfl hb, rfl, id⟩

theorem leads_freshLine (s : Spot) : freshLine.Leads s s := by
  intro w ground h
  simp only [run, Writer.freshLine]
  split
  · exact ⟨rfl, h, rfl, id⟩
  · exact leads_text "\n" s w ground h

theorem Leads.comment {d : Layout} {s t : Spot} (h : d.Leads s t) : (comment d).Leads s t := by
  intro w ground hw
  have hr := h { w with comment := true } ground ⟨hw.base_eq, hw.statement_le, hw.inside_iff⟩
  exact ⟨hr.error, ⟨hr.spot.base_eq, hr.spot.statement_le, hr.spot.inside_iff⟩, hr.scopes,
    fun hc => absurd hc Bool.false_ne_true⟩

def Steady (inside : Bool) (d : Layout) : Prop := ∀ n, d.Leads ⟨n, inside⟩ ⟨n, inside⟩

theorem Steady.contents {d : Layout} (h : d.Steady false) {w : Writer} (hl : 0 ≤ w.level) :
    (d.run { w with statement := -1 }).EndsAt w w.level.toNat ⟨0, false⟩ := by
  have hi : ({ w with statement := -1 } : Writer).At w.level.toNat ⟨0, false⟩ :=
    Writer.at_of_outside rfl (by simp only; omega)
  have hr := h 0 _ _ hi
  exact ⟨hr.error, hr.spot, hr.scopes, hr.comment⟩

/-- Inside a declaration the statement around it is forgotten, and remembered behind it. -/
theorem Steady.declaration {d : Layout} (h : d.Steady false) (b : Bool) :
    (declaration d).Steady b := by
  intro n w ground hw
  have hl := hw.base_le_level
  simp only at hl
  have hr := h.contents (w := w) (by omega)
  have hlevel : ((d.run { w with statement := -1 }).writer).level = w.level := by
    have := hr.spot.level_of_outside
    omega
  refine ⟨hr.error, ⟨?_, hw.statement_le, hw.inside_iff⟩, hr.scopes, hr.comment⟩
  have hb := hw.base_eq
  simp only [Writer.base] at hb ⊢
  rwa [run, hlevel]

theorem Steady.body {d : Layout} (h : d.Steady false) (scope : Value) :
    (body scope d).Steady false := by
  intro n w ground hw
  have hs := hw.statement_of_outside
  have hl := hw.level_of_outside
  have hi : ((w.pushScope scope).indent 1).At (ground + n + 1) ⟨0, false⟩ := by
    refine Writer.at_of_outside hs ?_
    simp only [Writer.indent, Writer.pushScope]
    omega
  have hr := h 0 _ _ hi
  refine ⟨hr.error, Writer.at_of_outside hr.spot.statement_of_outside hl, ?_, hr.comment⟩
  have hsc : (d.run ((w.pushScope scope).indent 1)).writer.scopes = scope :: w.scopes := hr.scopes
  simp only [run, hsc, List.tail_cons]

theorem steady_empty (b : Bool) : empty.Steady b := fun _ => leads_empty _

theorem steady_text (t : String) (b : Bool) : (text t).Steady b := fun _ => leads_text _ _

theorem steady_freshLine (b : Bool) : freshLine.Steady b := fun _ => leads_freshLine _

theorem Steady.append {a c : Layout} {b : Bool} (ha : a.Steady b) (hc : c.Steady b) :
    (a ++ c).Steady b := fun n => (ha n).append (hc n)

theorem Steady.comment {d : Layout} {b : Bool} (h : d.Steady b) : (Layout.comment d).Steady b :=
  fun n => (h n).comment

theorem Steady.indented {d : Layout} {b : Bool} (h : d.Steady b) :
    (indent ++ d ++ unindent).Steady b :=
  fun n => ((leads_indent n b).append (h (n + 1))).append (leads_unindent n b)

theorem Steady.block {code : Layout} {b : Bool} (h : code.Steady b) : (block code).Steady b :=
  fun n => (((((leads_text _ _).append (leads_indent n b)).append (h (n + 1))).append
    (leads_freshLine _)).append (leads_unindent n b)).append (leads_text _ _)

theorem Steady.statement {d : Layout} (h : d.Steady true) (front : String) :
    (text front ++ openStatement ++ d ++ closeStatement).Steady false :=
  fun n => (((leads_text front _).append (leads_openStatement n)).append (h n)).append
    (leads_closeStatement n)

def steadiness : Discipline where
  Keeps b d := d.Steady b
  strict := True
  empty := steady_empty
  text := steady_text
  freshLine := steady_freshLine
  append := Steady.append
  comment := Steady.comment
  indented := Steady.indented
  block := Steady.block
  statement front hb h := hb trivial ▸ h.statement front
  declaration b h := h.declaration b
  body scope h := h.body scope

end Layout

end KotlinDecl
