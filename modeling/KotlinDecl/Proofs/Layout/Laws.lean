import KotlinDecl.Proofs.Results
import KotlinDecl.Proofs.Writer

namespace KotlinDecl

namespace Written

theorem andThen_assoc (r : Written) (k l : Writer → Written) :
    (r.andThen k).andThen l = r.andThen fun w => (k w).andThen l := by
  cases hr : r.error with
  | some e => rw [andThen_of_error hr, andThen_of_error hr, andThen_of_error hr]
  | none =>
      rw [andThen_of_ok hr, andThen_of_ok hr]
      cases hk : (k r.writer).error with
      | some e => rw [andThen_of_error rfl, andThen_of_error hk, hk]
      | none =>
          rw [andThen_of_ok rfl, andThen_of_ok hk]
          simp only [List.append_assoc]

theorem andThen_quiet (r : Written) : r.andThen Writer.quiet = r := by
  cases hr : r.error with
  | some e => exact andThen_of_error hr _
  | none =>
      rw [andThen_of_ok hr]
      simp [Writer.quiet, ← hr]

end Written

theorem Writer.emit_append (w : Writer) (cs ds : List Char) :
    w.emit (cs ++ ds) =
      ((w.emit cs).1 ++ ((w.emit cs).2.emit ds).1, ((w.emit cs).2.emit ds).2) := by
  induction cs generalizing w with
  | nil => rfl
  | cons c cs ih => simp only [List.cons_append, emit, ih, List.append_assoc]

namespace Layout

theorem run_append (a b : Layout) (w : Writer) : (a ++ b).run w = (a.run w).andThen b.run := rfl

theorem text_run_append {a : Layout} {w : Writer} (h : (a.run w).error = none) (b : Layout) :
    ((a ++ b).run w).text = (a.run w).text ++ (b.run (a.run w).writer).text := by
  rw [run_append, Written.andThen_of_ok h]

theorem writer_run_append {a : Layout} {w : Writer} (h : (a.run w).error = none) (b : Layout) :
    ((a ++ b).run w).writer = (b.run (a.run w).writer).writer := by
  rw [run_append, Written.andThen_of_ok h]

theorem run_append_congr {a a' b b' : Layout} (ha : a.run = a'.run) (hb : b.run = b'.run) :
    (a ++ b).run = (a' ++ b').run := by
  funext w
  rw [run_append, run_append, ha, hb]

theorem run_append_assoc (a b c : Layout) : (a ++ b ++ c).run = (a ++ (b ++ c)).run := by
  funext w
  exact Written.andThen_assoc (a.run w) b.run c.run

theorem run_append_empty (a : Layout) : (a ++ empty).run = a.run := by
  funext w
  exact Written.andThen_quiet (a.run w)

theorem run_text_append (s t : String) : (text (s ++ t)).run = (text s ++ text t).run := by
  funext w
  rw [run_append, Written.andThen_of_ok rfl]
  simp only [run, String.toList_append, Writer.emit_append, Writer.wrote]

theorem run_line {s : String} {c : Char} {cs : List Char} (hs : s.toList = c :: cs)
    (h : '\n' ∉ c :: cs) (w : Writer) :
    (text s).run w = ⟨w.margin ++ c :: cs, { w with lineStart := false }, none⟩ := by
  rw [run, hs, Writer.emit_line w h]
  rfl

theorem run_of_alone {d : Layout} {unit : IndentUnit} {s : String} (h : d.alone unit = .ok s) :
    ∃ u, unit = .ok u ∧ (d.run (.fresh u)).error = none ∧ s.toList = (d.run (.fresh u)).text := by
  obtain ⟨u, hu, hr⟩ := ok_of_bind h
  refine ⟨u, hu, ?_⟩
  simp only [render] at hr
  split at hr
  · cases hr
  · next hok =>
      cases hr
      exact ⟨hok, String.toList_ofList⟩

theorem run_separated_cons (sep d : Layout) (ds : List Layout) :
    (separated sep (d :: ds)).run = (d ++ concat (ds.map (sep ++ ·))).run := by
  induction ds generalizing d with
  | nil => exact (run_append_empty d).symm
  | cons e es ih =>
      have hstep : separated sep (d :: e :: es) = d ++ sep ++ separated sep (e :: es) := rfl
      have hrest : concat ((e :: es).map (sep ++ ·)) = sep ++ e ++ concat (es.map (sep ++ ·)) := rfl
      rw [hstep, hrest, run_append_assoc]
      apply run_append_congr rfl
      rw [run_append_assoc]
      exact run_append_congr rfl (ih e)

end Layout

end KotlinDecl
