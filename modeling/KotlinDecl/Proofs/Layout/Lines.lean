import KotlinDecl.Proofs.Layout.Frame
import KotlinDecl.Proofs.Layout.Laws

namespace KotlinDecl

open Layout (text empty indent unindent)

structure Written.EndsLine (r : Written) : Prop where
  text : r.text.getLast? = some '\n'
  lineStart : r.writer.lineStart = true

theorem Written.EndsLine.andThen {r : Written} (hr : r.error = none) {k : Writer → Written}
    (h : (k r.writer).EndsLine) : (r.andThen k).EndsLine := by
  rw [andThen_of_ok hr]
  refine ⟨?_, h.lineStart⟩
  rw [List.getLast?_append, h.text]
  rfl

theorem Writer.emit_break {w : Writer} (hc : w.comment = false) :
    w.emit ['\n'] = (['\n'], w.broken) := by
  simp [emit, put, hc]

theorem Writer.emit_endsLine {w : Writer} (hc : w.comment = false) {cs : List Char}
    (h : cs.getLast? = some '\n') : (wrote (w.emit cs)).EndsLine := by
  obtain ⟨front, rfl⟩ := List.getLast?_eq_some_iff.1 h
  have hc' : (w.emit front).2.comment = false := (w.emit_comment front).trans hc
  rw [emit_append, emit_break hc']
  exact ⟨List.getLast?_concat, rfl⟩

namespace Layout

/-- What comes to its end ends a line. -/
def EndsLine (d : Layout) : Prop :=
  ∀ w, w.comment = false → (d.run w).error = none → (d.run w).EndsLine

/-- What comes to its end ends a line or writes nothing. -/
def KeepsLine (d : Layout) : Prop :=
  ∀ w, w.comment = false → (d.run w).error = none →
    (d.run w).EndsLine ∨ ((d.run w).text = [] ∧ (d.run w).writer.lineStart = w.lineStart)

theorem comment_run (d : Layout) {w : Writer} (hc : w.comment = false) :
    (d.run w).writer.comment = false := by
  rw [← Bool.not_eq_true]
  intro h
  exact absurd ((d.run_leaves w).comment h) (by simp [hc])

theorem endsLine_text {s : String} (h : s.toList.getLast? = some '\n') : (text s).EndsLine :=
  fun _ hc _ => Writer.emit_endsLine hc h

theorem endsLine_fail (e : Error) : (fail e).EndsLine := by
  intro w _ h
  cases h

theorem EndsLine.keepsLine {d : Layout} (h : d.EndsLine) : d.KeepsLine :=
  fun w hc hok => .inl (h w hc hok)

theorem keepsLine_empty : empty.KeepsLine := fun _ _ _ => .inr ⟨rfl, rfl⟩

theorem keepsLine_indent : indent.KeepsLine := fun _ _ _ => .inr ⟨rfl, rfl⟩

theorem keepsLine_unindent : unindent.KeepsLine := by
  intro w _ hok
  have hl := Writer.le_of_unindent hok
  refine .inr ?_
  rw [run, Writer.unindent_of_le hl]
  exact ⟨rfl, rfl⟩

theorem EndsLine.prepend {b : Layout} (hb : b.EndsLine) (a : Layout) : (a ++ b).EndsLine := by
  intro w hc hok
  obtain ⟨ha, hok⟩ := Written.error_of_andThen hok
  exact .andThen ha (hb _ (a.comment_run hc) hok)

theorem EndsLine.append {a b : Layout} (ha : a.EndsLine) (hb : b.KeepsLine) :
    (a ++ b).EndsLine := by
  intro w hc hok
  obtain ⟨hoka, hokb⟩ := Written.error_of_andThen hok
  have hra := ha w hc hoka
  rcases hb _ (a.comment_run hc) hokb with hrb | ⟨htext, hstart⟩
  · exact .andThen hoka hrb
  · rw [run_append, Written.andThen_of_ok hoka, htext, List.append_nil]
    exact ⟨hra.text, hstart.trans hra.lineStart⟩

theorem KeepsLine.append {a b : Layout} (ha : a.KeepsLine) (hb : b.KeepsLine) :
    (a ++ b).KeepsLine := by
  intro w hc hok
  obtain ⟨hoka, hokb⟩ := Written.error_of_andThen hok
  rcases hb _ (a.comment_run hc) hokb with hrb | ⟨htext, hstart⟩
  · exact .inl (.andThen hoka hrb)
  · rw [run_append, Written.andThen_of_ok hoka, htext, List.append_nil]
    rcases ha w hc hoka with hra | ⟨htext', hstart'⟩
    · exact .inl ⟨hra.text, hstart.trans hra.lineStart⟩
    · exact .inr ⟨htext', hstart.trans hstart'⟩

theorem EndsLine.declaration {d : Layout} (h : d.EndsLine) : (declaration d).EndsLine := by
  intro w hc hok
  have hr := h { w with statement := -1 } hc hok
  exact ⟨hr.text, hr.lineStart⟩

theorem EndsLine.orFail_map {α : Type} {f : α → Layout} (h : ∀ a, (f a).EndsLine)
    (x : Except Error α) : (Layout.orFail (x.map f)).EndsLine := by
  cases x with
  | ok a => exact h a
  | error e => exact endsLine_fail e

theorem endsLine_block (code : Layout) : (block code).EndsLine :=
  EndsLine.prepend (endsLine_text rfl) _

theorem EndsLine.code {ps : List Part} (h : ∀ args, (Layout.code ps args).EndsLine)
    (qs : List Part) (args : List (Placeholder → Layout)) :
    (Layout.code (qs ++ ps) args).EndsLine := by
  induction qs generalizing args with
  | nil => exact h args
  | cons q qs ih =>
      cases q with
      | argument p =>
          cases args with
          | nil => exact endsLine_fail _
          | cons a args => exact (ih args).prepend (a p)
      | split c => exact endsLine_fail _
      | _ => exact (ih args).prepend _

def memberTexts : List Layout → Writer → List (List Char)
  | [], _ => []
  | d :: ds, w => (d.run w).text :: memberTexts ds ((d.run w).writer.emit ['\n']).2

theorem error_run_body (scope : Value) (d : Layout) (w : Writer) :
    ((body scope d).run w).error = (d.run ((w.pushScope scope).indent 1)).error := rfl

theorem ok_of_run_members {first : Bool} {ms : List (Except Error Layout)} {w : Writer}
    (h : ((members first ms).run w).error = none) : ∃ ds : List Layout, ms = ds.map .ok := by
  induction ms generalizing first w with
  | nil => exact ⟨[], rfl⟩
  | cons m ms ih =>
      cases m with
      | error e => cases h
      | ok d =>
          obtain ⟨_, hrest⟩ := Written.error_of_andThen h
          obtain ⟨ds, rfl⟩ := ih hrest
          exact ⟨d :: ds, rfl⟩

theorem run_break_append {w : Writer} (hc : w.comment = false) (d : Layout) :
    (text "\n" ++ d).run w =
      let r := d.run (w.emit ['\n']).2
      ⟨'\n' :: r.text, r.writer, r.error⟩ := by
  rw [run_append, Written.andThen_of_ok rfl]
  have hbreak : (text "\n").run w = ⟨['\n'], (w.emit ['\n']).2, none⟩ := by
    show Writer.wrote (w.emit ['\n']) = _
    rw [Writer.emit_break hc]
    rfl
  rw [hbreak]
  rfl

theorem run_later_members {ds : List Layout} {w : Writer} (hc : w.comment = false)
    (hds : ∀ d ∈ ds, d.EndsLine)
    (hok : ((members false (ds.map .ok)).run w).error = none) :
    let r := (members false (ds.map .ok)).run w
    let ts := memberTexts ds (w.emit ['\n']).2
    r.text = ts.flatMap ('\n' :: ·) ∧ (∀ t ∈ ts, t.getLast? = some '\n') ∧
      (w.lineStart = true → r.writer.lineStart = true) := by
  induction ds generalizing w with
  | nil => exact ⟨rfl, List.forall_mem_nil _, id⟩
  | cons d ds ih =>
      intro r ts
      obtain ⟨hd, hds⟩ := List.forall_mem_cons.1 hds
      obtain ⟨hfirst, hrest⟩ := Written.error_of_andThen (r := (text "\n" ++ d).run w) hok
      have hrun : r = ((text "\n" ++ d).run w).andThen (members false (ds.map .ok)).run := rfl
      have hv : (w.emit ['\n']).2.comment = false := (w.emit_comment ['\n']).trans hc
      rw [run_break_append hc] at hfirst hrest hrun
      have hline := hd _ hv hfirst
      obtain ⟨htext, hends, hstart⟩ := ih (d.comment_run hv) hds hrest
      rw [Written.andThen_of_ok hfirst] at hrun
      refine ⟨?_, List.forall_mem_cons.2 ⟨hline.text, hends⟩, fun _ => ?_⟩
      · rw [hrun]
        exact congrArg ('\n' :: (d.run (w.emit ['\n']).2).text ++ ·) htext
      · rw [hrun]
        exact hstart hline.lineStart

theorem intercalate_cons (c : Char) (t : List Char) (ts : List (List Char)) :
    [c].intercalate (t :: ts) = t ++ ts.flatMap (c :: ·) := by
  induction ts generalizing t with
  | nil => exact List.intercalate_singleton.trans (List.append_nil t).symm
  | cons u ts ih =>
      rw [List.intercalate_cons_cons, ih, List.flatMap_cons, List.append_assoc]
      rfl

/-- Members are written with a line break between neighbours and none around them, and each ends
its last line. -/
theorem run_members {ds : List Layout} {w : Writer} (hne : ds ≠ []) (hc : w.comment = false)
    (hds : ∀ d ∈ ds, d.EndsLine)
    (hok : ((members true (ds.map .ok)).run w).error = none) :
    let r := (members true (ds.map .ok)).run w
    let ts := memberTexts ds w
    r.text = ['\n'].intercalate ts ∧ (∀ t ∈ ts, t.getLast? = some '\n') ∧
      r.writer.lineStart = true := by
  cases ds with
  | nil => exact absurd rfl hne
  | cons d ds =>
      intro r ts
      obtain ⟨hd, hds⟩ := List.forall_mem_cons.1 hds
      obtain ⟨hfirst, hrest⟩ := Written.error_of_andThen (r := d.run w) hok
      have hrun : r = (d.run w).andThen (members false (ds.map .ok)).run := rfl
      have hline := hd w hc hfirst
      obtain ⟨htext, hends, hstart⟩ := run_later_members (d.comment_run hc) hds hrest
      rw [Written.andThen_of_ok hfirst] at hrun
      refine ⟨?_, List.forall_mem_cons.2 ⟨hline.text, hends⟩, ?_⟩
      · rw [hrun]
        exact (congrArg ((d.run w).text ++ ·) htext).trans (intercalate_cons _ _ _).symm
      · rw [hrun]
        exact hstart hline.lineStart

theorem memberTexts_ne_nil {ds : List Layout} (h : ds ≠ []) (w : Writer) :
    memberTexts ds w ≠ [] := by
  cases ds with
  | nil => exact absurd rfl h
  | cons d ds => exact List.cons_ne_nil _ _

theorem opening_brace_suffix {w : Writer} (hc : w.comment = false) :
    " \x7b\n".toList <:+ ((text " \x7b\n").run w).text := by
  refine ⟨if w.lineStart then w.indentation else [], ?_⟩
  show _ = (w.emit [' ', '\x7b', '\n']).1
  cases hs : w.lineStart <;> simp [Writer.emit, Writer.put, hc, hs]

theorem run_closing_brace {w : Writer} (hc : w.comment = false) (hs : w.lineStart = true) :
    (text "\x7d").run w = ⟨w.indentation ++ ['\x7d'], { w with lineStart := false }, none⟩ := by
  show Writer.wrote (w.emit ['\x7d']) = _
  simp [Writer.emit, Writer.put, Writer.wrote, hc, hs]

theorem run_when_break {w : Writer} (hc : w.comment = false) (b : Bool) :
    ((Layout.when b (text "\n")).run w).text = if b then ['\n'] else [] := by
  cases b with
  | false => rfl
  | true => exact congrArg Prod.fst (Writer.emit_break hc)

theorem ok_of_run_braces {front ms close : Layout} {scope : Value} {w : Writer}
    (h : ((front ++ body scope ms ++ text "\x7d" ++ close).run w).error = none) :
    (front.run w).error = none ∧
      (ms.run (((front.run w).writer.pushScope scope).indent 1)).error = none := by
  obtain ⟨hbrace, _⟩ := Written.error_of_andThen h
  obtain ⟨hbody, _⟩ := Written.error_of_andThen hbrace
  obtain ⟨hfront, hmembers⟩ := Written.error_of_andThen hbody
  rw [error_run_body] at hmembers
  exact ⟨hfront, hmembers⟩

/-- A body in braces, with at least one member. The closing brace stands on a line of its own, as
far in as what stands in front of the body has left the writer. -/
theorem run_braces {ds : List Layout} {w : Writer} (hne : ds ≠ []) (hc : w.comment = false)
    (hds : ∀ d ∈ ds, d.EndsLine) (front : Layout) (scope : Value) (broken : Bool)
    (hok : ((front ++ body scope (members true (ds.map .ok)) ++ text "\x7d" ++
      Layout.when broken (text "\n")).run w).error = none) :
    let v := (front.run w).writer
    let ts := memberTexts ds ((v.pushScope scope).indent 1)
    ((front ++ body scope (members true (ds.map .ok)) ++ text "\x7d" ++
      Layout.when broken (text "\n")).run w).text =
        (front.run w).text ++ ['\n'].intercalate ts ++ v.indentation ++
          '\x7d' :: (if broken then ['\n'] else []) ∧
      ∀ t ∈ ts, t.getLast? = some '\n' := by
  intro v ts
  obtain ⟨hfront, hmembers⟩ := ok_of_run_braces hok
  obtain ⟨hbrace, _⟩ := Written.error_of_andThen hok
  obtain ⟨hbody, _⟩ := Written.error_of_andThen hbrace
  have hv : v.comment = false := front.comment_run hc
  obtain ⟨htext, hends, hstart⟩ :=
    run_members (w := (v.pushScope scope).indent 1) hne hv hds hmembers
  let b := (body scope (members true (ds.map .ok))).run v
  have hb : b.writer.comment = false := comment_run _ hv
  have hindentation : b.writer.indentation = v.indentation := by
    have hunit : b.writer.unit = v.unit := (run_leaves _ v).unit
    unfold Writer.indentation
    rw [hunit]
    rfl
  have hmembersText : b.text = ['\n'].intercalate ts := htext
  refine ⟨?_, hends⟩
  rw [text_run_append hbrace, text_run_append hbody, text_run_append hfront,
    writer_run_append hfront, run_when_break (comment_run _ hc), run_closing_brace hb hstart,
    hindentation, hmembersText]
  simp only [List.append_assoc, List.singleton_append]

end Layout

end KotlinDecl
