import KotlinDecl.Proofs.Layout.Frame
import KotlinDecl.Proofs.Writer.Comments

namespace KotlinDecl

namespace Text

def levels (unit : String) (k : Nat) : List Char := (List.replicate k unit.toList).flatten

def leveledLines (unit : String) (ls : List (Nat × List Char)) : List Char :=
  ls.flatMap fun l => levels unit l.1 ++ commentLine l.2 ++ ['\n']

/-- A text in which every line is marked as one of a comment. The last line is not ended unless a
line has just begun. -/
inductive Commented (unit : String) : Bool → List Char → Prop
  | ended (ls : List (Nat × List Char)) (h : ∀ l ∈ ls, '\n' ∉ l.2) :
    Commented unit true (leveledLines unit ls)
  | begun (ls : List (Nat × List Char)) (h : ∀ l ∈ ls, '\n' ∉ l.2) (k : Nat) (line : List Char)
    (hne : line ≠ []) (hline : '\n' ∉ line) :
    Commented unit false (leveledLines unit ls ++ levels unit k ++ commentLine line)

variable {unit : String}

theorem leveledLines_append (ls : List (Nat × List Char)) (k : Nat) (line : List Char) :
    leveledLines unit (ls ++ [(k, line)]) =
      leveledLines unit ls ++ levels unit k ++ commentLine line ++ ['\n'] := by
  simp [leveledLines]

theorem unbroken_append {ls : List (Nat × List Char)} (h : ∀ l ∈ ls, '\n' ∉ l.2) (k : Nat)
    {line : List Char} (hline : '\n' ∉ line) : ∀ l ∈ ls ++ [(k, line)], '\n' ∉ l.2 := by
  intro l hl
  rcases List.mem_append.1 hl with hl | hl
  · exact h l hl
  · rw [List.mem_singleton.1 hl]
    exact hline

theorem commentLine_append {line : List Char} (hne : line ≠ []) (c : Char) :
    commentLine line ++ [c] = commentLine (line ++ [c]) := by
  simp [commentLine, hne]

end Text

open Text

theorem Writer.put_commented {w : Writer} {t : List Char} (hc : w.comment = true)
    (ht : Commented w.unit w.lineStart t) (c : Char) :
    Commented w.unit (w.put c).2.lineStart (t ++ (w.put c).1) := by
  cases w with
  | mk unit level comment lineStart statement scopes =>
      cases hc
      by_cases hn : c = '\n'
      · subst hn
        cases ht with
        | ended ls h =>
            -- The empty line gets its mark now.
            have hlines : Commented unit true _ :=
              .ended _ (unbroken_append h level.toNat List.not_mem_nil)
            rw [leveledLines_append] at hlines
            simpa [put, broken, commentLine, indentation, levels] using hlines
        | begun ls h k line hne hline =>
            have hlines : Commented unit true _ := .ended _ (unbroken_append h k hline)
            rw [leveledLines_append] at hlines
            exact hlines
      · cases ht with
        | ended ls h =>
            have hline : '\n' ∉ [c] := fun hc => hn (List.mem_singleton.1 hc).symm
            have hlines : Commented unit false _ :=
              .begun ls h level.toNat [c] (List.cons_ne_nil c []) hline
            simpa [put, hn, commentLine, indentation, levels] using hlines
        | begun ls h k line hne hline =>
            have hlonger : '\n' ∉ line ++ [c] := by simp [hline, Ne.symm hn]
            have hlines : Commented unit false _ :=
              .begun ls h k _ (List.append_ne_nil_of_left_ne_nil hne [c]) hlonger
            rw [← commentLine_append hne, ← List.append_assoc] at hlines
            simpa [put, hn] using hlines

theorem Writer.emit_commented {w : Writer} {t : List Char} (hc : w.comment = true)
    (ht : Commented w.unit w.lineStart t) (cs : List Char) :
    Commented w.unit (w.emit cs).2.lineStart (t ++ (w.emit cs).1) := by
  induction cs generalizing w t with
  | nil => simpa [emit] using ht
  | cons c cs ih =>
      have hput := put_commented hc ht c
      have hunit : (w.put c).2.unit = w.unit := w.emit_unit [c]
      have hcomment : (w.put c).2.comment = true := (w.emit_comment [c]).trans hc
      rw [← hunit] at hput ⊢
      have hrest := ih hcomment hput
      rwa [List.append_assoc] at hrest

namespace Written.Silent

variable {r : Written} {w : Writer}

theorem comment (h : r.Silent w) : r.writer.comment = w.comment := by
  obtain ⟨level, statement, hw⟩ := h.writer
  rw [hw]

theorem commented (h : r.Silent w) {t : List Char} (ht : Commented w.unit w.lineStart t) :
    Commented w.unit r.writer.lineStart (t ++ r.text) := by
  obtain ⟨level, statement, hw⟩ := h.writer
  rw [h.text, hw, List.append_nil]
  exact ht

end Written.Silent

theorem Writer.comment_freshLine (w : Writer) : w.freshLine.writer.comment = w.comment := by
  unfold freshLine
  split
  · rfl
  · exact w.emit_comment ['\n']

namespace Layout

def hasComment : Layout → Bool
  | seq a b => a.hasComment || b.hasComment
  | comment _ => true
  | declaration d | body _ d => d.hasComment
  | _ => false

/-- Whether a comment begins while the layout is carried out on `w`. -/
def begins : Layout → Writer → Bool
  | seq a b, w => a.begins w || ((a.run w).error.isNone && b.begins (a.run w).writer)
  | comment _, _ => true
  | declaration d, w => d.begins { w with statement := -1 }
  | body scope d, w => d.begins ((w.pushScope scope).indent 1)
  | _, _ => false

variable {w : Writer}

theorem begins_append (a b : Layout) (w : Writer) :
    (a ++ b).begins w =
      (a.begins w || ((a.run w).error.isNone && b.begins (a.run w).writer)) := rfl

theorem begins_of_left {a : Layout} (h : a.begins w = true) (b : Layout) :
    (a ++ b).begins w = true := by
  rw [begins_append, h, Bool.true_or]

theorem begins_append_of_ok {a : Layout} (h : (a.run w).error = none) (b : Layout) :
    (a ++ b).begins w = (a.begins w || b.begins (a.run w).writer) := by
  simp [begins_append, h]

theorem begins_append_of_error {a : Layout} {e : Error} (h : (a.run w).error = some e)
    (b : Layout) : (a ++ b).begins w = a.begins w := by
  simp [begins_append, h]

/-- The flag stays as it was until a comment begins, and is off from then on. -/
theorem comment_run_eq (d : Layout) (w : Writer) :
    (d.run w).writer.comment = (w.comment && !d.begins w) := by
  induction d generalizing w with
  | empty | indent | fail e => exact (Bool.and_true _).symm
  | text s => exact (w.emit_comment s.toList).trans (Bool.and_true _).symm
  | seq a b iha ihb =>
      show ((a.run w).andThen b.run).writer.comment = (w.comment && !(a ++ b).begins w)
      cases he : (a.run w).error with
      | some e => rw [Written.andThen_of_error he, begins_append_of_error he, iha]
      | none =>
          rw [Written.andThen_of_ok he, begins_append_of_ok he, ihb, iha, Bool.not_or,
            Bool.and_assoc]
  | unindent => exact (w.silent_unindent 1).comment.trans (Bool.and_true _).symm
  | openStatement => exact w.silent_openStatement.comment.trans (Bool.and_true _).symm
  | closeStatement => exact w.silent_closeStatement.comment.trans (Bool.and_true _).symm
  | freshLine => exact w.comment_freshLine.trans (Bool.and_true _).symm
  | comment d ih => exact (Bool.and_false _).symm
  | declaration d ih => exact ih _
  | body scope d ih => exact ih _

theorem hasComment_of_begins {d : Layout} (h : d.begins w = true) : d.hasComment = true := by
  induction d generalizing w with
  | seq a b iha ihb =>
      rcases Bool.or_eq_true_iff.1 h with h | h
      · exact Bool.or_eq_true_iff.2 (.inl (iha h))
      · exact Bool.or_eq_true_iff.2 (.inr (ihb (Bool.and_eq_true_iff.1 h).2))
  | comment d ih => rfl
  | declaration d ih => exact ih h
  | body scope d ih => exact ih h
  | _ => cases h

theorem begins_of_ok {d : Layout} (h : (d.run w).error = none) : d.begins w = d.hasComment := by
  induction d generalizing w with
  | seq a b iha ihb =>
      obtain ⟨ha, hb⟩ := Written.error_of_andThen h
      have hseq := begins_append_of_ok ha b
      rw [iha ha, ihb hb] at hseq
      exact hseq
  | declaration d ih => exact ih h
  | body scope d ih => exact ih h
  | _ => rfl

theorem begins_kdoc (isEmpty : Bool) (d : Layout) (w : Writer) :
    (kdoc isEmpty d).begins w = !isEmpty := by
  cases isEmpty with
  | true => rfl
  | false =>
      apply begins_of_left
      rw [begins_append_of_ok rfl]
      rfl

/-- As long as no comment begins, everything in a comment is marked. -/
theorem run_commented {d : Layout} {t : List Char} (hc : w.comment = true)
    (hb : d.begins w = false) (ht : Commented w.unit w.lineStart t) :
    Commented w.unit (d.run w).writer.lineStart (t ++ (d.run w).text) := by
  induction d generalizing w t with
  | empty | indent | fail e => exact Written.Silent.commented (w := w) ⟨rfl, _, _, rfl⟩ ht
  | text s => exact Writer.emit_commented hc ht s.toList
  | seq a b iha ihb =>
      obtain ⟨hba, hbb⟩ := Bool.or_eq_false_iff.1 hb
      have hta := iha hc hba ht
      show Commented w.unit ((a.run w).andThen b.run).writer.lineStart
        (t ++ ((a.run w).andThen b.run).text)
      cases he : (a.run w).error with
      | some e => rwa [Written.andThen_of_error he]
      | none =>
          have hunit : (a.run w).writer.unit = w.unit := (a.run_leaves w).unit
          have hca : (a.run w).writer.comment = true := by rw [comment_run_eq, hc, hba]; rfl
          have hbb : b.begins (a.run w).writer = false := by simpa [he] using hbb
          rw [← hunit] at hta ⊢
          rw [Written.andThen_of_ok he, ← List.append_assoc]
          exact ihb hca hbb hta
  | unindent => exact (w.silent_unindent 1).commented ht
  | openStatement => exact w.silent_openStatement.commented ht
  | closeStatement => exact w.silent_closeStatement.commented ht
  | freshLine =>
      rw [run]
      unfold Writer.freshLine
      split
      · exact Written.Silent.commented (w := w) ⟨rfl, _, _, rfl⟩ ht
      · exact Writer.emit_commented hc ht ['\n']
  | comment d ih => cases hb
  | declaration d ih => exact ih (w := { w with statement := -1 }) hc hb ht
  | body scope d ih => exact ih (w := (w.pushScope scope).indent 1) hc hb ht

end Layout

def Writer.inComment (w : Writer) : Writer := { (w.emit "/**\n".toList).2 with comment := true }

theorem Writer.lineStart_inComment (w : Writer) : w.inComment.lineStart = true := by
  show (((((w.put '/').2.put '*').2.put '*').2).put '\n').2.lineStart = true
  rw [put_writer, if_pos rfl]
  rfl

theorem Writer.emit_closing {w : Writer} (hc : w.comment = false) (hl : w.lineStart = true) :
    (w.emit " */\n".toList).1 = w.indentation ++ " */\n".toList := by
  show (w.emit [' ', '*', '/', '\n']).1 = _
  simp [emit, put, hc, hl]

namespace Layout

variable {w : Writer}

theorem lineStart_run_freshLine (w : Writer) : (freshLine.run w).writer.lineStart = true := by
  rw [run]
  unfold Writer.freshLine
  split
  · assumption
  · show (w.put '\n').2.lineStart = true
    rw [Writer.put_writer, if_pos rfl]
    rfl

theorem lineStart_of_freshLine {d : Layout} (h : (d.run w).error = none) :
    ((d ++ freshLine).run w).writer.lineStart = true := by
  rw [writer_run_append h]
  exact lineStart_run_freshLine _

theorem contents_commented {d : Layout} (hb : d.begins w.inComment = false) :
    let c := (d ++ freshLine).run w.inComment
    Commented w.unit c.writer.lineStart c.text := by
  have hbegins : (d ++ freshLine).begins w.inComment = false := by
    simp [begins_append, hb, begins]
  have hstart : Commented w.inComment.unit w.inComment.lineStart [] := by
    rw [w.lineStart_inComment]
    exact .ended [] (List.forall_mem_nil _)
  have hunit : w.inComment.unit = w.unit := w.emit_unit _
  have hc := run_commented rfl hbegins hstart
  rwa [hunit, List.nil_append] at hc

theorem kdoc_commented {d : Layout} (hb : d.begins w.inComment = false) :
    let r := (kdoc false d).run w
    let front := (w.emit "/**\n".toList).1
    (r.error = none → ∃ t k, Commented w.unit true t ∧
      r.text = front ++ t ++ levels w.unit k ++ " */\n".toList) ∧
    (r.error ≠ none → ∃ b t, Commented w.unit b t ∧ r.text = front ++ t) := by
  intro r front
  let c := (d ++ freshLine).run w.inComment
  have hlines : Commented w.unit c.writer.lineStart c.text := contents_commented hb
  let s : Written := ⟨front ++ c.text, { c.writer with comment := false }, c.error⟩
  have hr : r = s.andThen (text " */\n").run := rfl
  cases he : s.error with
  | some e =>
      rw [hr, Written.andThen_of_error he]
      refine ⟨fun h => ?_, fun _ => ⟨_, _, hlines, rfl⟩⟩
      cases he.symm.trans h
  | none =>
      rw [hr, Written.andThen_of_ok he]
      have hok : ((text " */\n").run s.writer).error = none := rfl
      refine ⟨fun _ => ?_, fun h => absurd hok h⟩
      have hl : c.writer.lineStart = true :=
        lineStart_of_freshLine (Written.error_of_andThen he).1
      have hunit : c.writer.unit = w.unit := (run_leaves _ _).unit.trans (w.emit_unit _)
      have hindentation : s.writer.indentation = levels w.unit c.writer.level.toNat := by
        rw [← hunit]
        rfl
      have hclosing := Writer.emit_closing (w := s.writer) rfl hl
      rw [hindentation] at hclosing
      rw [hl] at hlines
      refine ⟨c.text, c.writer.level.toNat, hlines, ?_⟩
      rw [List.append_assoc (front ++ c.text), ← hclosing]
      rfl

end Layout

/-- The documentation that a declaration begins with in the place of a literal. An object
expression begins with none. -/
def Value.documentation : Value → CodeBlock
  | .decl _ (.function f) => f.kdoc
  | .decl _ (.property p) => p.kdoc
  | .decl _ (.typeDecl d) => if d.anonymous.isSome then ⟨[], []⟩ else d.kdoc
  | _ => ⟨[], []⟩

theorem FunDecl.begins_whole (unit : IndentUnit) {f : FunDecl} (h : f.kdoc.isEmpty = false)
    (w : Writer) : (f.pieces unit).whole.begins w = true := by
  have hkdoc : (f.pieces unit).kdoc.begins w = true := by
    cases f
    exact (Layout.begins_kdoc _ _ w).trans (congrArg (!·) h)
  simp only [FunPieces.whole, FunPieces.layout, Layout.begins_append, hkdoc, Bool.true_or]

theorem PropertyDecl.begins_whole (unit : IndentUnit) {p : PropertyDecl}
    (h : p.kdoc.isEmpty = false) (w : Writer) : (p.pieces unit).whole.begins w = true := by
  have hkdoc : (p.pieces unit).kdoc.begins w = true := by
    cases p
    exact (Layout.begins_kdoc _ _ w).trans (congrArg (!·) h)
  have hwhen : (Layout.when (!(Argument.flag false).isTrue) (p.pieces unit).kdoc).begins w = true :=
    hkdoc
  simp only [PropertyPieces.whole, PropertyPieces.memberLayout, PropertyPieces.layout,
    Layout.begins_append, hwhen, Bool.true_or]

theorem TypeDecl.begins_layout (unit : IndentUnit) {d : TypeDecl} (ha : d.anonymous = none)
    (h : d.kdoc.isEmpty = false) {fs : List (String × PropertyPieces)}
    (hfs : (d.pieces unit).folded = .ok fs) (w : Writer) :
    ((d.pieces unit).layout none).begins w = true := by
  have hkdoc (v : Writer) : (d.pieces unit).kdoc.begins v = true := by
    cases d
    exact (Layout.begins_kdoc _ _ v).trans (congrArg (!·) h)
  have hanonymous : (d.pieces unit).anonymous = none := by
    cases d
    exact (Value.forms?_eq _ _).trans (congrArg _ ha)
  have hfolded (v : Writer) : ((d.pieces unit).foldedLayout none fs).begins v = true := by
    simp only [TypePieces.foldedLayout, hanonymous, TypePieces.namedHeader, Layout.begins_append,
      hkdoc, Bool.true_or]
  rw [TypePieces.layout, hfs]
  exact hfolded _

theorem Value.begins_literal (unit : IndentUnit) {v : Value}
    (h : v.documentation.isEmpty = false) (w : Writer) :
    (v.forms unit).literal.begins w = true ∨
      ((v.forms unit).literal.run w).text = [] ∧ ((v.forms unit).literal.run w).error ≠ none := by
  cases v with
  | decl serial d =>
      cases d with
      | function f => exact .inl (f.begins_whole unit h w)
      | property p => exact .inl (p.begins_whole unit h w)
      | typeDecl d =>
          cases ha : d.anonymous with
          | some v =>
              rw [documentation, ha] at h
              cases h
          | none =>
              rw [documentation, ha] at h
              cases hfs : (d.pieces unit).folded with
              | ok fs => exact .inl (d.begins_layout unit ha h hfs w)
              | error e =>
                  refine .inr ?_
                  have hlayout : (d.pieces unit).layout none = .declaration (.fail e) := by
                    rw [TypePieces.layout, hfs]
                    rfl
                  have hliteral : (forms unit (.decl serial (.typeDecl d))).literal = _ := hlayout
                  rw [hliteral]
                  exact ⟨rfl, Option.some_ne_none e⟩
      | _ => cases h
  | _ => cases h

namespace Command

theorem run_of_layout {unit : IndentUnit} {c : Command} {d : Layout} (h : c.layout? unit = some d)
    (w : Writer) : c.run unit w = d.run w := by
  cases c <;> cases h <;> rfl

/-- The comment flag is as before unless it was on and a comment began, which is then the end of
both. Documentation begins a comment unless it is empty, and so does a declaration with
documentation in the place of a literal unless it fails at once. A comment in which no other begins
is marked from its first line to its last. -/
theorem comment_kept_iff (unit : IndentUnit) (w : Writer) :
    (∀ (c : Command) (d : Layout), c.layout? unit = some d →
      ((c.run unit w).writer.comment = w.comment ↔ (w.comment = true → d.begins w = false)) ∧
        (d.begins w = true → d.hasComment = true) ∧
        ((c.run unit w).error = none → d.begins w = d.hasComment)) ∧
    (∀ b : CodeBlock, (kdocLayout unit (.code b)).begins w = !b.isEmpty) ∧
    (∀ v : Value, v.documentation.isEmpty = false →
      let d := (v.forms unit).literal
      d.begins w = true ∨ (d.run w).text = [] ∧ (d.run w).error ≠ none) ∧
    ∀ b : CodeBlock, b.isEmpty = false → (b.layout unit).begins w.inComment = false →
      let r := (kdoc (.code b)).run unit w
      let front := (w.emit "/**\n".toList).1
      (r.error = none → ∃ t k, Commented w.unit true t ∧
        r.text = front ++ t ++ levels w.unit k ++ " */\n".toList) ∧
      (r.error ≠ none → ∃ ended t, Commented w.unit ended t ∧ r.text = front ++ t) := by
  refine ⟨fun c d hd => ?_, fun b => Layout.begins_kdoc _ _ w,
    fun v hv => Value.begins_literal unit hv w, fun b hne hb => ?_⟩
  · rw [run_of_layout hd]
    refine ⟨?_, Layout.hasComment_of_begins, Layout.begins_of_ok⟩
    rw [Layout.comment_run_eq]
    cases w.comment <;> simp
  · have hlayout : kdocLayout unit (.code b) = Layout.kdoc false (b.layout unit) := by
      rw [kdocLayout, hne]
    have hrun : (kdoc (.code b)).run unit w = (Layout.kdoc false (b.layout unit)).run w := by
      rw [← hlayout]
      rfl
    rw [hrun]
    exact Layout.kdoc_commented hb

/-- Two levels deep in a comment: a function without documentation in the place of a literal. -/
theorem comment_kept_iff_nested :
    let f : Value := .decl none (.function (.plain "f"))
    let b : CodeBlock := ⟨[.argument .literal, .text "x"], [f]⟩
    let w : Writer := { Writer.fresh "  " with level := 2, comment := true }
    let r := (kdoc (.code b)).run (.ok "  ") w
    ((value f []).run (.ok "  ") w).writer.comment = w.comment ∧ r.writer.comment ≠ w.comment ∧
      r.text = "     * /**\n     * fun f() \x7b\n     * \x7d\n     * x\n     */\n".toList ∧
      ∃ t k, Commented "  " true t ∧
        r.text = (w.emit "/**\n".toList).1 ++ t ++ levels "  " k ++ " */\n".toList := by
  intro f b w
  obtain ⟨hflag, hkdoc, _, hlines⟩ := comment_kept_iff (.ok "  ") w
  have hf : (f.writtenWith (.ok "  ") []).begins w = false := by decide
  have hb : (b.layout (.ok "  ")).begins w.inComment = false := by decide
  have hok : ((kdoc (.code b)).run (.ok "  ") w).error.isNone = true := by decide
  refine ⟨?_, ?_, by decide, ?_⟩
  · exact (hflag (value f []) _ rfl).1.2 fun _ => hf
  · intro h
    have hbegins := (hflag (kdoc (.code b)) _ rfl).1.1 h
    rw [hkdoc b] at hbegins
    cases hbegins rfl
  · exact (hlines b rfl hb).1 (Option.isNone_iff_eq_none.1 hok)

/-- Documentation of a function in documentation ends both, and the lines behind it are not marked.
Where the flag was on it is off. -/
theorem comment_ends_outer :
    let doc : CodeBlock := ⟨[.text "d"], []⟩
    let f : Value := .decl none (.function { FunDecl.plain "f" with kdoc := doc })
    let b : CodeBlock := ⟨[.argument .literal, .text "x"], [f]⟩
    let w : Writer := { Writer.fresh "  " with comment := true }
    ((kdoc (.code b)).run (.ok "  ") (.fresh "  ")).text =
        "/**\n * /**\n * d\n */\nfun f() \x7b\n\x7d\nx\n */\n".toList ∧
      ((kdoc (.code doc)).run (.ok "  ") w).error = none ∧
      ((kdoc (.code doc)).run (.ok "  ") w).writer.comment ≠ w.comment := by
  intro doc f b w
  have hok : ((kdoc (.code doc)).run (.ok "  ") w).error.isNone = true := by decide
  exact ⟨by decide, Option.isNone_iff_eq_none.1 hok, by decide⟩

end Command

end KotlinDecl
