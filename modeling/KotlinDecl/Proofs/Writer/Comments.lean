import KotlinDecl.Proofs.Forms
import KotlinDecl.Proofs.Writer.Lines
import KotlinDecl.Writer.Command

namespace KotlinDecl

namespace Text

def withoutEmptyLast (lines : List (List Char)) : List (List Char) :=
  if lines.getLast? = some [] then lines.dropLast else lines

/-- The lines of a text. A break at the end begins no further line, and the empty text has none. -/
def properLines (cs : List Char) : List (List Char) := withoutEmptyLast (cs.splitOn '\n')

def commentLine (line : List Char) : List Char :=
  [' ', '*'] ++ if line = [] then [] else ' ' :: line

def commentLines (front : List Char) (lines : List (List Char)) : List Char :=
  lines.flatMap fun line => front ++ commentLine line ++ ['\n']

def framed (front : List Char) (lines : List (List Char)) : List Char :=
  front ++ "/**\n".toList ++ commentLines front lines ++ front ++ " */\n".toList

/-- Reads the lines of a comment that is indented by `width` characters, up to the end mark. -/
def readCommentLines (width : Nat) (cs : List Char) : List (List Char) :=
  match _h : cs.drop width with
  | ' ' :: '*' :: '\n' :: rest => [] :: readCommentLines width rest
  | ' ' :: '*' :: ' ' :: rest =>
    rest.takeWhile (· ≠ '\n') :: readCommentLines width (rest.dropWhile (· ≠ '\n')).tail
  | _ => []
termination_by cs.length
decreasing_by
  · have hlength := congrArg List.length _h
    simp only [List.length_drop, List.length_cons] at hlength
    omega
  · have hlength := congrArg List.length _h
    have hrest := (List.dropWhile_suffix (l := rest) (· ≠ '\n')).length_le
    simp only [List.length_drop, List.length_cons, List.length_tail] at hlength hrest ⊢
    omega

def readComment (width : Nat) (cs : List Char) : List (List Char) :=
  readCommentLines width (cs.drop (width + "/**\n".length))

def completed (cs : List Char) : List Char :=
  if cs = [] ∨ cs.getLast? = some '\n' then cs else cs ++ ['\n']

theorem withoutEmptyLast_cons (line : List Char) {lines : List (List Char)} (h : lines ≠ []) :
    withoutEmptyLast (line :: lines) = line :: withoutEmptyLast lines := by
  obtain ⟨next, rest, rfl⟩ := List.exists_cons_of_ne_nil h
  unfold withoutEmptyLast
  rw [List.getLast?_cons_cons, List.dropLast_cons_cons]
  split <;> rfl

theorem completed_append (cs ds : List Char) :
    completed (cs ++ ['\n'] ++ ds) = cs ++ ['\n'] ++ completed ds := by
  unfold completed
  cases ds with
  | nil => simp
  | cons d ds =>
      have hlast : (cs ++ ['\n'] ++ d :: ds).getLast? = (d :: ds).getLast? := by
        rw [List.getLast?_append, List.getLast?_cons, Option.some_or]
      rw [hlast]
      by_cases h : (d :: ds).getLast? = some '\n' <;> simp [h]

theorem intercalate_completed {lines : List (List Char)} (hne : lines ≠ [])
    (h : ∀ line ∈ lines, '\n' ∉ line) :
    (withoutEmptyLast lines).flatMap (· ++ ['\n']) = completed (['\n'].intercalate lines) := by
  induction lines with
  | nil => exact absurd rfl hne
  | cons line lines ih =>
      obtain ⟨hline, hlines⟩ := List.forall_mem_cons.1 h
      cases lines with
      | nil =>
          rw [List.intercalate_singleton]
          cases line with
          | nil => rfl
          | cons c cs =>
              have hlast : (c :: cs).getLast? ≠ some '\n' :=
                fun hl => hline (List.mem_of_getLast? hl)
              simp [withoutEmptyLast, completed, hlast]
      | cons next lines =>
          rw [withoutEmptyLast_cons line (List.cons_ne_nil next lines), List.flatMap_cons,
            ih (List.cons_ne_nil next lines) hlines, List.intercalate_cons_cons,
            completed_append]

theorem flatMap_properLines (cs : List Char) :
    (properLines cs).flatMap (· ++ ['\n']) = completed cs := by
  have h := intercalate_completed (List.splitOn_ne_nil '\n' cs) fun _ => not_mem_of_mem_splitOn
  rwa [List.intercalate_splitOn] at h

theorem not_mem_properLines {cs line : List Char} (h : line ∈ properLines cs) : '\n' ∉ line := by
  unfold properLines withoutEmptyLast at h
  split at h
  · exact not_mem_of_mem_splitOn ((List.dropLast_sublist _).subset h)
  · exact not_mem_of_mem_splitOn h

theorem readCommentLines_cons (front : List Char) {line : List Char} (h : '\n' ∉ line)
    (rest : List Char) :
    readCommentLines front.length (front ++ commentLine line ++ ['\n'] ++ rest) =
      line :: readCommentLines front.length rest := by
  rw [List.append_assoc, List.append_assoc, readCommentLines, List.drop_left]
  cases line with
  | nil => rfl
  | cons c cs =>
      have hall : ∀ d ∈ c :: cs, decide (d ≠ '\n') = true := by
        intro d hd
        apply decide_eq_true
        rintro rfl
        exact h hd
      show (c :: cs ++ '\n' :: rest).takeWhile (· ≠ '\n') :: readCommentLines front.length
        ((c :: cs ++ '\n' :: rest).dropWhile (· ≠ '\n')).tail = _
      rw [List.takeWhile_append_of_pos hall, List.dropWhile_append_of_pos hall]
      simp

theorem readCommentLines_end (front rest : List Char) :
    readCommentLines front.length (front ++ ' ' :: '*' :: '/' :: rest) = [] := by
  rw [readCommentLines, List.drop_left]
  rfl

theorem readCommentLines_commentLines (front : List Char) {lines : List (List Char)}
    (h : ∀ line ∈ lines, '\n' ∉ line) (rest : List Char) :
    readCommentLines front.length
      (commentLines front lines ++ (front ++ ' ' :: '*' :: '/' :: rest)) = lines := by
  induction lines with
  | nil => exact readCommentLines_end front rest
  | cons line lines ih =>
      obtain ⟨hline, hlines⟩ := List.forall_mem_cons.1 h
      rw [commentLines, List.flatMap_cons, List.append_assoc, readCommentLines_cons front hline]
      exact congrArg _ (ih hlines)

theorem readComment_framed (front : List Char) {lines : List (List Char)}
    (h : ∀ line ∈ lines, '\n' ∉ line) :
    readComment front.length (framed front lines) = lines := by
  have hdrop : (framed front lines).drop (front.length + "/**\n".length) =
      commentLines front lines ++ (front ++ " */\n".toList) := by
    have hlength : (front ++ "/**\n".toList).length = front.length + "/**\n".length :=
      List.length_append
    rw [← hlength, framed, List.append_assoc, List.append_assoc, List.drop_left]
  rw [readComment, hdrop]
  exact readCommentLines_commentLines front h ['\n']

end Text

open Text

namespace Writer

variable {w : Writer}

theorem broken_of_outside (hs : w.statement = -1) : w.broken = { w with lineStart := true } := by
  cases w with
  | mk unit level comment lineStart statement scopes =>
      cases hs
      rfl

theorem emit_outside_line (hc : w.comment = false) (hl : w.lineStart = true)
    (hs : w.statement = -1) {line : List Char} (hne : line ≠ []) (h : '\n' ∉ line) :
    w.emit (line ++ ['\n']) = (w.indentation ++ line ++ ['\n'], w) := by
  obtain ⟨c, cs, rfl⟩ := List.exists_cons_of_ne_nil hne
  rw [emit_append, emit_line w h]
  cases w with
  | mk unit level comment lineStart statement scopes =>
      cases hc
      cases hl
      cases hs
      simp [emit, put, broken, margin]

/-- An empty line is marked when the break behind it comes, any other when its text does. -/
theorem emit_comment_line (hc : w.comment = true) (hl : w.lineStart = true)
    (hs : w.statement = -1) (line : List Char) :
    (w.emitLine line).1 ++ ((w.emitLine line).2.put '\n').1 =
        w.indentation ++ commentLine line ++ ['\n'] ∧
      ((w.emitLine line).2.put '\n').2 = w := by
  cases w with
  | mk unit level comment lineStart statement scopes =>
      cases hc
      cases hl
      cases hs
      by_cases h : line = [] <;> simp [emitLine, h, put, broken, margin, commentLine, indentation]

theorem freshLine_of_begun (h : w.lineStart = false) : w.freshLine = wrote (w.put '\n') := by
  simp [freshLine, h, emit]

theorem emitLines_comment (hc : w.comment = true) (hl : w.lineStart = true)
    (hs : w.statement = -1) {lines : List (List Char)} (hne : lines ≠ []) :
    (wrote (w.emitLines lines)).andThen freshLine =
      ⟨commentLines w.indentation (withoutEmptyLast lines), w, none⟩ := by
  induction lines with
  | nil => exact absurd rfl hne
  | cons line lines ih =>
      obtain ⟨htext, hwriter⟩ := emit_comment_line hc hl hs line
      cases lines with
      | nil =>
          rw [emitLines, Written.andThen_of_ok rfl]
          by_cases h : line = []
          · simp [h, emitLine, wrote, freshLine, hl, quiet, withoutEmptyLast, commentLines]
          · have hbegun : (w.emitLine line).2.lineStart = false := by simp [emitLine, h]
            have hlast : withoutEmptyLast [line] = [line] := by simp [withoutEmptyLast, h]
            simp [wrote, freshLine_of_begun hbegun, htext, hwriter, hlast, commentLines]
      | cons next lines =>
          have hrest := ih (List.cons_ne_nil next lines)
          rw [Written.andThen_of_ok rfl, Written.mk.injEq] at hrest
          obtain ⟨hrest, hlast, herror⟩ := hrest
          rw [withoutEmptyLast_cons line (List.cons_ne_nil next lines), commentLines,
            List.flatMap_cons, ← htext, Written.andThen_of_ok rfl, emitLines, hwriter,
            Written.mk.injEq]
          refine ⟨?_, hlast, herror⟩
          exact (List.append_assoc _ _ _).trans (congrArg _ hrest)

end Writer

namespace Layout

variable {w : Writer}

theorem run_comment_congr {d e : Layout} (h : d.run = e.run) :
    (comment d).run = (comment e).run := by
  funext w
  rw [run, run, h]

theorem run_comment_text (hl : w.lineStart = true) (hs : w.statement = -1) (s : String) :
    (comment (text s ++ freshLine)).run w =
      ⟨commentLines w.indentation (properLines s.toList), { w with comment := false }, none⟩ := by
  have hlines := Writer.emitLines_comment (w := { w with comment := true }) rfl hl hs
    (List.splitOn_ne_nil '\n' s.toList)
  rw [← Writer.emit_eq_emitLines] at hlines
  have hrun : (text s ++ freshLine).run { w with comment := true } = _ := hlines
  rw [run, hrun]
  rfl

theorem run_outside_line (hc : w.comment = false) (hl : w.lineStart = true)
    (hs : w.statement = -1) {s : String} (line : List Char) (h : s.toList = line ++ ['\n'])
    (hne : line ≠ []) (hb : '\n' ∉ line) :
    (text s).run w = ⟨w.indentation ++ s.toList, w, none⟩ := by
  rw [run, h, Writer.emit_outside_line hc hl hs hne hb, List.append_assoc]
  rfl

theorem run_kdoc_text (hc : w.comment = false) (hl : w.lineStart = true) (hs : w.statement = -1)
    {d : Layout} {s : String} (hd : d.run = (text s).run) :
    (kdoc false d).run w = ⟨framed w.indentation (properLines s.toList), w, none⟩ := by
  have hopen : (text "/**\n").run w = ⟨w.indentation ++ "/**\n".toList, w, none⟩ :=
    run_outside_line hc hl hs ['/', '*', '*'] rfl (by decide) (by decide)
  have hclose : (text " */\n").run w = ⟨w.indentation ++ " */\n".toList, w, none⟩ :=
    run_outside_line hc hl hs [' ', '*', '/'] rfl (by decide) (by decide)
  have hcomment : (comment (d ++ freshLine)).run w =
      ⟨commentLines w.indentation (properLines s.toList), w, none⟩ := by
    have hsame : { w with comment := false } = w := by rw [← hc]
    have hcode : (d ++ freshLine).run = (text s ++ freshLine).run := run_append_congr hd rfl
    rw [run_comment_congr hcode, run_comment_text hl hs, hsame]
  show (text "/**\n" ++ comment (d ++ freshLine) ++ text " */\n").run w = _
  rw [run_append, run_append, hopen]
  simp only [Written.andThen, hcomment, hclose, framed, List.append_assoc]

end Layout

def Part.isWording : Part → Bool
  | .text _ | .percent | .wrap => true
  | .argument p => p ≠ .type
  | _ => false

def Value.isString : Value → Bool
  | .str _ => true
  | _ => false

def CodeBlock.isWording (c : CodeBlock) : Bool :=
  c.parts.all Part.isWording && c.args.all Value.isString

theorem Value.argument_wording (unit : IndentUnit) {v : Value} (hv : v.isString = true)
    {p : Placeholder} (hp : p ≠ .type) : ∃ s, (v.forms unit).argument p = .text s := by
  cases v with
  | str s =>
      cases p with
      | type => exact absurd rfl hp
      | _ => exact ⟨_, rfl⟩
  | _ => cases hv

namespace Layout

/-- The layout does what a text does, or cannot be carried out. -/
def IsWording (d : Layout) : Prop :=
  (∃ s, d.run = (text s).run) ∨ ∀ w, (d.run w).error ≠ none

theorem IsWording.behind {d : Layout} (h : d.IsWording) (s : String) :
    (text s ++ d).IsWording := by
  rcases h with ⟨t, ht⟩ | h
  · refine .inl ⟨s ++ t, ?_⟩
    rw [run_text_append]
    exact run_append_congr rfl ht
  · refine .inr fun w => ?_
    rw [run_append, Written.andThen_of_ok rfl]
    exact h _

theorem isWording_code (unit : IndentUnit) {ps : List Part} {vs : List Value}
    (hps : ps.all Part.isWording = true) (hvs : vs.all Value.isString = true) :
    (code ps (vs.map fun v => (v.forms unit).argument)).IsWording := by
  induction ps generalizing vs with
  | nil => exact .inl ⟨"", rfl⟩
  | cons p ps ih =>
      obtain ⟨hp, hrest⟩ := Bool.and_eq_true_iff.1 hps
      cases p with
      | argument p =>
          cases vs with
          | nil => exact .inr fun w => nofun
          | cons v vs =>
              obtain ⟨hv, hvs⟩ := Bool.and_eq_true_iff.1 hvs
              obtain ⟨s, hs⟩ := v.argument_wording unit hv (of_decide_eq_true hp)
              show ((v.forms unit).argument p ++ _).IsWording
              rw [hs]
              exact (ih hrest hvs).behind s
      | text | percent | wrap => exact (ih hrest hvs).behind _
      | _ => cases hp

end Layout

theorem Writer.emit_outermost {w : Writer} (hc : w.comment = false) (hl : w.level ≤ 0)
    (hs : w.statement = -1) (cs : List Char) : (w.emit cs).1 = cs := by
  induction cs generalizing w with
  | nil => rfl
  | cons c cs ih =>
      have hfront : w.indentation = [] := by simp [indentation, Int.toNat_of_nonpos hl]
      show (w.put c).1 ++ ((w.put c).2.emit cs).1 = c :: cs
      by_cases hn : c = '\n'
      · rw [hn, put_break hc, broken_of_outside hs]
        exact congrArg ('\n' :: ·) (ih hc hl hs)
      · have hmargin : w.margin = [] := by simp [margin, hfront, hc]
        rw [put_of_ne w hn, hmargin]
        exact congrArg (c :: ·) (ih hc hl hs)

namespace CodeBlock

variable {unit : IndentUnit} {c : CodeBlock}

theorem run_layout_of_text (hc : c.isWording = true) {t : String} (ht : c.text unit = .ok t) :
    (c.layout unit).run = (Layout.text t).run := by
  obtain ⟨hps, hvs⟩ := Bool.and_eq_true_iff.1 hc
  obtain ⟨u, _, hok, htext⟩ := Layout.run_of_alone ht
  have hw := Layout.isWording_code unit hps hvs
  rw [← layout_eq] at hw
  rcases hw with ⟨s, hs⟩ | hw
  · rw [hs] at htext
    have hst : s.toList = t.toList :=
      (Writer.emit_outermost (w := .fresh u) rfl (Int.le_refl 0) rfl s.toList).symm.trans htext.symm
    rw [hs, String.toList_injective hst]
  · exact absurd hok (hw _)

/-- A comment of text and strings that makes up the text `t` stands between two marks, each line of
`t` behind a mark of its own, and leaves the writer as it was. From the comment `t` can be read
back, up to its last line break. -/
theorem kdoc_framed {unit : IndentUnit} {c : CodeBlock} {t : String} {w : Writer}
    (hc : c.isWording = true) (hne : c.isEmpty = false) (ht : c.text unit = .ok t)
    (hcomment : w.comment = false) (hl : w.lineStart = true) (hs : w.statement = -1) :
    let r := (Command.kdoc (.code c)).run unit w
    r = ⟨framed w.indentation (properLines t.toList), w, none⟩ ∧
      (readComment w.indentation.length r.text).flatMap (· ++ ['\n']) = completed t.toList := by
  intro r
  have hrun : r = ⟨framed w.indentation (properLines t.toList), w, none⟩ := by
    show (Layout.kdoc c.isEmpty (c.layout unit)).run w = _
    rw [hne]
    exact Layout.run_kdoc_text hcomment hl hs (run_layout_of_text hc ht)
  refine ⟨hrun, ?_⟩
  rw [hrun, readComment_framed _ fun _ => not_mem_properLines, flatMap_properLines]

/-- Blank lines at the front, in a string and at the end, one level deep. -/
theorem kdoc_framed_blank_lines :
    let c : CodeBlock := ⟨[.text "\n", .argument .name, .text "\n\n"], [.str "a\n\nb"]⟩
    let w : Writer := { Writer.fresh "  " with level := 1 }
    ((Command.kdoc (.code c)).run (.ok "  ") w).text =
      "  /**\n   *\n   * a\n   *\n   * b\n   *\n   */\n".toList := by
  intro c w
  have ht : c.text (.ok "  ") = .ok "\na\n\nb\n\n" := rfl
  rw [(kdoc_framed (w := w) rfl rfl ht rfl rfl rfl).1]
  decide

end CodeBlock

end KotlinDecl
