import KotlinDecl.Proofs.Layout.Indentation
import KotlinDecl.Proofs.Layout.Laws

namespace KotlinDecl

theorem not_mem_of_mem_splitOn {c : Char} {cs line : List Char} (h : line ∈ cs.splitOn c) :
    c ∉ line := by
  induction cs generalizing line with
  | nil =>
      rw [List.splitOn_nil, List.mem_singleton] at h
      simp [h]
  | cons d cs ih =>
      obtain ⟨l, ls, hl⟩ := List.exists_cons_of_ne_nil (List.splitOn_ne_nil c cs)
      rw [List.splitOn_cons_eq_if_modifyHead, hl] at h
      rw [hl] at ih
      by_cases hd : d = c
      · rw [if_pos (beq_iff_eq.2 hd)] at h
        rcases List.mem_cons.1 h with rfl | h
        · exact List.not_mem_nil
        · exact ih h
      · rw [if_neg (mt beq_iff_eq.1 hd), List.modifyHead_cons] at h
        rcases List.mem_cons.1 h with rfl | h
        · have hc := ih List.mem_cons_self
          simp [hc, Ne.symm hd]
        · exact ih (List.mem_cons_of_mem _ h)

namespace Writer

variable {w : Writer}

def emitLine (w : Writer) (line : List Char) : List Char × Writer :=
  if line = [] then ([], w) else (w.margin ++ line, { w with lineStart := false })

def emitLines (w : Writer) : List (List Char) → List Char × Writer
  | [] => ([], w)
  | [line] => w.emitLine line
  | line :: next :: lines =>
    let first := w.emitLine line
    let gap := first.2.put '\n'
    let others := gap.2.emitLines (next :: lines)
    (first.1 ++ gap.1 ++ others.1, others.2)

theorem emit_unbroken (w : Writer) {line : List Char} (h : '\n' ∉ line) :
    w.emit line = w.emitLine line := by
  cases line with
  | nil => rfl
  | cons c cs => rw [emit_line w h, emitLine, if_neg (List.cons_ne_nil c cs)]

theorem emit_intercalate (w : Writer) {lines : List (List Char)} (h : ∀ l ∈ lines, '\n' ∉ l) :
    w.emit (['\n'].intercalate lines) = w.emitLines lines := by
  induction lines generalizing w with
  | nil => rfl
  | cons line lines ih =>
      obtain ⟨hline, hlines⟩ := List.forall_mem_cons.1 h
      cases lines with
      | nil =>
          rw [List.intercalate_singleton]
          exact w.emit_unbroken hline
      | cons next lines =>
          rw [List.intercalate_cons_cons, List.append_assoc, emit_append, emit_unbroken w hline,
            List.singleton_append, emit, ih _ hlines, emitLines, List.append_assoc]

theorem emit_eq_emitLines (w : Writer) (cs : List Char) :
    w.emit cs = w.emitLines (cs.splitOn '\n') := by
  rw [← emit_intercalate w fun _ => not_mem_of_mem_splitOn, List.intercalate_splitOn]

/-- The level of the lines behind the first break: in a statement they are deeper. -/
def laterLevel (w : Writer) : Int :=
  if w.statement = 0 then w.level + continuation else w.level

def laterStatement (w : Writer) (breaks : Nat) : Int :=
  if w.statement = -1 then -1 else w.statement + breaks

theorem put_break (hc : w.comment = false) : w.put '\n' = (['\n'], w.broken) := by
  simp [put, hc]

theorem broken_eq (w : Writer) :
    w.broken =
      { w with lineStart := true, level := w.laterLevel, statement := w.laterStatement 1 } := rfl

theorem laterLevel_broken (w : Writer) : w.broken.laterLevel = w.laterLevel := by
  have h : w.broken.statement ≠ 0 := by
    show (if w.statement = -1 then -1 else w.statement + 1) ≠ 0
    split <;> omega
  exact if_neg h

theorem laterStatement_broken (hs : -1 ≤ w.statement) (n : Nat) :
    w.broken.laterStatement n = w.laterStatement (n + 1) := by
  show (if (if w.statement = -1 then -1 else w.statement + 1) = -1 then -1
    else (if w.statement = -1 then -1 else w.statement + 1) + (n : Int)) =
      if w.statement = -1 then -1 else w.statement + (n + 1 : Nat)
  split <;> split <;> omega

theorem le_statement_broken (hs : -1 ≤ w.statement) : -1 ≤ w.broken.statement := by
  show -1 ≤ if w.statement = -1 then -1 else w.statement + 1
  split <;> omega

/-- The indentation in front of each of the lines of a text. A line that is begun already and an
empty line have none. -/
def fronts (w : Writer) : List (List Char) → List (List Char)
  | [] => []
  | line :: lines =>
    (if w.lineStart = true ∧ line ≠ [] then w.front w.level.toNat else []) ::
      lines.map fun l => if l = [] then [] else w.front w.laterLevel.toNat

theorem emitLine_of_text (hc : w.comment = false) (line : List Char) :
    w.emitLine line =
      ((if w.lineStart = true ∧ line ≠ [] then w.front w.level.toNat else []) ++ line,
        { w with lineStart := decide (line = [] ∧ w.lineStart = true) }) := by
  cases w with
  | mk unit level comment lineStart statement scopes =>
      cases hc
      by_cases h : line = [] <;> cases lineStart <;>
        simp [emitLine, margin, h, indentation, front]

/-- The fronts behind a break are those of a text that begins a line there. -/
theorem fronts_cons_cons (w : Writer) (line next : List Char) (lines : List (List Char)) :
    w.fronts (line :: next :: lines) =
      (if w.lineStart = true ∧ line ≠ [] then w.front w.level.toNat else []) ::
        w.broken.fronts (next :: lines) := by
  have hfront : w.broken.front = w.front := rfl
  have hlevel : w.broken.level = w.laterLevel := rfl
  have hstart : w.broken.lineStart = true := rfl
  simp only [fronts, List.map_cons, laterLevel_broken, hfront, hlevel, hstart, true_and, ite_not]

theorem emitLines_cons (hc : w.comment = false) (hs : -1 ≤ w.statement) (line : List Char)
    (lines : List (List Char)) :
    w.emitLines (line :: lines) =
      (['\n'].intercalate (List.zipWith (· ++ ·) (w.fronts (line :: lines)) (line :: lines)),
        { w with
          level := if lines = [] then w.level else w.laterLevel
          lineStart := decide
            ((line :: lines).getLast? = some [] ∧ (lines ≠ [] ∨ w.lineStart = true))
          statement := w.laterStatement lines.length }) := by
  induction lines generalizing w line with
  | nil =>
      have hcount : w.laterStatement 0 = w.statement := by
        simp only [laterStatement]
        split <;> omega
      rw [emitLines, emitLine_of_text hc]
      simp [fronts, hcount]
  | cons next lines ih =>
      -- A break leaves the same writer behind a line that is empty and behind one that is not.
      have hgap : ({ w with lineStart := decide (line = [] ∧ w.lineStart = true) } : Writer).put
          '\n' = (['\n'], w.broken) := put_break hc
      have hlevel : w.broken.level = w.laterLevel := rfl
      have hstart : w.broken.lineStart = true := rfl
      rw [emitLines, emitLine_of_text hc, hgap, ih (w := w.broken) hc
        (le_statement_broken hs), fronts_cons_cons,
        List.zipWith_cons_cons, laterStatement_broken hs, laterLevel_broken, hlevel, hstart,
        List.getLast?_cons_cons, ite_self]
      simp [broken_eq, fronts]

theorem length_fronts (w : Writer) (lines : List (List Char)) :
    (w.fronts lines).length = lines.length := by
  cases lines <;> simp [fronts]

theorem fronts_unbroken (hu : '\n' ∉ w.unit.toList) {lines : List (List Char)} :
    ∀ front ∈ w.fronts lines, '\n' ∉ front := by
  have hfront (k : Nat) : '\n' ∉ w.front k := by
    simp only [front, List.mem_flatten, List.mem_replicate, not_exists, not_and]
    rintro l ⟨_, rfl⟩
    exact hu
  cases lines with
  | nil => exact List.forall_mem_nil _
  | cons line lines =>
      refine List.forall_mem_cons.2 ⟨?_, List.forall_mem_map.2 fun l _ => ?_⟩ <;> split <;>
        simp [hfront]

theorem fronts_of_blank {lines : List (List Char)} {i : Nat} (h : lines[i]? = some []) :
    (w.fronts lines)[i]? = some [] := by
  cases lines with
  | nil => cases h
  | cons line lines =>
      cases i with
      | zero =>
          cases h
          simp [fronts]
      | succ i =>
          rw [List.getElem?_cons_succ] at h
          simp [fronts, h]

theorem unbroken_zipWith {fronts lines : List (List Char)} (hf : ∀ front ∈ fronts, '\n' ∉ front)
    (hl : ∀ line ∈ lines, '\n' ∉ line) :
    ∀ l ∈ List.zipWith (· ++ ·) fronts lines, '\n' ∉ l := by
  intro l h
  rw [← List.map_uncurry_zip_eq_zipWith, List.mem_map] at h
  obtain ⟨⟨front, line⟩, h, rfl⟩ := h
  obtain ⟨hfront, hline⟩ := List.of_mem_zip h
  show '\n' ∉ front ++ line
  simp [hf front hfront, hl line hline]

theorem zipWith_drop {fronts lines : List (List Char)} (h : fronts.length = lines.length) :
    List.zipWith (fun line front => line.drop front.length)
      (List.zipWith (· ++ ·) fronts lines) fronts = lines := by
  induction fronts generalizing lines with
  | nil => exact (List.eq_nil_of_length_eq_zero h.symm).symm
  | cons front fronts ih =>
      cases lines with
      | nil => cases h
      | cons line lines =>
          have hrest := ih (Nat.succ.inj h)
          simp [hrest]

/-- Each line of a text comes out behind its indentation, and breaks come out as they are. -/
theorem emit_closed_form {w : Writer} (hc : w.comment = false) (hs : -1 ≤ w.statement)
    (cs : List Char) :
    let lines := cs.splitOn '\n'
    let breaks := lines.length - 1
    (w.emit cs).1 = ['\n'].intercalate (List.zipWith (· ++ ·) (w.fronts lines) lines) ∧
      (w.emit cs).2 =
        { w with
          level := if breaks = 0 then w.level else w.laterLevel
          lineStart := decide (lines.getLast? = some [] ∧ (breaks ≠ 0 ∨ w.lineStart = true))
          statement := if w.statement = -1 then -1 else w.statement + breaks } ∧
      (∀ i : Nat, lines[i]? = some [] → (w.fronts lines)[i]? = some []) ∧
      ['\n'].intercalate lines = cs ∧
      ('\n' ∉ w.unit.toList →
        ['\n'].intercalate (List.zipWith (fun line front => line.drop front.length)
          ((w.emit cs).1.splitOn '\n') (w.fronts lines)) = cs) := by
  intro lines breaks
  have hcs : ['\n'].intercalate lines = cs := List.intercalate_splitOn _
  have hemit : w.emit cs = w.emitLines lines := w.emit_eq_emitLines cs
  have hbreaks : ∀ line ∈ lines, '\n' ∉ line := fun _ => not_mem_of_mem_splitOn
  obtain ⟨line, rest, hlines⟩ := List.exists_cons_of_ne_nil (List.splitOn_ne_nil '\n' cs)
  have hrest : breaks = rest.length := by simp [breaks, lines, hlines]
  have hclosed := emitLines_cons hc hs line rest
  rw [← hlines, ← hemit] at hclosed
  have hout := congrArg Prod.fst hclosed
  refine ⟨hout, ?_, fun _ => fronts_of_blank, hcs, fun hu => ?_⟩
  · rw [hclosed, hrest]
    simp [laterStatement, lines]
  · have hlength := w.length_fronts lines
    have hne : List.zipWith (· ++ ·) (w.fronts lines) lines ≠ [] := by simp [lines, hlines, fronts]
    rw [hout, List.splitOn_intercalate _ (unbroken_zipWith (fronts_unbroken hu) hbreaks) hne,
      zipWith_drop hlength, hcs]

/-- A statement of four lines, one of them empty, which begins at a level of one. -/
theorem emit_closed_form_statement :
    let w : Writer := ⟨"  ", 1, false, true, 0, []⟩
    w.comment = false ∧ -1 ≤ w.statement ∧
      (w.emit "a\n\nb\n".toList).1 = "  a\n\n      b\n".toList ∧
      (w.emit "a\n\nb\n".toList).2 = { w with level := 3, statement := 3 } := by
  intro w
  have hc : w.comment = false := rfl
  have hs : -1 ≤ w.statement := by decide
  obtain ⟨htext, hwriter, _⟩ := emit_closed_form hc hs "a\n\nb\n".toList
  exact ⟨hc, hs, htext.trans (by decide), hwriter.trans rfl⟩

/-- A text can be cut anywhere, inside a line, around a break or inside a comment: its pieces are
written like all of it at once, by characters or by lines. -/
theorem emit_pieces (w : Writer) :
    w.emit [] = ([], w) ∧
      (∀ a b : List Char, w.emit (a ++ b) =
        ((w.emit a).1 ++ ((w.emit a).2.emit b).1, ((w.emit a).2.emit b).2)) ∧
      (∀ a b : List Char,
        let first := w.emitLines (a.splitOn '\n')
        let others := first.2.emitLines (b.splitOn '\n')
        w.emitLines ((a ++ b).splitOn '\n') = (first.1 ++ others.1, others.2)) ∧
      ∀ ss : List String,
        (Layout.concat (ss.map .text)).run w = (Layout.text (String.join ss)).run w := by
  refine ⟨rfl, w.emit_append, fun a b => ?_, fun ss => ?_⟩
  · simp only [← emit_eq_emitLines]
    exact w.emit_append a b
  · induction ss generalizing w with
    | nil => rfl
    | cons s ss ih =>
        have hjoin : String.join (s :: ss) = s ++ String.join ss := by
          apply String.toList_injective
          simp [String.toList_join]
        rw [hjoin, Layout.run_text_append]
        exact congrArg (Written.andThen _) (funext ih)

end Writer

end KotlinDecl
