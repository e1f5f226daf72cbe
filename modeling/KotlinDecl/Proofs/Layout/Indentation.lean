import KotlinDecl.Proofs.Writer
import KotlinDecl.Rendering

namespace KotlinDecl

namespace Text

/-- `front` put in front of every line of a text that is not empty. -/
def indentLines (front cs : List Char) : List Char :=
  ['\n'].intercalate ((cs.splitOn '\n').map fun line => if line = [] then [] else front ++ line)

def indentFrom (front : List Char) : Bool → List Char → List Char
  | _, [] => []
  | start, c :: cs =>
    if c = '\n' then c :: indentFrom front true cs
    else (if start then front else []) ++ c :: indentFrom front false cs

def endsLine (start : Bool) : List Char → Bool
  | [] => start
  | c :: cs => endsLine (c = '\n') cs

theorem indentFrom_append (front : List Char) (start : Bool) (a b : List Char) :
    indentFrom front start (a ++ b) =
      indentFrom front start a ++ indentFrom front (endsLine start a) b := by
  induction a generalizing start with
  | nil => rfl
  | cons c a ih => by_cases hc : c = '\n' <;> simp [indentFrom, endsLine, hc, ih]

theorem endsLine_append (start : Bool) (a b : List Char) :
    endsLine start (a ++ b) = endsLine (endsLine start a) b := by
  induction a generalizing start with
  | nil => rfl
  | cons c a ih => exact ih _

theorem endsLine_unbroken {cs : List Char} (h : '\n' ∉ cs) : endsLine false cs = false := by
  induction cs with
  | nil => rfl
  | cons c cs ih =>
      have hc : c ≠ '\n' := fun hc => h (by simp [hc])
      simpa [endsLine, hc] using ih fun hm => h (List.mem_cons_of_mem _ hm)

theorem indentFrom_unbroken (front : List Char) {cs : List Char} (h : '\n' ∉ cs) :
    indentFrom front false cs = cs := by
  induction cs with
  | nil => rfl
  | cons c cs ih =>
      have hc : c ≠ '\n' := fun hc => h (by simp [hc])
      simp [indentFrom, hc, ih fun hm => h (List.mem_cons_of_mem _ hm)]

theorem indentFrom_line (front : List Char) {a : List Char} (h : '\n' ∉ a) (hne : a ≠ [])
    (b : List Char) : indentFrom front true (a ++ b) = front ++ a ++ indentFrom front false b := by
  cases a with
  | nil => exact absurd rfl hne
  | cons c a =>
      have hc : c ≠ '\n' := fun hc => h (by simp [hc])
      have ha : '\n' ∉ a := fun hm => h (List.mem_cons_of_mem _ hm)
      have he : endsLine false a = false := endsLine_unbroken ha
      simp [indentFrom, hc, indentFrom_append, indentFrom_unbroken front ha, he]

theorem intercalate_indent (front cs : List Char) :
    ∀ line lines, cs.splitOn '\n' = line :: lines →
      indentFrom front false cs = ['\n'].intercalate
        (line :: lines.map fun l => if l = [] then [] else front ++ l) ∧
      indentFrom front true cs = ['\n'].intercalate
        ((line :: lines).map fun l => if l = [] then [] else front ++ l) := by
  induction cs with
  | nil =>
      intro line lines h
      simp only [List.splitOn_nil, List.cons.injEq] at h
      obtain ⟨rfl, rfl⟩ := h
      simp [indentFrom]
  | cons c cs ih =>
      intro line lines h
      obtain ⟨l, ls, hl⟩ := List.exists_cons_of_ne_nil (List.splitOn_ne_nil '\n' cs)
      obtain ⟨hmid, hstart⟩ := ih l ls hl
      rw [List.splitOn_cons_eq_if_modifyHead, hl] at h
      by_cases hc : c = '\n'
      · simp only [hc, beq_self_eq_true, if_true, List.cons.injEq] at h
        obtain ⟨rfl, rfl⟩ := h
        simp [indentFrom, hc, hstart]
      · simp only [beq_iff_eq, hc, if_false, List.modifyHead_cons, List.cons.injEq] at h
        obtain ⟨rfl, rfl⟩ := h
        cases hls : ls <;> simp [indentFrom, hc, hmid, hls]

theorem indentLines_eq (front cs : List Char) :
    indentLines front cs = indentFrom front true cs := by
  obtain ⟨line, lines, h⟩ := List.exists_cons_of_ne_nil (List.splitOn_ne_nil '\n' cs)
  rw [indentLines, h]
  exact (intercalate_indent front cs line lines h).2.symm

end Text

open Text

namespace Writer

def deeper (w : Writer) (k : Nat) : Writer := { w with level := w.level + k }

@[simp] theorem deeper_comment (w : Writer) (k : Nat) : (w.deeper k).comment = w.comment := rfl

@[simp] theorem deeper_lineStart (w : Writer) (k : Nat) :
    (w.deeper k).lineStart = w.lineStart := rfl

@[simp] theorem deeper_statement (w : Writer) (k : Nat) :
    (w.deeper k).statement = w.statement := rfl

def front (w : Writer) (k : Nat) : List Char := (List.replicate k w.unit.toList).flatten

/-- A writer whose lines stay lines when they are indented. -/
structure Indents (w : Writer) : Prop where
  level_nonneg : 0 ≤ w.level
  unit_unbroken : '\n' ∉ w.unit.toList

theorem Indents.indentation_unbroken {w : Writer} (h : w.Indents) : '\n' ∉ w.indentation := by
  simp only [indentation, List.mem_flatten, List.mem_replicate, not_exists, not_and]
  rintro l ⟨_, rfl⟩
  exact h.unit_unbroken

theorem Indents.indentation_deeper {w : Writer} (h : w.Indents) (k : Nat) :
    (w.deeper k).indentation = w.front k ++ w.indentation := by
  have hl : (w.level + k).toNat = k + w.level.toNat := by have := h.level_nonneg; omega
  simp only [indentation, deeper, front, hl, ← List.replicate_append_replicate,
    List.flatten_append]

theorem Indents.broken {w : Writer} (h : w.Indents) : w.broken.Indents := by
  refine ⟨?_, h.unit_unbroken⟩
  have := h.level_nonneg
  simp only [Writer.broken, continuation]
  split <;> omega

theorem broken_deeper (w : Writer) (k : Nat) : (w.deeper k).broken = w.broken.deeper k := by
  simp only [broken, deeper, mk.injEq, true_and, and_true]
  split <;> omega

end Writer

/-- How a step at a level `k` deeper compares with the step `r` that starts from `w`. -/
structure Written.Moves (w : Writer) (k : Nat) (r r' : Written) : Prop where
  error : r'.error = none
  text : r'.text = indentFrom (w.front k) w.lineStart r.text
  writer : r'.writer = r.writer.deeper k
  lineStart : r.writer.lineStart = endsLine w.lineStart r.text
  unit : r.writer.unit = w.unit
  indents : r.writer.Indents

namespace Writer

/-- A line break brings its own line with it only inside a comment, where empty lines are
marked. -/
theorem put_break_moves {w : Writer} (h : w.Indents) (k : Nat) :
    Written.Moves w k (wrote (w.put '\n')) (wrote ((w.deeper k).put '\n')) := by
  refine ⟨rfl, ?_, broken_deeper w k, ?_, rfl, h.broken⟩
  · cases hm : w.comment <;> cases hs : w.lineStart
    · simp [wrote, put, hm, indentFrom]
    · simp [wrote, put, hm, indentFrom]
    · simp [wrote, put, hm, hs, indentFrom]
    · have hl : '\n' ∉ w.indentation ++ [' ', '*'] := by simp [h.indentation_unbroken]
      have he := indentFrom_line (w.front k) hl (by simp) ['\n']
      simpa [wrote, put, hm, hs, h.indentation_deeper, indentFrom] using he.symm
  · cases hm : w.comment && w.lineStart
    · simp [wrote, put, hm, broken, endsLine]
    · simp [wrote, put, hm, broken, endsLine, endsLine_append]

theorem put_char_moves {w : Writer} (h : w.Indents) (k : Nat) {c : Char} (hc : c ≠ '\n') :
    Written.Moves w k (wrote (w.put c)) (wrote ((w.deeper k).put c)) := by
  cases hs : w.lineStart
  · have hput : w.put c = ([c], w) := by simp [put, hc, hs]
    have hput' : (w.deeper k).put c = ([c], w.deeper k) := by simp [put, hc, hs]
    rw [hput, hput']
    exact ⟨rfl, by simp [wrote, hs, indentFrom, hc], rfl, by simp [wrote, hs, endsLine, hc], rfl, h⟩
  · have hl : '\n' ∉ w.indentation ++ (if w.comment then [' ', '*', ' '] else []) ++ [c] := by
      cases w.comment <;> simp [h.indentation_unbroken, hc.symm]
    have he := indentFrom_line (w.front k) hl (by simp) []
    refine ⟨rfl, ?_, ?_, ?_, ?_, ?_⟩
    · cases hm : w.comment <;>
        simpa [wrote, put, hc, hs, hm, h.indentation_deeper, indentFrom] using he.symm
    · simp [wrote, put, hc, hs, deeper]
    · simp [wrote, put, hc, hs, endsLine_append, endsLine]
    · simp [wrote, put, hc, hs]
    · exact ⟨by simpa [wrote, put, hc, hs] using h.level_nonneg,
        by simpa [wrote, put, hc, hs] using h.unit_unbroken⟩

theorem put_moves {w : Writer} (h : w.Indents) (k : Nat) (c : Char) :
    Written.Moves w k (wrote (w.put c)) (wrote ((w.deeper k).put c)) := by
  by_cases hc : c = '\n'
  · exact hc ▸ put_break_moves h k
  · exact put_char_moves h k hc

end Writer

theorem Written.Moves.trans {w : Writer} {k : Nat} {r r' s s' : Written} (hr : Moves w k r r')
    (hs : Moves r.writer k s s') :
    Moves w k ⟨r.text ++ s.text, s.writer, s.error⟩ ⟨r'.text ++ s'.text, s'.writer, s'.error⟩ := by
  have hf : r.writer.front k = w.front k := by simp only [Writer.front, hr.unit]
  refine ⟨hs.error, ?_, hs.writer, ?_, hs.unit.trans hr.unit, hs.indents⟩
  · simp only [hr.text, hs.text, hf, hr.lineStart, indentFrom_append]
  · simp only [hs.lineStart, hr.lineStart, endsLine_append]

theorem Writer.emit_moves {w : Writer} (h : w.Indents) (k : Nat) (cs : List Char) :
    Written.Moves w k (wrote (w.emit cs)) (wrote ((w.deeper k).emit cs)) := by
  induction cs generalizing w with
  | nil => exact ⟨rfl, rfl, rfl, rfl, rfl, h⟩
  | cons c cs ih =>
      have hp := put_moves h k c
      have he : ((w.deeper k).put c).2 = (w.put c).2.deeper k := hp.writer
      have hr := ih hp.indents
      simp only [emit, he]
      exact hp.trans hr

namespace Layout

/-- What a layout that succeeds writes at a deeper level: the same lines, moved in. -/
theorem run_moves (d : Layout) {w : Writer} (h : w.Indents) (k : Nat)
    (hr : (d.run w).error = none) : Written.Moves w k (d.run w) (d.run (w.deeper k)) := by
  induction d generalizing w with
  | empty => exact ⟨rfl, rfl, rfl, rfl, rfl, h⟩
  | text s => exact Writer.emit_moves h k s.toList
  | seq a b iha ihb =>
      obtain ⟨ha, hb⟩ := Written.error_of_andThen hr
      have hma := iha h ha
      have hmb := ihb hma.indents hb
      rw [← hma.writer] at hmb
      simp only [run, Written.andThen_of_ok ha, Written.andThen_of_ok hma.error]
      exact hma.trans hmb
  | indent =>
      have hl : 0 ≤ w.level + 1 := by have := h.level_nonneg; omega
      refine ⟨rfl, rfl, ?_, rfl, rfl, hl, h.unit_unbroken⟩
      simp [run, Writer.quiet, Writer.indent, Writer.deeper, Int.add_right_comm]
  | unindent =>
      have hl := Writer.le_of_unindent hr
      have hl' : 1 ≤ (w.deeper k).level := by simp only [Writer.deeper]; omega
      simp only [run, Writer.unindent_of_le hl, Writer.unindent_of_le hl']
      refine ⟨rfl, rfl, ?_, rfl, rfl, by simp only [Writer.quiet]; omega, h.unit_unbroken⟩
      simp only [Writer.quiet, Writer.deeper, Writer.mk.injEq, true_and, and_true]
      omega
  | openStatement =>
      have hs := Writer.closed_of_openStatement hr
      have hs' : (w.deeper k).statement = -1 := hs
      simp only [run, Writer.openStatement_of_closed hs, Writer.openStatement_of_closed hs']
      exact ⟨rfl, rfl, rfl, rfl, rfl, h.level_nonneg, h.unit_unbroken⟩
  | closeStatement =>
      obtain ⟨hs, hl⟩ := Writer.open_of_closeStatement hr
      have hs' : (w.deeper k).statement ≠ -1 := hs
      have hl' : 0 < (w.deeper k).statement → Writer.continuation ≤ (w.deeper k).level := by
        intro hp
        have := hl hp
        simp only [Writer.deeper]
        omega
      have hn := h.level_nonneg
      simp only [run, Writer.closeStatement_of_open hs hl, Writer.closeStatement_of_open hs' hl']
      refine ⟨rfl, rfl, ?_, rfl, rfl, ?_, h.unit_unbroken⟩
      · simp only [Writer.quiet, Writer.deeper, Writer.mk.injEq, true_and, and_true]
        split <;> omega
      · simp only [Writer.quiet]
        split
        · have := hl ‹_›
          omega
        · exact hn
  | freshLine =>
      cases hs : w.lineStart with
      | true =>
          have he : (w.deeper k).lineStart = true := hs
          simp only [run, Writer.freshLine, hs, he]
          exact ⟨rfl, rfl, rfl, rfl, rfl, h⟩
      | false =>
          have he : (w.deeper k).lineStart = false := hs
          simp only [run, Writer.freshLine, hs, he]
          exact Writer.emit_moves h k ['\n']
  | comment d ih =>
      have hm := ih (w := { w with comment := true }) ⟨h.level_nonneg, h.unit_unbroken⟩ hr
      have he := congrArg (fun v : Writer => { v with comment := false }) hm.writer
      exact ⟨hm.error, hm.text, he, hm.lineStart, hm.unit, hm.indents.level_nonneg,
        hm.indents.unit_unbroken⟩
  | declaration d ih =>
      have hm := ih (w := { w with statement := -1 }) ⟨h.level_nonneg, h.unit_unbroken⟩ hr
      have he := congrArg (fun v : Writer => { v with statement := w.statement }) hm.writer
      exact ⟨hm.error, hm.text, he, hm.lineStart, hm.unit, hm.indents.level_nonneg,
        hm.indents.unit_unbroken⟩
  | body scope d ih =>
      have hl : 0 ≤ w.level + 1 := by have := h.level_nonneg; omega
      have hm := ih (w := (w.pushScope scope).indent 1) ⟨hl, h.unit_unbroken⟩ hr
      have hd : ((w.pushScope scope).indent 1).deeper k =
          ((w.deeper k).pushScope scope).indent 1 := by
        simp [Writer.indent, Writer.pushScope, Writer.deeper, Int.add_right_comm]
      rw [hd] at hm
      have he := congrArg (fun v : Writer =>
        { v with level := w.level + k, scopes := v.scopes.tail }) hm.writer
      exact ⟨hm.error, hm.text, he, hm.lineStart, hm.unit, h.level_nonneg, hm.indents.unit_unbroken⟩
  | fail e => simp [run, Writer.failed] at hr

end Layout

namespace TypeDecl

/-- A declaration that is written at some level is written at the outermost level first and then
moved in line by line. The statement it stands in does not count, so an object expression is not
indented like the continuation of a statement. -/
theorem rendering_indented (unit : IndentUnit) (d : TypeDecl) (label : Option Layout) (w : Writer)
    (k : Nat) (hunit : '\n' ∉ w.unit.toList) (hstart : w.lineStart = true) (hlevel : w.level = 0)
    (hok : (((d.pieces unit).layout label).run w).error = none) :
    let r := ((d.pieces unit).layout label).run w
    let r' := ((d.pieces unit).layout label).run { w with level := k }
    r'.error = none ∧
      r'.text = indentLines (List.replicate k w.unit.toList).flatten r.text ∧
      r'.writer = r.writer.deeper k ∧
      ∀ n, (((d.pieces unit).layout label).run { w with statement := n }).error = none ∧
        (((d.pieces unit).layout label).run { w with statement := n }).text = r.text := by
  intro r r'
  have hw : { w with level := (k : Int) } = w.deeper k := by simp [Writer.deeper, hlevel]
  have hm := Layout.run_moves _ ⟨by omega, hunit⟩ k hok
  have ht := hm.text
  rw [hstart, ← indentLines_eq] at ht
  rw [← hw] at hm ht
  exact ⟨hm.error, ht, hm.writer, fun n => ⟨hok, rfl⟩⟩

def nestedProperty : PropertyDecl :=
  let f := { FunDecl.plain "f" with
    kdoc := ⟨[.text "Does it.\n\nTwice."], []⟩
    body := ⟨[.openStatement, .text "a\n+ b\n", .closeStatement], []⟩ }
  let object := { plain (.kind .classKind) none (some (.code .empty)) with
    functions := [.decl none (.function f)] }
  { PropertyDecl.plain "p" (.type .anyType) with
    initializer := some ⟨[.argument .literal], [.decl none (.typeDecl object)]⟩ }

def nestedExample : TypeDecl :=
  { plain (.kind .classKind) (some "C") none with properties := [nestedProperty] }

theorem rendering_indented_nested :
    let w := { Writer.fresh "\t" with statement := 0 }
    let d := (nestedExample.pieces (.ok "\t")).layout none
    (d.run w).error = none ∧
      (d.run { w with level := (3 : Nat) }).text = indentLines ['\t', '\t', '\t'] (d.run w).text :=
  ⟨by decide, (rendering_indented (.ok "\t") nestedExample none
    { Writer.fresh "\t" with statement := 0 } 3 (by decide) rfl rfl (by decide)).2.1⟩

end TypeDecl

end KotlinDecl
