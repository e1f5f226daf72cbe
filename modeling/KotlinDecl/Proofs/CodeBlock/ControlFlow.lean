import KotlinDecl.Proofs.CodeBlock.Composition
import KotlinDecl.Proofs.Layout.Lines
import KotlinDecl.Proofs.Writer.Comments

namespace KotlinDecl

open Edit

theorem Format.scan_of_plain {cs : List Char} (hne : cs ≠ []) (h : '%' ∉ cs) :
    scan cs = [.part (.text (String.ofList cs))] := by
  induction cs with
  | nil => exact absurd rfl hne
  | cons c cs ih =>
      obtain ⟨hc, hcs⟩ := List.ne_and_not_mem_of_not_mem_cons h
      rw [scan]
      · by_cases hnil : cs = []
        · subst hnil
          rfl
        · have htext : c.toString ++ String.ofList cs = String.ofList (c :: cs) := by
            apply String.toList_injective
            simp
          rw [ih hnil hcs, consChar, htext]
      · exact hc.symm

namespace CodeBlock

variable {unit : IndentUnit}

theorem ofFormat_of_plain {s : String} (hne : s ≠ "") (h : '%' ∉ s.toList) :
    ofFormat unit (.str s) [] = .ok ⟨[.text s], []⟩ := by
  have hcs : s.toList ≠ [] := by simpa using hne
  apply ofFormat_eq_ok_iff.2
  rw [Format.scan_of_plain hcs h, String.ofList_toList]
  exact ⟨rfl, .nil⟩

structure IsStatement (s : String) : Prop where
  nonempty : s ≠ ""
  plain : '%' ∉ s.toList

structure IsHead (s : String) : Prop where
  plain : '%' ∉ s.toList
  unbroken : '\n' ∉ s.toList

/-- Well-nested calls: statements, and control flow with a body and any number of further branches,
all of them well-nested. -/
inductive Program : List Call → Prop
  | nil : Program []
  | statement {s : String} {rest : List Call} (hs : IsStatement s) (hrest : Program rest) :
    Program (.addStatement (.str s) [] :: rest)
  | flow {head : String} {body rest : List Call} {branches : List (String × List Call)}
    (hhead : IsHead head) (hbody : Program body) (hheads : ∀ b ∈ branches, IsHead b.1)
    (hbodies : ∀ b ∈ branches, Program b.2) (hrest : Program rest) :
    Program (.beginControlFlow (.str head) [] :: (body ++
      (branches.flatMap (fun b => .nextControlFlow (.str b.1) [] :: b.2) ++
        .endControlFlow :: rest)))

structure Line where
  depth : Nat
  text : List Char

/-- The lines of a statement: all but the first are two levels deeper. -/
def statementLines (d : Nat) (cs : List Char) : List Line :=
  match cs.splitOn '\n' with
  | [] => []
  | first :: later => ⟨d, first⟩ :: later.map (⟨d + 2, ·⟩)

namespace Call

def lines (d : Nat) : Call → List Line
  | addStatement (.str s) _ => statementLines d s.toList
  | beginControlFlow (.str head) _ => [⟨d, head.toList ++ [' ', '\x7b']⟩]
  | nextControlFlow (.str head) _ => [⟨d - 1, ['\x7d', ' '] ++ head.toList ++ [' ', '\x7b']⟩]
  | endControlFlow => [⟨d - 1, ['\x7d']⟩]
  | _ => []

def depthAfter (d : Nat) : Call → Nat
  | beginControlFlow .. => d + 1
  | endControlFlow => d - 1
  | _ => d

def parts : Call → List Part
  | addStatement (.str s) _ => [.openStatement, .text s, .text "\n", .closeStatement]
  | beginControlFlow (.str head) _ => [.text ("" ++ head ++ " \x7b\n"), .indent]
  | nextControlFlow (.str head) _ => [.unindent, .text ("\x7d " ++ head ++ " \x7b\n"), .indent]
  | endControlFlow => [.unindent, .text "\x7d\n"]
  | _ => []

theorem supplied_parts (c : Call) : Part.supplied c.parts 0 = true := by
  unfold parts
  split <;> rfl

/-- The calls of well-nested code that may stand where `d` flows are open. -/
inductive Fits : Nat → Call → Prop
  | statement {d : Nat} {s : String} (hs : IsStatement s) : Fits d (addStatement (.str s) [])
  | opens {d : Nat} {head : String} (hhead : IsHead head) : Fits d (beginControlFlow (.str head) [])
  | next {d : Nat} {head : String} (hhead : IsHead head) :
    Fits (d + 1) (nextControlFlow (.str head) [])
  | closes {d : Nat} : Fits (d + 1) endControlFlow

end Call

/-- Calls that close the `d` flows that are open in front of them, and are well-nested
otherwise. -/
inductive Nested : Nat → List Call → Prop
  | nil : Nested 0 []
  | cons {d : Nat} {c : Call} {rest : List Call} (hc : c.Fits d)
    (hrest : Nested (c.depthAfter d) rest) : Nested d (c :: rest)

theorem Nested.branches {d : Nat} {branches : List (String × List Call)} {rest : List Call}
    (hheads : ∀ b ∈ branches, IsHead b.1)
    (hbodies : ∀ b ∈ branches, ∀ {calls}, Nested (d + 1) calls → Nested (d + 1) (b.2 ++ calls))
    (hrest : Nested (d + 1) rest) :
    Nested (d + 1) (branches.flatMap (fun b => .nextControlFlow (.str b.1) [] :: b.2) ++ rest) := by
  induction branches with
  | nil => exact hrest
  | cons b branches ih =>
      obtain ⟨hhead, hheads⟩ := List.forall_mem_cons.1 hheads
      obtain ⟨hbody, hbodies⟩ := List.forall_mem_cons.1 hbodies
      rw [List.flatMap_cons, List.append_assoc, List.cons_append]
      exact .cons (.next hhead) (hbody (ih hheads hbodies))

theorem Program.nested_append {calls : List Call} (h : Program calls) {d : Nat}
    {rest : List Call} (hrest : Nested d rest) : Nested d (calls ++ rest) := by
  -- The depth is free because a body stands one flow deeper than the calls around it.
  induction h generalizing d rest with
  | nil => exact hrest
  | statement hs _ ih => exact .cons (.statement hs) (ih hrest)
  | flow hhead _ hheads _ _ ihbody ihbodies ihrest =>
      rw [List.cons_append, List.append_assoc, List.append_assoc]
      refine .cons (.opens hhead) (ihbody (Nested.branches hheads ?_ ?_))
      · exact fun b hb _ hcalls => ihbodies b hb hcalls
      · exact .cons .closes (ihrest hrest)

def programLines (d : Nat) : List Call → List Line
  | [] => []
  | c :: calls => c.lines d ++ programLines (c.depthAfter d) calls

theorem addStatement_of_plain {s : String} (hs : IsStatement s) (b : CodeBlock) :
    addStatement unit (.str s) [] b =
      .ok () (b ++ ⟨(Call.addStatement (.str s) []).parts, []⟩) := by
  have hopen : addPart .openStatement b = .ok () (b ++ ⟨[.openStatement], []⟩) := rfl
  have hend : ofFormat unit (.str "\n%]") [] = .ok ⟨[.text "\n", .closeStatement], []⟩ := rfl
  rw [addStatement, bind_of_ok hopen,
    bind_of_ok (add_of_ofFormat (ofFormat_of_plain hs.nonempty hs.plain) _), add_of_ofFormat hend,
    append_assoc, append_assoc]
  rfl

theorem addHead_of_plain {front : String} (hfront : '%' ∉ front.toList) {head : String}
    (hhead : IsHead head) (b : CodeBlock) :
    addHead unit front (.str head) [] b =
      .ok () (b ++ ⟨[.text (front ++ head ++ " \x7b\n")], []⟩) := by
  apply add_of_ofFormat
  apply ofFormat_of_plain
  · intro h
    have hlength := congrArg (fun s => s.toList.length) h
    simp at hlength
  · simp [hfront, hhead.plain]

theorem Call.Fits.apply {c : Call} {d : Nat} (h : c.Fits d) (b : CodeBlock) :
    c.apply unit b = .ok () (b ++ ⟨c.parts, []⟩) := by
  cases h with
  | statement hs => exact addStatement_of_plain hs b
  | opens hhead =>
      rw [Call.apply, CodeBlock.beginControlFlow, bind_of_ok (addHead_of_plain (by simp) hhead b)]
      exact congrArg _ (append_assoc _ _ _)
  | next hhead =>
      have hout : addPart .unindent b = .ok () (b ++ ⟨[.unindent], []⟩) := rfl
      rw [Call.apply, CodeBlock.nextControlFlow, bind_of_ok hout,
        bind_of_ok (addHead_of_plain (by simp) hhead _), append_assoc]
      exact congrArg _ (append_assoc _ _ _)
  | closes => exact congrArg _ (append_assoc _ _ _)

theorem Nested.build {d : Nat} {calls : List Call} (h : Nested d calls) (b : CodeBlock) :
    forEach (Call.apply unit) calls b = .ok () (b ++ ⟨calls.flatMap Call.parts, []⟩) := by
  induction h generalizing b with
  | nil =>
      cases b with
      | mk parts args =>
          show EStateM.Result.ok () _ = .ok () (CodeBlock.mk (parts ++ []) (args ++ []))
          rw [List.append_nil, List.append_nil]
  | cons hc _ ih =>
      rw [forEach, bind_of_ok (hc.apply b), ih, append_assoc]
      rfl

end CodeBlock

namespace Writer

variable {w : Writer}

/-- A line behind the indentation of its depth, counted from the level of the writer. Nothing is
written in front of an empty line. -/
def lineText (w : Writer) (l : CodeBlock.Line) : List Char :=
  (if l.text = [] then [] else w.front (w.level.toNat + l.depth)) ++ l.text ++ ['\n']

theorem intercalate_append_break (l : List Char) (ls : List (List Char)) :
    ['\n'].intercalate (l :: ls) ++ ['\n'] = (l :: ls).flatMap (· ++ ['\n']) := by
  induction ls generalizing l with
  | nil => simp
  | cons m ls ih =>
      rw [List.intercalate_cons_cons, List.append_assoc, ih]
      rfl

def statementText (w : Writer) (first : List Char) (later : List (List Char)) : List Char :=
  (if w.lineStart = true ∧ first ≠ [] then w.front w.level.toNat else []) ++ first ++ ['\n'] ++
    later.flatMap fun l =>
      (if l = [] then [] else w.front (w.level + continuation).toNat) ++ l ++ ['\n']

/-- A statement up to the break behind its last line. The lines behind the first one stand deeper,
and so does the writer until the statement ends. -/
theorem emit_statement (hc : w.comment = false) (hs : w.statement = 0) {cs first : List Char}
    {later : List (List Char)} (hcs : cs.splitOn '\n' = first :: later) :
    w.emit (cs ++ ['\n']) =
      (w.statementText first later,
        { w with
          level := w.level + continuation, lineStart := true, statement := later.length + 1 }) := by
  have hlevel : w.laterLevel = w.level + continuation := if_pos hs
  have hcount : w.laterStatement later.length = later.length := by simp [laterStatement, hs]
  have hlines := emitLines_cons hc (by omega) first later
  rw [← hcs, ← emit_eq_emitLines, hcs, hlevel, hcount] at hlines
  rw [emit_append, emit_break ((w.emit_comment cs).trans hc), hlines, Prod.mk.injEq]
  constructor
  · have hzip (f : List Char → List Char) :
        List.zipWith (· ++ ·) (later.map f) later = later.map fun l => f l ++ l := by
      rw [List.zipWith_map_left, List.zipWith_self]
    rw [fronts, List.zipWith_cons_cons, hzip, hlevel, intercalate_append_break, List.flatMap_cons,
      List.flatMap_map, statementText]
  · by_cases hlater : later = []
    · simp [broken, hlater]
    · have hcounts : (later.length : Int) ≠ -1 := by omega
      simp [broken, hlater, hcounts]

theorem indent_zero (w : Writer) : w.indent 0 = w := by
  rw [indent, Int.add_zero]

theorem deeper_zero (w : Writer) : w.deeper 0 = w := w.indent_zero

/-- Where code can be written that is to leave the writer as it is: at the start of a line, outside
of comments and statements, and not below the outermost level. -/
structure Ready (w : Writer) : Prop where
  comment : w.comment = false
  lineStart : w.lineStart = true
  statement : w.statement = -1
  level_nonneg : 0 ≤ w.level

theorem Ready.toNat_level (h : w.Ready) (d : Nat) : (w.level + d).toNat = w.level.toNat + d := by
  have hlevel := h.level_nonneg
  omega

theorem Ready.indentation_deeper (h : w.Ready) (d : Nat) :
    (w.deeper d).indentation = w.front (w.level.toNat + d) := by
  rw [← h.toNat_level]
  rfl

theorem Ready.statementText_deeper (h : w.Ready) (d : Nat) {cs first : List Char}
    {later : List (List Char)} (hcs : cs.splitOn '\n' = first :: later) :
    (w.deeper d).statementText first later =
      (CodeBlock.statementLines d cs).flatMap w.lineText := by
  have hstart : (w.deeper d).lineStart = true := h.lineStart
  have hfront : (w.deeper d).front = w.front := rfl
  have hfirst : (w.deeper d).level.toNat = w.level.toNat + d := h.toNat_level d
  have hlater : ((w.deeper d).level + continuation).toNat = w.level.toNat + (d + 2) := by
    rw [← h.toNat_level]
    show (w.level + d + 2).toNat = _
    omega
  rw [statementText, hfirst, hlater, hfront, CodeBlock.statementLines, hcs, List.flatMap_cons,
    List.flatMap_map]
  simp only [lineText, hstart, true_and, ite_not]

end Writer

namespace Layout

open CodeBlock

variable {w : Writer}

theorem run_append_of_run {a b : Layout} {v u : Writer} {s t : List Char} {e : Option Error}
    (ha : a.run w = ⟨s, v, none⟩) (hb : b.run v = ⟨t, u, e⟩) :
    (a ++ b).run w = ⟨s ++ t, u, e⟩ := by
  rw [run_append, ha, Written.andThen_of_ok rfl, hb]

theorem run_append_of_quiet {a : Layout} {v : Writer} (h : a.run w = v.quiet) (b : Layout) :
    (a ++ b).run w = b.run v := by
  rw [run_append, h]
  rfl

theorem run_line_deeper (h : w.Ready) (d : Nat) {s : String} {line : List Char}
    (hs : s.toList = line ++ ['\n']) (hne : line ≠ []) (hb : '\n' ∉ line) :
    (text s).run (w.deeper d) = ⟨w.lineText ⟨d, line⟩, w.deeper d, none⟩ := by
  rw [run_outside_line (w := w.deeper d) h.comment h.lineStart h.statement line hs hne hb,
    h.indentation_deeper, hs, Writer.lineText, if_neg hne, List.append_assoc]

theorem writer_run_line (hc : w.comment = false) {s : String} {line : List Char}
    (hs : s.toList = line ++ ['\n']) (hb : '\n' ∉ line) : ((text s).run w).writer = w.broken := by
  rw [run, hs, Writer.emit_append, Writer.emit_break ((w.emit_comment line).trans hc),
    Writer.emit_unbroken w hb, Writer.emitLine_of_text hc]
  rfl

theorem run_statement_parts (s : String) :
    (code (Call.addStatement (.str s) []).parts []).run =
      (openStatement ++ text (s ++ "\n") ++ closeStatement).run := by
  have htext : (text (s ++ "\n") ++ closeStatement).run =
      (text s ++ (text "\n" ++ (closeStatement ++ empty))).run :=
    calc (text (s ++ "\n") ++ closeStatement).run
        = (text s ++ text "\n" ++ closeStatement).run :=
          run_append_congr (run_text_append s "\n") rfl
      _ = (text s ++ (text "\n" ++ closeStatement)).run := run_append_assoc _ _ _
      _ = (text s ++ (text "\n" ++ (closeStatement ++ empty))).run :=
          run_append_congr rfl (run_append_congr rfl (run_append_empty _).symm)
  rw [run_append_assoc]
  exact run_append_congr rfl htext.symm

theorem run_open_statement (hc : w.comment = false) (hs : w.statement = -1) {s : String}
    {first : List Char} {later : List (List Char)}
    (hlines : s.toList.splitOn '\n' = first :: later) :
    (openStatement ++ text (s ++ "\n")).run w =
      ⟨w.statementText first later,
        { w with
          level := w.level + Writer.continuation, lineStart := true
          statement := later.length + 1 }, none⟩ := by
  have hopen : openStatement.run w = { w with statement := 0 }.quiet :=
    Writer.openStatement_of_closed hs
  have htext : (s ++ "\n").toList = s.toList ++ ['\n'] := String.toList_append
  have hemit := Writer.emit_statement (w := { w with statement := 0 }) hc rfl hlines
  rw [run_append_of_quiet hopen, run, htext, hemit]
  rfl

theorem run_statement (hc : w.comment = false) (hs : w.statement = -1) (hlevel : 0 ≤ w.level)
    {s : String} {first : List Char} {later : List (List Char)}
    (hlines : s.toList.splitOn '\n' = first :: later) :
    (code (Call.addStatement (.str s) []).parts []).run w =
      ⟨w.statementText first later, { w with lineStart := true }, none⟩ := by
  have hopen : (later.length : Int) + 1 ≠ -1 := by omega
  have hpos : 0 < (later.length : Int) + 1 := by omega
  have hdeep : Writer.continuation ≤ w.level + Writer.continuation := by omega
  rw [run_statement_parts, run_append, run_open_statement hc hs hlines, Written.andThen_of_ok rfl,
    run, Writer.closeStatement_of_open hopen (fun _ => hdeep), if_pos hpos]
  simp [Writer.quiet, ← hs]

theorem outside_of_run_statement (hc : w.comment = false) {s : String}
    (hok : ((code (Call.addStatement (.str s) []).parts []).run w).error = none) :
    w.statement = -1 ∧ 0 ≤ w.level := by
  rw [run_statement_parts, run_append] at hok
  obtain ⟨hfront, hclose⟩ := Written.error_of_andThen hok
  have hs : w.statement = -1 :=
    Writer.closed_of_openStatement (Written.error_of_andThen hfront).1
  obtain ⟨first, later, hlines⟩ :=
    List.exists_cons_of_ne_nil (List.splitOn_ne_nil '\n' s.toList)
  rw [run_open_statement hc hs hlines] at hclose
  -- The break behind the last line has made the writer step in, so the end steps out again.
  have hdeep : Writer.continuation ≤ w.level + Writer.continuation :=
    (Writer.open_of_closeStatement hclose).2 (by show 0 < (later.length : Int) + 1; omega)
  exact ⟨hs, by omega⟩

theorem run_unindent_append {a : Layout} (hok : ((unindent ++ a).run w).error = none) :
    1 ≤ w.level ∧ (unindent ++ a).run w = a.run { w with level := w.level - 1 } := by
  have hle := Writer.le_of_unindent (Written.error_of_andThen hok).1
  have hout : unindent.run w = { w with level := w.level - 1 }.quiet := Writer.unindent_of_le hle
  exact ⟨hle, run_append_of_quiet hout a⟩

theorem run_indent_deeper (w : Writer) (d : Nat) :
    indent.run (w.deeper d) = (w.deeper (d + 1)).quiet := by
  show ({ w with level := w.level + d + 1 } : Writer).quiet =
    ({ w with level := w.level + (d + 1 : Nat) } : Writer).quiet
  rw [Int.add_assoc, Int.natCast_succ]

theorem run_unindent_deeper (h : w.Ready) (d : Nat) :
    unindent.run (w.deeper (d + 1)) = (w.deeper d).quiet := by
  have hlevel := h.level_nonneg
  have hle : 1 ≤ w.level + (d + 1 : Nat) := by omega
  have hout : w.level + (d + 1 : Nat) - 1 = w.level + d := by omega
  rw [run, Writer.unindent_of_le hle]
  exact congrArg (fun level => Writer.quiet { w with level }) hout

end Layout

namespace CodeBlock

variable {w : Writer} {c : Call} {d : Nat} {calls : List Call}

theorem IsHead.line {head : String} (hhead : IsHead head) (front : String)
    (hfront : '\n' ∉ front.toList) :
    (front ++ head ++ " \x7b\n").toList =
        (front.toList ++ head.toList ++ [' ', '\x7b']) ++ ['\n'] ∧
      front.toList ++ head.toList ++ [' ', '\x7b'] ≠ [] ∧
      '\n' ∉ front.toList ++ head.toList ++ [' ', '\x7b'] := by
  refine ⟨by simp, by simp, ?_⟩
  simp [hfront, hhead.unbroken]

theorem Call.run_parts_append (c : Call) (ps : List Part) :
    (Layout.code (c.parts ++ ps) []).run = (Layout.code c.parts [] ++ Layout.code ps []).run :=
  @Layout.run_code_append c.parts [] c.supplied_parts ps []

theorem Call.Fits.run (h : c.Fits d) (hw : w.Ready) :
    (Layout.code c.parts []).run (w.deeper d) =
      ⟨(c.lines d).flatMap w.lineText, w.deeper (c.depthAfter d), none⟩ := by
  -- A step in behind the last line of a call.
  have hindent (d : Nat) : (Layout.indent ++ .empty).run (w.deeper d) = (w.deeper (d + 1)).quiet :=
    Layout.run_append_of_quiet (Layout.run_indent_deeper w d) .empty
  cases h with
  | @statement d s hs =>
      obtain ⟨first, later, hlines⟩ :=
        List.exists_cons_of_ne_nil (List.splitOn_ne_nil '\n' s.toList)
      have hlevel : 0 ≤ (w.deeper d).level := Int.add_nonneg hw.level_nonneg (Int.natCast_nonneg d)
      have hstart : { w.deeper d with lineStart := true } = w.deeper d := by
        rw [← hw.lineStart]
        rfl
      rw [Layout.run_statement (w := w.deeper d) hw.comment hw.statement hlevel hlines,
        hw.statementText_deeper d hlines, hstart]
      rfl
  | @opens d head hhead =>
      obtain ⟨hline, hne, hb⟩ := hhead.line "" (by simp)
      have htext := Layout.run_line_deeper hw d hline hne hb
      exact Layout.run_append_of_run htext (hindent d)
  | @next d head hhead =>
      obtain ⟨hline, hne, hb⟩ := hhead.line "\x7d " (by simp)
      have htext := Layout.run_line_deeper hw d hline hne hb
      have hout := Layout.run_append_of_quiet (Layout.run_unindent_deeper hw d)
      exact (hout _).trans (Layout.run_append_of_run htext (hindent d))
  | @closes d =>
      have hline : "\x7d\n".toList = ['\x7d'] ++ ['\n'] := rfl
      have htext := Layout.run_line_deeper hw d hline (by simp) (by simp)
      have hout := Layout.run_append_of_quiet (Layout.run_unindent_deeper hw d)
      exact (hout _).trans (Layout.run_append_of_run htext rfl)

theorem Nested.run (h : Nested d calls) (hw : w.Ready) :
    (Layout.code (calls.flatMap Call.parts) []).run (w.deeper d) =
      ⟨(programLines d calls).flatMap w.lineText, w, none⟩ := by
  induction h with
  | nil =>
      rw [w.deeper_zero]
      rfl
  | @cons d c rest hc _ ih =>
      rw [List.flatMap_cons, c.run_parts_append, programLines, List.flatMap_append]
      exact Layout.run_append_of_run (hc.run hw) ih

/-- How a writer gets from the depth `d` to the depth `d'`. Outside of statements its level goes
along with the depth, and the outermost depth is not below the outermost level. Inside a statement
there are more breaks than before. -/
inductive Moves (w v : Writer) (d d' : Nat) : Prop
  | inside (hw : w.statement ≠ -1) (hv : w.statement < v.statement)
  | outside (hw : w.statement = -1) (hv : v.statement = -1) (hlevel : v.level - d' = w.level - d)
    (hnonneg : d' = 0 → 0 ≤ v.level)

theorem Moves.trans {w v u : Writer} {d d' d'' : Nat} (h : Moves w v d d')
    (h' : Moves v u d' d'') : Moves w u d d'' := by
  cases h with
  | inside hw hv =>
      refine .inside hw ?_
      cases h' with
      | inside _ hu => exact Int.lt_trans hv hu
      | outside hv' hu => omega
  | outside hw hv hlevel =>
      cases h' with
      | inside hv' => exact absurd hv hv'
      | outside _ hu hlevel' hnonneg => exact .outside hw hu (hlevel'.trans hlevel) hnonneg

theorem Moves.of_line {v u : Writer} {d d' : Nat} {k : Int} (hv : v.statement = w.statement)
    (hu : u = v.broken.indent k) (hlevel : v.level + k - d' = w.level - d)
    (hnonneg : d' = 0 → 0 ≤ v.level + k) : Moves w u d d' := by
  subst hu
  by_cases hs : w.statement = -1
  · rw [Writer.broken_of_outside (hv.trans hs)]
    exact .outside hs (hv.trans hs) hlevel hnonneg
  · have hcount : v.broken.statement = v.statement + 1 := if_neg (hv ▸ hs)
    refine .inside hs ?_
    show w.statement < v.broken.statement
    omega

theorem Call.Fits.moves (h : c.Fits d) (hw : w.comment = false)
    (hok : ((Layout.code c.parts []).run w).error = none) :
    Moves w ((Layout.code c.parts []).run w).writer d (c.depthAfter d) := by
  cases h with
  | @statement d s hs =>
      obtain ⟨hclosed, hlevel⟩ := Layout.outside_of_run_statement hw hok
      obtain ⟨first, later, hlines⟩ :=
        List.exists_cons_of_ne_nil (List.splitOn_ne_nil '\n' s.toList)
      rw [Layout.run_statement hw hclosed hlevel hlines]
      exact .outside hclosed hclosed rfl fun _ => hlevel
  | @opens d head hhead =>
      obtain ⟨hline, -, hb⟩ := hhead.line "" (by simp)
      have htext := Layout.writer_run_line hw hline hb
      refine .of_line rfl (congrArg (Writer.indent · 1) htext) ?_
        (fun h => absurd h (Nat.succ_ne_zero d))
      show w.level + 1 - (d + 1 : Nat) = w.level - d
      omega
  | @next d head hhead =>
      obtain ⟨hline, -, hb⟩ := hhead.line "\x7d " (by simp)
      obtain ⟨-, hrun⟩ := Layout.run_unindent_append hok
      have htext := Layout.writer_run_line (w := { w with level := w.level - 1 }) hw hline hb
      refine .of_line (v := { w with level := w.level - 1 }) rfl
        ((congrArg Written.writer hrun).trans (congrArg (Writer.indent · 1) htext)) ?_
        (fun h => absurd h (Nat.succ_ne_zero d))
      show w.level - 1 + 1 - (d + 1 : Nat) = w.level - (d + 1 : Nat)
      omega
  | @closes d =>
      have hline : "\x7d\n".toList = ['\x7d'] ++ ['\n'] := rfl
      obtain ⟨hle, hrun⟩ := Layout.run_unindent_append hok
      have htext := Layout.writer_run_line (w := { w with level := w.level - 1 }) hw hline (by simp)
      have hend := (congrArg Written.writer hrun).trans (htext.trans (Writer.indent_zero _).symm)
      refine .of_line (v := { w with level := w.level - 1 }) rfl hend ?_ fun _ => ?_
      · show w.level - 1 + 0 - d = w.level - (d + 1 : Nat)
        omega
      · show 0 ≤ w.level - 1 + 0
        omega

theorem Nested.depth_of_nil (h : Nested d []) : d = 0 := by
  cases h
  rfl

theorem Nested.moves (h : Nested d calls) (hw : w.comment = false)
    (hok : ((Layout.code (calls.flatMap Call.parts) []).run w).error = none) :
    calls = [] ∨ Moves w ((Layout.code (calls.flatMap Call.parts) []).run w).writer d 0 := by
  induction h generalizing w with
  | nil => exact .inl rfl
  | @cons d c rest hc hrest ih =>
      -- Behind the last call all flows are closed, so its own move is one to the outermost depth.
      right
      rw [List.flatMap_cons, c.run_parts_append, Layout.run_append] at hok ⊢
      obtain ⟨hcall, hothers⟩ := Written.error_of_andThen hok
      have hcomment := Layout.comment_run (Layout.code c.parts []) hw
      have hmove := hc.moves hw hcall
      rw [Written.andThen_of_ok hcall]
      rcases ih hcomment hothers with rfl | hmoves
      · rw [hrest.depth_of_nil] at hmove
        exact hmove
      · exact hmove.trans hmoves

/-- Well-nested calls build code. It writes the lines that the calls stand for, each behind the
indentation of its depth, and leaves the writer as it was, if and only if the writer is outside of
statements and not below the outermost level. -/
theorem control_flow_indented_iff {unit : IndentUnit} {calls : List Call} (h : Program calls)
    {w : Writer} (hstart : w.lineStart = true) (hcomment : w.comment = false) :
    ∃ c, forEach (Call.apply unit) calls .empty = .ok () c ∧
      ((c.layout unit).run w = ⟨(programLines 0 calls).flatMap w.lineText, w, none⟩ ↔
        calls = [] ∨ (w.statement = -1 ∧ 0 ≤ w.level)) := by
  have hnested : Nested 0 calls := by
    have happend := h.nested_append .nil
    rwa [List.append_nil] at happend
  refine ⟨_, hnested.build .empty, ?_⟩
  have hlayout : (CodeBlock.empty ++ ⟨calls.flatMap Call.parts, []⟩).layout unit =
      .code (calls.flatMap Call.parts) [] := layout_eq unit _
  rw [hlayout]
  constructor
  · -- A writer that is as it was has not moved on inside of a statement.
    intro hrun
    rcases hnested.moves hcomment (congrArg Written.error hrun) with hnil | hmoves
    · exact .inl hnil
    · rw [hrun] at hmoves
      cases hmoves with
      | inside _ hlt => exact absurd hlt (Int.lt_irrefl _)
      | outside hs _ _ hnonneg => exact .inr ⟨hs, hnonneg rfl⟩
  · rintro (rfl | ⟨hs, hlevel⟩)
    · rfl
    · have hrun := hnested.run ⟨hcomment, hstart, hs, hlevel⟩
      rwa [w.deeper_zero] at hrun

def branchingCalls : List Call :=
  [.beginControlFlow (.str "if (a)") [], .addStatement (.str "x =\n\ny") [],
    .beginControlFlow (.str "for (b in c)") [], .addStatement (.str "z") [], .endControlFlow,
    .nextControlFlow (.str "else") [], .endControlFlow, .addStatement (.str "w") []]

theorem control_flow_indented_iff_branches :
    let w := { Writer.fresh "\t" with level := 1 }
    Program branchingCalls ∧ w.lineStart = true ∧ w.comment = false ∧
      ∃ c, forEach (Call.apply (.ok "\t")) branchingCalls .empty = .ok () c ∧
        (c.layout (.ok "\t")).run w =
          ⟨("\tif (a) \x7b\n\t\tx =\n\n\t\t\t\ty\n\t\tfor (b in c) \x7b\n\t\t\tz\n\t\t\x7d\n" ++
            "\t\x7d else \x7b\n\t\x7d\n\tw\n").toList, w, none⟩ := by
  have hloop : Program [.beginControlFlow (.str "for (b in c)") [], .addStatement (.str "z") [],
      .endControlFlow] :=
    @Program.flow "for (b in c)" [.addStatement (.str "z") []] [] [] ⟨by decide, by decide⟩
      (.statement ⟨by decide, by decide⟩ .nil) (by simp) (by simp) .nil
  have hcalls : Program branchingCalls :=
    @Program.flow "if (a)" _ [.addStatement (.str "w") []] [("else", [])] ⟨by decide, by decide⟩
      (.statement ⟨by decide, by decide⟩ hloop) (by simpa using ⟨by decide, by decide⟩)
      (by simpa using .nil) (.statement ⟨by decide, by decide⟩ .nil)
  have htext : (programLines 0 branchingCalls).flatMap
      (Writer.lineText { Writer.fresh "\t" with level := 1 }) =
      ("\tif (a) \x7b\n\t\tx =\n\n\t\t\t\ty\n\t\tfor (b in c) \x7b\n\t\t\tz\n\t\t\x7d\n" ++
        "\t\x7d else \x7b\n\t\x7d\n\tw\n").toList := by decide +kernel
  obtain ⟨c, hc, hiff⟩ := @control_flow_indented_iff (.ok "\t") branchingCalls hcalls
    { Writer.fresh "\t" with level := 1 } rfl rfl
  have hrun := hiff.2 (.inr ⟨rfl, by decide⟩)
  rw [htext] at hrun
  exact ⟨hcalls, rfl, rfl, c, hc, hrun⟩

/-- In a statement no other one can begin, and below the outermost level no flow can end. -/
theorem control_flow_misplaced :
    let unit : IndentUnit := .ok "\t"
    let inside := { Writer.fresh "\t" with statement := 0 }
    let below := { Writer.fresh "\t" with level := -1 }
    (∃ c, forEach (Call.apply unit) [.addStatement (.str "x") []] .empty = .ok () c ∧
      (c.layout unit).run inside = inside.failed (.codeFormat .statementTwice none)) ∧
    ∃ c, forEach (Call.apply unit) [.beginControlFlow (.str "if (a)") [], .endControlFlow] .empty =
        .ok () c ∧
      ((c.layout unit).run below).text = "if (a) \x7b\n".toList ∧
      ((c.layout unit).run below).error.isSome = true := by
  have hstatement : Nested 0 [.addStatement (.str "x") []] :=
    .cons (.statement ⟨by decide, by decide⟩) .nil
  have hflow : Nested 0 [.beginControlFlow (.str "if (a)") [], .endControlFlow] :=
    .cons (.opens ⟨by decide, by decide⟩) (.cons .closes .nil)
  exact ⟨⟨_, hstatement.build .empty, rfl⟩, _, hflow.build .empty, by decide +kernel,
    by decide +kernel⟩

end CodeBlock

end KotlinDecl
