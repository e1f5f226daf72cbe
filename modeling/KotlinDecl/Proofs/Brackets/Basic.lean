import KotlinDecl.Proofs.CodeBlock.Composition
import KotlinDecl.Proofs.Failures.Basic
import KotlinDecl.Proofs.Layout.Frame

namespace KotlinDecl

abbrev Gives {α : Type} (Q : α → Prop) (x : Except Error α) : Prop := Ends (fun _ => True) Q x

theorem failsIn_true {α : Type} (x : Except Error α) : FailsIn (fun _ => True) x := by
  cases x <;> trivial

inductive BracketKind
  | round
  | curly
  | angle
  deriving DecidableEq, Repr

namespace BracketKind

def ofChar? : Char → Option (BracketKind × Bool)
  | '(' => some (round, true)
  | ')' => some (round, false)
  | '\x7b' => some (curly, true)
  | '\x7d' => some (curly, false)
  | '<' => some (angle, true)
  | '>' => some (angle, false)
  | _ => none

/-- The brackets that are open behind a character, innermost first. There are none such if it
closes a bracket that is not the innermost one. -/
def step (kinds stack : List BracketKind) (c : Char) : Option (List BracketKind) :=
  match ofChar? c with
  | none => some stack
  | some (b, opens) =>
    if b ∉ kinds then some stack
    else if opens then some (b :: stack)
    else if stack.head? = some b then some stack.tail
    else none

def reads (kinds stack : List BracketKind) (cs : List Char) : Option (List BracketKind) :=
  cs.foldlM (step kinds) stack

/-- Every bracket that is closed has been opened before, and none stays open. -/
def IsBalanced (kinds : List BracketKind) (cs : List Char) : Prop := reads kinds [] cs = some []

instance (kinds : List BracketKind) (cs : List Char) : Decidable (IsBalanced kinds cs) :=
  inferInstanceAs (Decidable (_ = _))

def Free (kinds : List BracketKind) (cs : List Char) : Prop :=
  ∀ c ∈ cs, ∀ b ∈ ofChar? c, b.1 ∉ kinds

variable {kinds stack : List BracketKind} {cs ds : List Char}

theorem reads_cons (c : Char) :
    reads kinds stack (c :: cs) = (step kinds stack c).bind (reads kinds · cs) :=
  List.foldlM_cons

theorem reads_append :
    reads kinds stack (cs ++ ds) = (reads kinds stack cs).bind (reads kinds · ds) :=
  List.foldlM_append

theorem step_beneath {c : Char} {stack' : List BracketKind} (h : step kinds stack c = some stack')
    (more : List BracketKind) : step kinds (stack ++ more) c = some (stack' ++ more) := by
  unfold step at h ⊢
  cases hc : ofChar? c with
  | none =>
      rw [hc] at h
      cases h
      rfl
  | some p =>
      obtain ⟨b, opens⟩ := p
      simp only [hc] at h ⊢
      by_cases hb : b ∉ kinds
      · rw [if_pos hb] at h ⊢
        cases h
        rfl
      · rw [if_neg hb] at h ⊢
        cases opens with
        | true =>
            cases h
            rfl
        | false =>
            cases stack with
            | nil => simp at h
            | cons a stack => simpa using congrArg (·.map (· ++ more)) h

theorem reads_beneath {stack' : List BracketKind} (h : reads kinds stack cs = some stack')
    (more : List BracketKind) : reads kinds (stack ++ more) cs = some (stack' ++ more) := by
  induction cs generalizing stack with
  | nil =>
      cases h
      rfl
  | cons c cs ih =>
      rw [reads_cons] at h ⊢
      obtain ⟨next, hstep, h⟩ := Option.bind_eq_some_iff.1 h
      rw [step_beneath hstep]
      exact ih h

theorem IsBalanced.reads (h : IsBalanced kinds cs) (stack : List BracketKind) :
    reads kinds stack cs = some stack :=
  reads_beneath h stack

theorem IsBalanced.append (hc : IsBalanced kinds cs) (hd : IsBalanced kinds ds) :
    IsBalanced kinds (cs ++ ds) := by
  rw [IsBalanced, reads_append, hc.reads]
  exact hd

theorem balanced_nil : IsBalanced kinds [] := rfl

theorem Free.reads (h : Free kinds cs) (stack : List BracketKind) :
    reads kinds stack cs = some stack := by
  induction cs with
  | nil => rfl
  | cons c cs ih =>
      obtain ⟨hc, hcs⟩ := List.forall_mem_cons.1 h
      have hstep : step kinds stack c = some stack := by
        unfold step
        cases ho : ofChar? c with
        | none => rfl
        | some b => exact if_pos (hc b ho)
      rw [reads_cons, hstep]
      exact ih hcs

theorem Free.append (hc : Free kinds cs) (hd : Free kinds ds) : Free kinds (cs ++ ds) :=
  List.forall_mem_append.2 ⟨hc, hd⟩

theorem Free.balanced (h : Free kinds cs) : IsBalanced kinds cs := h.reads []

theorem free_of_none (h : cs.all (fun c => (ofChar? c).isNone) = true) : Free kinds cs := by
  intro c hc b hb
  rw [Option.isNone_iff_eq_none.1 (List.all_eq_true.1 h c hc)] at hb
  cases hb

theorem IsBalanced.of_append_free (h : IsBalanced kinds (cs ++ ds)) (hd : Free kinds ds) :
    IsBalanced kinds cs := by
  rw [IsBalanced, reads_append] at h
  obtain ⟨stack, hstack, h⟩ := Option.bind_eq_some_iff.1 h
  rw [hd.reads] at h
  rw [IsBalanced, hstack, h]

theorem IsBalanced.intercalate {sep : List Char} {items : List (List Char)}
    (hsep : IsBalanced kinds sep) (h : ∀ item ∈ items, IsBalanced kinds item) :
    IsBalanced kinds (sep.intercalate items) := by
  induction items with
  | nil => exact balanced_nil
  | cons item items ih =>
      obtain ⟨hitem, hitems⟩ := List.forall_mem_cons.1 h
      cases items with
      | nil => simpa [List.intercalate] using hitem
      | cons other items =>
          simpa [List.intercalate] using hitem.append (hsep.append (ih hitems))

theorem step_of_subset {fewer : List BracketKind} (hf : fewer ⊆ kinds) {c : Char}
    {stack' : List BracketKind} (h : step kinds stack c = some stack') :
    step fewer (stack.filter (· ∈ fewer)) c = some (stack'.filter (· ∈ fewer)) := by
  unfold step at h ⊢
  cases hc : ofChar? c with
  | none =>
      rw [hc] at h
      cases h
      rfl
  | some p =>
      obtain ⟨b, opens⟩ := p
      simp only [hc] at h ⊢
      by_cases hb : b ∈ kinds
      · rw [if_neg fun hn => hn hb] at h
        cases opens with
        | true =>
            cases h
            by_cases hb' : b ∈ fewer <;> simp [hb']
        | false =>
            cases stack with
            | nil => simp at h
            | cons a stack =>
                obtain ⟨rfl, rfl⟩ : a = b ∧ stack = stack' := by simpa using h
                by_cases hb' : a ∈ fewer <;> simp [hb']
      · rw [if_pos hb] at h
        cases h
        rw [if_pos (mt (@hf b) hb)]

theorem reads_of_subset {fewer : List BracketKind} (hf : fewer ⊆ kinds) {stack' : List BracketKind}
    (h : reads kinds stack cs = some stack') :
    reads fewer (stack.filter (· ∈ fewer)) cs = some (stack'.filter (· ∈ fewer)) := by
  induction cs generalizing stack with
  | nil =>
      cases h
      rfl
  | cons c cs ih =>
      rw [reads_cons] at h ⊢
      obtain ⟨next, hstep, h⟩ := Option.bind_eq_some_iff.1 h
      rw [step_of_subset hf hstep]
      exact ih h

theorem IsBalanced.of_subset {fewer : List BracketKind} (hf : fewer ⊆ kinds)
    (h : IsBalanced kinds cs) : IsBalanced fewer cs :=
  reads_of_subset hf h

theorem IsBalanced.of_all (h : IsBalanced [round, curly, angle] cs) : IsBalanced kinds cs :=
  h.of_subset fun b _ => by cases b <;> decide

structure Encloses (b : BracketKind) (front back : List Char) : Prop where
  opens (kinds stack : List BracketKind) :
    reads kinds stack front = some (if b ∈ kinds then b :: stack else stack)
  closes (kinds stack : List BracketKind) :
    reads kinds (if b ∈ kinds then b :: stack else stack) back = some stack

theorem Encloses.balanced {b : BracketKind} {front back : List Char} (h : Encloses b front back)
    (hc : IsBalanced kinds cs) : IsBalanced kinds (front ++ cs ++ back) := by
  rw [IsBalanced, reads_append, reads_append, h.opens, Option.bind_some, hc.reads]
  exact h.closes kinds []

theorem encloses_of {b : BracketKind} {front back : List Char} {o c : Char}
    (ho : ofChar? o = some (b, true)) (hc : ofChar? c = some (b, false))
    {f f' g g' : List Char}
    (hfree : (f ++ f' ++ g ++ g').all (fun x => (ofChar? x).isNone) = true)
    (hfront : front = f ++ o :: f') (hback : back = g ++ c :: g') : Encloses b front back := by
  subst hfront hback
  simp only [List.all_append, Bool.and_eq_true] at hfree
  obtain ⟨⟨⟨hf, hf'⟩, hg⟩, hg'⟩ := hfree
  refine ⟨fun kinds stack => ?_, fun kinds stack => ?_⟩
  · rw [reads_append, (free_of_none hf).reads, Option.bind_some, reads_cons]
    by_cases hb : b ∈ kinds
    · simp [step, ho, hb, (free_of_none hf').reads]
    · simp [step, ho, hb, (free_of_none hf').reads]
  · rw [reads_append, (free_of_none hg).reads, Option.bind_some, reads_cons]
    by_cases hb : b ∈ kinds
    · simp [step, hc, hb, (free_of_none hg').reads]
    · simp [step, hc, hb, (free_of_none hg').reads]

theorem encloses_parentheses : Encloses round "(".toList ")".toList :=
  encloses_of (f := []) (g := []) (o := '(') (c := ')') rfl rfl rfl rfl rfl

theorem encloses_angles : Encloses angle "<".toList ">".toList :=
  encloses_of (f := []) (g := []) (o := '<') (c := '>') rfl rfl rfl rfl rfl

theorem encloses_braces : Encloses curly " \x7b\n".toList "\x7d".toList :=
  encloses_of (f := [' ']) (g := []) (o := '\x7b') (c := '\x7d') rfl rfl rfl rfl rfl

theorem encloses_lines : Encloses curly " \x7b\n".toList "\x7d\n".toList :=
  encloses_of (f := [' ']) (g := []) (o := '\x7b') (c := '\x7d') rfl rfl rfl rfl rfl

theorem ofChar?_toUpper {c : Char} (h : ofChar? c = none) : ofChar? c.toUpper = none := by
  by_cases hc : 'a'.val ≤ c.val ∧ c.val ≤ 'z'.val
  · have hcode : 65 ≤ c.toUpper.toNat ∧ c.toUpper.toNat ≤ 90 := by
      have ha : 'a'.val.toNat = 97 := rfl
      have hz : 'z'.val.toNat = 122 := rfl
      have hA : ('A'.val - 'a'.val).toNat = 2 ^ 32 - 32 := rfl
      have hup : c.toUpper = _ := dif_pos hc
      rw [hup]
      simp only [UInt32.le_iff_toNat_le, Char.toNat, UInt32.toNat_add] at hc ⊢
      omega
    generalize c.toUpper = d at hcode
    unfold ofChar?
    split
    case h_7 => rfl
    all_goals simp at hcode
  · have hup : c.toUpper = c := dif_neg hc
    rwa [hup]

end BracketKind

open BracketKind

variable {kinds stack : List BracketKind}

namespace Modifier

theorem plain_keyword (m : Modifier) :
    m.keyword.toList.all (fun c => (ofChar? c).isNone) = true := by
  cases m <;> rfl

theorem free_keyword (m : Modifier) : Free kinds m.keyword.toList := free_of_none m.plain_keyword

theorem free_name (m : Modifier) : Free kinds m.name.toList := by
  rw [name, String.toUpper, String.toList_map]
  refine free_of_none (List.all_eq_true.2 (List.forall_mem_map.2 fun c hc => ?_))
  have hc := Option.isNone_iff_eq_none.1 (List.all_eq_true.1 m.plain_keyword c hc)
  rw [ofChar?_toUpper hc]
  rfl

end Modifier

namespace Writer

theorem free_indentation {w : Writer} (hw : Free kinds w.unit.toList) :
    Free kinds w.indentation := by
  intro c hc
  obtain ⟨u, hu, hc⟩ := List.mem_flatten.1 hc
  rw [List.eq_of_mem_replicate hu] at hc
  exact hw c hc

theorem put_free {w : Writer} (hw : Free kinds w.unit.toList) (c : Char) :
    ∃ front, Free kinds front ∧ (w.put c).1 = front ++ [c] := by
  have hi := free_indentation hw
  unfold put
  split
  · next hc =>
      subst hc
      split
      · refine ⟨w.indentation ++ [' ', '*'], hi.append (free_of_none (by decide)), by simp⟩
      · exact ⟨[], List.forall_mem_nil _, rfl⟩
  · split
    · refine ⟨_, hi.append ?_, rfl⟩
      split
      · exact free_of_none (by decide)
      · exact List.forall_mem_nil _
    · exact ⟨[], List.forall_mem_nil _, rfl⟩

theorem reads_emit {w : Writer} (hw : Free kinds w.unit.toList) (cs : List Char) :
    reads kinds stack (w.emit cs).1 = reads kinds stack cs := by
  induction cs generalizing w stack with
  | nil => rfl
  | cons c cs ih =>
      obtain ⟨front, hfront, hput⟩ := put_free hw c
      have hunit : (w.put c).2.unit = w.unit := by
        rw [put_writer]
        split <;> rfl
      rw [emit, hput, List.append_assoc, reads_append, hfront.reads, Option.bind_some,
        List.singleton_append, reads_cons, reads_cons]
      exact congrArg _ (funext fun stack => ih (hunit ▸ hw))

theorem text_unindent (w : Writer) (n : Int) : (w.unindent n).text = [] := by
  unfold unindent unindentBy
  split <;> rfl

theorem text_openStatement (w : Writer) : w.openStatement.text = [] := by
  unfold openStatement
  split <;> rfl

theorem text_closeStatement (w : Writer) : w.closeStatement.text = [] := by
  unfold closeStatement
  by_cases hs : w.statement = -1
  · rw [if_pos hs]
    rfl
  · rw [if_neg hs]
    by_cases hp : 0 < w.statement
    · simp only [hp, if_true]
      split <;> exact w.text_unindent continuation
    · simp only [hp, if_false]
      rfl

end Writer

namespace Layout

/-- The text of a layout before it is put into lines. -/
def raw : Layout → List Char
  | text s => s.toList
  | seq a b => a.raw ++ b.raw
  | comment d | declaration d | body _ d => d.raw
  | _ => []

@[simp] theorem raw_append (a b : Layout) : (a ++ b).raw = a.raw ++ b.raw := rfl

@[simp] theorem raw_text (s : String) : (text s).raw = s.toList := rfl

theorem reads_run {d : Layout} {w : Writer} (hw : Free kinds w.unit.toList)
    (hok : (d.run w).error = none) :
    reads kinds stack (d.run w).text = reads kinds stack d.raw := by
  induction d generalizing w stack with
  | empty | indent => rfl
  | text s => exact Writer.reads_emit hw s.toList
  | seq a b iha ihb =>
      obtain ⟨ha, hb⟩ := Written.error_of_andThen hok
      have hunit : Free kinds (a.run w).writer.unit.toList := (run_leaves a w).unit ▸ hw
      show reads kinds stack ((a ++ b).run w).text = reads kinds stack (a.raw ++ b.raw)
      rw [text_run_append ha, reads_append, reads_append, iha hw ha]
      exact congrArg _ (funext fun stack => ihb hunit hb)
  | unindent => exact congrArg _ (w.text_unindent 1)
  | openStatement => exact congrArg _ w.text_openStatement
  | closeStatement => exact congrArg _ w.text_closeStatement
  | freshLine =>
      simp only [run, Writer.freshLine]
      split
      · rfl
      · exact Writer.reads_emit hw ['\n']
  | comment d ih | declaration d ih => exact ih hw hok
  | body scope d ih => exact ih hw hok
  | fail e => cases hok

def Level (kinds : List BracketKind) (d : Layout) : Prop := IsBalanced kinds d.raw

theorem Level.run {d : Layout} (h : d.Level kinds) {w : Writer} (hw : Free kinds w.unit.toList)
    (hok : (d.run w).error = none) : IsBalanced kinds (d.run w).text := by
  rw [IsBalanced, reads_run hw hok]
  exact h

/-- How a layout is written on its own tells whether it is balanced anywhere. -/
theorem level_iff_alone {d : Layout} {unit : IndentUnit} {s : String}
    (hu : ∀ u, unit = .ok u → Free kinds u.toList) (h : d.alone unit = .ok s) :
    d.Level kinds ↔ IsBalanced kinds s.toList := by
  obtain ⟨u, hunit, hok, hs⟩ := run_of_alone h
  have hw : Free kinds (Writer.fresh u).unit.toList := hu u hunit
  rw [hs, Level, IsBalanced, IsBalanced, reads_run hw hok]

theorem Level.append {a b : Layout} (ha : a.Level kinds) (hb : b.Level kinds) :
    (a ++ b).Level kinds :=
  IsBalanced.append ha hb

theorem level_empty : empty.Level kinds := balanced_nil

theorem level_fail (e : Error) : (fail e).Level kinds := balanced_nil

theorem level_text {s : String} (h : IsBalanced kinds s.toList) : (text s).Level kinds := h

theorem level_fixed {s : String} (h : IsBalanced [round, curly, angle] s.toList) :
    (text s).Level kinds :=
  h.of_all

theorem Level.enclosed {d : Layout} {b : BracketKind} {front back : String} (h : d.Level kinds)
    (hb : Encloses b front.toList back.toList) : (text front ++ d ++ text back).Level kinds :=
  hb.balanced h

theorem Level.enclosed_behind {a d : Layout} {b : BracketKind} {front back : String}
    (ha : a.Level kinds) (hd : d.Level kinds) (hb : Encloses b front.toList back.toList) :
    (a ++ text front ++ d ++ text back).Level kinds := by
  have h : IsBalanced kinds (a.raw ++ (front.toList ++ d.raw ++ back.toList)) :=
    IsBalanced.append ha (hb.balanced hd)
  simpa [Level] using h

theorem level_ofText {x : Except Error String} (h : ∀ s, x = .ok s → IsBalanced kinds s.toList) :
    (ofText x).Level kinds := by
  cases x with
  | ok s => exact h s rfl
  | error e => exact level_fail e

theorem level_orFail {x : Except Error Layout} (h : Gives (·.Level kinds) x) :
    (orFail x).Level kinds := by
  cases x with
  | ok d => exact h
  | error e => exact level_fail e

theorem level_when {b : Bool} {d : Layout} (h : d.Level kinds) : (Layout.when b d).Level kinds := by
  cases b with
  | true => exact h
  | false => exact level_empty

theorem level_ofOption {o : Option Layout} (h : ∀ d ∈ o, d.Level kinds) :
    (ofOption o).Level kinds := by
  cases o with
  | none => exact level_empty
  | some d => exact h d rfl

theorem level_concat {ds : List Layout} (h : ∀ d ∈ ds, d.Level kinds) :
    (concat ds).Level kinds := by
  induction ds with
  | nil => exact level_empty
  | cons d ds ih =>
      obtain ⟨hd, hds⟩ := List.forall_mem_cons.1 h
      exact hd.append (ih hds)

theorem level_separated {sep : Layout} {ds : List Layout} (hsep : sep.Level kinds)
    (h : ∀ d ∈ ds, d.Level kinds) : (separated sep ds).Level kinds := by
  induction ds with
  | nil => exact level_empty
  | cons d ds ih =>
      obtain ⟨hd, hds⟩ := List.forall_mem_cons.1 h
      cases ds with
      | nil => exact hd
      | cons e ds => exact (hd.append hsep).append (ih hds)

theorem level_parenthesized {ds : List Layout} (h : ∀ d ∈ ds, d.Level kinds) :
    (parenthesized ds).Level kinds :=
  (level_separated (level_fixed (by decide)) h).enclosed encloses_parentheses

theorem level_keyword (m : Modifier) : (text (m.keyword ++ " ")).Level kinds := by
  rw [Level, raw_text, String.toList_append]
  exact m.free_keyword.balanced.append (.of_all (by decide))

theorem level_modifiers (ms : ModifierSet) (implied : List Modifier) :
    (modifiers ms implied).Level kinds :=
  level_concat (List.forall_mem_map.2 fun m _ => level_keyword m)

theorem level_kdoc {isEmpty : Bool} {code : Layout} (h : code.Level kinds) :
    (kdoc isEmpty code).Level kinds := by
  cases isEmpty with
  | true => exact level_empty
  | false =>
      have hc : (comment (code ++ freshLine)).Level kinds := h.append level_empty
      exact ((level_fixed (by decide)).append hc).append (level_fixed (by decide))

theorem level_block {code : Layout} (h : code.Level kinds) : (block code).Level kinds := by
  have hb := encloses_lines.balanced h
  simpa [Level, block, raw] using hb

theorem level_members {first : Bool} {ms : List (Except Error Layout)}
    (h : ∀ m ∈ ms, Gives (·.Level kinds) m) : (members first ms).Level kinds := by
  induction ms generalizing first with
  | nil => exact level_empty
  | cons m ms ih =>
      obtain ⟨hm, hms⟩ := List.forall_mem_cons.1 h
      cases m with
      | error e => exact level_fail e
      | ok d => exact ((level_when (level_fixed (by decide))).append hm).append (ih hms)

/-- Code behind code whose placeholders take all its arguments is written in full, unless a part
that cannot be written comes first. -/
theorem raw_code_append {ps : List Part} {as : List (Placeholder → Layout)}
    (h : Part.supplied ps as.length = true) (qs : List Part) (bs : List (Placeholder → Layout)) :
    (code (ps ++ qs) (as ++ bs)).raw = (code ps as).raw ++ (code qs bs).raw ∨
      (code (ps ++ qs) (as ++ bs)).raw = (code ps as).raw := by
  induction ps generalizing as with
  | nil =>
      obtain rfl : as = [] := by simpa [Part.supplied] using h
      exact .inl rfl
  | cons p ps ih =>
      have hcons : ∀ (d : Layout) (as : List (Placeholder → Layout)),
          Part.supplied ps as.length = true →
          (d ++ code (ps ++ qs) (as ++ bs)).raw = (d ++ code ps as).raw ++ (code qs bs).raw ∨
            (d ++ code (ps ++ qs) (as ++ bs)).raw = (d ++ code ps as).raw := by
        intro d as has
        rcases ih has with hr | hr
        · exact .inl (by rw [raw_append, raw_append, hr, List.append_assoc])
        · exact .inr (by rw [raw_append, raw_append, hr])
      cases p with
      | argument p =>
          cases as with
          | nil => cases h
          | cons a as => exact hcons (a p) as h
      | split c => exact .inr rfl
      | _ => exact hcons _ as h

end Layout

namespace CodePieces

/-- The brackets in the code are balanced, and its own placeholders take all its arguments. -/
structure Level (kinds : List BracketKind) (c : CodePieces) : Prop where
  layout : c.layout.Level kinds
  supplied : Part.supplied c.parts c.args.length = true

variable {c d : CodePieces}

theorem Level.append (hc : c.Level kinds) (hd : d.Level kinds) : (c ++ d).Level kinds := by
  constructor
  · rcases Layout.raw_code_append hc.supplied d.parts d.args with hr | hr
    · exact (congrArg (IsBalanced kinds) hr).mpr (IsBalanced.append hc.layout hd.layout)
    · exact (congrArg (IsBalanced kinds) hr).mpr hc.layout
  · show Part.supplied (c.parts ++ d.parts) (c.args ++ d.args).length = true
    rw [List.length_append]
    exact Part.supplied_append hc.supplied hd.supplied

theorem level_fixed {s : String} (h : IsBalanced [round, curly, angle] s.toList) :
    (fixed [.text s]).Level kinds :=
  ⟨(Layout.level_fixed h).append Layout.level_empty, rfl⟩

theorem Level.joined {sep : CodePieces} {cs : List CodePieces} (hsep : sep.Level kinds)
    (h : ∀ c ∈ cs, c.Level kinds) : (joined sep cs).Level kinds := by
  induction cs with
  | nil => exact ⟨balanced_nil, rfl⟩
  | cons c cs ih =>
      obtain ⟨hc, hcs⟩ := List.forall_mem_cons.1 h
      cases cs with
      | nil => exact hc
      | cons d cs => exact (hc.append hsep).append (ih hcs)

end CodePieces

end KotlinDecl
