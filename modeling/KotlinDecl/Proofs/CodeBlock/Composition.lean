import KotlinDecl.Proofs.CodeBlock.Parsing
import KotlinDecl.Proofs.Layout.Laws
import KotlinDecl.Proofs.Steps

namespace KotlinDecl

open Edit

/-- Whether the placeholders take as many arguments, up to a part that cannot be written. -/
def Part.supplied : List Part → Nat → Bool
  | [], n => n = 0
  | .argument _ :: ps, n + 1 => supplied ps n
  | .argument _ :: _, 0 => false
  | .split _ :: _, _ => true
  | _ :: ps, n => supplied ps n

theorem Part.supplied_append {ps qs : List Part} {m n : Nat} (h : supplied ps m = true)
    (h' : supplied qs n = true) : supplied (ps ++ qs) (m + n) = true := by
  induction ps generalizing m with
  | nil =>
      obtain rfl : m = 0 := by simpa [supplied] using h
      rwa [Nat.zero_add]
  | cons p ps ih =>
      cases p with
      | argument p =>
          cases m with
          | zero => cases h
          | succ m =>
              rw [Nat.succ_add]
              exact ih h
      | split c => rfl
      | _ => exact ih h

namespace Layout

/-- Code whose own placeholders take its arguments does not care what follows it. -/
theorem run_code_append {ps : List Part} {as : List (Placeholder → Layout)}
    (h : Part.supplied ps as.length = true) (qs : List Part) (bs : List (Placeholder → Layout)) :
    (code (ps ++ qs) (as ++ bs)).run = (code ps as ++ code qs bs).run := by
  induction ps generalizing as with
  | nil =>
      obtain rfl : as = [] := by simpa [Part.supplied] using h
      rfl
  | cons p ps ih =>
      have hcons : ∀ (d : Layout) (as : List (Placeholder → Layout)),
          Part.supplied ps as.length = true →
          (d ++ code (ps ++ qs) (as ++ bs)).run = (d ++ code ps as ++ code qs bs).run := by
        intro d as has
        rw [run_append_assoc]
        exact run_append_congr rfl (ih has)
      cases p with
      | argument p =>
          cases as with
          | nil => cases h
          | cons a as => exact hcons (a p) as h
      | split c => rfl
      | _ => exact hcons _ as h

theorem run_code_joinText (ps qs : List Part) (as : List (Placeholder → Layout)) :
    (code (Part.joinText ps qs) as).run = (code (ps ++ qs) as).run := by
  fun_induction Part.joinText ps qs generalizing as with
  | case1 s t qs =>
      have hcut : (text (s ++ t) ++ code qs as).run = (text s ++ text t ++ code qs as).run :=
        run_append_congr (run_text_append s t) rfl
      exact hcut.trans (run_append_assoc _ _ _)
  | case2 qs => rfl
  | case3 p ps qs _ ih =>
      cases p with
      | argument p =>
          cases as with
          | nil => rfl
          | cons a as => exact run_append_congr rfl (ih as)
      | split c => rfl
      | _ => exact run_append_congr rfl (ih as)

end Layout

namespace CodeBlock

variable {unit : IndentUnit}

def supplied (c : CodeBlock) : Bool := Part.supplied c.parts c.args.length

theorem supplied_append {c d : CodeBlock} (hc : c.supplied = true) (hd : d.supplied = true) :
    (c ++ d).supplied = true := by
  show Part.supplied (c.parts ++ d.parts) (c.args ++ d.args).length = true
  rw [List.length_append]
  exact Part.supplied_append hc hd

theorem run_append {c : CodeBlock} (hc : c.supplied = true) (d : CodeBlock) :
    ((c ++ d).layout unit).run = (c.layout unit ++ d.layout unit).run := by
  rw [layout_eq, layout_eq, layout_eq]
  show (Layout.code (c.parts ++ d.parts) ((c.args ++ d.args).map _)).run = _
  rw [List.map_append]
  apply Layout.run_code_append
  rwa [List.length_map]

theorem supplied_of_bind {format : Except Error (Option String)} {index : Nat}
    {steps : List Format.Step} {args : List Forms} {c : CodeBlock}
    (h : Format.bind format index steps args = .ok c) : c.supplied = true := by
  induction steps generalizing index args c with
  | nil =>
      rw [Format.bind] at h
      split at h
      · cases h
        rfl
      · exact absurd h Format.ok_of_faulty
  | cons s steps ih =>
      cases s with
      | part p =>
          cases p with
          | argument p =>
              obtain ⟨⟨v, rest⟩, _, h⟩ := ok_of_bind h
              obtain ⟨d, hd, hc⟩ := ok_of_bind h
              cases hc
              refine supplied_append ?_ (ih hd)
              rfl
          | _ =>
              obtain ⟨d, hd, hc⟩ := ok_of_bind h
              cases hc
              refine supplied_append ?_ (ih hd)
              rfl
      | loose letter p =>
          cases p with
          | some p =>
              obtain ⟨⟨v, rest⟩, _, h⟩ := ok_of_bind h
              obtain ⟨d, _, hc⟩ := ok_of_bind h
              cases hc
              rfl
          | none =>
              obtain ⟨d, _, hc⟩ := ok_of_bind h
              cases hc
              rfl
      | fault f => exact absurd h Format.ok_of_faulty
      | error e => cases h

theorem supplied_ofFormat {format : Value} {args : List Value} {c : CodeBlock}
    (hf : ∀ b, format = .code b → b.supplied = true)
    (h : ofFormat unit format args = .ok c) : c.supplied = true := by
  cases format with
  | code b =>
      rw [ofFormat] at h
      split at h
      · cases h
        exact hf _ rfl
      · cases h
  | _ =>
      obtain ⟨steps, _, hb⟩ := ok_of_bind h
      exact supplied_of_bind hb

theorem supplied_of_text {f : String} {args : List Value} {c : CodeBlock}
    (h : ofFormat unit (.str f) args = .ok c) : c.supplied = true := by
  apply supplied_ofFormat _ h
  nofun

def Call.block? : Call → Option CodeBlock
  | add (.code b) _ | addStatement (.code b) _ => some b
  | _ => none

/-- The blocks that are built call by call from nothing and from other such blocks. Calls may fail
and be gone on from. -/
inductive Made (unit : IndentUnit) : CodeBlock → Prop
  | start : Made unit .empty
  | call {s : CodeBlock} (c : Call) (hs : Made unit s) (hc : ∀ b ∈ c.block?, Made unit b) :
    Made unit ((c.apply unit).outcome s).1

def Call.format? : Call → Option Value
  | add format _ | addStatement format _ => some format
  | _ => none

/-- Code grows by a part that takes no argument, by what a text is read as, or by what one of
`formats` is read as. -/
inductive Adds (unit : IndentUnit) (formats : List Value) (s : CodeBlock) : CodeBlock → Prop
  | part {p : Part} (hp : Part.matched [p] [] = true) : Adds unit formats s (s ++ ⟨[p], []⟩)
  | text {f : String} {args : List Value} {d : CodeBlock}
    (h : ofFormat unit (.str f) args = .ok d) : Adds unit formats s (s ++ d)
  | format {f : Value} {args : List Value} {d : CodeBlock} (hf : f ∈ formats)
    (h : ofFormat unit f args = .ok d) : Adds unit formats s (s ++ d)

variable {formats : List Value}

theorem adds_addPart {p : Part} (hp : Part.matched [p] [] = true) :
    (addPart p).Follows (Adds unit formats) :=
  follows_modify fun _ => .part hp

theorem adds_text (f : String) (args : List Value) :
    (add unit (.str f) args).Follows (Adds unit formats) :=
  follows_require_bind fun _ hd => follows_modify fun _ => .text hd

theorem adds_format {f : Value} (hf : f ∈ formats) (args : List Value) :
    (add unit f args).Follows (Adds unit formats) :=
  follows_require_bind fun _ hd => follows_modify fun _ => .format hf hd

theorem adds_addHead (front : String) (head : Value) (args : List Value) :
    (addHead unit front head args).Follows (Adds unit formats) := by
  cases head with
  | str s => exact adds_text _ args
  | _ => exact (refuses_throw _).follows

theorem Call.adds (unit : IndentUnit) (c : Call) :
    (c.apply unit).Follows (Adds unit c.format?.toList) := by
  cases c with
  | add format args => exact adds_format List.mem_cons_self args
  | addStatement format args =>
      exact (adds_addPart rfl).bind fun _ => (adds_format List.mem_cons_self args).bind fun _ =>
        adds_text _ _
  | beginControlFlow head args =>
      exact (adds_addHead "" head args).bind fun _ => adds_addPart rfl
  | nextControlFlow head args =>
      exact (adds_addPart rfl).bind fun _ => (adds_addHead _ head args).bind fun _ =>
        adds_addPart rfl
  | endControlFlow => exact (adds_addPart rfl).bind fun _ => adds_addPart rfl
  | indent | unindent => exact adds_addPart rfl

theorem Call.block_of_format {c : Call} {b : CodeBlock} (h : .code b ∈ c.format?) :
    b ∈ c.block? := by
  cases c with
  | add format args | addStatement format args =>
      cases h
      rfl
  | _ => cases h

theorem Made.supplied {c : CodeBlock} (h : Made unit c) : c.supplied = true := by
  induction h with
  | start => rfl
  | call c hs hc ihs ihc =>
      refine keeps_of_steps (P := fun c => c.supplied = true) ((c.adds unit).outcome _) ?_ ihs
      intro s t hstep hs
      cases hstep with
      | @part p hp =>
          apply supplied_append hs
          cases p with
          | argument | split => cases hp
          | _ => rfl
      | text h => exact supplied_append hs (supplied_of_text h)
      | format hf h =>
          refine supplied_append hs (supplied_ofFormat ?_ h)
          rintro b rfl
          exact ihc b (Call.block_of_format (Option.mem_toList.1 hf))

theorem add_of_ofFormat {format : Value} {args : List Value} {c : CodeBlock}
    (h : ofFormat unit format args = .ok c) (s : CodeBlock) :
    add unit format args s = .ok () (s ++ c) := by
  simp only [add, bind, EStateM.bind, require, h]
  rfl

theorem ofFormat_append_run {f₁ f₂ : String} {a₁ a₂ : List Value} {c₁ c₂ : CodeBlock}
    (h₁ : ofFormat unit (.str f₁) a₁ = .ok c₁) (h₂ : ofFormat unit (.str f₂) a₂ = .ok c₂) :
    ∃ c, ofFormat unit (.str (f₁ ++ f₂)) (a₁ ++ a₂) = .ok c ∧
      (c.layout unit).run = ((c₁ ++ c₂).layout unit).run := by
  refine ⟨_, ofFormat_append h₁ h₂, ?_⟩
  rw [layout_eq, layout_eq]
  exact Layout.run_code_joinText c₁.parts c₂.parts _

def quoted (b : CodeBlock) : CodeBlock := ⟨[.argument .literal], [.code b]⟩

theorem ofFormat_literal (b : CodeBlock) :
    ofFormat unit (.str "%L") [.code b] = .ok b.quoted := by
  apply ofFormat_eq_ok_iff.2
  refine ⟨rfl, .cons (fun _ => ?_) .nil⟩
  exact congrArg Except.ok (Value.value_forms unit (.code b))

theorem run_quoted (b : CodeBlock) : (b.quoted.layout unit).run = (b.layout unit).run := by
  have hliteral : (Value.forms unit (.code b)).literal = b.layout unit := by
    cases b
    rfl
  have hquoted : b.quoted.layout unit = (Value.forms unit (.code b)).literal ++ .empty := rfl
  rw [hquoted, hliteral]
  exact Layout.run_append_empty _

theorem joinRest_run {separator : Value} {sep s : CodeBlock} {bs : List CodeBlock}
    (hsep : bs ≠ [] → ofFormat unit separator [] = .ok sep ∧ sep.supplied = true)
    (hs : s.supplied = true) (hbs : ∀ b ∈ bs, b.supplied = true) :
    ∃ r, joinRest unit separator (bs.map .code) s = .ok () r ∧ r.supplied = true ∧
      (r.layout unit).run = (s.layout unit ++
        .concat ((bs.map (·.layout unit)).map (sep.layout unit ++ ·))).run := by
  induction bs generalizing s with
  | nil => exact ⟨s, rfl, hs, (Layout.run_append_empty _).symm⟩
  | cons b bs ih =>
      obtain ⟨hformat, hsupplied⟩ := hsep (List.cons_ne_nil b bs)
      obtain ⟨hb, hbs⟩ := List.forall_mem_cons.1 hbs
      have hs' := supplied_append hs hsupplied
      obtain ⟨r, hr, hrs, hrun⟩ := ih (fun _ => ⟨hformat, hsupplied⟩) (supplied_append hs' hb) hbs
      refine ⟨r, ?_, hrs, ?_⟩
      · rw [List.map_cons, joinRest, bind_of_ok (add_of_ofFormat hformat s),
          bind_of_ok (add_of_ofFormat rfl (s ++ sep))]
        exact hr
      · have hthree : ((s ++ sep ++ b).layout unit).run =
            (s.layout unit ++ sep.layout unit ++ b.layout unit).run :=
          (run_append hs' b).trans (Layout.run_append_congr (run_append hs sep) rfl)
        rw [hrun, Layout.run_append_congr hthree rfl, Layout.run_append_assoc,
          Layout.run_append_assoc]
        exact Layout.run_append_congr rfl (Layout.run_append_assoc _ _ _).symm

theorem join_run {separator front back : Value} {sep f b : CodeBlock} {bs : List CodeBlock}
    (hf : ofFormat unit front [] = .ok f ∧ f.supplied = true)
    (hsep : 2 ≤ bs.length → ofFormat unit separator [] = .ok sep ∧ sep.supplied = true)
    (hbs : ∀ c ∈ bs, c.supplied = true) (hb : ofFormat unit back [] = .ok b) :
    ∃ j, join unit (bs.map .code) separator front back = .ok j ∧
      (j.layout unit).run = (f.layout unit ++
        .separated (sep.layout unit) (bs.map (·.layout unit)) ++ b.layout unit).run := by
  obtain ⟨hf, hfs⟩ := hf
  have hstart : add unit front [] .empty = .ok () f := by
    rw [add_of_ofFormat hf, empty_append]
  -- All that counts is the code in front of the last piece.
  suffices h : ∃ r, joinEdit unit (bs.map .code) separator front back .empty =
      add unit back [] r ∧ r.supplied = true ∧ (r.layout unit).run =
        (f.layout unit ++ .separated (sep.layout unit) (bs.map (·.layout unit))).run by
    obtain ⟨r, hr, hrs, hrun⟩ := h
    refine ⟨r ++ b, ?_, ?_⟩
    · rw [join, hr, add_of_ofFormat hb]
    · rw [run_append hrs]
      exact Layout.run_append_congr hrun rfl
  cases bs with
  | nil =>
      refine ⟨f, ?_, hfs, (Layout.run_append_empty _).symm⟩
      rw [joinEdit, bind_of_ok hstart]
      rfl
  | cons c bs =>
      obtain ⟨hc, hbs⟩ := List.forall_mem_cons.1 hbs
      have hmore : bs ≠ [] → 2 ≤ (c :: bs).length := by
        intro hne
        have hpos := List.length_pos_iff.2 hne
        rw [List.length_cons]
        omega
      obtain ⟨r, hr, hrs, hrun⟩ :=
        joinRest_run (fun hne => hsep (hmore hne)) (supplied_append hfs hc) hbs
      refine ⟨r, ?_, hrs, ?_⟩
      · rw [joinEdit, bind_of_ok hstart, List.map_cons]
        show (add unit (.code c) [] >>= _) f = _
        rw [bind_of_ok (add_of_ofFormat rfl f), bind_of_ok hr]
      · rw [hrun, Layout.run_append_congr (run_append hfs c) rfl, Layout.run_append_assoc]
        exact Layout.run_append_congr rfl (Layout.run_separated_cons _ _ _).symm

/-- Two texts read as one, added one after the other and written one after the other come to the
same. So do a block added as it is and as an argument, and joined blocks and the pieces in a
row. -/
theorem code_composes (unit : IndentUnit) :
    (∀ {f₁ f₂ : String} {a₁ a₂ : List Value} {c₁ c₂ : CodeBlock},
      ofFormat unit (.str f₁) a₁ = .ok c₁ → ofFormat unit (.str f₂) a₂ = .ok c₂ →
      ∃ c s, ofFormat unit (.str (f₁ ++ f₂)) (a₁ ++ a₂) = .ok c ∧
        (do add unit (.str f₁) a₁; add unit (.str f₂) a₂ : Edit CodeBlock Unit) .empty =
          .ok () s ∧
        ∀ w, (c.layout unit).run w = (s.layout unit).run w ∧
          (s.layout unit).run w = ((c₁.layout unit).run w).andThen (c₂.layout unit).run) ∧
    (∀ {s b : CodeBlock}, Made unit s → Made unit b →
      ∃ s₁ s₂, add unit (.code b) [] s = .ok () s₁ ∧
        add unit (.str "%L") [.code b] s = .ok () s₂ ∧
        ∀ (t : CodeBlock) (w : Writer),
          ((s₁ ++ t).layout unit).run w = ((s₂ ++ t).layout unit).run w) ∧
    (∀ {bs : List CodeBlock} {sep front back : String} {s f b : CodeBlock},
      (∀ c ∈ bs, Made unit c) → ofFormat unit (.str front) [] = .ok f →
      (2 ≤ bs.length → ofFormat unit (.str sep) [] = .ok s) →
      ofFormat unit (.str back) [] = .ok b →
      ∃ j, join unit (bs.map .code) (.str sep) (.str front) (.str back) = .ok j ∧
        ∀ w, (j.layout unit).run w = (f.layout unit ++
          .separated (s.layout unit) (bs.map (·.layout unit)) ++ b.layout unit).run w) := by
  refine ⟨fun h₁ h₂ => ?_, fun {s b} hs hb => ?_, fun hbs hf hsep hb => ?_⟩
  · obtain ⟨c, hc, hrun⟩ := ofFormat_append_run h₁ h₂
    refine ⟨c, _, hc, ?_, fun w => ⟨congrFun hrun w, ?_⟩⟩
    · rw [bind_of_ok (add_of_ofFormat h₁ _), empty_append]
      exact add_of_ofFormat h₂ _
    · exact congrFun (run_append (supplied_of_text h₁) _) w
  · have hquoted : (s ++ b.quoted).supplied = true := supplied_append hs.supplied rfl
    refine ⟨s ++ b, s ++ b.quoted, add_of_ofFormat rfl s,
      add_of_ofFormat (ofFormat_literal b) s, fun t w => ?_⟩
    rw [run_append (supplied_append hs.supplied hb.supplied), run_append hquoted]
    refine congrFun (Layout.run_append_congr ?_ rfl) w
    rw [run_append hs.supplied, run_append hs.supplied]
    exact Layout.run_append_congr rfl (run_quoted b).symm
  · obtain ⟨j, hj, hrun⟩ := join_run ⟨hf, supplied_of_text hf⟩
      (fun hlength => ⟨hsep hlength, supplied_of_text (hsep hlength)⟩)
      (fun c hc => (hbs c hc).supplied) hb
    exact ⟨j, hj, congrFun hrun⟩

/-- A statement that is cut inside a name, and two such halves in a list. -/
theorem code_composes_halves :
    let unit : IndentUnit := .ok "  "
    let c₁ : CodeBlock := ⟨[.openStatement, .text "val x"], []⟩
    let c₂ : CodeBlock := ⟨[.text "y = ", .argument .literal, .closeStatement], [.int 1]⟩
    let comma : CodeBlock := ⟨[.text ", "], []⟩
    ofFormat unit (.str "%[val x") [] = .ok c₁ ∧
      ofFormat unit (.str "y = %L%]") [.int 1] = .ok c₂ ∧ Made unit c₁ ∧
      (∃ c s, ofFormat unit (.str ("%[val x" ++ "y = %L%]")) ([] ++ [.int 1]) = .ok c ∧
        (do add unit (.str "%[val x") []; add unit (.str "y = %L%]") [.int 1] :
          Edit CodeBlock Unit) .empty = .ok () s ∧
        ∀ w, (c.layout unit).run w = (s.layout unit).run w ∧
          (s.layout unit).run w = ((c₁.layout unit).run w).andThen (c₂.layout unit).run) ∧
      ∃ j, join unit [.code c₁, .code c₁] (.str ", ") (.str "") (.str "") = .ok j ∧
        ∀ w, (j.layout unit).run w = (empty.layout unit ++
          .separated (comma.layout unit) [c₁.layout unit, c₁.layout unit] ++
          empty.layout unit).run w := by
  intro unit c₁ c₂ comma
  have h₁ : ofFormat unit (.str "%[val x") [] = .ok c₁ := rfl
  have h₂ : ofFormat unit (.str "y = %L%]") [.int 1] = .ok c₂ := rfl
  have hm : Made unit c₁ := .call (.add (.str "%[val x") []) .start nofun
  obtain ⟨hformats, _, hjoin⟩ := code_composes unit
  refine ⟨h₁, h₂, hm, hformats h₁ h₂, ?_⟩
  have hbs : ∀ c ∈ [c₁, c₁], Made unit c := by simpa using hm
  exact hjoin hbs rfl (fun _ => rfl) rfl

end CodeBlock

end KotlinDecl
