import KotlinDecl.Draft
import KotlinDecl.Proofs.CodeBlock.Composition
import KotlinDecl.Proofs.CodeBlock.Language

namespace KotlinDecl

open Edit Relation

namespace Part

theorem matched_iff {ps : List Part} {vs : List Value} :
    matched ps vs = true ↔ (∀ l, split l ∉ ps) ∧
      List.Forall₂ (fun p v => p.takes v = true) (placeholders ps) vs := by
  induction ps generalizing vs with
  | nil =>
      cases vs with
      | nil => simp [matched, placeholders]
      | cons v vs => simp [matched, placeholders]
  | cons p ps ih =>
      cases p with
      | argument p =>
          cases vs with
          | nil => simp [matched, placeholders, placeholder?]
          | cons v vs =>
              have hp : placeholders (argument p :: ps) = p :: placeholders ps := rfl
              simp [matched, hp, ih, and_left_comm]
      | split l =>
          constructor
          · intro h
            cases h
          · intro h
            exact absurd List.mem_cons_self (h.1 l)
      | _ =>
          refine ih.trans (and_congr_left' ?_)
          simp

def layout? : Part → Option Layout
  | text s => some (.text s)
  | percent => some (.text "%")
  | wrap => some (.text " ")
  | indent => some .indent
  | unindent => some .unindent
  | openStatement => some .openStatement
  | closeStatement => some .closeStatement
  | argument _ | split _ => none

end Part

/-- What is written for each part in turn, where a placeholder writes the next argument, which is
one that it takes, and there are no more arguments than that. -/
inductive LaidOut (unit : IndentUnit) : List Part → List Value → List Layout → Prop
  | nil : LaidOut unit [] [] []
  | argument {p : Placeholder} {v : Value} {ps : List Part} {vs : List Value} {ds : List Layout}
    (hv : p.takes v = true) (h : LaidOut unit ps vs ds) :
    LaidOut unit (.argument p :: ps) (v :: vs) ((v.forms unit).argument p :: ds)
  | fixed {q : Part} {d : Layout} {ps : List Part} {vs : List Value} {ds : List Layout}
    (hd : q.layout? = some d) (h : LaidOut unit ps vs ds) : LaidOut unit (q :: ps) vs (d :: ds)

namespace LaidOut

variable {unit : IndentUnit}

theorem of_matched {ps : List Part} {vs : List Value} (h : Part.matched ps vs = true) :
    ∃ ds, LaidOut unit ps vs ds := by
  induction ps generalizing vs with
  | nil =>
      cases vs with
      | nil => exact ⟨[], .nil⟩
      | cons v vs => cases h
  | cons p ps ih =>
      cases p with
      | argument p =>
          cases vs with
          | nil => cases h
          | cons v vs =>
              obtain ⟨hv, hvs⟩ := Bool.and_eq_true_iff.1 h
              obtain ⟨ds, hds⟩ := ih hvs
              exact ⟨_, .argument hv hds⟩
      | split l => cases h
      | _ =>
          obtain ⟨ds, hds⟩ := ih h
          exact ⟨_, .fixed rfl hds⟩

theorem code_eq {ps : List Part} {vs : List Value} {ds : List Layout} (h : LaidOut unit ps vs ds) :
    Layout.code ps (vs.map fun v => (v.forms unit).argument) = .concat ds := by
  induction h with
  | nil => rfl
  | argument _ _ ih => exact congrArg _ ih
  | @fixed q _ _ _ _ hd _ ih =>
      cases q with
      | argument | split => cases hd
      | _ =>
          cases hd
          exact congrArg _ ih

theorem cases_of_mem {ps : List Part} {vs : List Value} {ds : List Layout}
    (h : LaidOut unit ps vs ds) {d : Layout} (hd : d ∈ ds) :
    (∃ p, ∃ v ∈ vs, d = (v.forms unit).argument p) ∨ ∃ q : Part, q.layout? = some d := by
  induction h with
  | nil => cases hd
  | @argument p v _ vs _ _ _ ih =>
      rcases List.mem_cons.1 hd with rfl | hd
      · exact .inl ⟨p, v, List.mem_cons_self, rfl⟩
      · exact (ih hd).imp_left fun ⟨p, u, hu, h⟩ => ⟨p, u, List.mem_cons_of_mem v hu, h⟩
  | fixed hq _ ih =>
      rcases List.mem_cons.1 hd with rfl | hd
      · exact .inr ⟨_, hq⟩
      · exact ih hd

end LaidOut

namespace Layout

theorem error_of_concat {ds : List Layout} {w : Writer} {e : Error}
    (h : ((concat ds).run w).error = some e) : ∃ d ∈ ds, ∃ w', (d.run w').error = some e := by
  induction ds generalizing w with
  | nil => cases h
  | cons d ds ih =>
      cases hd : (d.run w).error with
      | some e' =>
          have hrun : ((concat (d :: ds)).run w).error = (d.run w).error :=
            congrArg Written.error (Written.andThen_of_error hd _)
          exact ⟨d, List.mem_cons_self, w, hrun.symm.trans h⟩
      | none =>
          have hrun : ((concat (d :: ds)).run w).error =
              ((concat ds).run (d.run w).writer).error := by
            show ((d.run w).andThen (concat ds).run).error = _
            rw [Written.andThen_of_ok hd]
          obtain ⟨d', hd', hw⟩ := ih (hrun.symm.trans h)
          exact ⟨d', List.mem_cons_of_mem d hd', hw⟩

end Layout

theorem Part.error_of_layout {q : Part} {d : Layout} (hd : q.layout? = some d) (w : Writer) :
    (d.run w).error ≠ some .argumentsExhausted := by
  intro h
  cases q with
  | argument | split => cases hd
  | unindent =>
      cases hd
      exact absurd (Writer.unindent_error h) Bool.false_ne_true
  | openStatement =>
      cases hd
      exact absurd (Writer.openStatement_error h) Bool.false_ne_true
  | closeStatement =>
      cases hd
      exact absurd (Writer.closeStatement_error h) Bool.false_ne_true
  | _ =>
      cases hd
      cases h

theorem Format.Takes.takes_bound {unit : IndentUnit} {p : Placeholder} {v : Value}
    (h : Takes unit p v) : p.takes (bound unit p v) = true := by
  cases p with
  | literal | name => rfl
  | string => cases v <;> rfl
  | type => exact h.admits

theorem Format.takes_zipWith_bound {unit : IndentUnit} {ps : List Placeholder} {vs : List Value}
    (h : List.Forall₂ (Takes unit) ps vs) :
    List.Forall₂ (fun p v => p.takes v = true) ps (List.zipWith (bound unit) ps vs) := by
  induction h with
  | nil => exact .nil
  | cons ht _ ih => exact .cons ht.takes_bound ih

namespace CodeBlock

variable {unit : IndentUnit}

def matched (c : CodeBlock) : Bool := Part.matched c.parts c.args

theorem matched_append {c d : CodeBlock} (hc : c.matched = true) (hd : d.matched = true) :
    (c ++ d).matched = true :=
  Part.matched_append hc hd

theorem matched_of_text {f : String} {args : List Value} {c : CodeBlock}
    (h : ofFormat unit (.str f) args = .ok c) : c.matched = true := by
  obtain ⟨hs, ht, hargs⟩ := Format.parse_eq_ok_iff.1 h
  refine Part.matched_iff.2 ⟨fun l hl => ?_, ?_⟩
  · rcases hs.cut.each _ hl with hp | ⟨s, hs, _⟩
    · cases hp
    · cases hs
  · rw [hargs]
    exact Format.takes_zipWith_bound ht

theorem matched_ofFormat {format : Value} {args : List Value} {c : CodeBlock}
    (hf : format.isFormat = true) (hb : ∀ b, format = .code b → b.matched = true)
    (h : ofFormat unit format args = .ok c) : c.matched = true := by
  cases format with
  | str f => exact matched_of_text h
  | code b =>
      rw [ofFormat] at h
      split at h
      · cases h
        exact hb _ rfl
      · cases h
  | _ => cases hf

theorem matched_of_adds {formats : List Value} (hf : ∀ f ∈ formats, f.isFormat = true)
    (hb : ∀ b, .code b ∈ formats → b.matched = true) {s t : CodeBlock}
    (h : ReflTransGen (Adds unit formats) s t) (hs : s.matched = true) : t.matched = true := by
  refine keeps_of_steps (P := fun c => c.matched = true) h ?_ hs
  intro s t hstep hs
  cases hstep with
  | part hp => exact matched_append hs hp
  | text h => exact matched_append hs (matched_of_text h)
  | format hm h =>
      refine matched_append hs (matched_ofFormat (hf _ hm) ?_ h)
      rintro b rfl
      exact hb b hm

theorem adds_joinRest {formats : List Value} {separator : Value} (hs : separator ∈ formats)
    {blocks : List Value} (hb : blocks ⊆ formats) :
    (joinRest unit separator blocks).Follows (Adds unit formats) := by
  induction blocks with
  | nil => exact follows_pure _
  | cons block blocks ih =>
      obtain ⟨hblock, hblocks⟩ := List.cons_subset.1 hb
      exact (adds_format hs _).bind fun _ => (adds_format hblock _).bind fun _ => ih hblocks

theorem adds_joinEdit (blocks : List Value) (separator front back : Value) :
    (joinEdit unit blocks separator front back).Follows
      (Adds unit (separator :: front :: back :: blocks)) := by
  cases blocks with
  | nil => exact (adds_format (by simp) []).bind fun _ => adds_format (by simp) []
  | cons block blocks =>
      have hblocks : blocks ⊆ separator :: front :: back :: block :: blocks := by
        intro v hv
        simp [hv]
      exact (adds_format (by simp) []).bind fun _ => (adds_format (by simp) []).bind fun _ =>
        (adds_joinRest (by simp) hblocks).bind fun _ => adds_format (by simp) []

/-- The blocks that can be had from texts and from other such blocks: read at once, built call by
call, where calls may fail and be gone on from, built on a copy, or joined. -/
inductive Obtained (unit : IndentUnit) : CodeBlock → Prop
  | read {format : Value} {args : List Value} {c : CodeBlock} (hf : format.isFormat = true)
    (hb : ∀ b, format = .code b → Obtained unit b) (h : ofFormat unit format args = .ok c) :
    Obtained unit c
  | start : Obtained unit .empty
  | call {s : CodeBlock} (c : Call) (hs : Obtained unit s)
    (hf : ∀ f ∈ c.format?, f.isFormat = true) (hb : ∀ b, .code b ∈ c.format? → Obtained unit b) :
    Obtained unit ((c.apply unit).outcome s).1
  | built {s c : CodeBlock} {serial : Option Nat} (hs : Obtained unit s)
    (h : (Draft.code s).build unit serial = .ok (.code c)) : Obtained unit c
  | copied {c s : CodeBlock} (hc : Obtained unit c)
    (h : Draft.ofCopy unit (.code c) [] = .ok (.code s)) : Obtained unit s
  | joined {blocks : List Value} {separator front back : Value} {c : CodeBlock}
    (hf : ∀ f ∈ separator :: front :: back :: blocks, f.isFormat = true)
    (hb : ∀ b, .code b ∈ separator :: front :: back :: blocks → Obtained unit b)
    (h : join unit blocks separator front back = .ok c) : Obtained unit c

theorem Obtained.matched {c : CodeBlock} (h : Obtained unit c) : c.matched = true := by
  induction h with
  | read hf _ h ih => exact matched_ofFormat hf ih h
  | start => rfl
  | call c _ hf _ ihs ihb =>
      refine matched_of_adds ?_ ?_ ((c.adds unit).outcome _) ihs
      · exact fun f hm => hf f (Option.mem_toList.1 hm)
      · exact fun b hm => ihb b (Option.mem_toList.1 hm)
  | built _ h ih =>
      cases h
      exact ih
  | copied _ h ih =>
      cases h
      exact matched_append rfl ih
  | joined hf _ h ihb =>
      unfold join at h
      split at h
      · next hj =>
          cases h
          exact matched_of_adds hf ihb ((adds_joinEdit _ _ _ _).steps_of_ok hj) rfl
      · cases h

/-- Placeholders and arguments go in pairs. Writing the block writes one layout for each part, in
which every argument has its place, so arguments can only run out inside one of the arguments. -/
theorem obtained_paired {c : CodeBlock} (h : Obtained unit c) :
    List.Forall₂ (fun p v => p.takes v = true) (Part.placeholders c.parts) c.args ∧
      (∃ ds, LaidOut unit c.parts c.args ds ∧ c.layout unit = .concat ds) ∧
      ∀ w, ((c.layout unit).run w).error = some .argumentsExhausted →
        ∃ p, ∃ v ∈ c.args, ∃ w',
          (((v.forms unit).argument p).run w').error = some .argumentsExhausted := by
  have hm := h.matched
  obtain ⟨ds, hds⟩ : ∃ ds, LaidOut unit c.parts c.args ds := LaidOut.of_matched hm
  have hlayout : c.layout unit = .concat ds := (layout_eq unit c).trans hds.code_eq
  refine ⟨(Part.matched_iff.1 hm).2, ⟨ds, hds, hlayout⟩, fun w hw => ?_⟩
  rw [hlayout] at hw
  obtain ⟨d, hd, w', hw'⟩ := Layout.error_of_concat hw
  rcases hds.cases_of_mem hd with ⟨p, v, hv, rfl⟩ | ⟨q, hq⟩
  · exact ⟨p, v, hv, w', hw'⟩
  · exact absurd hw' (Part.error_of_layout hq w')

/-- A statement that fails for want of a name, leaves its beginning and is gone on from. The block
is then joined with itself. -/
theorem obtained_paired_after_failure :
    let unit : IndentUnit := .ok "  "
    let c : CodeBlock := ⟨[.openStatement, .argument .string, .argument .name], [.null, .str "x"]⟩
    let j : CodeBlock := c ++ ⟨[.text ", "], []⟩ ++ c
    let failed := ((Call.addStatement (.str "%N") []).apply unit).outcome .empty
    failed.1 = ⟨[.openStatement], []⟩ ∧ failed.2.isSome = true ∧ Obtained unit j ∧
      List.Forall₂ (fun p v => p.takes v = true) (Part.placeholders j.parts) j.args ∧
      ∃ ds, LaidOut unit j.parts j.args ds ∧ j.layout unit = .concat ds := by
  intro unit c j failed
  have hopen : Obtained unit ⟨[.openStatement], []⟩ :=
    .call (.addStatement (.str "%N") []) .start (by simp [Call.format?, Value.isFormat])
      (by simp [Call.format?])
  have hc : Obtained unit c :=
    .call (.add (.str "%S%N") [.null, .str "x"]) hopen (by simp [Call.format?, Value.isFormat])
      (by simp [Call.format?])
  have hj : Obtained unit j := by
    have hjoin : join unit [.code c, .code c] (.str ", ") (.str "") (.str "") = .ok j := rfl
    refine .joined ?_ ?_ hjoin
    · simp [Value.isFormat]
    · simp [hc]
  obtain ⟨hpairs, hlaid, _⟩ := obtained_paired hj
  exact ⟨rfl, rfl, hj, hpairs, hlaid⟩

end CodeBlock

end KotlinDecl
