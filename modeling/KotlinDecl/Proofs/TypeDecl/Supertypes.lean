import KotlinDecl.Proofs.CodeBlock.Composition
import KotlinDecl.Proofs.TypeDecl.Functions
import KotlinDecl.Proofs.TypeName.Bounds

namespace KotlinDecl

open Layout (text empty ofText ofOption separated parenthesized)

namespace Part

/-- How many arguments the parts could take. -/
def slots : List Part → Nat
  | [] => 0
  | .argument _ :: ps | .split _ :: ps => slots ps + 1
  | _ :: ps => slots ps

theorem slots_append (ps qs : List Part) : slots (ps ++ qs) = slots ps + slots qs := by
  induction ps with
  | nil => exact (Nat.zero_add _).symm
  | cons p ps ih =>
      cases p with
      | argument | split => simp only [List.cons_append, slots, ih, Nat.succ_add]
      | _ => exact ih

theorem supplied_slots (ps : List Part) : supplied ps (slots ps) = true := by
  induction ps with
  | nil => rfl
  | cons p ps ih =>
      cases p with
      | split c => rfl
      | _ => exact ih

end Part

theorem Layout.slots_le_of_run {ps : List Part} {as : List (Placeholder → Layout)} {w : Writer}
    (h : ((code ps as).run w).error = none) : Part.slots ps ≤ as.length := by
  induction ps generalizing as w with
  | nil => exact Nat.zero_le _
  | cons p ps ih =>
      cases p with
      | argument p =>
          cases as with
          | nil => cases h
          | cons a as => exact Nat.succ_le_succ (ih (Written.error_of_andThen h).2)
      | split c => cases h
      | _ => exact ih (Written.error_of_andThen h).2

namespace CodePieces

variable {c d : CodePieces} {cs : List CodePieces}

/-- The placeholders can take all the arguments. -/
def Thrifty (c : CodePieces) : Prop := c.args.length ≤ Part.slots c.parts

def supplied (c : CodePieces) : Bool := Part.supplied c.parts c.args.length

theorem Thrifty.append (hc : c.Thrifty) (hd : d.Thrifty) : (c ++ d).Thrifty := by
  show (c.args ++ d.args).length ≤ Part.slots (c.parts ++ d.parts)
  rw [List.length_append, Part.slots_append]
  exact Nat.add_le_add hc hd

theorem Thrifty.joined {sep : CodePieces} (hsep : sep.Thrifty) (hcs : ∀ c ∈ cs, c.Thrifty) :
    (joined sep cs).Thrifty := by
  induction cs with
  | nil => exact Nat.le_refl 0
  | cons c cs ih =>
      obtain ⟨hc, hcs⟩ := List.forall_mem_cons.1 hcs
      cases cs with
      | nil => exact hc
      | cons d cs => exact (hc.append hsep).append (ih hcs)

/-- All placeholders take an argument only if they do so in each of the two, since neither can help
out the other. -/
theorem Thrifty.slots_le_of_append (hc : c.Thrifty) (hd : d.Thrifty)
    (h : Part.slots (c ++ d).parts ≤ (c ++ d).args.length) :
    Part.slots c.parts ≤ c.args.length ∧ Part.slots d.parts ≤ d.args.length := by
  have hsum : Part.slots (c.parts ++ d.parts) ≤ (c.args ++ d.args).length := h
  rw [Part.slots_append, List.length_append] at hsum
  unfold Thrifty at hc hd
  omega

theorem Thrifty.supplied (hc : c.Thrifty) (h : Part.slots c.parts ≤ c.args.length) :
    c.supplied = true := by
  have heq : c.args.length = Part.slots c.parts := Nat.le_antisymm hc h
  rw [CodePieces.supplied, heq]
  exact Part.supplied_slots _

theorem supplied_of_joined {sep : CodePieces} (hsep : sep.Thrifty) (hcs : ∀ c ∈ cs, c.Thrifty)
    (h : Part.slots (joined sep cs).parts ≤ (joined sep cs).args.length) :
    ∀ c ∈ cs, c.supplied = true := by
  induction cs with
  | nil => exact List.forall_mem_nil _
  | cons c cs ih =>
      obtain ⟨hc, hcs⟩ := List.forall_mem_cons.1 hcs
      cases cs with
      | nil => exact List.forall_mem_singleton.2 (hc.supplied h)
      | cons d cs =>
          obtain ⟨hfront, hrest⟩ := (hc.append hsep).slots_le_of_append (.joined hsep hcs) h
          obtain ⟨hslots, _⟩ := hc.slots_le_of_append hsep hfront
          exact List.forall_mem_cons.2 ⟨hc.supplied hslots, ih hcs hrest⟩

theorem run_append (hc : c.supplied = true) (d : CodePieces) :
    (c ++ d).layout.run = (c.layout ++ d.layout).run :=
  Layout.run_code_append hc d.parts d.args

theorem supplied_append (hc : c.supplied = true) (hd : d.supplied = true) :
    (c ++ d).supplied = true := by
  show Part.supplied (c.parts ++ d.parts) (c.args ++ d.args).length = true
  rw [List.length_append]
  exact Part.supplied_append hc hd

theorem run_joined {sep : CodePieces} (hsep : sep.supplied = true)
    (hcs : ∀ c ∈ cs, c.supplied = true) :
    (joined sep cs).layout.run = (separated sep.layout (cs.map layout)).run := by
  induction cs with
  | nil => rfl
  | cons c cs ih =>
      obtain ⟨hc, hcs⟩ := List.forall_mem_cons.1 hcs
      cases cs with
      | nil => rfl
      | cons d cs =>
          show (c ++ sep ++ joined sep (d :: cs)).layout.run = _
          rw [run_append (supplied_append hc hsep)]
          exact Layout.run_append_congr (run_append hc sep) (ih hcs)

/-- Blocks that are written as one are written one by one. -/
theorem run_joined_of_ok {ps : List Part} (hps : Part.slots ps = 0) (hcs : ∀ c ∈ cs, c.Thrifty)
    {w : Writer} (hok : ((joined (fixed ps) cs).layout.run w).error = none) :
    (joined (fixed ps) cs).layout.run =
      (separated (fixed ps).layout (cs.map layout)).run := by
  have hthrifty : (fixed ps).Thrifty := Nat.zero_le _
  have hsupplied : (fixed ps).supplied = true := hthrifty.supplied (Nat.le_of_eq hps)
  exact run_joined hsupplied (supplied_of_joined hthrifty hcs (Layout.slots_le_of_run hok))

end CodePieces

theorem Layout.ok_of_separated_cons {sep d : Layout} {ds : List Layout} {w : Writer}
    (h : ((separated sep (d :: ds)).run w).error = none) : (d.run w).error = none := by
  rw [run_separated_cons] at h
  exact (Written.error_of_andThen h).1

namespace CodeBlock

def Thrifty (c : CodeBlock) : Prop := c.args.length ≤ Part.slots c.parts

instance (c : CodeBlock) : Decidable c.Thrifty := Nat.decLe _ _

theorem Thrifty.pieces {c : CodeBlock} (h : c.Thrifty) (unit : IndentUnit) :
    (c.pieces unit).Thrifty := by
  rw [pieces_eq]
  show (c.args.map _).length ≤ _
  rwa [List.length_map]

end CodeBlock

namespace Value

variable {unit : IndentUnit}

def isConstructor (v : Value) : Bool :=
  match v.asFunction with
  | .ok f => f.isConstructor
  | .error _ => false

theorem argument_type {v : Value} {format : String}
    (h : (v.forms unit).toMention.checkType format = .ok ()) :
    (v.forms unit).argument .type = ofText (v.text unit) := by
  obtain ⟨t, rfl⟩ := type_of_checkType h
  cases t <;> rfl

theorem hasConstructor_eq {vs : List Value} {secondary : Bool}
    (h : TypePieces.hasConstructor (vs.map (·.functionPieces unit)) = .ok secondary) :
    secondary = vs.any isConstructor := by
  induction vs with
  | nil =>
      cases h
      rfl
  | cons v vs ih =>
      rw [List.map_cons] at h
      cases hv : v.functionPieces unit with
      | none =>
          rw [hv] at h
          cases h
      | some g =>
          obtain ⟨f, hf⟩ := TypeDecl.asFunction_of_functionPieces unit hv
          obtain ⟨n, rfl⟩ := asFunction_ok hf
          have hconstructor : isConstructor (.decl n (.function f)) = f.isConstructor := rfl
          rw [functionPieces, Decl.functionPieces, TypePieces.hasConstructor,
            FunDecl.decl_pieces] at h
          rw [List.any_cons, hconstructor]
          split at h
          · next hf =>
              cases h
              rw [hf, Bool.true_or]
          · next hf =>
              rw [eq_false_of_ne_true hf, Bool.false_or]
              exact ih h

end Value

namespace Superinterface

variable {unit : IndentUnit}

def entry (unit : IndentUnit) (s : Superinterface) : Layout :=
  ofText (s.type.text unit) ++ ofOption (s.delegate.map fun c => text " by " ++ c.layout unit)

theorem superinterfacePieces_ok {ss : List Superinterface} {cs : List CodePieces}
    (hcode : ∀ s ∈ ss, ∀ c ∈ s.delegate, c.Thrifty)
    (h : TypePieces.superinterfacePieces (ss.map (·.pieces unit)) = .ok cs) :
    (∀ c ∈ cs, c.Thrifty) ∧ cs.map (·.layout.run) = ss.map fun s => (s.entry unit).run := by
  induction ss generalizing cs with
  | nil =>
      cases h
      exact ⟨List.forall_mem_nil _, rfl⟩
  | cons s ss ih =>
      obtain ⟨hs, hss⟩ := List.forall_mem_cons.1 hcode
      obtain ⟨type, delegate⟩ := s
      cases delegate with
      | none =>
          obtain ⟨_, htype, h⟩ := ok_of_bind h
          obtain ⟨rest, hrest, h⟩ := ok_of_bind h
          cases h
          obtain ⟨hthrifty, hrun⟩ := ih hss hrest
          refine ⟨List.forall_mem_cons.2 ⟨Nat.le_refl 1, hthrifty⟩, ?_⟩
          rw [List.map_cons, List.map_cons, hrun]
          refine congrArg (· :: _) ?_
          show ((type.forms unit).argument .type ++ empty).run = _
          rw [Value.argument_type htype]
          rfl
      | some c =>
          obtain ⟨_, htype, h⟩ := ok_of_bind h
          obtain ⟨rest, hrest, h⟩ := ok_of_bind h
          cases h
          obtain ⟨hthrifty, hrun⟩ := ih hss hrest
          have hby : (⟨[.argument .type, .text " by "], [(type.forms unit).argument]⟩ :
            CodePieces).Thrifty := Nat.le_refl 1
          refine ⟨List.forall_mem_cons.2 ⟨hby.append ((hs c rfl).pieces unit), hthrifty⟩, ?_⟩
          rw [List.map_cons, List.map_cons, hrun]
          refine congrArg (· :: _) ?_
          show ((type.forms unit).argument .type ++ (text " by " ++ c.layout unit)).run = _
          rw [Value.argument_type htype]
          rfl

end Superinterface

namespace TypePieces

def front (d : TypePieces) (fs : List (String × PropertyPieces)) : Layout :=
  d.headline ++ ofOption (d.primaryConstructor.map (primaryLayout fs))

def ending (d : TypePieces) (fs : List (String × PropertyPieces)) : Layout :=
  if d.decl.hasNoBody (fs.map (·.1)) then text "\n" else d.bodyLayout (fs.map (·.1)) (text "\n")

theorem layout_of_named {d : TypePieces} {fs : List (String × PropertyPieces)}
    (hfs : d.folded = .ok fs) (h : d.anonymous = none) :
    d.layout none = .declaration (d.front fs ++ d.supertypes ++ d.ending fs) := by
  rw [layout, hfs]
  show Layout.declaration (d.foldedLayout none fs) = _
  simp only [foldedLayout, h]
  rfl

theorem supertypes_of_ok {d : TypePieces} {w : Writer}
    (hok : (d.supertypes.run w).error = none) :
    ∃ cs is, d.superclassPieces = .ok cs ∧ superinterfacePieces d.superinterfaces = .ok is ∧
      d.supertypes = if (cs ++ is).isEmpty then empty
        else text " : " ++ (CodePieces.joined (.fixed [.text ",", .wrap]) (cs ++ is)).layout := by
  cases hcs : d.superclassPieces with
  | error x =>
      rw [supertypes, hcs] at hok
      cases hok
  | ok cs =>
      cases his : superinterfacePieces d.superinterfaces with
      | error x =>
          rw [supertypes, hcs, his] at hok
          cases hok
      | ok is =>
          have hpieces : (do return (← d.superclassPieces) ++
              (← superinterfacePieces d.superinterfaces)) = .ok (cs ++ is) := by
            rw [hcs, his]
            rfl
          refine ⟨cs, is, rfl, rfl, ?_⟩
          rw [supertypes, hpieces]
          cases cs ++ is <;> rfl

end TypePieces

namespace TypeDecl

variable {unit : IndentUnit} {e : TypeDecl}

/-- Without a primary constructor it is up to the secondary ones to call that of the superclass. -/
def callsSuperclass (e : TypeDecl) : Bool :=
  e.primaryConstructor.isSome || !e.functions.any Value.isConstructor

def superclassEntry (unit : IndentUnit) (e : TypeDecl) : Layout :=
  ofText (e.superclass.text unit) ++
    Layout.when e.callsSuperclass (parenthesized (e.superclassArgs.map (·.layout unit)))

def supertypeClause (unit : IndentUnit) (e : TypeDecl) : Layout :=
  text " : " ++ separated (text ", ")
    (e.superclassEntry unit :: e.superinterfaces.map (·.entry unit))

def supertypeCode (e : TypeDecl) : List CodeBlock :=
  e.superclassArgs ++ e.superinterfaces.filterMap (·.delegate)

theorem anonymous_pieces (h : e.isAnonymous = false) : (e.pieces unit).anonymous = none := by
  rw [← Option.not_isSome_iff_eq_none, isSome_anonymous_pieces, h]
  exact Bool.false_ne_true

theorem superclass_pieces : (e.pieces unit).superclass = e.superclass.forms unit := by
  cases e
  rfl

theorem superclassArgs_pieces :
    (e.pieces unit).superclassArgs = e.superclassArgs.map (·.pieces unit) := by
  cases e
  exact CodeBlock.piecesAll_eq _ _

theorem superinterfaces_pieces :
    (e.pieces unit).superinterfaces = e.superinterfaces.map (·.pieces unit) := by
  cases e
  exact Superinterface.piecesAll_eq _ _

theorem superclassPieces_ok {cs : List CodePieces}
    (hsuper : e.superclass.isNamed .anyType = false)
    (h : (e.pieces unit).superclassPieces = .ok cs) :
    ∃ c : CodePieces, cs = [c] ∧ c.Thrifty ∧
      c.layout.run = (ofText (e.superclass.text unit) ++ Layout.when e.callsSuperclass
        (text "(" ++ (e.pieces unit).superclassCode.layout ++ text ")")).run := by
  have hhas : (e.pieces unit).hasSuperclass = true := by
    rw [TypePieces.hasSuperclass, decl_pieces, hsuper]
    rfl
  rw [TypePieces.superclassPieces, if_pos hhas] at h
  obtain ⟨secondary, hsecondary, h⟩ := ok_of_bind h
  rw [functions_pieces] at hsecondary
  obtain rfl := Value.hasConstructor_eq hsecondary
  rw [primaryConstructor_pieces, Option.isSome_map, superclass_pieces] at h
  change (if e.callsSuperclass then _ else _) = _ at h
  cases hcalls : e.callsSuperclass with
  | true =>
      rw [hcalls] at h
      obtain ⟨_, htype, h⟩ := ok_of_bind h
      cases h
      refine ⟨_, rfl, Nat.le_refl 2, ?_⟩
      show ((e.superclass.forms unit).argument .type ++ (text "(" ++
        ((e.pieces unit).superclassCode.layout ++ (text ")" ++ empty)))).run = _
      rw [Value.argument_type htype]
      refine Layout.run_append_congr rfl ?_
      rw [← Layout.run_append_assoc, ← Layout.run_append_assoc]
      exact Layout.run_append_empty _
  | false =>
      rw [hcalls] at h
      obtain ⟨_, htype, h⟩ := ok_of_bind h
      cases h
      refine ⟨_, rfl, Nat.le_refl 1, ?_⟩
      show ((e.superclass.forms unit).argument .type ++ empty).run = _
      rw [Value.argument_type htype]
      rfl

theorem run_superclassCode (hcode : ∀ c ∈ e.superclassArgs, c.Thrifty) {w : Writer}
    (hok : ((e.pieces unit).superclassCode.layout.run w).error = none) :
    (e.pieces unit).superclassCode.layout.run =
      (separated (text ", ") (e.superclassArgs.map (·.layout unit))).run := by
  unfold TypePieces.superclassCode at hok ⊢
  rw [superclassArgs_pieces] at hok ⊢
  have hthrifty : ∀ c ∈ e.superclassArgs.map (·.pieces unit), c.Thrifty :=
    List.forall_mem_map.2 fun c hc => (hcode c hc).pieces unit
  rw [CodePieces.run_joined_of_ok rfl hthrifty hok, List.map_map]
  exact Layout.run_separated_congr (Layout.run_append_empty _) rfl

theorem run_superclassEntry {c : CodePieces} (hcode : ∀ c ∈ e.superclassArgs, c.Thrifty)
    (hc : c.layout.run = (ofText (e.superclass.text unit) ++ Layout.when e.callsSuperclass
      (text "(" ++ (e.pieces unit).superclassCode.layout ++ text ")")).run)
    {w : Writer} (hok : (c.layout.run w).error = none) :
    c.layout.run = (e.superclassEntry unit).run := by
  rw [hc] at hok ⊢
  apply Layout.run_append_congr rfl
  cases hcalls : e.callsSuperclass with
  | false => rfl
  | true =>
      rw [hcalls] at hok
      obtain ⟨_, hcall⟩ := Written.error_of_andThen hok
      obtain ⟨hopen, _⟩ := Written.error_of_andThen hcall
      obtain ⟨_, hargs⟩ := Written.error_of_andThen hopen
      have hrun := run_superclassCode hcode hargs
      exact Layout.run_append_congr (Layout.run_append_congr rfl hrun) rfl

theorem run_supertypes (hsuper : e.superclass.isNamed .anyType = false)
    (hcode : ∀ c ∈ e.supertypeCode, c.Thrifty) {w : Writer}
    (hok : ((e.pieces unit).supertypes.run w).error = none) :
    (e.pieces unit).supertypes.run = (e.supertypeClause unit).run := by
  obtain ⟨hargs, hdelegates⟩ := List.forall_mem_append.1 hcode
  obtain ⟨cs, is, hcs, his, hsupertypes⟩ := TypePieces.supertypes_of_ok hok
  obtain ⟨c, rfl, hc, hsuperclass⟩ := superclassPieces_ok hsuper hcs
  rw [superinterfaces_pieces] at his
  have hdelegate : ∀ s ∈ e.superinterfaces, ∀ c ∈ s.delegate, c.Thrifty := fun s hs c hc =>
    hdelegates c (List.mem_filterMap.2 ⟨s, hs, hc⟩)
  obtain ⟨hi, hinterfaces⟩ := Superinterface.superinterfacePieces_ok hdelegate his
  rw [hsupertypes, if_neg (by simp)] at hok ⊢
  obtain ⟨_, hjoined⟩ := Written.error_of_andThen hok
  have hthrifty : ∀ c' ∈ [c] ++ is, c'.Thrifty := List.forall_mem_cons.2 ⟨hc, hi⟩
  have hrun := CodePieces.run_joined_of_ok rfl hthrifty hjoined
  rw [hrun] at hjoined
  have hentry := run_superclassEntry hargs hsuperclass (Layout.ok_of_separated_cons hjoined)
  have hcomma : (CodePieces.fixed [.text ",", .wrap]).layout.run = (text ", ").run :=
    (Layout.run_append_congr rfl (Layout.run_append_empty _)).trans (Layout.run_text_text "," " ")
  have hentries : (([c] ++ is).map CodePieces.layout).map Layout.run =
      (e.superclassEntry unit :: e.superinterfaces.map (·.entry unit)).map Layout.run := by
    rw [List.map_map, List.map_cons, List.map_map]
    exact congrArg₂ List.cons hentry hinterfaces
  rw [supertypeClause]
  exact Layout.run_append_congr rfl (hrun.trans (Layout.run_separated_congr hcomma hentries))

/-- A superclass is followed by its arguments, unless only secondary constructors call it; then it
has none. The superinterfaces follow, each with its delegate. -/
theorem supertypes_written (he : e.Built unit) (hnamed : e.isAnonymous = false)
    (hsuper : e.superclass.isNamed .anyType = false) (hcode : ∀ c ∈ e.supertypeCode, c.Thrifty)
    {w : Writer} (hok : (((e.pieces unit).layout none).run w).error = none) :
    (∃ fs, (e.pieces unit).folded = .ok fs ∧
      ((e.pieces unit).layout none).run = (Layout.declaration ((e.pieces unit).front fs ++
        e.supertypeClause unit ++ (e.pieces unit).ending fs)).run) ∧
    (e.callsSuperclass = false ↔
      e.primaryConstructor = none ∧ ∃ v ∈ e.functions, v.isConstructor = true) ∧
    (e.callsSuperclass = false → e.superclassArgs = []) := by
  have hsecondary : e.callsSuperclass = false ↔
      e.primaryConstructor = none ∧ ∃ v ∈ e.functions, v.isConstructor = true := by
    simp [callsSuperclass]
  refine ⟨?_, hsecondary, fun hcalls => ?_⟩
  · obtain ⟨fs, hfs⟩ := folded_of_ok hok
    refine ⟨fs, hfs, ?_⟩
    have hlayout := TypePieces.layout_of_named hfs (anonymous_pieces hnamed)
    rw [hlayout] at hok ⊢
    obtain ⟨hheader, _⟩ := Written.error_of_andThen hok
    obtain ⟨_, hsupertypes⟩ := Written.error_of_andThen hheader
    have hrun := run_supertypes hsuper hcode hsupertypes
    exact Layout.run_declaration_congr
      (Layout.run_append_congr (Layout.run_append_congr rfl hrun) rfl)
  · obtain ⟨hprimary, v, hv, hconstructor⟩ := hsecondary.1 hcalls
    obtain ⟨d, hd, hb⟩ := he
    by_contra hargs
    obtain ⟨f, hf, hnone⟩ := (consistent_of_build hd hb).secondaryConstructors hprimary hargs v hv
    simp [Value.isConstructor, hf, hnone] at hconstructor

/-- Two arguments for the superclass, a superinterface with a delegate and one without. -/
theorem supertypes_written_delegated :
    let unit : IndentUnit := .ok "  "
    let e := { plain (.kind .classKind) (some "A") none with
      primaryConstructor := some (.plain FunDecl.constructorName)
      superclass := .type (.named none ["B"] false)
      superclassArgs := [⟨[.text "x"], []⟩, ⟨[.argument .literal], [.str "h()"]⟩]
      superinterfaces := [⟨.type (.named none ["I"] false), some ⟨[.text "y"], []⟩⟩,
        ⟨.type (.named none ["J"] false), none⟩] }
    let ps := e.pieces unit
    let r := (ps.layout none).run (.fresh "  ")
    e.Built unit ∧ e.isAnonymous = false ∧ e.superclass.isNamed .anyType = false ∧
      (∀ c ∈ e.supertypeCode, c.Thrifty) ∧ r.error = none ∧
      (ps.layout none).run =
        (Layout.declaration (ps.front [] ++ e.supertypeClause unit ++ ps.ending [])).run ∧
      r.text = "class A() : B(x, h()), I by y, J\n".toList := by
  intro unit e ps r
  have hs : Draft.Reached unit (fun _ => True)
      (.typeDecl (plain (.kind .classKind) (some "A") none)) :=
    .start (x := .named .classKind (.str "A")) trivial rfl
  have hclass : Draft.Reached unit (fun _ => True)
      (.typeDecl { e with superclassArgs := [], superinterfaces := [] }) :=
    hs.calls [
      .typeDecl (.primaryConstructor (.decl none (.function (.plain FunDecl.constructorName)))),
      .typeDecl (.superclass (.type (.named none ["B"] false)))] (by simp)
  have hargs : Draft.Reached unit (fun _ => True) (.typeDecl { e with superinterfaces := [] }) :=
    hclass.calls [.typeDecl (.addSuperclassArg (.str "x") []),
      .typeDecl (.addSuperclassArg (.str "%L") [.str "h()"])] (by simp)
  have hinterfaces : Draft.Reached unit (fun _ => True) (.typeDecl e) :=
    hargs.calls [
      .typeDecl (.addSuperinterface (.type (.named none ["I"] false)) (.code ⟨[.text "y"], []⟩)),
      .typeDecl (.addSuperinterface (.type (.named none ["J"] false)) .null)] (by simp)
  have he : e.Built unit := ⟨e, hinterfaces, rfl⟩
  have hcode : ∀ c ∈ e.supertypeCode, c.Thrifty := by decide
  have hok : r.error = none := by decide
  obtain ⟨⟨fs, hfs, hrun⟩, _⟩ := supertypes_written he rfl rfl hcode hok
  cases hfs
  exact ⟨he, rfl, rfl, hcode, hok, hrun, by decide⟩

/-- The first argument of the superclass has an argument of its own to spare, and the second one
writes that in place of its own. -/
theorem superclass_argument_replaced :
    let unit : IndentUnit := .ok "  "
    let spare : CodeBlock := ⟨[.text "a"], [.str "c"]⟩
    let calls : List Call := [.superclass (.type (.named (some "") ["B"] false)),
      .addSuperclassArg (.code spare) [], .addSuperclassArg (.str "%L") [.str "b"]]
    let d := plain (.kind .classKind) (some "A") none
    let e := { d with
      superclass := .type (.named (some "") ["B"] false)
      superclassArgs := [spare, ⟨[.argument .literal], [.str "b"]⟩] }
    let ps := e.pieces unit
    startNamed unit .classKind (.str "A") = .ok d ∧
      Edit.forEach (Call.apply unit) calls d = .ok () e ∧ e.build unit = .ok e ∧
      ps.folded = .ok [] ∧
      ((ps.layout none).run (.fresh "  ")).text = "class A : B(a, c)\n".toList ∧
      ((Layout.declaration (ps.front [] ++ e.supertypeClause unit ++ ps.ending [])).run
        (.fresh "  ")).text = "class A : B(a, b)\n".toList := by
  exact ⟨rfl, rfl, rfl, rfl, by decide, by decide⟩

end TypeDecl

end KotlinDecl
