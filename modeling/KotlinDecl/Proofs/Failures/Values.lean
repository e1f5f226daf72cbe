import KotlinDecl.Proofs.Failures.Pieces
import KotlinDecl.Proofs.Format

namespace KotlinDecl

open Layout (text fail ofText)

variable {P : Error → Prop} {unit : IndentUnit}

section

variable (hP : Covers P)

include hP

namespace Forms

theorem failsIn_known (v : Value) (shown inspected : String) {key : Key} (hk : key.FailsIn P) :
    (known v shown inspected key).FailsIn P :=
  ⟨⟨trivial, trivial, hk⟩, trivial, hP.unsuited, fun _ _ => hP.lacking, List.forall_mem_nil _⟩

theorem failsIn_list {items : List Forms} (h : ∀ f ∈ items, f.FailsIn P) (v : Value) :
    (list v items).FailsIn P := by
  have hs : KotlinDecl.FailsIn P (do return bracketed (← items.mapM (·.inspected))) :=
    (FailsIn.mapM fun f hf => (h f hf).inspected).bind fun _ => failsIn_ok _
  have hc : ∀ f ∈ items, KotlinDecl.FailsIn P f.asCharacter := by
    intro f hf
    refine ((h f hf).key.hash hP).bind fun _ => ?_
    split
    · next s _ => cases Text.escapeSingle? s <;> first | exact hP.unsuited | trivial
    · exact hP.unsuited
  refine ⟨⟨hs, hs, ?_⟩, Layout.failsIn_ofText.2 hs, Layout.failsIn_ofText.2 ?_,
    fun _ _ => hP.lacking, List.forall_mem_nil _⟩
  · exact Key.failsInAll_iff.2 (List.forall_mem_map.2 fun f hf => (h f hf).key)
  · exact (FailsIn.mapM hc).bind fun _ => failsIn_ok _

theorem failsIn_type {names : Except Error String} {key : Key} {bounds : List Mention}
    (hn : KotlinDecl.FailsIn P names) (hk : key.FailsIn P) (hb : ∀ m ∈ bounds, m.FailsIn P)
    (t : TypeName) : (type t names key bounds).FailsIn P := by
  have hs : KotlinDecl.FailsIn P (do return (← names) ++ if t.isNullable then "?" else "") :=
    hn.bind fun _ => failsIn_ok _
  refine ⟨⟨hs, hs.bind fun _ => failsIn_ok _, hk⟩, Layout.failsIn_ofText.2 hs, hP.unsuited,
    fun told _ => ?_, hb⟩
  cases told with
  | nil => exact Layout.failsIn_ofText.2 hs
  | cons a told => exact hP.unsuited

theorem failsIn_spelling (parts : List Part) : KotlinDecl.FailsIn P (spelling parts) := by
  refine (FailsIn.mapM fun p _ => ?_).bind fun _ => failsIn_ok _
  cases p with
  | split c => exact hP.unsuited
  | _ => trivial

variable (hu : KotlinDecl.FailsIn P unit)

include hu

theorem failsIn_code {c : CodeBlock} {args : List Forms} {layout : Layout}
    (h : ∀ f ∈ args, f.FailsIn P) (hl : layout.FailsIn P) :
    (code unit c args layout).FailsIn P := by
  have hs : KotlinDecl.FailsIn P (layout.alone unit) := hl.alone hP hu
  have hi : KotlinDecl.FailsIn P (inspectedCode c.parts args) :=
    (failsIn_spelling hP _).bind fun _ => (FailsIn.mapM fun f hf => (h f hf).inspected).bind
      fun _ => failsIn_ok _
  have hk : Key.FailsInAll P (args.map (·.key)) :=
    Key.failsInAll_iff.2 (List.forall_mem_map.2 fun f hf => (h f hf).key)
  exact ⟨⟨hs, hi, hk, hs⟩, hl, hP.unsuited, fun _ _ => hP.lacking, List.forall_mem_nil _⟩

theorem failsIn_decl {whole : Layout} {written : List Argument → Layout}
    (hw : whole.FailsIn P)
    (ht : ∀ told, (∀ a ∈ told, a.FailsIn P) → (written told).FailsIn P) (serial : Option Nat)
    (d : Decl) : (decl unit serial d whole written).FailsIn P := by
  have hs : KotlinDecl.FailsIn P (whole.alone unit) := hw.alone hP hu
  exact ⟨⟨hs, trivial, hs⟩, hw, hP.unsuited, ht, List.forall_mem_nil _⟩

end Forms

end

structure Value.FailsIn (P : Error → Prop) (unit : IndentUnit) (v : Value) : Prop where
  forms : (v.forms unit).FailsIn P
  functionPieces : ∀ f ∈ v.functionPieces unit, f.FailsIn P

def CodeBlock.FailsIn (P : Error → Prop) (unit : IndentUnit) (c : CodeBlock) : Prop :=
  ∀ v ∈ c.args, (v.forms unit).FailsIn P

section

variable {vs : List Value}

theorem Value.failsIn_formsAll (h : ∀ v ∈ vs, v.FailsIn P unit) :
    ∀ f ∈ Value.formsAll unit vs, f.FailsIn P := by
  rw [Value.formsAll_eq]
  exact List.forall_mem_map.2 fun v hv => (h v hv).forms

theorem Value.failsIn_forms? {o : Option Value} (h : ∀ v ∈ o, v.FailsIn P unit) :
    ∀ f ∈ Value.forms? unit o, f.FailsIn P := by
  rw [Value.forms?_eq]
  simpa using fun v hv => (h v hv).forms

theorem Value.failsIn_mention? {o : Option Value} (h : ∀ v ∈ o, v.FailsIn P unit) :
    ∀ m ∈ (Value.forms? unit o).map Forms.toMention, m.FailsIn P := by
  simpa using fun f hf => (Value.failsIn_forms? h f hf).toFailsIn

end

section

variable (hP : Covers P)

include hP

namespace CodeBlock

theorem FailsIn.pieces {c : CodeBlock} (h : c.FailsIn P unit) : (c.pieces unit).FailsIn P := by
  rw [pieces_eq]
  exact List.forall_mem_map.2 fun v hv => (h v hv).argument hP

theorem FailsIn.layout {c : CodeBlock} (h : c.FailsIn P unit) :
    (c.pieces unit).layout.FailsIn P :=
  (h.pieces hP).layout hP

theorem failsIn_piecesAll {cs : List CodeBlock} (h : ∀ c ∈ cs, c.FailsIn P unit) :
    ∀ c ∈ piecesAll unit cs, c.FailsIn P := by
  rw [piecesAll_eq]
  exact List.forall_mem_map.2 fun c hc => (h c hc).pieces hP

theorem failsIn_pieces? {o : Option CodeBlock} (h : ∀ c ∈ o, c.FailsIn P unit) :
    ∀ c ∈ pieces? unit o, c.FailsIn P := by
  cases o with
  | none => exact nofun
  | some c => exact fun _ hc => Option.some.inj hc ▸ (h c rfl).pieces hP

theorem failsIn_layouts {cs : List CodeBlock} (h : ∀ c ∈ cs, c.FailsIn P unit) :
    ∀ d ∈ (piecesAll unit cs).map CodePieces.layout, d.FailsIn P :=
  List.forall_mem_map.2 fun c hc => (failsIn_piecesAll hP h c hc).layout hP

theorem failsIn_layout? {o : Option CodeBlock} (h : ∀ c ∈ o, c.FailsIn P unit) :
    ∀ d ∈ (pieces? unit o).map CodePieces.layout, d.FailsIn P := by
  simpa using fun c hc => (failsIn_pieces? hP h c hc).layout hP

end CodeBlock

theorem AnnotationUse.failsIn_pieces {a : AnnotationUse}
    (ih : a.Each (fun t => (t.forms unit).FailsIn P) (CodeBlock.FailsIn P unit)) :
    (a.pieces unit).FailsIn P := by
  cases a with
  | mk => exact ⟨ih.type.toFailsIn, CodeBlock.failsIn_layouts hP ih.members⟩

theorem Parameter.failsIn_pieces {p : Parameter}
    (ih : p.Each (Value.FailsIn P unit) (CodeBlock.FailsIn P unit)) :
    (p.pieces unit).FailsIn P := by
  cases p with
  | mk =>
      exact ⟨ih.type.forms.toFailsIn, Value.failsIn_formsAll ih.annotations,
        CodeBlock.failsIn_layout? hP ih.defaultValue⟩

theorem FunDecl.failsIn_pieces {f : FunDecl}
    (ih : f.Each (Value.FailsIn P unit) (CodeBlock.FailsIn P unit)
      fun p => (p.pieces unit).FailsIn P) : (f.pieces unit).FailsIn P := by
  cases f with
  | mk =>
      refine ⟨Layout.failsIn_kdoc (ih.kdoc.layout hP), Value.failsIn_formsAll ih.annotations,
        Value.failsIn_formsAll ih.typeVariables, Value.failsIn_mention? ih.receiver,
        Value.failsIn_mention? ih.returns, ?_, ih.body.layout hP,
        CodeBlock.failsIn_layouts hP ih.delegationArgs⟩
      show ∀ p ∈ Parameter.piecesAll unit _, p.FailsIn P
      rw [Parameter.piecesAll_eq]
      exact List.forall_mem_map.2 ih.parameters

theorem PropertyDecl.failsIn_pieces {p : PropertyDecl}
    (ih : p.Each (Value.FailsIn P unit) (CodeBlock.FailsIn P unit)
      (CodeBlock.FailsIn P unit)) : (p.pieces unit).FailsIn P := by
  cases p with
  | mk =>
      exact ⟨ih.type.forms.toFailsIn, Layout.failsIn_kdoc (ih.kdoc.layout hP),
        Value.failsIn_formsAll ih.annotations, CodeBlock.failsIn_layout? hP ih.initializer,
        Value.failsIn_forms? ih.getter, Value.failsIn_forms? ih.setter⟩

theorem Superinterface.failsIn_piecesAll {ss : List Superinterface}
    (ht : ∀ s ∈ ss, s.type.FailsIn P unit)
    (hd : ∀ s ∈ ss, ∀ c ∈ s.delegate, c.FailsIn P unit) :
    ∀ s ∈ Superinterface.piecesAll unit ss, s.1.FailsIn P ∧ ∀ c ∈ s.2, c.FailsIn P := by
  rw [Superinterface.piecesAll_eq]
  refine List.forall_mem_map.2 fun s hs => ?_
  have hf := (ht s hs).forms
  have hc := CodeBlock.failsIn_pieces? hP (hd s hs)
  cases s with
  | mk => exact ⟨hf, hc⟩

theorem EnumConstant.failsIn_layouts {cs : List EnumConstant}
    (h : ∀ c ∈ cs, (c.body.pieces unit).FailsIn P) :
    ∀ d ∈ EnumConstant.layouts unit cs, d.FailsIn P := by
  rw [EnumConstant.layouts_eq]
  refine List.forall_mem_map.2 fun c hc => ?_
  have hb := h c hc
  cases c with
  | mk name body =>
      refine hb.layout hP fun l hl => ?_
      cases hl
      trivial

theorem TypeDecl.failsIn_pieces {d : TypeDecl} (hk : d.kind.FailsIn P unit)
    (ih : d.Each (Value.FailsIn P unit) (CodeBlock.FailsIn P unit)
      (fun f => (f.pieces unit).FailsIn P) (fun p => (p.pieces unit).FailsIn P)
      fun d => (d.pieces unit).FailsIn P) : (d.pieces unit).FailsIn P := by
  have hc : ∀ f ∈ FunDecl.pieces? unit d.primaryConstructor, f.FailsIn P := by
    rw [FunDecl.pieces?_eq]
    simpa using ih.primaryConstructor
  have hq : ∀ p ∈ PropertyDecl.piecesAll unit d.properties, p.FailsIn P := by
    rw [PropertyDecl.piecesAll_eq]
    exact List.forall_mem_map.2 ih.properties
  have hf : ∀ o ∈ Value.functionPiecesAll unit d.functions, ∀ f ∈ o, f.FailsIn P := by
    rw [Value.functionPiecesAll_eq]
    exact List.forall_mem_map.2 fun v hv => (ih.functions v hv).functionPieces
  have ht : ∀ t ∈ (Value.formsAll unit d.types).map (·.written [.nothing]), t.FailsIn P :=
    List.forall_mem_map.2 fun f hf => (Value.failsIn_formsAll ih.types f hf).written _
      (List.forall_mem_singleton.2 (Argument.failsIn_nothing hP))
  have hm : ∀ c ∈ TypeDecl.layout? unit d.companion, c.FailsIn P := by
    rw [TypeDecl.layout?_eq]
    rintro _ hm
    obtain ⟨c, hc, rfl⟩ := Option.map_eq_some_iff.1 hm
    exact (ih.companion c hc).layout hP nofun
  cases d with
  | mk =>
      exact ⟨hk.forms.toFailsIn, Layout.failsIn_kdoc (ih.kdoc.layout hP),
        Value.failsIn_formsAll ih.annotations, Value.failsIn_forms? ih.anonymous,
        Value.failsIn_formsAll ih.typeVariables, hc, ih.superclass.forms,
        CodeBlock.failsIn_piecesAll hP ih.superclassArgs,
        Superinterface.failsIn_piecesAll hP ih.superinterfaces ih.delegates,
        EnumConstant.failsIn_layouts hP ih.constants, hq, ih.initializer.layout hP, hf, ht, hm⟩

/-- What is put together from parts that fail only for errors with `P` does so too. -/
theorem hereditary_failsIn (hu : FailsIn P unit) :
    Hereditary (Value.FailsIn P unit) (fun t => (t.forms unit).FailsIn P)
      (CodeBlock.FailsIn P unit) (fun a => (a.pieces unit).FailsIn P)
      (fun p => (p.pieces unit).FailsIn P) (fun f => (f.pieces unit).FailsIn P)
      (fun p => (p.pieces unit).FailsIn P) (fun d => (d.pieces unit).FailsIn P) where
  null := ⟨{ Forms.failsIn_known hP .null "None" "None" (by trivial : Key.null.FailsIn P) with
    literal := trivial, string := trivial }, nofun⟩
  bool b := ⟨{ Forms.failsIn_known hP _ _ _ (by trivial : (Key.bool b).FailsIn P) with
    literal := trivial }, nofun⟩
  int n := ⟨Forms.failsIn_known hP _ _ _ (by trivial : (Key.int n).FailsIn P), nofun⟩
  str s := ⟨{ Forms.failsIn_known hP _ _ _ (by trivial : (Key.str s).FailsIn P) with
    string := trivial }, nofun⟩
  list items ih := ⟨Forms.failsIn_list hP (Value.failsIn_formsAll ih) _, nofun⟩
  modifier m := ⟨Forms.failsIn_known hP _ _ _ (by trivial : (Key.modifier m).FailsIn P), nofun⟩
  kind k := ⟨Forms.failsIn_known hP _ _ _ (by trivial : (Key.kind k).FailsIn P), nofun⟩
  type t ih := ⟨ih, nofun⟩
  code c ih := by
    have hl := ih.layout hP
    cases c with
    | mk parts args =>
        refine ⟨Forms.failsIn_code hP hu ?_ hl, nofun⟩
        rw [Value.formsAll_eq]
        exact List.forall_mem_map.2 ih
  declAnnotation n a ih :=
    ⟨Forms.failsIn_decl hP hu (ih.layout hP) (fun told _ => ih.written hP told) n _, nofun⟩
  declParameter n p ih := by
    have hd := Forms.failsIn_decl hP hu (ih.layout hP true) (fun told _ => ih.written hP told) n
      (.parameter p)
    exact ⟨{ hd with literal := Layout.failsIn_ofText.2 hd.text }, nofun⟩
  declProperty n p ih :=
    ⟨Forms.failsIn_decl hP hu (ih.memberLayout hP Argument.failsIn_noModifiers) (ih.written hP) n _,
      nofun⟩
  declFunction n f ih :=
    ⟨Forms.failsIn_decl hP hu (ih.layout hP _) (ih.written hP) n _,
      fun _ hf => Option.some.inj hf ▸ ih⟩
  declType n d ih := by
    have hl : ((d.pieces unit).layout none).FailsIn P := ih.layout hP nofun
    have hd := Forms.failsIn_decl hP hu hl (ih.written hP) n (.typeDecl d)
    have hi : FailsIn P (Forms.inspectedType (d.pieces unit).kind d.name) :=
      ih.kind.text.bind fun _ => failsIn_ok _
    exact ⟨{ hd with inspected := hi }, nofun⟩
  named package names nullable :=
    Forms.failsIn_type hP (failsIn_ok _) (by trivial : (Key.named _ _ _).FailsIn P)
      (List.forall_mem_nil _) _
  generic raw args nullable ihraw ihargs := by
    have ha := Value.failsIn_formsAll ihargs
    have hk : (Key.generic (raw.forms unit).key
        ((Value.formsAll unit args).map (·.key)) nullable).FailsIn P :=
      ⟨ihraw.forms.key, Key.failsInAll_iff.2 (List.forall_mem_map.2 fun f hf => (ha f hf).key)⟩
    refine Forms.failsIn_type hP ?_ hk (List.forall_mem_nil _) _
    exact (FailsIn.mapM fun f hf => (ha f hf).text).bind fun _ => ihraw.forms.text.bind fun _ =>
      failsIn_ok _
  typeVar name bounds variance reified nullable ih := by
    have hb := Value.failsIn_formsAll ih
    have hk : (Key.typeVar name ((Value.formsAll unit bounds).map (·.key)) variance reified
        nullable).FailsIn P :=
      Key.failsInAll_iff.2 (List.forall_mem_map.2 fun f hf => (hb f hf).key)
    exact Forms.failsIn_type hP (failsIn_ok _) hk
      (List.forall_mem_map.2 fun f hf => (hb f hf).toFailsIn) _
  block c ih := fun v hv => (ih v hv).forms
  annotationUse a ih := AnnotationUse.failsIn_pieces hP ih
  parameter p ih := Parameter.failsIn_pieces hP ih
  function f ih := FunDecl.failsIn_pieces hP ih
  property p ih := PropertyDecl.failsIn_pieces hP ih
  typeDecl d ihkind ih := TypeDecl.failsIn_pieces hP ihkind ih

variable (hu : KotlinDecl.FailsIn P unit)

include hu

theorem Value.failsIn (v : Value) : v.FailsIn P unit := (hereditary_failsIn hP hu).ofValue v

theorem Value.failsIn_key (v : Value) : (v.key unit).FailsIn P := (v.failsIn hP hu).forms.key

end

namespace Format

def Step.FailsIn (P : Error → Prop) : Step → Prop
  | .error e => P e
  | _ => True

theorem failsIn_scan (cs : List Char) : ∀ s ∈ scan cs, s.FailsIn P := by
  intro s hs
  have hp := isPlain_scan cs s hs
  cases s with
  | error e => cases hp
  | _ => trivial

section

variable (hP : Covers P)

include hP

theorem failsIn_looseStep {f : Forms} (h : f.FailsIn P) : (looseStep f).FailsIn P := by
  unfold looseStep
  split
  · next he => exact (h.key.hash hP).of_error he
  · split
    · split
      · split <;> trivial
      · trivial
    · trivial
    · next he _ => exact h.text.of_error he

theorem failsIn_scanItems {fs : List Forms} (h : ∀ f ∈ fs, f.FailsIn P) :
    ∀ s ∈ scanItems fs, s.FailsIn P := by
  fun_induction scanItems fs with
  | case1 => exact List.forall_mem_nil _
  | case2 => exact List.forall_mem_singleton.2 trivial
  | case3 => exact List.forall_mem_singleton.2 hP.lacking
  | case4 f g rest hf ih =>
      obtain ⟨_, hg, hrest⟩ := List.forall_mem_cons.1 h |>.imp_right List.forall_mem_cons.1
      exact List.forall_mem_cons.2 ⟨failsIn_looseStep hP hg, ih hrest⟩
  | case5 => exact List.forall_mem_singleton.2 hP.lacking

variable {format : Except Error (Option String)} (hf : KotlinDecl.FailsIn P format)

include hf

theorem ends_faulty {α : Type} {Q : α → Prop} (fault : FormatFault) :
    Ends P Q (faulty format fault) :=
  hf.bind fun _ => hP.codeFormat _ _

theorem failsIn_bindOne {f : Forms} (h : f.FailsIn P) (p : Placeholder) :
    KotlinDecl.FailsIn P (bindOne format p f) := by
  cases p with
  | literal => trivial
  | string =>
      rw [bindOne]
      split
      · trivial
      · trivial
      · exact h.text.bind fun _ => failsIn_ok _
  | name =>
      rw [bindOne]
      split
      · trivial
      · exact h.inspected.bind fun _ => ends_faulty hP hf _
  | type =>
      rw [bindOne]
      split
      · trivial
      · exact h.inspected.bind fun _ => ends_faulty hP hf _

theorem ends_take {args : List Forms} (h : ∀ f ∈ args, f.FailsIn P) (index : Nat)
    (p : Placeholder) : Ends P (fun r => ∀ f ∈ r.2, f.FailsIn P) (take format index p args) := by
  cases args with
  | nil => exact ends_faulty hP hf _
  | cons f args =>
      obtain ⟨hf', hargs⟩ := List.forall_mem_cons.1 h
      exact (failsIn_bindOne hP hf hf' p).bind fun _ => hargs

theorem failsIn_bind {steps : List Step} {args : List Forms} (hs : ∀ s ∈ steps, s.FailsIn P)
    (ha : ∀ f ∈ args, f.FailsIn P) (index : Nat) :
    KotlinDecl.FailsIn P (bind format index steps args) := by
  induction steps generalizing args index with
  | nil =>
      rw [bind]
      split
      · trivial
      · exact ends_faulty hP hf _
  | cons s steps ih =>
      obtain ⟨hs, hsteps⟩ := List.forall_mem_cons.1 hs
      have hr : ∀ (front : CodeBlock) (args : List Forms) (index : Nat), (∀ f ∈ args, f.FailsIn P) →
          KotlinDecl.FailsIn P (do return front ++ (← bind format index steps args)) :=
        fun front args index ha => (ih hsteps ha index).bind fun _ => failsIn_ok _
      cases s with
      | part p =>
          cases p with
          | argument p => exact (ends_take hP hf ha index p).bind fun r hr' => hr _ r.2 _ hr'
          | _ => exact hr _ args index ha
      | loose c o =>
          cases o with
          | some p => exact (ends_take hP hf ha index p).bind fun r hr' => hr _ r.2 _ hr'
          | none => exact hr _ args index ha
      | fault f => exact ends_faulty hP hf _
      | error e => exact hs

end

/-- Reading a format fails for what is wrong with the format, or for what is wrong with a value
that has to be written for it. -/
theorem failsIn_parse (hP : Covers P) (hu : KotlinDecl.FailsIn P unit) (format : Value)
    (args : List Value) : KotlinDecl.FailsIn P (parse unit format args) := by
  have hl : KotlinDecl.FailsIn P (listed (format.forms unit)) := by
    rw [listed]
    split
    · exact (format.failsIn hP hu).forms.inspected.bind fun _ => failsIn_ok _
    · trivial
  have hs : Ends P (∀ s ∈ ·, s.FailsIn P) (steps unit format) := by
    cases format with
    | str s => exact failsIn_scan s.toList
    | list items =>
        exact failsIn_scanItems hP (Value.failsIn_formsAll fun v _ => v.failsIn hP hu)
    | _ => exact hP.unsuited
  exact hs.bind fun steps hs => failsIn_bind hP hl hs
    (Value.failsIn_formsAll fun v _ => v.failsIn hP hu) 0

end Format

namespace CodeBlock

theorem failsIn_ofFormat (hP : Covers P) (hu : KotlinDecl.FailsIn P unit) (format : Value)
    (args : List Value) : KotlinDecl.FailsIn P (ofFormat unit format args) := by
  cases format with
  | code c =>
      rw [ofFormat]
      split
      · trivial
      · exact hP.codeFormat _ _
  | _ => exact Format.failsIn_parse hP hu _ args

theorem failsIn_ofFormatOrBlock (hP : Covers P) (hu : KotlinDecl.FailsIn P unit) (format : Value)
    (args : List Value) : KotlinDecl.FailsIn P (ofFormatOrBlock unit format args) := by
  unfold ofFormatOrBlock
  split
  · trivial
  · exact failsIn_ofFormat hP hu format args

end CodeBlock

end KotlinDecl
