import KotlinDecl.Proofs.Forms
import KotlinDecl.Proofs.Layout.Pieces
import KotlinDecl.Proofs.Layout.Steady

namespace KotlinDecl

theorem Discipline.ofText (K : Discipline) {x : Except Error String} (h : ∃ s, x = .ok s)
    (b : Bool) : K.Keeps b (.ofText x) := by
  obtain ⟨s, rfl⟩ := h
  exact K.text s b

theorem TypeName.literal_forms (u : IndentUnit) (t : TypeName) :
    (t.forms u).literal = .ofText (t.forms u).text := by
  cases t <;> rfl

theorem TypeName.written_forms (u : IndentUnit) (t : TypeName) :
    (t.forms u).written [] = .ofText (t.forms u).text := by
  cases t <;> rfl

theorem Value.isType_forms {v : Value} (hw : v.wellTyped = true) (ht : v.isType = true)
    (u : IndentUnit) : (v.forms u).IsType := by
  cases v with
  | type t =>
      have hm := (Value.legible hw u).isType rfl
      obtain ⟨s, hs⟩ := hm.text
      refine ⟨hm, s, ?_⟩
      rw [Value.forms] at hs ⊢
      rw [t.written_forms]
      show Layout.ofText (t.forms u).text = _
      rw [hs]
      rfl
  | _ => cases ht

theorem Value.keeps_argument {K : Discipline} {u : IndentUnit} {v : Value} {p : Placeholder}
    {b : Bool} (hw : v.wellTyped = true) (ht : p.takes v = true)
    (hl : p = .literal → K.Keeps b (v.forms u).literal) :
    K.Keeps b ((v.forms u).argument p) := by
  cases p with
  | literal => exact hl rfl
  | string =>
      cases v with
      | null | str => exact K.text _ b
      | _ => cases ht
  | name =>
      cases v with
      | str => exact K.text _ b
      | _ => cases ht
  | type => exact (Value.isType_forms hw ht u).keeps K b

/-- What a discipline asks of code, and of texts that are written on their own. -/
structure Discipline.Reads (K : Discipline) (unit : String) : Prop where
  code {c : CodeBlock} {b : Bool} (hw : c.wellTyped = true) (hb : K.strict → c.balanced b = true)
    (hl : ∀ v ∈ c.args, ∀ b, (K.strict → v.balanced b = true) →
      K.Keeps b (v.forms (.ok unit)).literal) : (c.pieces (.ok unit)).Keeps K b
  alone {d : Layout} (h : K.Keeps false d) (b : Bool) : K.Keeps b (.ofText (d.alone (.ok unit)))

namespace Value

/-- What a value writes in the places that its sort is made for keeps the discipline. -/
structure Keeps (K : Discipline) (u : IndentUnit) (b : Bool) (v : Value) : Prop where
  literal : K.Keeps b (v.forms u).literal
  annotates : v.isSort .annotationUse = true → (v.forms u).Annotates K b
  functions : v.isSort .function = true → (v.forms u).Functions K b
  functionPieces : v.isSort .function = true → ∃ f, v.functionPieces u = some f ∧ f.Keeps K b
  nested : v.isSort .typeDecl = true → K.Keeps b ((v.forms u).written [.nothing])

theorem Keeps.ofLiteral {K : Discipline} {u : IndentUnit} {b : Bool} {v : Value}
    (h : K.Keeps b (v.forms u).literal) (hs : ∀ s, v.isSort s = false) : v.Keeps K u b :=
  ⟨h, by simp [hs], by simp [hs], by simp [hs], by simp [hs]⟩

end Value

section

variable (K : Discipline) (u : IndentUnit)

def Value.Settles (v : Value) : Prop :=
  v.wellTyped = true → ∀ b, (K.strict → v.balanced b = true) → v.Keeps K u b

def CodeBlock.Settles (c : CodeBlock) : Prop :=
  c.wellTyped = true → ∀ b, (K.strict → c.balanced b = true) → (c.pieces u).Keeps K b

def AnnotationUse.Settles (a : AnnotationUse) : Prop :=
  a.wellTyped = true → ∀ b, (K.strict → a.balanced b = true) → K.Keeps b (a.pieces u).layout

def Parameter.Settles (p : Parameter) : Prop :=
  p.wellTyped = true → ∀ b, (K.strict → p.balanced b = true) → (p.pieces u).Keeps K b

def FunDecl.Settles (f : FunDecl) : Prop :=
  f.wellTyped = true → ∀ b, (K.strict → f.balanced b = true) → (f.pieces u).Keeps K b

def PropertyDecl.Settles (p : PropertyDecl) : Prop :=
  p.wellTyped = true → ∀ b, (K.strict → p.balanced b = true) → (p.pieces u).Keeps K b

def TypeDecl.Settles (d : TypeDecl) : Prop :=
  d.wellTyped = true → (K.strict → d.balanced = true) → (d.pieces u).Keeps K

end

section

variable {K : Discipline} {u : IndentUnit} {b : Bool}

theorem Value.annotates_formsAll {vs : List Value} (ih : ∀ v ∈ vs, v.Settles K u)
    (hs : ∀ v ∈ vs, v.isSort .annotationUse = true) (hw : ∀ v ∈ vs, v.wellTyped = true)
    (hb : K.strict → ∀ v ∈ vs, v.balanced b = true) :
    ∀ f ∈ Value.formsAll u vs, f.Annotates K b := by
  rw [Value.formsAll_eq]
  exact List.forall_mem_map.2 fun v hv =>
    (ih v hv (hw v hv) b fun h => hb h v hv).annotates (hs v hv)

theorem Value.isTypeVariable_formsAll {vs : List Value} (hs : ∀ v ∈ vs, v.isTypeVariable = true)
    (hw : ∀ v ∈ vs, v.wellTyped = true) : ∀ f ∈ Value.formsAll u vs, f.IsTypeVariable := by
  rw [Value.formsAll_eq]
  exact List.forall_mem_map.2 fun v hv => Value.isTypeVariable_forms (hw v hv) (hs v hv) u

theorem Value.isType_mention {o : Option Value} (hs : ∀ v ∈ o, v.isType = true)
    (hw : ∀ v ∈ o, v.wellTyped = true) :
    ∀ m ∈ (Value.forms? u o).map Forms.toMention, m.IsType := by
  cases o with
  | none => exact fun m hm => nomatch hm
  | some v =>
      rintro m hm
      cases hm
      exact (Value.isType_forms (hw v rfl) (hs v rfl) u).mention

theorem Value.functions_forms? {o : Option Value} (ih : ∀ v ∈ o, v.Settles K u)
    (hs : ∀ v ∈ o, v.isSort .function = true) (hw : ∀ v ∈ o, v.wellTyped = true)
    (hb : K.strict → ∀ v ∈ o, v.balanced b = true) :
    ∀ f ∈ Value.forms? u o, f.Functions K b := by
  cases o with
  | none => exact fun f hf => nomatch hf
  | some v =>
      rintro f hf
      cases hf
      exact (ih v rfl (hw v rfl) b fun h => hb h v rfl).functions (hs v rfl)

theorem CodeBlock.keeps_piecesAll {cs : List CodeBlock} (ih : ∀ c ∈ cs, c.Settles K u)
    (hw : ∀ c ∈ cs, c.wellTyped = true) (hb : K.strict → ∀ c ∈ cs, c.balanced b = true) :
    ∀ c ∈ CodeBlock.piecesAll u cs, c.Keeps K b := by
  rw [CodeBlock.piecesAll_eq]
  exact List.forall_mem_map.2 fun c hc => ih c hc (hw c hc) b fun h => hb h c hc

theorem CodeBlock.keeps_pieces? {o : Option CodeBlock} (ih : ∀ c ∈ o, c.Settles K u)
    (hw : ∀ c ∈ o, c.wellTyped = true) (hb : K.strict → ∀ c ∈ o, c.balanced b = true) :
    ∀ c ∈ CodeBlock.pieces? u o, c.Keeps K b := by
  cases o with
  | none => exact fun c hc => nomatch hc
  | some c =>
      rintro d hd
      cases hd
      exact ih c rfl (hw c rfl) b fun h => hb h c rfl

theorem CodeBlock.keeps_kdoc {c : CodeBlock} (ih : c.Settles K u) (hw : c.wellTyped = true)
    (hb : K.strict → c.balanced b = true) :
    K.Keeps b (.kdoc c.isEmpty (c.pieces u).layout) :=
  .kdoc fun _ => (ih hw b hb).layout

theorem Parameter.keeps_piecesAll {ps : List Parameter} (ih : ∀ p ∈ ps, p.Settles K u)
    (hw : ∀ p ∈ ps, p.wellTyped = true) (hb : K.strict → ∀ p ∈ ps, p.balanced b = true) :
    ∀ p ∈ Parameter.piecesAll u ps, p.Keeps K b := by
  rw [Parameter.piecesAll_eq]
  exact List.forall_mem_map.2 fun p hp => ih p hp (hw p hp) b fun h => hb h p hp

theorem PropertyDecl.keeps_piecesAll {ps : List PropertyDecl} (ih : ∀ p ∈ ps, p.Settles K u)
    (hw : ∀ p ∈ ps, p.wellTyped = true) (hb : K.strict → ∀ p ∈ ps, p.balanced b = true) :
    ∀ p ∈ PropertyDecl.piecesAll u ps, p.Keeps K b := by
  rw [PropertyDecl.piecesAll_eq]
  exact List.forall_mem_map.2 fun p hp => ih p hp (hw p hp) b fun h => hb h p hp

theorem AnnotationUse.settles {a : AnnotationUse}
    (ih : a.Each (fun _ => True) (CodeBlock.Settles K u)) : a.Settles K u := by
  intro hw b hb
  obtain ⟨ht, hm⟩ := (AnnotationUse.wellTyped_iff a).1 hw
  have hs := CodeBlock.keeps_piecesAll ih.members hm fun h =>
    (AnnotationUse.balanced_iff a b).1 (hb h)
  cases a with
  | mk type members =>
      have hi := (Value.legible (v := .type type) ht u).isType rfl
      exact AnnotationPieces.keeps_layout hi (List.forall_mem_map.2 fun c hc => (hs c hc).layout)

theorem Parameter.settles {p : Parameter}
    (ih : p.Each (Value.Settles K u) (CodeBlock.Settles K u)) : p.Settles K u := by
  intro hw b hb
  obtain ⟨hs, hw⟩ := (Parameter.wellTyped_iff p).1 hw
  have hb := fun h => (Parameter.balanced_iff p b).1 (hb h)
  have ha := Value.annotates_formsAll ih.annotations hs.annotations hw.annotations fun h =>
    (hb h).annotations
  have hd := CodeBlock.keeps_pieces? ih.defaultValue hw.defaultValue fun h => (hb h).defaultValue
  cases p with
  | mk name type annotations modifiers defaultValue =>
      refine ⟨(Value.isType_forms hw.type hs.type u).mention, ha, fun d hd' => ?_⟩
      obtain ⟨c, hc, rfl⟩ := Option.map_eq_some_iff.1 hd'
      exact (hd c hc).layout

theorem FunDecl.settles {f : FunDecl}
    (ih : f.Each (Value.Settles K u) (CodeBlock.Settles K u) (Parameter.Settles K u)) :
    f.Settles K u := by
  intro hw b hb
  obtain ⟨hs, hw⟩ := (FunDecl.wellTyped_iff f).1 hw
  have hb := fun h => (FunDecl.balanced_iff f b).1 (hb h)
  have hk := CodeBlock.keeps_kdoc ih.kdoc hw.kdoc fun h => (hb h).kdoc
  have ha := Value.annotates_formsAll ih.annotations hs.annotations hw.annotations fun h =>
    (hb h).annotations
  have hv := Value.isTypeVariable_formsAll (u := u) hs.typeVariables hw.typeVariables
  have hr := Value.isType_mention (u := u) hs.receiver hw.receiver
  have ht := Value.isType_mention (u := u) hs.returns hw.returns
  have hp := Parameter.keeps_piecesAll ih.parameters hw.parameters fun h => (hb h).parameters
  have hc := (ih.body hw.body b fun h => (hb h).body).layout
  have hd := CodeBlock.keeps_piecesAll ih.delegationArgs hw.delegationArgs fun h =>
    (hb h).delegationArgs
  cases f with
  | mk => exact ⟨hk, ha, hv, hr, ht, hp, hc, List.forall_mem_map.2 fun c hc => (hd c hc).layout⟩

theorem PropertyDecl.settles {p : PropertyDecl}
    (ih : p.Each (Value.Settles K u) (CodeBlock.Settles K u) (CodeBlock.Settles K u)) :
    p.Settles K u := by
  intro hw b hb
  obtain ⟨hs, hw⟩ := (PropertyDecl.wellTyped_iff p).1 hw
  have ho := fun h => ((PropertyDecl.balanced_iff p b).1 (hb h)).1
  have hb := fun h => ((PropertyDecl.balanced_iff p b).1 (hb h)).2
  have ht := (Value.isType_forms hw.type hs.type u).mention
  have hk := CodeBlock.keeps_kdoc ih.kdoc hw.kdoc fun h => (hb h).kdoc
  have ha := Value.annotates_formsAll ih.annotations hs.annotations hw.annotations fun h =>
    (hb h).annotations
  have hi := CodeBlock.keeps_pieces? ih.initializer hw.initializer fun h => (hb h).initializer
  have hg := Value.functions_forms? ih.getter hs.getter hw.getter fun h => (hb h).getter
  have hs := Value.functions_forms? ih.setter hs.setter hw.setter fun h => (hb h).setter
  cases p with
  | mk name type mutable kdoc annotations modifiers initializer delegated getter setter =>
      refine ⟨ht, hk, ha, fun d hd => ?_, hg, hs⟩
      obtain ⟨c, hc, rfl⟩ := Option.map_eq_some_iff.1 hd
      refine ⟨fun h => ho h ?_, (hi c hc).layout⟩
      cases initializer with
      | none => cases hc
      | some => rfl

theorem TypeDecl.isSome_anonymous_pieces (d : TypeDecl) :
    (d.pieces u).anonymous.isSome = d.isAnonymous := by
  cases d
  simp [TypeDecl.pieces, Value.forms?_eq, TypeDecl.isAnonymous]

theorem EnumConstant.keeps_layouts {cs : List EnumConstant} (ih : ∀ c ∈ cs, c.body.Settles K u)
    (hs : ∀ c ∈ cs, c.body.isAnonymous = true) (hw : ∀ c ∈ cs, c.body.wellTyped = true)
    (hb : K.strict → ∀ c ∈ cs, c.body.balanced = true) :
    ∀ d ∈ EnumConstant.layouts u cs, K.Keeps false d := by
  rw [EnumConstant.layouts_eq]
  refine List.forall_mem_map.2 fun c hc => ?_
  have hd := ih c hc (hw c hc) fun h => hb h c hc
  have ha : (c.body.pieces u).anonymous.isSome = true := by
    rw [TypeDecl.isSome_anonymous_pieces]
    exact hs c hc
  cases c with
  | mk name body =>
      refine hd.layout (fun l hl => ?_) false
      cases hl
      exact ⟨K.text _ _, ha⟩

theorem Superinterface.keeps_piecesAll {ss : List Superinterface}
    (ih : ∀ s ∈ ss, ∀ c ∈ s.delegate, c.Settles K u) (hs : ∀ s ∈ ss, s.type.isType = true)
    (ht : ∀ s ∈ ss, s.type.wellTyped = true)
    (hw : ∀ s ∈ ss, ∀ c ∈ s.delegate, c.wellTyped = true)
    (hb : K.strict → ∀ s ∈ ss, ∀ c ∈ s.delegate, c.balanced false = true) :
    ∀ s ∈ Superinterface.piecesAll u ss, s.1.IsType ∧ ∀ c ∈ s.2, c.Keeps K false := by
  rw [Superinterface.piecesAll_eq]
  refine List.forall_mem_map.2 fun s hm => ?_
  have hi := Value.isType_forms (ht s hm) (hs s hm) u
  have hc := CodeBlock.keeps_pieces? (ih s hm) (hw s hm) fun h => hb h s hm
  cases s with
  | mk => exact ⟨hi, hc⟩

theorem Value.keeps_anonymous {o : Option Value} (ih : ∀ v ∈ o, v.Settles K u)
    (hs : ∀ v ∈ o, v.isCode = true) (hw : ∀ v ∈ o, v.wellTyped = true)
    (hb : K.strict → ∀ v ∈ o, v.balanced b = true) :
    ∀ f ∈ Value.forms? u o, (∃ c, f.value = .code c) ∧ K.Keeps b f.literal := by
  cases o with
  | none => exact fun f hf => nomatch hf
  | some v =>
      rintro f hf
      cases hf
      refine ⟨?_, (ih v rfl (hw v rfl) b fun h => hb h v rfl).literal⟩
      have hc := hs v rfl
      cases v with
      | code c => exact ⟨c, by cases c; rfl⟩
      | _ => cases hc

theorem TypeDecl.settles {d : TypeDecl}
    (ih : d.Each (Value.Settles K u) (CodeBlock.Settles K u) (FunDecl.Settles K u)
      (PropertyDecl.Settles K u) (TypeDecl.Settles K u)) : d.Settles K u := by
  intro hw hb
  obtain ⟨hs, hw⟩ := (TypeDecl.wellTyped_iff d).1 hw
  have hb := fun h => (TypeDecl.balanced_iff d).1 (hb h)
  have hk : ∃ k, d.kind = .kind k := by
    have h := hs.kind
    cases hd : d.kind with
    | kind k => exact ⟨k, rfl⟩
    | _ => rw [hd] at h; cases h
  have hdoc := CodeBlock.keeps_kdoc ih.kdoc hw.kdoc fun h => (hb h).kdoc
  have ha := Value.annotates_formsAll ih.annotations hs.annotations hw.annotations fun h =>
    (hb h).annotations
  have hy := Value.keeps_anonymous ih.anonymous hs.anonymous hw.anonymous fun h => (hb h).anonymous
  have hv := Value.isTypeVariable_formsAll (u := u) hs.typeVariables hw.typeVariables
  have hp : ∀ f ∈ FunDecl.pieces? u d.primaryConstructor, f.Keeps K false := by
    rw [FunDecl.pieces?_eq]
    rintro _ hm
    obtain ⟨f, hf, rfl⟩ := Option.map_eq_some_iff.1 hm
    exact ih.primaryConstructor f hf (hw.primaryConstructor f hf) _ fun h =>
      (hb h).primaryConstructor f hf
  have hsc := Value.isType_forms hw.superclass hs.superclass u
  have hg := CodeBlock.keeps_piecesAll ih.superclassArgs hw.superclassArgs fun h =>
    (hb h).superclassArgs
  have hi := Superinterface.keeps_piecesAll ih.delegates hs.superinterfaces hw.superinterfaces
    hw.delegates fun h => (hb h).delegates
  have hc := EnumConstant.keeps_layouts ih.constants hs.constants hw.constants fun h =>
    (hb h).constants
  have hq := PropertyDecl.keeps_piecesAll ih.properties hw.properties fun h => (hb h).properties
  have hn := (ih.initializer hw.initializer _ fun h => (hb h).initializer).layout
  have hf : ∀ o ∈ Value.functionPiecesAll u d.functions, ∃ f, o = some f ∧ f.Keeps K false := by
    rw [Value.functionPiecesAll_eq]
    exact List.forall_mem_map.2 fun v hv => (ih.functions v hv (hw.functions v hv) _ fun h =>
      (hb h).functions v hv).functionPieces (hs.functions v hv)
  have ht : ∀ t ∈ (Value.formsAll u d.types).map (·.written [.nothing]), K.Keeps false t := by
    rw [Value.formsAll_eq]
    exact List.forall_mem_map.2 (List.forall_mem_map.2 fun v hv =>
      (ih.types v hv (hw.types v hv) _ fun h => (hb h).types v hv).nested (hs.types v hv))
  have hco : ∀ c ∈ TypeDecl.layout? u d.companion, K.Keeps false c := by
    rw [TypeDecl.layout?_eq]
    rintro _ hm
    obtain ⟨c, hc, rfl⟩ := Option.map_eq_some_iff.1 hm
    exact (ih.companion c hc (hw.companion c hc) fun h => (hb h).companion c hc).unlabelled false
  cases d with
  | mk => exact ⟨hk, hdoc, ha, hy, hv, hp, hsc, hg, hi, hc, hq, hn, hf, ht, hco⟩

end

/-- Whatever is well-typed, and balanced where that is asked for, keeps the discipline. -/
theorem Discipline.Reads.settles {K : Discipline} {unit : String} (hK : K.Reads unit) :
    Hereditary (Value.Settles K (.ok unit)) (fun _ => True) (CodeBlock.Settles K (.ok unit))
      (AnnotationUse.Settles K (.ok unit)) (Parameter.Settles K (.ok unit))
      (FunDecl.Settles K (.ok unit)) (PropertyDecl.Settles K (.ok unit))
      (TypeDecl.Settles K (.ok unit)) where
  null _ b _ := .ofLiteral (K.text _ b) fun _ => rfl
  bool _ _ b _ := .ofLiteral (K.text _ b) fun _ => rfl
  int _ _ b _ := .ofLiteral (K.text _ b) fun _ => rfl
  str _ _ b _ := .ofLiteral (K.text _ b) fun _ => rfl
  list items _ hw b _ := .ofLiteral (K.ofText (Value.legible hw _).inspected b) fun _ => rfl
  modifier _ _ b _ := .ofLiteral (K.text _ b) fun _ => rfl
  kind _ _ b _ := .ofLiteral (K.text _ b) fun _ => rfl
  type t _ hw b _ := by
    refine .ofLiteral ?_ fun _ => rfl
    rw [Value.forms, t.literal_forms]
    exact K.ofText ((Value.legible hw _).isType rfl).text b
  code c ih hw b hb := by
    refine .ofLiteral ?_ fun _ => rfl
    have hs := (ih hw b hb).layout
    cases c with
    | mk => exact hs
  declAnnotation n a ih hw b hb := by
    have hs := ih hw b hb
    exact ⟨hs, fun _ _ => hs, nofun, nofun, nofun⟩
  declParameter n p ih hw b hb := by
    have hs := (ih hw false hb).layout true
    exact ⟨hK.alone hs b, nofun, nofun, nofun, nofun⟩
  declProperty n p ih hw b hb :=
    ⟨(ih hw b hb).layout ⟨_, rfl⟩ _ _, nofun, nofun, nofun, nofun⟩
  declFunction n f ih hw b hb := by
    have hs := ih hw b hb
    refine ⟨hs.layout _, nofun, fun _ told ⟨ms, hms⟩ => ?_, fun _ => ⟨_, rfl, hs⟩, nofun⟩
    show K.Keeps b (.orFail (told.implied.map (f.pieces (.ok unit)).layout))
    rw [hms]
    exact hs.layout ms
  declType n d ih hw b hb := by
    have hs := (ih hw hb).unlabelled b
    exact ⟨hs, nofun, nofun, nofun, fun _ => hs⟩
  named _ _ _ := trivial
  generic _ _ _ _ _ := trivial
  typeVar _ _ _ _ _ _ := trivial
  block c ih hw b hb :=
    hK.code hw hb fun v hv b' hb' =>
      (ih v hv (((CodeBlock.wellTyped_iff c).1 hw).2 v hv) b' hb').literal
  annotationUse _ ih := AnnotationUse.settles ih
  parameter _ ih := Parameter.settles ih
  function _ ih := FunDecl.settles ih
  property _ ih := PropertyDecl.settles ih
  typeDecl _ _ ih := TypeDecl.settles ih

/-- Code is read from spot to spot. Balance says at which spot each part stands, and what follows
the code is read from the spot where the code ends. -/
theorem Layout.leads_code {u : IndentUnit} {inside : Bool} {parts : List Part} {args : List Value}
    {s : Spot} (hm : Part.matched parts args = true) (hw : ∀ v ∈ args, v.wellTyped = true)
    (hb : Part.balanced inside s parts (args.map Value.balanced) = true)
    (hl : ∀ v ∈ args, ∀ b, v.balanced b = true → (v.forms u).literal.Steady b)
    (ps : List Part) (as : List (Placeholder → Layout)) (k : Nat) (t : Spot)
    (ht : (code ps as).Leads ⟨k, inside⟩ t) :
    (code (parts ++ ps) (args.map (fun v => (v.forms u).argument) ++ as)).Leads
      ⟨s.depth + k, s.inside⟩ t := by
  -- The parts still to come are balanced from the spot that the parts before them have led to.
  induction parts generalizing args s with
  | nil =>
      cases args with
      | nil =>
          simp only [Part.balanced, decide_eq_true_eq] at hb
          simpa [hb] using ht
      | cons v args => cases hm
  | cons p parts ih =>
      obtain ⟨n, b⟩ := s
      cases p with
      | argument p =>
          cases args with
          | nil => cases hm
          | cons v args =>
              simp only [Part.matched, Bool.and_eq_true] at hm
              simp only [List.map_cons, Part.balanced, Bool.and_eq_true, Bool.or_eq_true,
                decide_eq_true_eq] at hb
              rw [List.forall_mem_cons] at hw hl
              have hv := Value.keeps_argument (K := steadiness) hw.1 hm.1 fun hp =>
                hl.1 b (hb.1.resolve_left (absurd hp))
              exact (hv (n + k)).append (ih hm.2 hw.2 hb.2 hl.2)
      | text s => exact (leads_text _ _).append (ih hm hw hb hl)
      | percent | wrap => exact (leads_text _ _).append (ih hm hw hb hl)
      | indent =>
          have hr := ih hm hw hb hl
          rw [Nat.add_right_comm] at hr
          exact (leads_indent _ _).append hr
      | unindent =>
          cases n with
          | zero => cases hb
          | succ n =>
              rw [Nat.add_right_comm]
              exact (leads_unindent _ _).append (ih hm hw hb hl)
      | openStatement =>
          simp only [Part.balanced, Bool.and_eq_true, Bool.not_eq_true'] at hb
          obtain ⟨rfl, hb⟩ := hb
          exact (leads_openStatement _).append (ih hm hw hb hl)
      | closeStatement =>
          simp only [Part.balanced, Bool.and_eq_true] at hb
          obtain ⟨⟨rfl, _⟩, hb⟩ := hb
          exact (leads_closeStatement _).append (ih hm hw hb hl)
      | split c => cases hm

theorem Layout.Steady.alone {d : Layout} (h : d.Steady false) (unit : String) :
    ∃ s, d.alone (.ok unit) = .ok s := by
  have hr := h 0 (Writer.fresh unit) 0 (Writer.at_of_outside rfl rfl)
  simp [Layout.alone, Layout.render, hr.error, bind, Except.bind]

theorem Layout.reads_steadiness (unit : String) : steadiness.Reads unit where
  code {c b} hw hb hl := by
    obtain ⟨hm, ha⟩ := (CodeBlock.wellTyped_iff c).1 hw
    have hb := hb trivial
    rw [CodeBlock.balanced_eq] at hb
    rw [CodeBlock.pieces_eq]
    intro ps as h n
    have hl : ∀ v ∈ c.args, ∀ b, v.balanced b = true → (v.forms (.ok unit)).literal.Steady b :=
      fun v hv b hb => hl v hv b fun _ => hb
    simpa using leads_code hm ha hb hl ps as n _ (h n)
  alone h b := steadiness.ofText (Layout.Steady.alone h unit) b

abbrev TypePieces.Steady (d : TypePieces) : Prop := d.Keeps Layout.steadiness

theorem TypePieces.Steady.contents {d : TypePieces} (h : d.Steady) {label : Option Layout}
    (hl : ∀ l ∈ label, l.Steady false ∧ d.anonymous.isSome = true) :
    (Layout.orFail (d.folded.map (d.foldedLayout label))).Steady false :=
  TypePieces.Keeps.contents h hl

theorem TypeDecl.steady_pieces (unit : String) {d : TypeDecl} (hw : d.wellTyped = true)
    (hb : d.balanced = true) : (d.pieces (.ok unit)).Steady :=
  (Layout.reads_steadiness unit).settles.ofTypeDecl d hw fun _ => hb

end KotlinDecl
