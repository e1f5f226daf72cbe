import KotlinDecl.Proofs.Results
import KotlinDecl.Proofs.Sorts

namespace KotlinDecl

namespace Key

theorem equalAll_ok {as : List Key} (h : ∀ a ∈ as, a.Comparable) (bs : List Key) :
    ∃ b, equalAll as bs = .ok b := by
  induction as generalizing bs with
  | nil => cases bs <;> exact ⟨_, rfl⟩
  | cons a as ih =>
      cases bs with
      | nil => exact ⟨_, rfl⟩
      | cons c bs =>
          obtain ⟨b, hb⟩ := h a List.mem_cons_self true c
          obtain ⟨b', hb'⟩ := ih (fun a ha => h a (List.mem_cons_of_mem _ ha)) bs
          rw [equalAll, hb]
          cases b with
          | false => exact ⟨_, rfl⟩
          | true => exact ⟨b', hb'⟩

theorem comparable_named (package : Option String) (names : List String) (nullable : Bool) :
    (named package names nullable).Comparable := by
  intro inside other
  cases other <;> exact ⟨_, rfl⟩

theorem comparable_generic {raw : Key} {args : List Key} (hraw : raw.Comparable)
    (hargs : ∀ a ∈ args, a.Comparable) (nullable : Bool) :
    (generic raw args nullable).Comparable := by
  intro inside other
  cases other with
  | generic raw' args' nullable' =>
      obtain ⟨b, hb⟩ := hraw true raw'
      obtain ⟨b', hb'⟩ := equalAll_ok hargs args'
      rw [equal, hb]
      cases b with
      | false => exact ⟨_, rfl⟩
      | true => cases b' <;> exact ⟨_, by simp [hb', bind, Except.bind]; rfl⟩
  | _ => exact ⟨_, rfl⟩

theorem comparable_typeVar {bounds : List Key} (hbounds : ∀ a ∈ bounds, a.Comparable)
    (name : String) (variance : Option Variance) (reified nullable : Bool) :
    (typeVar name bounds variance reified nullable).Comparable := by
  intro inside other
  cases other with
  | typeVar name' bounds' variance' reified' nullable' =>
      obtain ⟨b, hb⟩ := equalAll_ok hbounds bounds'
      by_cases hn : name = name'
      · cases b <;> exact ⟨_, by simp [equal, hn, hb, bind, Except.bind]; rfl⟩
      · exact ⟨false, by simp [equal, hn]; rfl⟩
  | _ => exact ⟨_, rfl⟩

end Key

section

variable (unit : IndentUnit) (vs : List Value) (v? : Option Value) (cs : List CodeBlock)
  (c? : Option CodeBlock) (ps : List Parameter) (f? : Option FunDecl) (qs : List PropertyDecl)
  (ss : List Superinterface) (es : List EnumConstant) (d? : Option TypeDecl)

theorem Value.formsAll_eq : Value.formsAll unit vs = vs.map (·.forms unit) :=
  map_of_cons rfl (fun _ _ => rfl) vs

theorem Value.forms?_eq : Value.forms? unit v? = v?.map (·.forms unit) := by cases v? <;> rfl

theorem Value.functionPiecesAll_eq :
    Value.functionPiecesAll unit vs = vs.map (·.functionPieces unit) :=
  map_of_cons rfl (fun _ _ => rfl) vs

theorem CodeBlock.piecesAll_eq : CodeBlock.piecesAll unit cs = cs.map (·.pieces unit) :=
  map_of_cons rfl (fun _ _ => rfl) cs

theorem Parameter.piecesAll_eq : Parameter.piecesAll unit ps = ps.map (·.pieces unit) :=
  map_of_cons rfl (fun _ _ => rfl) ps

theorem FunDecl.pieces?_eq : FunDecl.pieces? unit f? = f?.map (·.pieces unit) := by
  cases f? <;> rfl

theorem PropertyDecl.piecesAll_eq : PropertyDecl.piecesAll unit qs = qs.map (·.pieces unit) :=
  map_of_cons rfl (fun _ _ => rfl) qs

theorem Superinterface.piecesAll_eq : Superinterface.piecesAll unit ss = ss.map (·.pieces unit) :=
  map_of_cons rfl (fun _ _ => rfl) ss

theorem EnumConstant.layouts_eq : EnumConstant.layouts unit es = es.map (·.layout unit) :=
  map_of_cons rfl (fun _ _ => rfl) es

theorem TypeDecl.layout?_eq :
    TypeDecl.layout? unit d? = d?.map fun d => (d.pieces unit).layout none := by
  cases d? <;> rfl

end

theorem CodeBlock.pieces_eq (unit : IndentUnit) (c : CodeBlock) :
    c.pieces unit = ⟨c.parts, c.args.map fun v => (v.forms unit).argument⟩ := by
  cases c with
  | mk parts args =>
      rw [CodeBlock.pieces, Value.formsAll_eq, List.map_map]
      rfl

theorem CodeBlock.layout_eq (unit : IndentUnit) (c : CodeBlock) :
    c.layout unit = .code c.parts (c.args.map fun v => (v.forms unit).argument) := by
  rw [CodeBlock.layout, CodeBlock.pieces_eq]
  rfl

namespace Forms

theorem isType_type {names : Except Error String} {key : Key} (hnames : ∃ s, names = .ok s)
    (hkey : key.Comparable) (t : TypeName) (bounds : List Mention) :
    (type t names key bounds).toMention.IsType := by
  obtain ⟨s, rfl⟩ := hnames
  exact ⟨⟨t, rfl⟩, ⟨_, rfl⟩, hkey⟩

theorem inspected_type {names : Except Error String} (hnames : ∃ s, names = .ok s) (key : Key)
    (t : TypeName) (bounds : List Mention) : ∃ s, (type t names key bounds).inspected = .ok s := by
  obtain ⟨s, rfl⟩ := hnames
  exact ⟨_, rfl⟩

end Forms

theorem Part.not_split_of_matched {parts : List Part} {args : List Value}
    (h : matched parts args = true) : ∀ p ∈ parts, ∀ c, p ≠ .split c := by
  induction parts generalizing args with
  | nil => exact List.forall_mem_nil _
  | cons p ps ih =>
      cases p with
      | argument p =>
          cases args with
          | nil => cases h
          | cons v args =>
              simp only [matched, Bool.and_eq_true] at h
              exact List.forall_mem_cons.2 ⟨nofun, ih h.2⟩
      | split c => cases h
      | _ => exact List.forall_mem_cons.2 ⟨nofun, ih h⟩

theorem Forms.spelling_ok {parts : List Part} (h : ∀ p ∈ parts, ∀ c, p ≠ .split c) :
    ∃ s, spelling parts = .ok s := by
  refine bind_ok (mapM_ok fun p hp => ?_) fun _ => ⟨_, rfl⟩
  cases p with
  | split c => exact absurd rfl (h _ hp c)
  | _ => exact ⟨_, rfl⟩

namespace Value

/-- The value has an entry in a listing, and if it is a type, also a text and a place among other
types. -/
structure Legible (unit : IndentUnit) (v : Value) : Prop where
  inspected : ∃ s, (v.forms unit).inspected = .ok s
  isType : v.isType = true → (v.forms unit).toMention.IsType

theorem inspected_all_ok {unit : IndentUnit} {vs : List Value} (h : ∀ v ∈ vs, v.Legible unit) :
    ∃ ss, (formsAll unit vs).mapM (·.inspected) = .ok ss := by
  refine mapM_ok fun f hf => ?_
  rw [Value.formsAll_eq] at hf
  obtain ⟨v, hv, rfl⟩ := List.mem_map.1 hf
  exact (h v hv).inspected

end Value

theorem hereditary_legible (unit : IndentUnit) :
    Hereditary (fun v => v.wellTyped = true → v.Legible unit)
      (fun t => t.wellTyped = true →
        (t.forms unit).toMention.IsType ∧ ∃ s, (t.forms unit).inspected = .ok s)
      (fun c => c.wellTyped = true → ∃ s, (c.forms unit).inspected = .ok s)
      (fun _ => True) (fun _ => True) (fun _ => True) (fun _ => True) (fun _ => True) where
  null _ := ⟨⟨_, rfl⟩, nofun⟩
  bool _ _ := ⟨⟨_, rfl⟩, nofun⟩
  int _ _ := ⟨⟨_, rfl⟩, nofun⟩
  str _ _ := ⟨⟨_, rfl⟩, nofun⟩
  list items ih h := by
    simp only [Value.wellTyped, Value.wellTypedAll_eq, List.all_eq_true] at h
    have hs := Value.inspected_all_ok fun v hv => ih v hv (h v hv)
    exact ⟨bind_ok hs fun _ => ⟨_, rfl⟩, nofun⟩
  modifier _ _ := ⟨⟨_, rfl⟩, nofun⟩
  kind _ _ := ⟨⟨_, rfl⟩, nofun⟩
  type t ih h := ⟨(ih h).2, fun _ => (ih h).1⟩
  code c ih h := ⟨ih h, nofun⟩
  declAnnotation _ _ _ _ := ⟨⟨_, rfl⟩, nofun⟩
  declParameter _ _ _ _ := ⟨⟨_, rfl⟩, nofun⟩
  declProperty _ _ _ _ := ⟨⟨_, rfl⟩, nofun⟩
  declFunction _ _ _ _ := ⟨⟨_, rfl⟩, nofun⟩
  declType n d _ h := by
    have hk := ((TypeDecl.wellTyped_iff d).1 h).1.kind
    cases d with
    | mk kind =>
        cases kind with
        | kind k => exact ⟨⟨_, rfl⟩, nofun⟩
        | _ => cases hk
  named package names nullable _ :=
    ⟨Forms.isType_type ⟨_, rfl⟩ (Key.comparable_named package names nullable) _ _,
      Forms.inspected_type ⟨_, rfl⟩ _ _ _⟩
  generic raw args nullable ihraw ihargs h := by
    simp only [TypeName.wellTyped, Value.wellTypedAll_eq, Bool.and_eq_true, List.all_eq_true] at h
    obtain ⟨⟨⟨hraw, hraw'⟩, hargs⟩, hargs'⟩ := h
    have hr := (ihraw hraw').isType hraw
    have ha : ∀ f ∈ Value.formsAll unit args, f.toMention.IsType := by
      rw [Value.formsAll_eq]
      exact List.forall_mem_map.2 fun v hv => (ihargs v hv (hargs' v hv)).isType (hargs v hv)
    have hn := bind_ok (mapM_ok fun f hf => (ha f hf).text) fun shown =>
      bind_ok (k := fun s => .ok (s ++ "<" ++ ", ".intercalate shown ++ ">")) hr.text
        fun _ => ⟨_, rfl⟩
    exact ⟨Forms.isType_type hn
      (Key.comparable_generic hr.key (List.forall_mem_map.2 fun f hf => (ha f hf).key) _) _ _,
      Forms.inspected_type hn _ _ _⟩
  typeVar name bounds variance reified nullable ih h := by
    simp only [TypeName.wellTyped, Value.wellTypedAll_eq, Bool.and_eq_true, List.all_eq_true] at h
    have hb : ∀ f ∈ Value.formsAll unit bounds, f.toMention.IsType := by
      rw [Value.formsAll_eq]
      exact List.forall_mem_map.2 fun v hv => (ih v hv (h.2 v hv)).isType (h.1 v hv)
    exact ⟨Forms.isType_type ⟨_, rfl⟩
      (Key.comparable_typeVar (List.forall_mem_map.2 fun f hf => (hb f hf).key) _ _ _ _) _ _,
      Forms.inspected_type ⟨_, rfl⟩ _ _ _⟩
  block c ih h := by
    cases c with
    | mk parts args =>
        obtain ⟨hm, ha⟩ := (CodeBlock.wellTyped_iff _).1 h
        exact bind_ok (Forms.spelling_ok (Part.not_split_of_matched hm)) fun _ =>
          bind_ok (Value.inspected_all_ok fun v hv => ih v hv (ha v hv)) fun _ => ⟨_, rfl⟩
  annotationUse _ _ := trivial
  parameter _ _ := trivial
  function _ _ := trivial
  property _ _ := trivial
  typeDecl _ _ _ := trivial

theorem Value.legible {v : Value} (h : v.wellTyped = true) (unit : IndentUnit) : v.Legible unit :=
  (hereditary_legible unit).ofValue v h

theorem Value.isTypeVariable_forms {v : Value} (h : v.wellTyped = true)
    (hv : v.isTypeVariable = true) (unit : IndentUnit) : (v.forms unit).IsTypeVariable := by
  unfold Value.isTypeVariable at hv
  split at hv
  · next name bounds variance reified nullable =>
      refine ⟨⟨_, _, _, _, _, rfl⟩, ?_⟩
      simp only [Value.wellTyped, TypeName.wellTyped, Value.wellTypedAll_eq, Bool.and_eq_true,
        List.all_eq_true] at h
      show ∀ m ∈ (Value.formsAll unit bounds).map (·.toMention), m.IsType
      rw [Value.formsAll_eq]
      exact List.forall_mem_map.2 (List.forall_mem_map.2 fun v hv =>
        (v.legible (h.2 v hv) unit).isType (h.1 v hv))
  · cases hv

end KotlinDecl
