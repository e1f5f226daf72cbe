import KotlinDecl.Proofs.Brackets.Pieces
import KotlinDecl.Proofs.Forms
import KotlinDecl.Proofs.Induction
import KotlinDecl.TypeDecl.Build

namespace KotlinDecl

open BracketKind

/-- A name, a block of code or another value that a declaration is worded with. Code is spliced if
it becomes a part of a larger block, where its arguments stand in one row with those of others. -/
inductive Wording
  | name (s : String)
  | code (c : CodeBlock)
  | spliced (c : CodeBlock)
  | value (v : Value)

mutual

def Value.wordings : Value → List Wording
  | .type t => t.wordings
  | .decl _ d => d.wordings
  | v => [.value v]
termination_by structural v => v

def Value.wordingsAll : List Value → List Wording
  | [] => []
  | v :: rest => v.wordings ++ Value.wordingsAll rest

def Value.wordings? : Option Value → List Wording
  | none => []
  | some v => v.wordings

def TypeName.wordings : TypeName → List Wording
  | .typeVar name bounds variance reified nullable =>
    .value (.type (.typeVar name bounds variance reified nullable)) :: Value.wordingsAll bounds
  | t => [.value (.type t)]

def Decl.wordings : Decl → List Wording
  | .annotationUse a => a.wordings
  | .parameter p => p.wordings
  | .property p => p.wordings
  | .function f => f.wordings
  | .typeDecl d => d.wordings

def AnnotationUse.wordings : AnnotationUse → List Wording
  | ⟨type, members⟩ => type.wordings ++ members.map .code

def Parameter.wordings : Parameter → List Wording
  | ⟨name, type, annotations, _, defaultValue⟩ =>
    .name name :: type.wordings ++ Value.wordingsAll annotations ++ defaultValue.toList.map .code

def Parameter.wordingsAll : List Parameter → List Wording
  | [] => []
  | p :: rest => p.wordings ++ Parameter.wordingsAll rest

def FunDecl.wordings : FunDecl → List Wording
  | ⟨name, kdoc, annotations, _, typeVariables, receiver, returns, parameters, body, _,
      delegationArgs⟩ =>
    .name name :: .code kdoc :: Value.wordingsAll annotations ++ Value.wordingsAll typeVariables ++
      Value.wordings? receiver ++ Value.wordings? returns ++ Parameter.wordingsAll parameters ++
      .code body :: delegationArgs.map .code

def FunDecl.wordings? : Option FunDecl → List Wording
  | none => []
  | some f => f.wordings

def PropertyDecl.wordings : PropertyDecl → List Wording
  | ⟨name, type, _, kdoc, annotations, _, initializer, _, getter, setter⟩ =>
    .name name :: type.wordings ++ .code kdoc :: Value.wordingsAll annotations ++
      initializer.toList.map .code ++ Value.wordings? getter ++ Value.wordings? setter

def PropertyDecl.wordingsAll : List PropertyDecl → List Wording
  | [] => []
  | p :: rest => p.wordings ++ PropertyDecl.wordingsAll rest

def Superinterface.wordingsAll : List Superinterface → List Wording
  | [] => []
  | ⟨type, delegate⟩ :: rest =>
    type.wordings ++ delegate.toList.map .spliced ++ Superinterface.wordingsAll rest

def EnumConstant.wordingsAll : List EnumConstant → List Wording
  | [] => []
  | ⟨name, body⟩ :: rest => .name name :: body.wordings ++ EnumConstant.wordingsAll rest

def TypeDecl.wordings : TypeDecl → List Wording
  | ⟨_, name, anonymous, kdoc, annotations, _, typeVariables, companion, primaryConstructor,
      superclass, superclassArgs, superinterfaces, constants, properties, initializer, functions,
      types⟩ =>
    name.toList.map .name ++ Value.wordings? anonymous ++ .code kdoc ::
      Value.wordingsAll annotations ++ Value.wordingsAll typeVariables ++
      TypeDecl.wordings? companion ++ FunDecl.wordings? primaryConstructor ++
      superclass.wordings ++ superclassArgs.map .spliced ++
      Superinterface.wordingsAll superinterfaces ++ EnumConstant.wordingsAll constants ++
      PropertyDecl.wordingsAll properties ++ .code initializer :: Value.wordingsAll functions ++
      Value.wordingsAll types

def TypeDecl.wordings? : Option TypeDecl → List Wording
  | none => []
  | some d => d.wordings

end

section

variable {Q : Wording → Prop}

theorem Value.forall_wordingsAll {vs : List Value} :
    (∀ u ∈ Value.wordingsAll vs, Q u) ↔ ∀ v ∈ vs, ∀ u ∈ v.wordings, Q u := by
  induction vs with
  | nil => simp [Value.wordingsAll]
  | cons v vs ih => rw [Value.wordingsAll, List.forall_mem_append, ih, List.forall_mem_cons]

theorem Value.forall_wordings? {o : Option Value} :
    (∀ u ∈ Value.wordings? o, Q u) ↔ ∀ v ∈ o, ∀ u ∈ v.wordings, Q u := by
  cases o <;> simp [Value.wordings?]

theorem Parameter.forall_wordingsAll {ps : List Parameter} :
    (∀ u ∈ Parameter.wordingsAll ps, Q u) ↔ ∀ p ∈ ps, ∀ u ∈ p.wordings, Q u := by
  induction ps with
  | nil => simp [Parameter.wordingsAll]
  | cons p ps ih => rw [Parameter.wordingsAll, List.forall_mem_append, ih, List.forall_mem_cons]

theorem FunDecl.forall_wordings? {o : Option FunDecl} :
    (∀ u ∈ FunDecl.wordings? o, Q u) ↔ ∀ f ∈ o, ∀ u ∈ f.wordings, Q u := by
  cases o <;> simp [FunDecl.wordings?]

theorem PropertyDecl.forall_wordingsAll {ps : List PropertyDecl} :
    (∀ u ∈ PropertyDecl.wordingsAll ps, Q u) ↔ ∀ p ∈ ps, ∀ u ∈ p.wordings, Q u := by
  induction ps with
  | nil => simp [PropertyDecl.wordingsAll]
  | cons p ps ih => rw [PropertyDecl.wordingsAll, List.forall_mem_append, ih, List.forall_mem_cons]

theorem Superinterface.forall_wordingsAll {ss : List Superinterface} :
    (∀ u ∈ Superinterface.wordingsAll ss, Q u) ↔
      ∀ s ∈ ss, (∀ u ∈ s.type.wordings, Q u) ∧ ∀ c ∈ s.delegate, Q (.spliced c) := by
  induction ss with
  | nil => simp [Superinterface.wordingsAll]
  | cons s ss ih =>
      cases s with
      | mk type delegate =>
          rw [Superinterface.wordingsAll, List.forall_mem_append, List.forall_mem_append, ih,
            List.forall_mem_cons]
          simp

theorem EnumConstant.forall_wordingsAll {cs : List EnumConstant} :
    (∀ u ∈ EnumConstant.wordingsAll cs, Q u) ↔
      ∀ c ∈ cs, Q (.name c.name) ∧ ∀ u ∈ c.body.wordings, Q u := by
  induction cs with
  | nil => simp [EnumConstant.wordingsAll]
  | cons c cs ih =>
      cases c with
      | mk name body =>
          rw [EnumConstant.wordingsAll, List.forall_mem_append, List.forall_mem_cons, ih,
            List.forall_mem_cons]

theorem TypeDecl.forall_wordings? {o : Option TypeDecl} :
    (∀ u ∈ TypeDecl.wordings? o, Q u) ↔ ∀ d ∈ o, ∀ u ∈ d.wordings, Q u := by
  cases o <;> simp [TypeDecl.wordings?]

theorem AnnotationUse.forall_wordings {a : AnnotationUse} (h : ∀ u ∈ a.wordings, Q u) :
    a.Each (fun t => ∀ u ∈ t.wordings, Q u) (fun c => Q (.code c)) := by
  cases a with
  | mk type members =>
      simp only [AnnotationUse.wordings, List.forall_mem_append, List.forall_mem_map] at h
      exact ⟨h.1, h.2⟩

theorem Parameter.forall_wordings {p : Parameter} (h : ∀ u ∈ p.wordings, Q u) :
    Q (.name p.name) ∧ p.Each (fun v => ∀ u ∈ v.wordings, Q u) (fun c => Q (.code c)) := by
  cases p with
  | mk name type annotations modifiers defaultValue =>
      simp only [Parameter.wordings, List.forall_mem_append, List.forall_mem_cons,
        List.forall_mem_map, Value.forall_wordingsAll, Option.mem_toList, and_assoc] at h
      obtain ⟨hn, ht, ha, hd⟩ := h
      exact ⟨hn, ht, ha, hd⟩

theorem FunDecl.forall_wordings {f : FunDecl} (h : ∀ u ∈ f.wordings, Q u) :
    Q (.name f.name) ∧ f.Each (fun v => ∀ u ∈ v.wordings, Q u) (fun c => Q (.code c))
      (fun p => ∀ u ∈ p.wordings, Q u) := by
  cases f with
  | mk =>
      simp only [FunDecl.wordings, List.forall_mem_append, List.forall_mem_cons,
        List.forall_mem_map, Value.forall_wordingsAll, Value.forall_wordings?,
        Parameter.forall_wordingsAll, and_assoc] at h
      obtain ⟨hn, hk, ha, hv, hr, hs, hp, hb, hd⟩ := h
      exact ⟨hn, hk, ha, hv, hr, hs, hp, hb, hd⟩

theorem PropertyDecl.forall_wordings {p : PropertyDecl} (h : ∀ u ∈ p.wordings, Q u) :
    Q (.name p.name) ∧ p.Each (fun v => ∀ u ∈ v.wordings, Q u) (fun c => Q (.code c))
      (fun c => Q (.code c)) := by
  cases p with
  | mk =>
      simp only [PropertyDecl.wordings, List.forall_mem_append, List.forall_mem_cons,
        List.forall_mem_map, Value.forall_wordingsAll, Value.forall_wordings?,
        Option.mem_toList, and_assoc] at h
      obtain ⟨hn, ht, hk, ha, hi, hg, hs⟩ := h
      exact ⟨hn, ht, hk, ha, hi, hg, hs⟩

theorem TypeDecl.forall_wordings {d : TypeDecl} (hQ : ∀ {c}, Q (.spliced c) → Q (.code c))
    (h : ∀ u ∈ d.wordings, Q u) :
    (∀ n ∈ d.name, Q (.name n)) ∧ (∀ c ∈ d.constants, Q (.name c.name)) ∧
      (∀ c ∈ d.superclassArgs, Q (.spliced c)) ∧
      (∀ s ∈ d.superinterfaces, ∀ c ∈ s.delegate, Q (.spliced c)) ∧
      d.Each (fun v => ∀ u ∈ v.wordings, Q u) (fun c => Q (.code c))
        (fun f => ∀ u ∈ f.wordings, Q u) (fun p => ∀ u ∈ p.wordings, Q u)
        (fun d => ∀ u ∈ d.wordings, Q u) := by
  cases d with
  | mk =>
      simp only [TypeDecl.wordings, List.forall_mem_append, List.forall_mem_cons,
        List.forall_mem_map, Value.forall_wordingsAll, Value.forall_wordings?,
        FunDecl.forall_wordings?, PropertyDecl.forall_wordingsAll,
        Superinterface.forall_wordingsAll, EnumConstant.forall_wordingsAll,
        TypeDecl.forall_wordings?, Option.mem_toList, and_assoc] at h
      obtain ⟨hn, hy, hk, ha, hv, hc, hp, hs, hg, hi, he, hq, hb, hf, ht⟩ := h
      exact ⟨hn, fun c h => (he c h).1, hg, fun s h => (hi s h).2, hy, hk, ha, hv, hc, hp, hs,
        fun c h => hQ (hg c h), fun s h => (hi s h).1, fun s hm c h => hQ ((hi s hm).2 c h),
        fun c h => (he c h).2, hq, hb, hf, ht⟩

end

variable {kinds : List BracketKind} {unit : IndentUnit}

def Value.isLevel (kinds : List BracketKind) (unit : IndentUnit) (v : Value) : Bool :=
  match v.text unit with
  | .ok s => IsBalanced kinds s.toList
  | .error _ => false

theorem Value.text_of_isLevel {v : Value} (h : v.isLevel kinds unit = true) :
    ∃ s, v.text unit = .ok s ∧ IsBalanced kinds s.toList := by
  unfold Value.isLevel at h
  split at h
  · next s hs => exact ⟨s, hs, of_decide_eq_true h⟩
  · cases h

namespace Wording

def isLevel (kinds : List BracketKind) (unit : IndentUnit) : Wording → Bool
  | name s => IsBalanced kinds s.toList
  | code c => (Value.code c).isLevel kinds unit
  | spliced c => (Value.code c).isLevel kinds unit
  | value v => v.isLevel kinds unit

/-- Code that is spliced takes all its arguments itself, and no others. -/
def isSupplied : Wording → Bool
  | spliced c => c.supplied
  | _ => true

/-- The words are balanced by themselves and do not depend on what they stand beside. -/
structure SelfContained (kinds : List BracketKind) (unit : IndentUnit) (u : Wording) : Prop where
  level : u.isLevel kinds unit = true
  supplied : u.isSupplied = true

variable {v : Value}

theorem SelfContained.balanced_name {s : String} (h : (name s).SelfContained kinds unit) :
    IsBalanced kinds s.toList :=
  of_decide_eq_true h.level

theorem SelfContained.code {c : CodeBlock} (h : (spliced c).SelfContained kinds unit) :
    (Wording.code c).SelfContained kinds unit :=
  ⟨h.level, rfl⟩

theorem SelfContained.level_text (h : (value v).SelfContained kinds unit) :
    (Layout.ofText (v.text unit)).Level kinds := by
  obtain ⟨s, hs, hb⟩ := Value.text_of_isLevel h.level
  rw [hs]
  exact Layout.level_text hb

theorem SelfContained.balanced_text (h : (value v).SelfContained kinds unit) {s : String}
    (hs : v.text unit = .ok s) : IsBalanced kinds s.toList := by
  obtain ⟨s', hs', hb⟩ := Value.text_of_isLevel h.level
  cases hs.symm.trans hs'
  exact hb

end Wording

namespace Forms

theorem level_of_literal {f : Forms} (hv : f.value.isType = false) (hl : f.literal.Level kinds)
    (hw : ∀ told, (∀ a ∈ told, a.label.Level kinds) → (f.written told).Level kinds)
    (hb : f.bounds = []) : f.Level kinds := by
  refine ⟨fun t _ ht => ?_, hl, hw, fun ht => ?_, by simp [hb]⟩
  · rw [ht] at hv
    cases hv
  · rw [ht] at hv
    cases hv

theorem level_type {t : TypeName} {names : Except Error String} {key : Key} {bounds : List Mention}
    (ht : ∀ s, (type t names key bounds).text = .ok s → IsBalanced kinds s.toList)
    (hn : ∀ {name bs variance reified nullable}, t = .typeVar name bs variance reified nullable →
      IsBalanced kinds name.toList)
    (hb : ∀ m ∈ bounds, m.Level kinds) : (type t names key bounds).Level kinds := by
  refine ⟨fun _ s _ => ht s, Layout.level_ofText ht, fun told _ => ?_, fun hv => ?_, hb⟩
  · cases told with
    | nil => exact Layout.level_ofText ht
    | cons a told => exact Layout.level_fail _
  · exact hn (Value.type.inj hv)

end Forms

structure Value.Level (kinds : List BracketKind) (unit : IndentUnit) (v : Value) : Prop where
  forms : (v.forms unit).Level kinds
  functionPieces : ∀ f ∈ v.functionPieces unit, f.Level kinds

namespace Value

theorem level_formsAll {vs : List Value} (h : ∀ v ∈ vs, v.Level kinds unit) :
    ∀ f ∈ formsAll unit vs, f.Level kinds := by
  rw [formsAll_eq]
  exact List.forall_mem_map.2 fun v hv => (h v hv).forms

theorem level_forms? {o : Option Value} (h : ∀ v ∈ o, v.Level kinds unit) :
    ∀ f ∈ forms? unit o, f.Level kinds := by
  rw [forms?_eq]
  simpa using fun v hv => (h v hv).forms

theorem level_mention? {o : Option Value} (h : ∀ v ∈ o, v.Level kinds unit) :
    ∀ m ∈ (forms? unit o).map Forms.toMention, m.Level kinds := by
  simpa using fun f hf => (level_forms? h f hf).mention

end Value

section

variable (hu : ∀ u, unit = .ok u → Free kinds u.toList)

include hu

namespace CodeBlock

theorem level_layout {c : CodeBlock} (h : (Wording.code c).SelfContained kinds unit) :
    (c.pieces unit).layout.Level kinds := by
  obtain ⟨s, hs, hb⟩ := Value.text_of_isLevel h.level
  have halone : (c.pieces unit).layout.alone unit = .ok s := by
    cases c
    exact hs
  exact (Layout.level_iff_alone hu halone).2 hb

theorem level_layouts {cs : List CodeBlock}
    (h : ∀ c ∈ cs, (Wording.code c).SelfContained kinds unit) :
    ∀ d ∈ (piecesAll unit cs).map CodePieces.layout, d.Level kinds := by
  rw [piecesAll_eq]
  exact List.forall_mem_map.2 (List.forall_mem_map.2 fun c hc => level_layout hu (h c hc))

theorem level_layout? {o : Option CodeBlock}
    (h : ∀ c ∈ o, (Wording.code c).SelfContained kinds unit) :
    ∀ d ∈ (pieces? unit o).map CodePieces.layout, d.Level kinds := by
  cases o with
  | none => exact nofun
  | some c => exact fun _ hd => Option.some.inj hd ▸ level_layout hu (h c rfl)

theorem level_kdoc {c : CodeBlock} (h : (Wording.code c).SelfContained kinds unit) :
    (Layout.kdoc c.isEmpty (c.pieces unit).layout).Level kinds :=
  Layout.level_kdoc (level_layout hu h)

theorem level_pieces {c : CodeBlock} (h : (Wording.spliced c).SelfContained kinds unit) :
    (c.pieces unit).Level kinds := by
  refine ⟨level_layout hu h.code, ?_⟩
  rw [pieces_eq, List.length_map]
  exact h.supplied

theorem level_piecesAll {cs : List CodeBlock}
    (h : ∀ c ∈ cs, (Wording.spliced c).SelfContained kinds unit) :
    ∀ c ∈ piecesAll unit cs, c.Level kinds := by
  rw [piecesAll_eq]
  exact List.forall_mem_map.2 fun c hc => level_pieces hu (h c hc)

theorem level_pieces? {o : Option CodeBlock}
    (h : ∀ c ∈ o, (Wording.spliced c).SelfContained kinds unit) :
    ∀ c ∈ pieces? unit o, c.Level kinds := by
  cases o with
  | none => exact nofun
  | some c => exact fun _ hc => Option.some.inj hc ▸ level_pieces hu (h c rfl)

end CodeBlock

theorem AnnotationUse.level_pieces {a : AnnotationUse}
    (h : a.Each (fun t => (t.forms unit).Level kinds)
      (fun c => (Wording.code c).SelfContained kinds unit)) : (a.pieces unit).Level kinds := by
  cases a with
  | mk => exact ⟨h.type.mention, CodeBlock.level_layouts hu h.members⟩

theorem Parameter.level_pieces {p : Parameter} (hn : IsBalanced kinds p.name.toList)
    (h : p.Each (Value.Level kinds unit) (fun c => (Wording.code c).SelfContained kinds unit)) :
    (p.pieces unit).Level kinds := by
  cases p with
  | mk =>
      exact ⟨hn, h.type.forms.mention, Value.level_formsAll h.annotations,
        CodeBlock.level_layout? hu h.defaultValue⟩

theorem FunDecl.level_pieces {f : FunDecl} (hn : IsBalanced kinds f.name.toList)
    (h : f.Each (Value.Level kinds unit) (fun c => (Wording.code c).SelfContained kinds unit)
      fun p => (p.pieces unit).Level kinds) : (f.pieces unit).Level kinds := by
  cases f with
  | mk =>
      refine ⟨hn, CodeBlock.level_kdoc hu h.kdoc, Value.level_formsAll h.annotations,
        Value.level_formsAll h.typeVariables, Value.level_mention? h.receiver,
        Value.level_mention? h.returns, ?_, CodeBlock.level_layout hu h.body,
        CodeBlock.level_layouts hu h.delegationArgs⟩
      show ∀ p ∈ Parameter.piecesAll unit _, p.Level kinds
      rw [Parameter.piecesAll_eq]
      exact List.forall_mem_map.2 h.parameters

theorem PropertyDecl.level_pieces {p : PropertyDecl} (hn : IsBalanced kinds p.name.toList)
    (h : p.Each (Value.Level kinds unit) (fun c => (Wording.code c).SelfContained kinds unit)
      fun c => (Wording.code c).SelfContained kinds unit) : (p.pieces unit).Level kinds := by
  cases p with
  | mk =>
      exact ⟨hn, h.type.forms.mention, CodeBlock.level_kdoc hu h.kdoc,
        Value.level_formsAll h.annotations, CodeBlock.level_layout? hu h.initializer,
        Value.level_forms? h.getter, Value.level_forms? h.setter⟩

theorem Superinterface.level_piecesAll {ss : List Superinterface}
    (ht : ∀ s ∈ ss, s.type.Level kinds unit)
    (hd : ∀ s ∈ ss, ∀ c ∈ s.delegate, (Wording.spliced c).SelfContained kinds unit) :
    ∀ s ∈ Superinterface.piecesAll unit ss, s.1.Level kinds ∧ ∀ c ∈ s.2, c.Level kinds := by
  rw [Superinterface.piecesAll_eq]
  refine List.forall_mem_map.2 fun s hs => ?_
  have hf := (ht s hs).forms
  have hc := CodeBlock.level_pieces? hu (hd s hs)
  cases s with
  | mk => exact ⟨hf, hc⟩

omit hu in
theorem EnumConstant.level_layouts {cs : List EnumConstant}
    (hn : ∀ c ∈ cs, IsBalanced kinds c.name.toList)
    (h : ∀ c ∈ cs, (c.body.pieces unit).Level kinds) :
    ∀ d ∈ EnumConstant.layouts unit cs, d.Level kinds := by
  rw [EnumConstant.layouts_eq]
  refine List.forall_mem_map.2 fun c hc => ?_
  have hb := h c hc
  have hname := hn c hc
  cases c with
  | mk name body =>
      refine hb.layout fun l hl => ?_
      cases hl
      exact Layout.level_text hname

theorem TypeDecl.level_pieces {d : TypeDecl} (hn : ∀ n ∈ d.name, IsBalanced kinds n.toList)
    (hnames : ∀ c ∈ d.constants, IsBalanced kinds c.name.toList)
    (hargs : ∀ c ∈ d.superclassArgs, (Wording.spliced c).SelfContained kinds unit)
    (hdelegates : ∀ s ∈ d.superinterfaces, ∀ c ∈ s.delegate,
      (Wording.spliced c).SelfContained kinds unit)
    (h : d.Each (Value.Level kinds unit) (fun c => (Wording.code c).SelfContained kinds unit)
      (fun f => (f.pieces unit).Level kinds) (fun p => (p.pieces unit).Level kinds)
      fun d => (d.pieces unit).Level kinds) : (d.pieces unit).Level kinds := by
  have hc : ∀ f ∈ FunDecl.pieces? unit d.primaryConstructor, f.Level kinds := by
    rw [FunDecl.pieces?_eq]
    simpa using h.primaryConstructor
  have hq : ∀ p ∈ PropertyDecl.piecesAll unit d.properties, p.Level kinds := by
    rw [PropertyDecl.piecesAll_eq]
    exact List.forall_mem_map.2 h.properties
  have hf : ∀ o ∈ Value.functionPiecesAll unit d.functions, ∀ f ∈ o, f.Level kinds := by
    rw [Value.functionPiecesAll_eq]
    exact List.forall_mem_map.2 fun v hv => (h.functions v hv).functionPieces
  have ht : ∀ t ∈ (Value.formsAll unit d.types).map (·.written [.nothing]), t.Level kinds :=
    List.forall_mem_map.2 fun f hf => (Value.level_formsAll h.types f hf).written _
      (List.forall_mem_singleton.2 Argument.level_nothing)
  have hm : ∀ c ∈ TypeDecl.layout? unit d.companion, c.Level kinds := by
    rw [TypeDecl.layout?_eq]
    rintro _ hm
    obtain ⟨c, hc, rfl⟩ := Option.map_eq_some_iff.1 hm
    exact (h.companion c hc).layout nofun
  cases d with
  | mk =>
      exact ⟨hn, CodeBlock.level_kdoc hu h.kdoc, Value.level_formsAll h.annotations,
        Value.level_forms? h.anonymous, Value.level_formsAll h.typeVariables, hc,
        h.superclass.forms, CodeBlock.level_piecesAll hu hargs,
        Superinterface.level_piecesAll hu h.superinterfaces hdelegates,
        EnumConstant.level_layouts hnames h.constants, hq,
        CodeBlock.level_layout hu h.initializer, hf, ht, hm⟩

/-- Whatever is worded in a balanced way is balanced. -/
theorem hereditary_level :
    Hereditary (fun v => (∀ u ∈ v.wordings, u.SelfContained kinds unit) → v.Level kinds unit)
      (fun t => (∀ u ∈ t.wordings, u.SelfContained kinds unit) → (t.forms unit).Level kinds)
      (fun _ => True)
      (fun a => (∀ u ∈ a.wordings, u.SelfContained kinds unit) → (a.pieces unit).Level kinds)
      (fun p => (∀ u ∈ p.wordings, u.SelfContained kinds unit) → (p.pieces unit).Level kinds)
      (fun f => (∀ u ∈ f.wordings, u.SelfContained kinds unit) → (f.pieces unit).Level kinds)
      (fun p => (∀ u ∈ p.wordings, u.SelfContained kinds unit) → (p.pieces unit).Level kinds)
      (fun d => (∀ u ∈ d.wordings, u.SelfContained kinds unit) → (d.pieces unit).Level kinds) where
  null _ := ⟨Forms.level_of_literal rfl (Layout.level_fixed (by decide))
    (fun _ _ => Layout.level_fail _) rfl, nofun⟩
  bool b _ := by
    refine ⟨Forms.level_of_literal rfl ?_ (fun _ _ => Layout.level_fail _) rfl, nofun⟩
    cases b <;> exact Layout.level_fixed (by decide)
  int n h := ⟨Forms.level_of_literal rfl (h _ List.mem_cons_self).level_text
    (fun _ _ => Layout.level_fail _) rfl, nofun⟩
  str s h := ⟨Forms.level_of_literal rfl (h _ List.mem_cons_self).level_text
    (fun _ _ => Layout.level_fail _) rfl, nofun⟩
  list items _ h := ⟨Forms.level_of_literal rfl (h _ List.mem_cons_self).level_text
    (fun _ _ => Layout.level_fail _) rfl, nofun⟩
  modifier m h := ⟨Forms.level_of_literal rfl (h _ List.mem_cons_self).level_text
    (fun _ _ => Layout.level_fail _) rfl, nofun⟩
  kind k h := ⟨Forms.level_of_literal rfl (h _ List.mem_cons_self).level_text
    (fun _ _ => Layout.level_fail _) rfl, nofun⟩
  type t ih h := ⟨ih h, nofun⟩
  code c _ h := by
    have hc := CodeBlock.level_layout hu ⟨(h _ List.mem_cons_self).level, rfl⟩
    cases c with
    | mk => exact ⟨Forms.level_of_literal rfl hc (fun _ _ => Layout.level_fail _) rfl, nofun⟩
  declAnnotation n a ih h :=
    ⟨Forms.level_of_literal rfl (ih h).layout (fun told _ => (ih h).written told) rfl, nofun⟩
  declParameter n p ih h := by
    have hp := ih h
    refine ⟨Forms.level_of_literal rfl (Layout.level_ofText fun s hs => ?_)
      (fun told _ => hp.written told) rfl, nofun⟩
    exact (Layout.level_iff_alone hu hs).1 (hp.layout true)
  declProperty n p ih h := ⟨Forms.level_of_literal rfl
    ((ih h).memberLayout Argument.level_noModifiers) (ih h).written rfl, nofun⟩
  declFunction n f ih h := ⟨Forms.level_of_literal rfl ((ih h).layout _)
    (fun told _ => (ih h).written told) rfl, fun _ hf => Option.some.inj hf ▸ ih h⟩
  declType n d ih h := ⟨Forms.level_of_literal rfl ((ih h).layout nofun) (ih h).written rfl, nofun⟩
  named package names nullable h :=
    Forms.level_type (fun _ => (h _ List.mem_cons_self).balanced_text) nofun (List.forall_mem_nil _)
  generic raw args nullable _ _ h :=
    Forms.level_type (fun _ => (h _ List.mem_cons_self).balanced_text) nofun (List.forall_mem_nil _)
  typeVar name bounds variance reified nullable ih h := by
    obtain ⟨ht, hb⟩ := List.forall_mem_cons.1 h
    have hbounds := Value.level_formsAll fun v hv => ih v hv (Value.forall_wordingsAll.1 hb v hv)
    refine Forms.level_type (fun _ => ht.balanced_text) ?_
      (List.forall_mem_map.2 fun f hf => (hbounds f hf).mention)
    rintro _ _ _ _ _ ⟨⟩
    have hname : IsBalanced kinds (name ++ if nullable then "?" else "").toList :=
      ht.balanced_text rfl
    rw [String.toList_append] at hname
    refine hname.of_append_free (free_of_none ?_)
    cases nullable <;> decide
  block _ _ := trivial
  annotationUse a ih h := by
    have hq := AnnotationUse.forall_wordings h
    exact AnnotationUse.level_pieces hu ⟨ih.type hq.type, hq.members⟩
  parameter p ih h := by
    obtain ⟨hn, hq⟩ := Parameter.forall_wordings h
    exact Parameter.level_pieces hu hn.balanced_name ⟨ih.type hq.type,
      fun v hv => ih.annotations v hv (hq.annotations v hv), hq.defaultValue⟩
  function f ih h := by
    obtain ⟨hn, hq⟩ := FunDecl.forall_wordings h
    exact FunDecl.level_pieces hu hn.balanced_name ⟨hq.kdoc,
      fun v hv => ih.annotations v hv (hq.annotations v hv),
      fun v hv => ih.typeVariables v hv (hq.typeVariables v hv),
      fun v hv => ih.receiver v hv (hq.receiver v hv),
      fun v hv => ih.returns v hv (hq.returns v hv),
      fun p hp => ih.parameters p hp (hq.parameters p hp), hq.body, hq.delegationArgs⟩
  property p ih h := by
    obtain ⟨hn, hq⟩ := PropertyDecl.forall_wordings h
    exact PropertyDecl.level_pieces hu hn.balanced_name ⟨ih.type hq.type, hq.kdoc,
      fun v hv => ih.annotations v hv (hq.annotations v hv), hq.initializer,
      fun v hv => ih.getter v hv (hq.getter v hv), fun v hv => ih.setter v hv (hq.setter v hv)⟩
  typeDecl d _ ih h := by
    obtain ⟨hn, hnames, hargs, hdelegates, hq⟩ := TypeDecl.forall_wordings (·.code) h
    exact TypeDecl.level_pieces hu (fun n h => (hn n h).balanced_name)
      (fun c h => (hnames c h).balanced_name) hargs hdelegates
      ⟨fun v hv => ih.anonymous v hv (hq.anonymous v hv), hq.kdoc,
        fun v hv => ih.annotations v hv (hq.annotations v hv),
        fun v hv => ih.typeVariables v hv (hq.typeVariables v hv),
        fun c hc => ih.companion c hc (hq.companion c hc),
        fun f hf => ih.primaryConstructor f hf (hq.primaryConstructor f hf),
        ih.superclass hq.superclass, hq.superclassArgs,
        fun s hs => ih.superinterfaces s hs (hq.superinterfaces s hs), hq.delegates,
        fun c hc => ih.constants c hc (hq.constants c hc),
        fun p hp => ih.properties p hp (hq.properties p hp), hq.initializer,
        fun v hv => ih.functions v hv (hq.functions v hv),
        fun v hv => ih.types v hv (hq.types v hv)⟩

/-- A declaration is written with balanced brackets, as a constant called `label`, as an object
expression or under its own name, if it comes to its end. Its names, its types and its code have to
be balanced on their own, and code for supertypes, which is spliced into one block, may leave no
arguments to the code behind it. -/
theorem TypeDecl.rendering_balanced {e : TypeDecl} {label : Option String} {w : Writer}
    (hw : Free kinds w.unit.toList) (hlabel : ∀ n ∈ label, IsBalanced kinds n.toList)
    (hlevel : ∀ u ∈ e.wordings, u.isLevel kinds unit = true)
    (hsupplied : ∀ u ∈ e.wordings, u.isSupplied = true)
    (hok : (((e.pieces unit).layout (label.map .text)).run w).error = none) :
    IsBalanced kinds (((e.pieces unit).layout (label.map .text)).run w).text := by
  have he : (e.pieces unit).Level kinds :=
    (hereditary_level hu).ofTypeDecl e fun u hm => ⟨hlevel u hm, hsupplied u hm⟩
  refine (he.layout fun l hl => ?_).run hw hok
  obtain ⟨n, hn, rfl⟩ := Option.map_eq_some_iff.1 hl
  exact Layout.level_text (hlabel n hn)

end

namespace TypeDecl

/-- A generic class with a default value, initializer code, arguments for its superclass and a
delegate, all of which have brackets of their own, and with an enum inside. The default value,
which is not spliced, has an argument to spare. -/
theorem rendering_balanced_generic :
    let kinds := [round, curly, angle]
    let unit : IndentUnit := .ok "  "
    let list : Value := .type (.generic (.type (.named none ["List"] false))
      [.type (.named none ["Int"] false)] false)
    let spare : CodeBlock := ⟨[.text "f()"], [.str "("]⟩
    let x : Parameter := { Parameter.plain "x" list with defaultValue := some spare }
    let init := { FunDecl.plain FunDecl.constructorName with
      parameters := [x]
      body := ⟨[.text "run \x7b g() \x7d\n"], []⟩ }
    let constant := { plain (.kind .classKind) none (some (.code ⟨[.text "(1)"], []⟩)) with
      functions := [.decl none (.function (.plain "h"))] }
    let inner := { plain (.kind .enumKind) (some "E") none with constants := [⟨"K", constant⟩] }
    let e := { plain (.kind .classKind) (some "A") none with
      typeVariables := [.type (.typeVar "T" [list, .type .anyType] none false false)]
      primaryConstructor := some init
      superclass := .type (.named none ["B"] false)
      superclassArgs := [⟨[.argument .literal], [.str "h()"]⟩, ⟨[.text "x"], []⟩]
      superinterfaces := [⟨list, some ⟨[.text "lazy \x7b x \x7d"], []⟩⟩]
      types := [.decl none (.typeDecl inner)] }
    let label : Option String := none
    let r := ((e.pieces unit).layout (label.map .text)).run (.fresh "  ")
    (∀ u ∈ e.wordings, u.isLevel kinds unit = true) ∧
      (∀ u ∈ e.wordings, u.isSupplied = true) ∧ r.error = none ∧ IsBalanced kinds r.text := by
  intro kinds unit list spare x init constant inner e label r
  have hlevel : ∀ u ∈ e.wordings, u.isLevel kinds unit = true := by decide
  have hsupplied : ∀ u ∈ e.wordings, u.isSupplied = true := by decide
  have hok : r.error = none := by decide +kernel
  have hu : ∀ u, unit = .ok u → Free kinds u.toList := by
    intro u hu
    obtain rfl : "  " = u := Except.ok.inj hu
    exact free_of_none (by decide)
  have hlabel : ∀ n ∈ label, IsBalanced kinds n.toList := nofun
  exact ⟨hlevel, hsupplied, hok, rendering_balanced hu (hu _ rfl) hlabel hlevel hsupplied hok⟩

/-- The first argument of the superclass holds a bracket that it does not write. The second one
takes it in place of its own argument. -/
theorem argument_shifted :
    let kinds := [round, curly, angle]
    let unit : IndentUnit := .ok "  "
    let surplus : CodeBlock := ⟨[.text "a"], [.str "("]⟩
    let calls : List Call := [.superclass (.type (.named (some "") ["B"] false)),
      .addSuperclassArg (.code surplus) [],
      .addSuperclassArg (.str "%L") [.str "b"]]
    let d := plain (.kind .classKind) (some "A") none
    let e := { d with
      superclass := .type (.named (some "") ["B"] false)
      superclassArgs := [surplus, ⟨[.argument .literal], [.str "b"]⟩] }
    let r := ((e.pieces unit).layout none).run (.fresh "  ")
    startNamed unit .classKind (.str "A") = .ok d ∧
      Edit.forEach (Call.apply unit) calls d = .ok () e ∧ e.build unit = .ok e ∧
      (∀ u ∈ e.wordings, u.isLevel kinds unit = true) ∧ r.error = none ∧
      r.text = "class A : B(a, ()\n".toList ∧ ¬IsBalanced kinds r.text := by
  exact ⟨rfl, rfl, rfl, by decide, by decide, by decide, by decide⟩

end TypeDecl

end KotlinDecl
