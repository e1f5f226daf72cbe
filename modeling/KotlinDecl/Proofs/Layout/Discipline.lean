import KotlinDecl.Layout.Pieces

namespace KotlinDecl

/-- A property that layouts keep where they stand, which is inside a statement or not. -/
structure Discipline where
  Keeps : Bool → Layout → Prop
  /-- Whether code has to be balanced for it. -/
  strict : Prop
  empty (b : Bool) : Keeps b .empty
  text (s : String) (b : Bool) : Keeps b (.text s)
  freshLine (b : Bool) : Keeps b .freshLine
  append {a c : Layout} {b : Bool} : Keeps b a → Keeps b c → Keeps b (a ++ c)
  comment {d : Layout} {b : Bool} : Keeps b d → Keeps b (.comment d)
  indented {d : Layout} {b : Bool} : Keeps b d → Keeps b (.indent ++ d ++ .unindent)
  block {d : Layout} {b : Bool} : Keeps b d → Keeps b (.block d)
  statement {d : Layout} {b : Bool} (front : String) : (strict → b = false) → Keeps true d →
    Keeps b (.text front ++ .openStatement ++ d ++ .closeStatement)
  declaration {d : Layout} (b : Bool) : Keeps false d → Keeps b (.declaration d)
  body {d : Layout} (scope : Value) : Keeps false d → Keeps false (.body scope d)

namespace Discipline

variable {K : Discipline} {b : Bool}

theorem Keeps.append {a c : Layout} (ha : K.Keeps b a) (hc : K.Keeps b c) : K.Keeps b (a ++ c) :=
  K.append ha hc

theorem Keeps.when {d : Layout} (c : Bool) (h : c = true → K.Keeps b d) :
    K.Keeps b (.when c d) := by
  cases c with
  | false => exact K.empty b
  | true => exact h rfl

theorem Keeps.ofOption {d : Option Layout} (h : ∀ c ∈ d, K.Keeps b c) :
    K.Keeps b (.ofOption d) := by
  cases d with
  | none => exact K.empty b
  | some c => exact h c rfl

theorem Keeps.concat {ds : List Layout} (h : ∀ d ∈ ds, K.Keeps b d) : K.Keeps b (.concat ds) := by
  induction ds with
  | nil => exact K.empty b
  | cons d ds ih =>
      exact (h d List.mem_cons_self).append (ih fun e he => h e (List.mem_cons_of_mem _ he))

theorem Keeps.separated {sep : Layout} {ds : List Layout} (hsep : K.Keeps b sep)
    (h : ∀ d ∈ ds, K.Keeps b d) : K.Keeps b (.separated sep ds) := by
  induction ds with
  | nil => exact K.empty b
  | cons d ds ih =>
      have hd := h d List.mem_cons_self
      have hr := ih fun e he => h e (List.mem_cons_of_mem _ he)
      cases ds with
      | nil => exact hd
      | cons e ds => exact (hd.append hsep).append hr

theorem Keeps.parenthesized {ds : List Layout} (h : ∀ d ∈ ds, K.Keeps b d) :
    K.Keeps b (.parenthesized ds) :=
  ((K.text _ b).append (.separated (K.text _ b) h)).append (K.text _ b)

theorem Keeps.kdoc {code : Layout} {isEmpty : Bool} (h : isEmpty = false → K.Keeps b code) :
    K.Keeps b (.kdoc isEmpty code) := by
  cases isEmpty with
  | true => exact K.empty b
  | false =>
      have hc := K.comment ((h rfl).append (K.freshLine b))
      exact ((K.text _ b).append hc).append (K.text _ b)

theorem Keeps.annotated {inline : Argument} {fs : List Forms}
    (h : ∀ f ∈ fs, K.Keeps b (f.written [inline])) : K.Keeps b (.annotated inline fs) := by
  induction fs with
  | nil => exact K.empty b
  | cons f fs ih =>
      have hr := ih fun g hg => h g (List.mem_cons_of_mem _ hg)
      exact ((h f List.mem_cons_self).append (K.text _ b)).append hr

theorem Keeps.members {ds : List (Except Error Layout)}
    (h : ∀ d ∈ ds, ∃ c, d = .ok c ∧ K.Keeps b c) (first : Bool) :
    K.Keeps b (.members first ds) := by
  induction ds generalizing first with
  | nil => exact K.empty b
  | cons d ds ih =>
      obtain ⟨c, rfl, hc⟩ := h d List.mem_cons_self
      have hr := ih (fun e he => h e (List.mem_cons_of_mem _ he)) false
      exact ((Keeps.when _ fun _ => K.text _ b).append hc).append hr

theorem modifiers (K : Discipline) (ms : ModifierSet) (implied : List Modifier) (b : Bool) :
    K.Keeps b (.modifiers ms implied) := by
  refine .concat fun d hd => ?_
  obtain ⟨m, _, rfl⟩ := List.mem_map.1 hd
  exact K.text _ b

end Discipline

def Key.Comparable (k : Key) : Prop := ∀ inside other, ∃ b, k.equal inside other = .ok b

structure Mention.IsType (m : Mention) : Prop where
  value : ∃ t, m.value = .type t
  text : ∃ s, m.text = .ok s
  key : m.key.Comparable

theorem Mention.IsType.checkType {m : Mention} (h : m.IsType) (format : String) :
    m.checkType format = .ok () := by
  obtain ⟨t, ht⟩ := h.value
  simp [Mention.checkType, ht]

structure Forms.IsTypeVariable (f : Forms) : Prop where
  value : ∃ name bounds variance reified nullable,
    f.value = .type (.typeVar name bounds variance reified nullable)
  bounds : ∀ m ∈ f.bounds, m.IsType

namespace Discipline

variable (K : Discipline)

theorem between {m : Mention} (h : m.IsType) (format front back : String) (b : Bool) :
    K.Keeps b (m.between format front back) := by
  obtain ⟨s, hs⟩ := h.text
  simp only [Mention.between, h.checkType, hs, Layout.ofText]
  exact ((K.text _ b).append (K.text _ b)).append (K.text _ b)

theorem typeVariable {f : Forms} (h : f.IsTypeVariable) (b : Bool) :
    K.Keeps b (.typeVariable f) := by
  obtain ⟨name, bounds, variance, reified, nullable, hv⟩ := h.value
  simp only [Layout.typeVariable, hv]
  refine .append (.append (.append (.ofOption ?_) (.when _ ?_)) (K.text _ b)) ?_
  · intro c hc
    obtain ⟨v, _, rfl⟩ := Option.map_eq_some_iff.1 hc
    exact K.text _ b
  · exact fun _ => K.text _ b
  · split
    · next bound hb =>
        split
        · exact K.empty b
        · exact K.between (h.bounds bound (by simp [hb])) _ _ _ b
    · exact K.empty b

theorem typeVariables {fs : List Forms} (h : ∀ f ∈ fs, f.IsTypeVariable) (b : Bool) :
    K.Keeps b (.typeVariables fs) := by
  unfold Layout.typeVariables
  split
  · exact K.empty b
  · refine .append (.append (K.text _ b) (.separated (K.text _ b) ?_)) (K.text _ b)
    intro d hd
    obtain ⟨f, hf, rfl⟩ := List.mem_map.1 hd
    exact K.typeVariable (h f hf) b

theorem whereEntries {ms : List Mention} (h : ∀ m ∈ ms, m.IsType) (first : Bool)
    (name : String) (b : Bool) : K.Keeps b (.whereEntries first name ms) := by
  induction ms generalizing first with
  | nil => exact K.empty b
  | cons m ms ih =>
      have hm := K.between (h m List.mem_cons_self) "%L : %T" (name ++ " : ") "" b
      have hr := ih (fun m hm => h m (List.mem_cons_of_mem _ hm)) false
      exact ((K.text _ b).append hm).append hr

theorem whereClause {fs : List Forms} (h : ∀ f ∈ fs, f.IsTypeVariable) (first b : Bool) :
    K.Keeps b (.whereClause first fs) := by
  induction fs generalizing first with
  | nil => exact K.empty b
  | cons f fs ih =>
      have hf := h f List.mem_cons_self
      have hr := fun first => ih (fun g hg => h g (List.mem_cons_of_mem _ hg)) first
      obtain ⟨name, bounds, variance, reified, nullable, hv⟩ := hf.value
      simp only [Layout.whereClause, hv]
      split
      · exact hr first
      · exact (K.whereEntries hf.bounds first name b).append (hr false)

end Discipline

end KotlinDecl
