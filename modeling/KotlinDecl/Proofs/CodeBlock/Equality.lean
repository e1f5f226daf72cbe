import KotlinDecl.Proofs.CodeBlock.Pairing

namespace KotlinDecl

def Apart (s t : List Char) : Prop := ¬s <+: t ∧ ¬t <+: s

namespace Apart

variable {s t : List Char}

theorem symm (h : Apart s t) : Apart t s := ⟨h.2, h.1⟩

theorem ne (h : Apart s t) : s ≠ t := by
  rintro rfl
  exact h.1 (List.prefix_refl s)

theorem append (h : Apart s t) (x y : List Char) : Apart (s ++ x) (t ++ y) := by
  have hleft : ∀ {s t x y : List Char}, Apart s t → ¬s ++ x <+: t ++ y := by
    intro s t x y h hp
    have hs : s <+: t ++ y := (List.prefix_append s x).trans hp
    rcases List.prefix_or_prefix_of_prefix hs (List.prefix_append t y) with hst | hts
    · exact h.1 hst
    · exact h.2 hts
  exact ⟨hleft h, hleft h.symm⟩

theorem behind (h : Apart s t) (x : List Char) : Apart (x ++ s) (x ++ t) :=
  ⟨mt (List.prefix_append_right_inj x).1 h.1, mt (List.prefix_append_right_inj x).1 h.2⟩

theorem of_head {c d : Char} (h : c ≠ d) (s t : List Char) : Apart (c :: s) (d :: t) :=
  ⟨fun hp => h (List.cons_prefix_cons.1 hp).1, fun hp => h (List.cons_prefix_cons.1 hp).1.symm⟩

end Apart

namespace Written

/-- Two writing steps that leave the same writer behind and fail alike. If they are the `same`, they
have written the same text, and if not, texts that are apart. -/
structure InStep (same : Bool) (r s : Written) : Prop where
  writer : s.writer = r.writer
  error : s.error = r.error
  text (hs : same = true) : s.text = r.text
  apart (hs : same = false) (h : r.error = none) : Apart r.text s.text

theorem InStep.andThen {b c : Bool} {r s : Written} {k l : Writer → Written} (h : InStep b r s)
    (hk : InStep c (k r.writer) (l r.writer)) : InStep (b && c) (r.andThen k) (s.andThen l) := by
  cases hr : r.error with
  | some e =>
      rw [andThen_of_error hr, andThen_of_error (h.error.trans hr)]
      refine ⟨h.writer, h.error, fun hs => h.text (Bool.and_eq_true_iff.1 hs).1, fun _ hok => ?_⟩
      cases hr.symm.trans hok
  | none =>
      rw [andThen_of_ok hr, andThen_of_ok (h.error.trans hr), h.writer]
      refine ⟨hk.writer, hk.error, fun hs => ?_, fun hs hok => ?_⟩
      · obtain ⟨hb, hc⟩ := Bool.and_eq_true_iff.1 hs
        rw [h.text hb, hk.text hc]
      · cases b with
        | false => exact (h.apart rfl hr).append _ _
        | true =>
            rw [h.text rfl]
            exact (hk.apart hs hok).behind _

end Written

namespace Layout

def InStep (same : Bool) (x y : Layout) : Prop := ∀ w, Written.InStep same (x.run w) (y.run w)

namespace InStep

theorem refl (x : Layout) : InStep true x x := fun _ => ⟨rfl, rfl, fun _ => rfl, nofun⟩

theorem append {b c : Bool} {x y x' y' : Layout} (h : InStep b x y) (h' : InStep c x' y') :
    InStep (b && c) (x ++ x') (y ++ y') :=
  fun w => (h w).andThen (h' _)

theorem symm {b : Bool} {x y : Layout} (h : InStep b x y) : InStep b y x := fun w =>
  ⟨(h w).writer.symm, (h w).error.symm, fun hs => ((h w).text hs).symm,
    fun hs hok => ((h w).apart hs ((h w).error.symm.trans hok)).symm⟩

theorem of_head {s t : String} {c d : Char} {cs ds : List Char} (hs : s.toList = c :: cs)
    (ht : t.toList = d :: ds) (hcs : '\n' ∉ c :: cs) (hds : '\n' ∉ d :: ds) (h : c ≠ d) :
    InStep false (.text s) (.text t) := by
  intro w
  rw [run_line hs hcs, run_line ht hds]
  exact ⟨rfl, rfl, nofun, fun _ _ => (Apart.of_head h cs ds).behind _⟩

theorem bool_int (b : Bool) :
    InStep false (Forms.bool b).literal (Forms.int (if b then 1 else 0)).literal := by
  cases b with
  | true =>
      exact of_head (s := "true") (t := "1") rfl rfl (by decide) (by decide) (by decide)
  | false =>
      exact of_head (s := "false") (t := "0") rfl rfl (by decide) (by decide) (by decide)

theorem alone {same : Bool} {x y : Layout} (h : InStep same x y) (unit : IndentUnit) :
    (∀ e, x.alone unit = .error e → y.alone unit = .error e) ∧
      ∀ s, x.alone unit = .ok s → ∃ t, y.alone unit = .ok t ∧ (t = s ↔ same = true) := by
  cases unit with
  | error e => exact ⟨fun _ h => h, fun _ h => (by cases h)⟩
  | ok u =>
      have hrun := h (Writer.fresh u)
      simp only [Layout.alone, render, bind, Except.bind, hrun.error]
      cases hx : (x.run (Writer.fresh u)).error with
      | some e => exact ⟨fun _ h => h, fun _ h => (by cases h)⟩
      | none =>
          refine ⟨fun _ he => (by cases he), fun s hs => ⟨_, rfl, ?_⟩⟩
          cases hs
          cases same with
          | true => simp [hrun.text rfl]
          | false =>
              have hne := (hrun.apart rfl hx).ne.symm
              exact iff_of_false (fun hst => hne (String.ofList_injective hst)) Bool.false_ne_true

end InStep

end Layout

mutual

/-- Nothing, truth values, numbers, texts, types, and code that takes such arguments. -/
def Value.isBasic : Value → Bool
  | .null | .bool _ | .int _ | .str _ => true
  | .type t => t.wellTyped
  | .code c => c.isBasic
  | _ => false
termination_by structural v => v

def Value.isBasicAll : List Value → Bool
  | [] => true
  | v :: rest => v.isBasic && Value.isBasicAll rest

def CodeBlock.isBasic : CodeBlock → Bool
  | ⟨parts, args⟩ => Part.matched parts args && Value.isBasicAll args

end

mutual

/-- Whether no number meets a truth value, at any depth. -/
def Value.alike : Value → Value → Bool
  | .bool _, .int _ | .int _, .bool _ => false
  | .code c, .code d => c.alike d
  | _, _ => true
termination_by structural v => v

def Value.alikeAll : List Value → List Value → Bool
  | v :: vs, u :: us => v.alike u && Value.alikeAll vs us
  | _, _ => true

def CodeBlock.alike : CodeBlock → CodeBlock → Bool
  | ⟨_, vs⟩, ⟨_, us⟩ => Value.alikeAll vs us

end

theorem CodeBlock.isBasic_iff (c : CodeBlock) :
    c.isBasic = true ↔ c.matched = true ∧ ∀ v ∈ c.args, v.isBasic = true := by
  cases c with
  | mk parts args =>
      have hall : Value.isBasicAll args = args.all Value.isBasic :=
        all_of_cons rfl (fun _ _ => rfl) args
      simp [isBasic, matched, hall]

theorem Value.isBasic_of_type {v : Value} (ht : v.isType = true) (h : v.wellTyped = true) :
    v.isBasic = true := by
  cases v with
  | type => exact h
  | _ => cases ht

namespace HashKey

theorem beq_ofText (s t : String) : (ofText s).beq (ofText t) = decide (s = t) := by
  by_cases hs : s = ""
  · by_cases ht : t = ""
    · simp [ofText, hs, ht, beq]
    · simp [ofText, hs, ht, beq, Ne.symm ht]
  · by_cases ht : t = ""
    · simp [ofText, hs, ht, beq]
    · simp [ofText, hs, ht, beq]

end HashKey

namespace Key

theorem equalAll_iff {as bs : List Key} :
    equalAll as bs = .ok true ↔ List.Forall₂ (fun a b => equal true a b = .ok true) as bs := by
  induction as generalizing bs with
  | nil => cases bs <;> simp [equalAll]
  | cons a as ih =>
      cases bs with
      | nil => simp [equalAll]
      | cons b bs =>
          rw [List.forall₂_cons, ← ih, equalAll]
          cases equal true a b with
          | error e => simp [bind, Except.bind]
          | ok same => cases same <;> simp [bind, Except.bind, pure, Except.pure]

variable {inside : Bool}

theorem of_equal_null {k : Key} (h : equal inside .null k = .ok true) : k = .null := by
  cases k with
  | null => rfl
  | _ => cases h

theorem of_equal_str {s : String} {k : Key} (h : equal inside (.str s) k = .ok true) :
    k = .str s := by
  cases k with
  | str t =>
      obtain rfl : s = t := by simpa [equal] using h
      rfl
  | _ => cases h

theorem of_equal_bool {b : Bool} {k : Key} (h : equal inside (.bool b) k = .ok true) :
    k = .bool b ∨ k = .int (if b then 1 else 0) := by
  cases k with
  | bool c =>
      obtain rfl : b = c := by simpa [equal] using h
      exact .inl rfl
  | int n =>
      obtain rfl : (if b then 1 else 0) = n := by simpa [equal] using h
      exact .inr rfl
  | _ => cases h

theorem of_equal_int {n : Int} {k : Key} (h : equal inside (.int n) k = .ok true) :
    k = .int n ∨ ∃ b, k = .bool b ∧ n = if b then 1 else 0 := by
  cases k with
  | int m =>
      obtain rfl : n = m := by simpa [equal] using h
      exact .inl rfl
  | bool b => exact .inr ⟨b, rfl, by simpa [equal] using h⟩
  | _ => cases h

theorem equal_named {p p' : Option String} {ns ns' : List String} {n n' : Bool}
    (h : equal inside (.named p ns n) (.named p' ns' n') = .ok true) :
    p = p' ∧ ns = ns' ∧ n = n' := by
  simpa [equal, and_assoc] using h

theorem equal_generic {r r' : Key} {as as' : List Key} {n n' : Bool}
    (h : equal inside (.generic r as n) (.generic r' as' n') = .ok true) :
    equal true r r' = .ok true ∧ equalAll as as' = .ok true ∧ n = n' := by
  rw [equal] at h
  obtain ⟨b, hr, h⟩ := ok_of_bind h
  cases b with
  | false => cases h
  | true =>
      obtain ⟨b, has, h⟩ := ok_of_bind h
      cases b with
      | false => cases h
      | true =>
          have hn : n = n' := by simpa [pure, Except.pure] using h
          exact ⟨hr, has, hn⟩

theorem equal_typeVar {x x' : String} {bs bs' : List Key} {v v' : Option Variance}
    {r r' n n' : Bool}
    (h : equal inside (.typeVar x bs v r n) (.typeVar x' bs' v' r' n') = .ok true) :
    x = x' ∧ equalAll bs bs' = .ok true ∧ v = v' ∧ r = r' ∧ n = n' := by
  rw [equal] at h
  by_cases hx : x = x'
  · rw [if_pos hx] at h
    obtain ⟨b, hbs, h⟩ := ok_of_bind h
    cases b with
    | false => cases h
    | true =>
        have hrest : (v = v' ∧ r = r') ∧ n = n' := by simpa [pure, Except.pure] using h
        exact ⟨hx, hbs, hrest.1.1, hrest.1.2, hrest.2⟩
  · rw [if_neg hx] at h
    cases h

def atom? : Key → Option Value
  | .null => some .null
  | .bool b => some (.bool b)
  | .int n => some (.int n)
  | .str s => some (.str s)
  | _ => none

end Key

namespace Value

def Equal (unit : IndentUnit) (v u : Value) : Prop :=
  Key.equal true (v.key unit) (u.key unit) = .ok true

def keys (unit : IndentUnit) (vs : List Value) : List Key := (formsAll unit vs).map (·.key)

variable {unit : IndentUnit}

theorem eq_of_atom {u v : Value} (h : (u.key unit).atom? = some v) : u = v := by
  cases u with
  | null | bool | int | str => exact Option.some.inj h
  | list | modifier | kind => cases h
  | type t => cases t <;> cases h
  | code c =>
      cases c
      cases h
  | decl n d => cases d <;> cases h

theorem type_of_equal {t : TypeName} {u : Value} (h : Equal unit (.type t) u) :
    u.isType = true := by
  cases u with
  | type => rfl
  | code c => cases t <;> cases c <;> cases h
  | decl n d => cases t <;> cases d <;> cases h
  | _ => cases t <;> cases h

theorem code_of_equal {inside : Bool} {c : CodeBlock} {u : Value}
    (h : Key.equal inside ((Value.code c).key unit) (u.key unit) = .ok true) : u.isCode = true := by
  cases u with
  | code => rfl
  | type t => cases t <;> cases c <;> cases h
  | decl n d => cases d <;> cases c <;> cases h
  | _ =>
      cases c
      cases h

/-- What is equal to `v` is written in step with it in every place, and is `v` itself if that is a
type. -/
structure EqualInStep (unit : IndentUnit) (v : Value) : Prop where
  type {u : Value} (h : v.Equal unit u) (hv : v.isType = true) : u = v
  argument {u : Value} (h : v.Equal unit u) {p : Placeholder} (hp : p.takes v = true) :
    Layout.InStep (v.alike u) ((v.forms unit).argument p) ((u.forms unit).argument p)

theorem equalInStep_of_eq {v : Value} (halike : v.alike v = true)
    (h : ∀ u, v.Equal unit u → u = v) : v.EqualInStep unit := by
  refine ⟨fun hu _ => h _ hu, fun {u} hu p _ => ?_⟩
  rw [h u hu, halike]
  exact .refl _

theorem equalInStep_null : Value.null.EqualInStep unit :=
  equalInStep_of_eq rfl fun _ h => eq_of_atom (congrArg Key.atom? (Key.of_equal_null h))

theorem equalInStep_str (s : String) : (Value.str s).EqualInStep unit :=
  equalInStep_of_eq rfl fun _ h => eq_of_atom (congrArg Key.atom? (Key.of_equal_str h))

theorem equalInStep_bool (b : Bool) : (Value.bool b).EqualInStep unit := by
  refine ⟨nofun, fun {u} h p hp => ?_⟩
  rcases Key.of_equal_bool h with hk | hk
  · obtain rfl : u = .bool b := eq_of_atom (congrArg Key.atom? hk)
    exact .refl _
  · obtain rfl : u = .int (if b then 1 else 0) := eq_of_atom (congrArg Key.atom? hk)
    cases p with
    | literal => exact .bool_int b
    | _ => cases hp

theorem equalInStep_int (n : Int) : (Value.int n).EqualInStep unit := by
  refine ⟨nofun, fun {u} h p hp => ?_⟩
  rcases Key.of_equal_int h with hk | ⟨b, hk, rfl⟩
  · obtain rfl : u = .int n := eq_of_atom (congrArg Key.atom? hk)
    exact .refl _
  · obtain rfl : u = .bool b := eq_of_atom (congrArg Key.atom? hk)
    cases p with
    | literal => exact (Layout.InStep.bool_int b).symm
    | _ => cases hp

theorem equalAll_keys {vs us : List Value} :
    Key.equalAll (keys unit vs) (keys unit us) = .ok true ↔ List.Forall₂ (Equal unit) vs us := by
  rw [Key.equalAll_iff, keys, keys, formsAll_eq, formsAll_eq, List.map_map, List.map_map,
    List.forall₂_map_left_iff, List.forall₂_map_right_iff]
  rfl

theorem eq_of_equalAll {vs us : List Value} (hv : ∀ v ∈ vs, v.EqualInStep unit)
    (ht : ∀ v ∈ vs, v.isType = true)
    (h : Key.equalAll (keys unit vs) (keys unit us) = .ok true) : us = vs := by
  rw [equalAll_keys] at h
  induction h with
  | nil => rfl
  | cons hu _ ih =>
      obtain ⟨hv, hvs⟩ := List.forall_mem_cons.1 hv
      obtain ⟨ht, hts⟩ := List.forall_mem_cons.1 ht
      rw [hv.type hu ht, ih hvs hts]

theorem equalInStep_type {t : TypeName}
    (h : ∀ t', Equal unit (.type t) (.type t') → t' = t) : (Value.type t).EqualInStep unit := by
  refine equalInStep_of_eq rfl fun u hu => ?_
  have hu' := type_of_equal hu
  cases u with
  | type t' => rw [h t' hu]
  | _ => cases hu'

end Value

namespace Layout.InStep

variable {unit : IndentUnit}

theorem code {ps : List Part} {vs us : List Value} (hm : Part.matched ps vs = true)
    (hv : ∀ v ∈ vs, v.EqualInStep unit) (h : List.Forall₂ (Value.Equal unit) vs us) :
    InStep (Value.alikeAll vs us) (.code ps (vs.map fun v => (v.forms unit).argument))
      (.code ps (us.map fun u => (u.forms unit).argument)) := by
  induction ps generalizing vs us with
  | nil =>
      cases h with
      | nil => exact refl .empty
      | cons => cases hm
  | cons p ps ih =>
      cases p with
      | argument p =>
          cases h with
          | nil => cases hm
          | cons hu hus =>
              obtain ⟨hp, hps⟩ := Bool.and_eq_true_iff.1 hm
              obtain ⟨hv, hvs⟩ := List.forall_mem_cons.1 hv
              exact (hv.argument hu hp).append (ih hps hvs hus)
      | split => cases hm
      | _ => exact (refl _).append (ih hm hv h)

end Layout.InStep

namespace CodeBlock

variable {unit : IndentUnit}

theorem equal_code {inside : Bool} {c d : CodeBlock}
    (h : Key.equal inside ((Value.code c).key unit) ((Value.code d).key unit) = .ok true) :
    d.parts = c.parts ∧ List.Forall₂ (Value.Equal unit) c.args d.args := by
  cases c with
  | mk ps vs =>
      cases d with
      | mk qs us =>
          have hkey : (if ps = qs then Key.equalAll (Value.keys unit vs) (Value.keys unit us)
              else .ok false) = .ok true := h
          by_cases hp : ps = qs
          · rw [if_pos hp, Value.equalAll_keys] at hkey
            exact ⟨hp.symm, hkey⟩
          · rw [if_neg hp] at hkey
            cases hkey

theorem inStep_of_equal {c d : CodeBlock} (hm : c.matched = true)
    (hv : ∀ v ∈ c.args, v.EqualInStep unit) {inside : Bool}
    (h : Key.equal inside ((Value.code c).key unit) ((Value.code d).key unit) = .ok true) :
    Layout.InStep (c.alike d) (c.layout unit) (d.layout unit) := by
  obtain ⟨hparts, hargs⟩ := equal_code h
  have halike : c.alike d = Value.alikeAll c.args d.args := by
    cases c
    cases d
    rfl
  rw [layout_eq, layout_eq, hparts, halike]
  exact .code hm hv hargs

end CodeBlock

theorem hereditary_equalInStep (unit : IndentUnit) :
    Hereditary (fun v => v.isBasic = true → v.EqualInStep unit)
      (fun t => t.wellTyped = true → (Value.type t).EqualInStep unit)
      (fun c => c.isBasic = true → c.matched = true ∧ ∀ v ∈ c.args, v.EqualInStep unit)
      (fun _ => True) (fun _ => True) (fun _ => True) (fun _ => True) (fun _ => True) where
  null _ := Value.equalInStep_null
  bool b _ := Value.equalInStep_bool b
  int n _ := Value.equalInStep_int n
  str s _ := Value.equalInStep_str s
  list _ _ h := nomatch h
  modifier _ h := nomatch h
  kind _ h := nomatch h
  type _ ih h := ih h
  code c ih h := by
    obtain ⟨hm, hv⟩ := ih h
    refine ⟨nofun, fun {u} hu p hp => ?_⟩
    have hcode := Value.code_of_equal hu
    cases u with
    | code d =>
        cases p with
        | literal =>
            cases c
            cases d
            exact CodeBlock.inStep_of_equal hm hv hu
        | _ => cases hp
    | _ => cases hcode
  declAnnotation _ _ _ h := nomatch h
  declParameter _ _ _ h := nomatch h
  declProperty _ _ _ h := nomatch h
  declFunction _ _ _ h := nomatch h
  declType _ _ _ h := nomatch h
  named package names nullable _ := by
    refine Value.equalInStep_type fun t h => ?_
    cases t with
    | named package' names' nullable' =>
        obtain ⟨rfl, rfl, rfl⟩ := Key.equal_named h
        rfl
    | _ => cases h
  generic raw args nullable ihraw ihargs h := by
    simp only [TypeName.wellTyped, Value.wellTypedAll_eq, Bool.and_eq_true, List.all_eq_true] at h
    obtain ⟨⟨⟨hraw, hraw'⟩, hargs⟩, hargs'⟩ := h
    refine Value.equalInStep_type fun t h => ?_
    cases t with
    | generic raw' args' nullable' =>
        obtain ⟨hr, ha, rfl⟩ := Key.equal_generic h
        rw [(ihraw (Value.isBasic_of_type hraw hraw')).type hr hraw,
          Value.eq_of_equalAll (fun v hv =>
            ihargs v hv (Value.isBasic_of_type (hargs v hv) (hargs' v hv))) hargs ha]
    | _ => cases h
  typeVar name bounds variance reified nullable ih h := by
    simp only [TypeName.wellTyped, Value.wellTypedAll_eq, Bool.and_eq_true, List.all_eq_true] at h
    refine Value.equalInStep_type fun t ht => ?_
    cases t with
    | typeVar name' bounds' variance' reified' nullable' =>
        obtain ⟨rfl, hb, rfl, rfl, rfl⟩ := Key.equal_typeVar ht
        rw [Value.eq_of_equalAll (fun v hv =>
          ih v hv (Value.isBasic_of_type (h.1 v hv) (h.2 v hv))) h.1 hb]
    | _ => cases ht
  block c ih h := by
    obtain ⟨hm, hv⟩ := (CodeBlock.isBasic_iff c).1 h
    exact ⟨hm, fun v hv' => ih v hv' (hv v hv')⟩
  annotationUse _ _ := trivial
  parameter _ _ := trivial
  function _ _ := trivial
  property _ _ := trivial
  typeDecl _ _ _ := trivial

namespace CodeBlock

variable {unit : IndentUnit} {a b : CodeBlock}

theorem hash_key (c : CodeBlock) :
    ((Value.code c).key unit).hash = (c.text unit).map HashKey.ofText := by
  cases c
  rfl

/-- Equal blocks are written alike, and have the same hash, exactly if no number stands in one of
them where a truth value stands in the other. If one cannot be written, the other fails in the same
way. -/
theorem equal_written_alike_iff (ha : a.Obtained unit) (hargs : ∀ v ∈ a.args, v.isBasic = true)
    (h : Key.equal false ((Value.code a).key unit) ((Value.code b).key unit) = .ok true) :
    (∀ e, a.text unit = .error e → b.text unit = .error e ∧
      Key.sameHash ((Value.code a).key unit) ((Value.code b).key unit) = .error e) ∧
    ∀ s, a.text unit = .ok s → ∃ t, b.text unit = .ok t ∧ (t = s ↔ a.alike b = true) ∧
      Key.sameHash ((Value.code a).key unit) ((Value.code b).key unit) = .ok (a.alike b) := by
  have hv : ∀ v ∈ a.args, v.EqualInStep unit := fun v hv =>
    (hereditary_equalInStep unit).ofValue v (hargs v hv)
  obtain ⟨hfails, htexts⟩ := (inStep_of_equal ha.matched hv h).alone unit
  refine ⟨fun e he => ⟨hfails e he, ?_⟩, fun s hs => ?_⟩
  · rw [Key.sameHash, hash_key, he]
    rfl
  · obtain ⟨t, ht, hiff⟩ := htexts s hs
    refine ⟨t, ht, hiff, ?_⟩
    have htext : b.text unit = .ok t := ht
    rw [Key.sameHash, hash_key, hash_key, hs, htext]
    show Except.ok ((HashKey.ofText s).beq (HashKey.ofText t)) = _
    have hsame : decide (s = t) = a.alike b := by
      rw [Bool.eq_iff_iff, decide_eq_true_iff, eq_comm, hiff]
    rw [HashKey.beq_ofText, hsame]

/-- Code inside of code. The last argument of the inner block is a number in one and a truth value
in the other. -/
theorem equal_written_alike_iff_nested :
    let unit : IndentUnit := .ok "  "
    let pair (v : Value) : CodeBlock :=
      ⟨[.argument .type, .text "=", .argument .literal], [.type (.named none ["A"] true), v]⟩
    let both (v : Value) : CodeBlock :=
      ⟨[.argument .literal, .argument .literal], [.int 0, .code (pair v)]⟩
    let a := both (.int 1)
    let b := both (.bool true)
    a.Obtained unit ∧
      Key.equal false ((Value.code a).key unit) ((Value.code b).key unit) = .ok true ∧
      a.text unit = .ok "0A?=1" ∧ ∃ t, b.text unit = .ok t ∧ t ≠ "0A?=1" ∧
        Key.sameHash ((Value.code a).key unit) ((Value.code b).key unit) = .ok false := by
  intro unit pair both a b
  have hread : ofFormat unit (.str "%L%L") a.args = .ok a := rfl
  have ha : a.Obtained unit := by
    refine .read rfl ?_ hread
    nofun
  have hequal : Key.equal false ((Value.code a).key unit) ((Value.code b).key unit) = .ok true :=
    rfl
  have htext : a.text unit = .ok "0A?=1" := by decide +kernel
  obtain ⟨t, ht, hiff, hhash⟩ := (equal_written_alike_iff ha (by decide) hequal).2 _ htext
  exact ⟨ha, hequal, htext, t, ht, fun h => absurd (hiff.1 h) (by decide), hhash⟩

/-- The number one and the truth value: equal blocks with different texts. -/
theorem one_equal_true :
    let unit : IndentUnit := .ok "  "
    let a : CodeBlock := ⟨[.argument .literal], [.int 1]⟩
    let b : CodeBlock := ⟨[.argument .literal], [.bool true]⟩
    ofFormat unit (.str "%L") [.int 1] = .ok a ∧ ofFormat unit (.str "%L") [.bool true] = .ok b ∧
      Key.equal false ((Value.code a).key unit) ((Value.code b).key unit) = .ok true ∧
      a.text unit = .ok "1" ∧ b.text unit = .ok "true" ∧
      Key.sameHash ((Value.code a).key unit) ((Value.code b).key unit) = .ok false :=
  ⟨rfl, rfl, rfl, rfl, rfl, rfl⟩

end CodeBlock

end KotlinDecl
