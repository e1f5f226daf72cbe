import KotlinDecl.CodeBlock.Builder
import KotlinDecl.Proofs.Forms

namespace KotlinDecl

theorem Value.value_forms (unit : IndentUnit) (v : Value) : (v.forms unit).value = v := by
  cases v with
  | type t => cases t <;> rfl
  | code c => cases c; rfl
  | decl n d => cases d <;> rfl
  | _ => rfl

theorem Part.matched_append {ps qs : List Part} {vs ws : List Value} (h : matched ps vs = true)
    (h' : matched qs ws = true) : matched (ps ++ qs) (vs ++ ws) = true := by
  induction ps generalizing vs with
  | nil =>
      cases vs with
      | nil => exact h'
      | cons v vs => cases h
  | cons p ps ih =>
      cases p with
      | argument p =>
          cases vs with
          | nil => cases h
          | cons v vs =>
              simp only [List.cons_append, matched, Bool.and_eq_true] at h ⊢
              exact ⟨h.1, ih h.2⟩
      | split c => cases h
      | _ => exact ih h

theorem CodeBlock.wellTyped_append {c d : CodeBlock} (hc : c.wellTyped = true)
    (hd : d.wellTyped = true) : (c ++ d).wellTyped = true := by
  rw [CodeBlock.wellTyped_iff] at *
  exact ⟨Part.matched_append hc.1 hd.1, List.forall_mem_append.2 ⟨hc.2, hd.2⟩⟩

/-- A text or a block of code, but no list. -/
def Value.isFormat : Value → Bool
  | .str _ | .code _ => true
  | _ => false

namespace Format

def wellTyped (format : Value) (args : List Value) : Bool :=
  format.isFormat && format.wellTyped && args.all Value.wellTyped

def Step.isPlain : Step → Bool
  | .part (.split _) => false
  | .part _ | .fault _ => true
  | _ => false

theorem isPlain_ofLetter {c : Char} {p : Part} (h : Part.ofLetter? c = some p) :
    (Step.part p).isPlain = true := by
  unfold Part.ofLetter? at h
  split at h <;> cases h <;> rfl

theorem isPlain_consChar (c : Char) {steps : List Step} (h : ∀ s ∈ steps, s.isPlain = true) :
    ∀ s ∈ consChar c steps, s.isPlain = true := by
  unfold consChar
  split
  · exact List.forall_mem_cons.2 ⟨rfl, fun s hs => h s (List.mem_cons_of_mem _ hs)⟩
  · exact List.forall_mem_cons.2 ⟨rfl, h⟩

theorem isPlain_scan (cs : List Char) : ∀ s ∈ scan cs, s.isPlain = true := by
  fun_induction scan cs with
  | case1 => exact List.forall_mem_nil _
  | case2 => exact List.forall_mem_singleton.2 rfl
  | case3 => exact List.forall_mem_singleton.2 rfl
  | case4 c rest p hp ih => exact List.forall_mem_cons.2 ⟨isPlain_ofLetter hp, ih⟩
  | case5 c rest _ ih => exact isPlain_consChar c ih

theorem takes_bindOne {format : Except Error (Option String)} {p : Placeholder} {unit : IndentUnit}
    {v v' : Value} (hw : v.wellTyped = true) (h : bindOne format p (v.forms unit) = .ok v') :
    p.takes v' = true ∧ v'.wellTyped = true := by
  cases p with
  | literal =>
      cases h
      rw [Value.value_forms]
      exact ⟨rfl, hw⟩
  | string =>
      simp only [bindOne, Value.value_forms] at h
      split at h
      · cases h
        exact ⟨rfl, rfl⟩
      · cases h
        exact ⟨rfl, rfl⟩
      · obtain ⟨s, _, hs⟩ := ok_of_bind h
        cases hs
        exact ⟨rfl, rfl⟩
  | name =>
      simp only [bindOne, Value.value_forms] at h
      split at h
      · cases h
        exact ⟨rfl, rfl⟩
      · obtain ⟨s, _, hs⟩ := ok_of_bind h
        obtain ⟨_, _, hs⟩ := ok_of_bind hs
        cases hs
  | type =>
      simp only [bindOne, Value.value_forms] at h
      split at h
      · cases h
        exact ⟨rfl, hw⟩
      · obtain ⟨s, _, hs⟩ := ok_of_bind h
        obtain ⟨_, _, hs⟩ := ok_of_bind hs
        cases hs

theorem ok_of_faulty {α : Type} {format : Except Error (Option String)} {fault : FormatFault}
    {a : α} : faulty format fault ≠ .ok a :=
  bind_ne_ok nofun

theorem wellTyped_bind {format : Except Error (Option String)} {unit : IndentUnit} {index : Nat}
    {steps : List Step} {args : List Value} {c : CodeBlock}
    (hp : ∀ s ∈ steps, s.isPlain = true) (hw : ∀ v ∈ args, v.wellTyped = true)
    (h : bind format index steps (args.map (·.forms unit)) = .ok c) : c.wellTyped = true := by
  induction steps generalizing index args c with
  | nil =>
      rw [bind] at h
      split at h
      · cases h
        rfl
      · exact absurd h ok_of_faulty
  | cons s steps ih =>
      obtain ⟨hs, hrest⟩ := List.forall_mem_cons.1 hp
      cases s with
      | part p =>
          cases p with
          | argument p =>
              cases args with
              | nil =>
                  obtain ⟨_, ht, _⟩ := ok_of_bind h
                  exact absurd ht ok_of_faulty
              | cons v args =>
                  obtain ⟨hv, hargs⟩ := List.forall_mem_cons.1 hw
                  obtain ⟨_, ht, hr⟩ := ok_of_bind h
                  obtain ⟨v', hb, ht⟩ := ok_of_bind ht
                  cases ht
                  obtain ⟨d, hd, hc⟩ := ok_of_bind hr
                  cases hc
                  obtain ⟨htakes, hv'⟩ := takes_bindOne hv hb
                  refine CodeBlock.wellTyped_append ?_ (ih hrest hargs hd)
                  simp [CodeBlock.wellTyped_iff, Part.matched, htakes, hv']
          | split c => cases hs
          | _ =>
              obtain ⟨d, hd, hc⟩ := ok_of_bind h
              cases hc
              exact CodeBlock.wellTyped_append rfl (ih hrest hw hd)
      | fault f => exact absurd h ok_of_faulty
      | loose => cases hs
      | error => cases hs

end Format

theorem CodeBlock.wellTyped_ofFormat {unit : IndentUnit} {format : Value} {args : List Value}
    {c : CodeBlock} (hw : Format.wellTyped format args = true)
    (h : CodeBlock.ofFormat unit format args = .ok c) : c.wellTyped = true := by
  simp only [Format.wellTyped, Bool.and_eq_true, List.all_eq_true] at hw
  obtain ⟨⟨hf, hw⟩, ha⟩ := hw
  cases format with
  | str s =>
      obtain ⟨steps, hs, hb⟩ := ok_of_bind h
      cases hs
      rw [Value.formsAll_eq] at hb
      exact Format.wellTyped_bind (Format.isPlain_scan _) ha hb
  | code d =>
      rw [CodeBlock.ofFormat] at h
      split at h
      · cases h
        exact hw
      · cases h
  | _ => cases hf

theorem CodeBlock.wellTyped_ofFormatOrBlock {unit : IndentUnit} {format : Value}
    {args : List Value} {c : CodeBlock} (hw : Format.wellTyped format args = true)
    (h : CodeBlock.ofFormatOrBlock unit format args = .ok c) : c.wellTyped = true := by
  unfold CodeBlock.ofFormatOrBlock at h
  split at h
  · simp only [Format.wellTyped, Bool.and_eq_true] at hw
    cases h
    exact hw.1.2
  · exact CodeBlock.wellTyped_ofFormat hw h

end KotlinDecl
