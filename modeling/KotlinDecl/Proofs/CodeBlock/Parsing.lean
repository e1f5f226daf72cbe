import KotlinDecl.Proofs.Format

namespace KotlinDecl

namespace Part

def placeholder? : Part → Option Placeholder
  | argument p => some p
  | _ => none

def placeholders (ps : List Part) : List Placeholder := ps.filterMap placeholder?

/-- Parts one after the other, where text runs on into text. -/
def joinText : List Part → List Part → List Part
  | [text s], text t :: qs => text (s ++ t) :: qs
  | [], qs => qs
  | p :: ps, qs => p :: joinText ps qs

theorem joinText_cons {p : Part} (hp : ∀ s, p ≠ text s) (ps qs : List Part) :
    joinText (p :: ps) qs = p :: joinText ps qs := by
  cases p with
  | text s => exact absurd rfl (hp s)
  | _ => simp [joinText]

theorem joinText_text_assoc (s : String) (ps qs : List Part) :
    joinText (joinText [text s] ps) qs = joinText [text s] (joinText ps qs) := by
  cases ps with
  | nil => rfl
  | cons p ps =>
      cases p with
      | text t =>
          cases ps with
          | nil =>
              cases qs with
              | nil => rfl
              | cons q qs => cases q <;> simp [joinText, String.append_assoc]
          | cons p ps => rfl
      | _ => rfl

theorem placeholders_joinText (ps qs : List Part) :
    placeholders (joinText ps qs) = placeholders ps ++ placeholders qs := by
  fun_induction joinText ps qs with
  | case1 s t qs => rfl
  | case2 qs => rfl
  | case3 p ps qs _ ih =>
      simp only [placeholders, List.filterMap_cons] at ih ⊢
      rw [ih]
      cases p.placeholder? <;> rfl

end Part

namespace Format

open KotlinDecl.Part (joinText placeholders)

theorem consChar_parts (c : Char) (ps : List Part) :
    consChar c (ps.map .part) = (joinText [.text c.toString] ps).map .part := by
  cases ps with
  | nil => rfl
  | cons p ps => cases p <;> rfl

theorem parts_of_consChar {c : Char} {steps : List Step} {ps : List Part}
    (h : consChar c steps = ps.map .part) : ∃ qs : List Part, steps = qs.map .part := by
  unfold consChar at h
  split at h
  · next s rest =>
      cases ps with
      | nil => cases h
      | cons p ps =>
          rw [List.map_cons, List.cons.injEq] at h
          exact ⟨.text s :: ps, by rw [h.2]; rfl⟩
  · cases ps with
    | nil => cases h
    | cons p ps =>
        rw [List.map_cons, List.cons.injEq] at h
        exact ⟨ps, h.2⟩

theorem ofLetter_ne_text {c : Char} {p : Part} (h : Part.ofLetter? c = some p) (s : String) :
    p ≠ .text s := by
  rintro rfl
  unfold Part.ofLetter? at h
  split at h <;> cases h

theorem scan_append {cs ds : List Char} {ps qs : List Part} (hp : scan cs = ps.map .part)
    (hq : scan ds = qs.map .part) : scan (cs ++ ds) = (joinText ps qs).map .part := by
  fun_induction scan cs generalizing ps with
  | case1 =>
      obtain rfl : ps = [] := by simpa using hp.symm
      exact hq
  | case2 =>
      cases ps with
      | nil => cases hp
      | cons p ps => cases hp
  | case3 c rest hc =>
      cases ps with
      | nil => cases hp
      | cons p ps => cases hp
  | case4 c rest p hc ih =>
      cases ps with
      | nil => cases hp
      | cons p' ps =>
          rw [List.map_cons, List.cons.injEq, Step.part.injEq] at hp
          obtain ⟨rfl, hp⟩ := hp
          rw [Part.joinText_cons (ofLetter_ne_text hc), List.map_cons, ← ih hp]
          simp [scan, hc]
  | case5 c rest hc ih =>
      obtain ⟨rs, hrs⟩ := parts_of_consChar hp
      have hps : joinText [.text c.toString] rs = ps := by
        rw [hrs, consChar_parts] at hp
        exact (List.map_inj_right fun _ _ => Step.part.inj).1 hp
      rw [← hps, Part.joinText_text_assoc, ← consChar_parts, ← ih hrs, List.cons_append]
      rw [scan]
      exact hc

/-- The arguments have the forms that the placeholders ask for, one for one. What a message would
say of a fault does not matter where there is none. -/
inductive Binds : List Placeholder → List Forms → List Value → Prop
  | nil : Binds [] [] []
  | cons {p : Placeholder} {f : Forms} {v : Value} {ps : List Placeholder} {fs : List Forms}
    {vs : List Value} (h : ∀ format, bindOne format p f = .ok v) (hs : Binds ps fs vs) :
    Binds (p :: ps) (f :: fs) (v :: vs)

theorem Binds.append {ps qs : List Placeholder} {fs gs : List Forms} {vs us : List Value}
    (h : Binds ps fs vs) (h' : Binds qs gs us) : Binds (ps ++ qs) (fs ++ gs) (vs ++ us) := by
  induction h with
  | nil => exact h'
  | cons hv _ ih => exact .cons hv ih

theorem bindOne_ok {format : Except Error (Option String)} {p : Placeholder} {f : Forms}
    {v : Value} (h : bindOne format p f = .ok v) (format' : Except Error (Option String)) :
    bindOne format' p f = .ok v := by
  cases p with
  | literal | string => exact h
  | name =>
      simp only [bindOne] at h ⊢
      split at h
      · exact h
      · exact absurd h (bind_ne_ok fun _ => ok_of_faulty)
  | type =>
      simp only [bindOne] at h ⊢
      split at h
      · exact h
      · exact absurd h (bind_ne_ok fun _ => ok_of_faulty)

theorem binds_of_bind {format : Except Error (Option String)} {index : Nat} {steps : List Step}
    {args : List Forms} {c : CodeBlock} (hp : ∀ s ∈ steps, s.isPlain = true)
    (h : bind format index steps args = .ok c) :
    steps = c.parts.map .part ∧ Binds (placeholders c.parts) args c.args := by
  induction steps generalizing index args c with
  | nil =>
      rw [bind] at h
      split at h
      · next he =>
          cases h
          rw [List.isEmpty_iff.1 he]
          exact ⟨rfl, .nil⟩
      · exact absurd h ok_of_faulty
  | cons s steps ih =>
      obtain ⟨hs, hrest⟩ := List.forall_mem_cons.1 hp
      cases s with
      | part p =>
          cases p with
          | argument p =>
              cases args with
              | nil =>
                  obtain ⟨_, ht, _⟩ := ok_of_bind h
                  exact absurd ht ok_of_faulty
              | cons f args =>
                  obtain ⟨_, ht, h⟩ := ok_of_bind h
                  obtain ⟨v, hv, ht⟩ := ok_of_bind ht
                  cases ht
                  obtain ⟨d, hd, hc⟩ := ok_of_bind h
                  cases hc
                  obtain ⟨hsteps, hbinds⟩ := ih hrest hd
                  exact ⟨congrArg _ hsteps, .cons (bindOne_ok hv) hbinds⟩
          | split c => cases hs
          | _ =>
              obtain ⟨d, hd, hc⟩ := ok_of_bind h
              cases hc
              obtain ⟨hsteps, hbinds⟩ := ih hrest hd
              exact ⟨congrArg _ hsteps, hbinds⟩
      | fault f => exact absurd h ok_of_faulty
      | loose => cases hs
      | error => cases hs

theorem bind_of_binds {parts : List Part} {args : List Forms} {vs : List Value}
    (h : Binds (placeholders parts) args vs) (format : Except Error (Option String))
    (index : Nat) : bind format index (parts.map .part) args = .ok ⟨parts, vs⟩ := by
  induction parts generalizing index args vs with
  | nil =>
      cases h
      rfl
  | cons p parts ih =>
      cases p with
      | argument p =>
          cases h with
          | cons hv hs =>
              rw [List.map_cons, bind, take, hv format]
              simp only [Bind.bind, Except.bind, pure, Except.pure]
              rw [ih hs]
              rfl
      | _ =>
          rw [List.map_cons, bind]
          · rw [ih h]
            rfl
          · intro q hq
            cases hq

end Format

namespace CodeBlock

open Format (Binds)

/-- A text is read as its parts, if there is one argument for each placeholder and it has the form
that the placeholder asks for. -/
theorem ofFormat_eq_ok_iff {unit : IndentUnit} {f : String} {args : List Value} {c : CodeBlock} :
    ofFormat unit (.str f) args = .ok c ↔ Format.scan f.toList = c.parts.map .part ∧
      Binds (Part.placeholders c.parts) (args.map (·.forms unit)) c.args := by
  rw [← Value.formsAll_eq]
  constructor
  · exact Format.binds_of_bind (Format.isPlain_scan _)
  · cases c with
    | mk parts vs =>
        rintro ⟨hs, hb⟩
        show Format.bind _ 0 (Format.scan f.toList) _ = _
        rw [hs]
        exact Format.bind_of_binds hb _ 0

theorem ofFormat_append {unit : IndentUnit} {f₁ f₂ : String} {a₁ a₂ : List Value}
    {c₁ c₂ : CodeBlock} (h₁ : ofFormat unit (.str f₁) a₁ = .ok c₁)
    (h₂ : ofFormat unit (.str f₂) a₂ = .ok c₂) :
    ofFormat unit (.str (f₁ ++ f₂)) (a₁ ++ a₂) =
      .ok ⟨Part.joinText c₁.parts c₂.parts, c₁.args ++ c₂.args⟩ := by
  obtain ⟨hs₁, hb₁⟩ := ofFormat_eq_ok_iff.1 h₁
  obtain ⟨hs₂, hb₂⟩ := ofFormat_eq_ok_iff.1 h₂
  apply ofFormat_eq_ok_iff.2
  rw [String.toList_append, List.map_append, Part.placeholders_joinText]
  exact ⟨Format.scan_append hs₁ hs₂, hb₁.append hb₂⟩

end CodeBlock

end KotlinDecl
