import KotlinDecl.Folding
import KotlinDecl.Proofs.Results

namespace KotlinDecl

section Found

variable {α : Type}

theorem mem_of_setEntry {key : String} {a : α} {es : List (String × α)} {e : String × α}
    (h : e ∈ setEntry key a es) : e = (key, a) ∨ e ∈ es := by
  induction es with
  | nil => exact .inl (List.mem_singleton.1 h)
  | cons f es ih =>
      rw [setEntry] at h
      split at h
      · rcases List.mem_cons.1 h with rfl | h
        · exact .inl rfl
        · exact .inr (List.mem_cons_of_mem _ h)
      · rcases List.mem_cons.1 h with rfl | h
        · exact .inr List.mem_cons_self
        · exact (ih h).imp_right (List.mem_cons_of_mem _)

theorem exists_lookup {fs : List (String × α)} {key : String} (h : key ∈ fs.map (·.1)) :
    ∃ a, fs.lookup key = some a := by
  obtain ⟨f, hf, rfl⟩ := List.mem_map.1 h
  exact Option.isSome_iff_exists.1 (List.lookup_isSome_iff.2 ⟨f, hf, beq_self_eq_true _⟩)

variable {name : α → String} {folds : α → Except Error Bool} {as : List α}

theorem folded_ok (h : ∀ a ∈ as, ∃ b, folds a = .ok b) (found : List (String × α)) :
    ∃ fs, folded name folds found as = .ok fs := by
  induction as generalizing found with
  | nil => exact ⟨found, rfl⟩
  | cons a as ih =>
      obtain ⟨b, hb⟩ := h a List.mem_cons_self
      have hr := ih fun a ha => h a (List.mem_cons_of_mem _ ha)
      rw [folded, hb]
      cases b with
      | true => exact hr (setEntry (name a) a found)
      | false => exact hr found

theorem mem_of_folded {found fs : List (String × α)} (h : folded name folds found as = .ok fs)
    {f : String × α} (hf : f ∈ fs) :
    f ∈ found ∨ f.2 ∈ as ∧ f.1 = name f.2 ∧ folds f.2 = .ok true := by
  induction as generalizing found with
  | nil =>
      cases h
      exact .inl hf
  | cons a as ih =>
      obtain ⟨b, hb, h⟩ := ok_of_bind h
      cases b with
      | true =>
          rcases ih h with hm | ⟨hm, hname, hfolds⟩
          · rcases mem_of_setEntry hm with rfl | hm
            · exact .inr ⟨List.mem_cons_self, rfl, hb⟩
            · exact .inl hm
          · exact .inr ⟨List.mem_cons_of_mem _ hm, hname, hfolds⟩
      | false =>
          rcases ih h with hm | ⟨hm, hname, hfolds⟩
          · exact .inl hm
          · exact .inr ⟨List.mem_cons_of_mem _ hm, hname, hfolds⟩

end Found

section Map

variable {α β : Type} (g : α → β)

theorem setEntry_map (key : String) (a : α) (fs : List (String × α)) :
    setEntry key (g a) (fs.map (Prod.map id g)) = (setEntry key a fs).map (Prod.map id g) := by
  induction fs with
  | nil => rfl
  | cons f fs ih =>
      simp only [setEntry, List.map_cons, Prod.map_fst, id_eq, ih]
      split <;> rfl

/-- Folding reads names and types only, so it can be done before the items are changed. -/
theorem folded_map (name : β → String) (folds : β → Except Error Bool)
    (found : List (String × α)) (as : List α) :
    folded name folds (found.map (Prod.map id g)) (as.map g) =
      (folded (name ∘ g) (folds ∘ g) found as).map (List.map (Prod.map id g)) := by
  induction as generalizing found with
  | nil => rfl
  | cons a as ih =>
      simp only [folded, List.map_cons, Function.comp_apply, setEntry_map]
      cases folds (g a) with
      | error e => rfl
      | ok b => cases b <;> exact ih _

theorem lookup_map (key : String) (fs : List (String × α)) :
    (fs.map (Prod.map id g)).lookup key = (fs.lookup key).map g := by
  induction fs with
  | nil => rfl
  | cons f fs ih =>
      obtain ⟨k, a⟩ := f
      simp only [List.map_cons, Prod.map_apply, id_eq, List.lookup_cons, ih]
      cases key == k <;> rfl

end Map

end KotlinDecl
