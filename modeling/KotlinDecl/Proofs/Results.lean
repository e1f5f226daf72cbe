namespace KotlinDecl

variable {α β ε : Type}

theorem bind_ok {x : Except ε α} {k : α → Except ε β} (hx : ∃ a, x = .ok a)
    (hk : ∀ a, ∃ b, k a = .ok b) : ∃ b, x >>= k = .ok b := by
  obtain ⟨a, rfl⟩ := hx
  exact hk a

theorem mapM_all_ok {f : α → Except ε β} {P : β → Prop} {as : List α}
    (h : ∀ a ∈ as, ∃ b, f a = .ok b ∧ P b) : ∃ bs, as.mapM f = .ok bs ∧ ∀ b ∈ bs, P b := by
  induction as with
  | nil => exact ⟨[], rfl, List.forall_mem_nil _⟩
  | cons a as ih =>
      obtain ⟨b, hb, hp⟩ := h a List.mem_cons_self
      obtain ⟨bs, hbs, hps⟩ := ih fun a ha => h a (List.mem_cons_of_mem _ ha)
      refine ⟨b :: bs, ?_, List.forall_mem_cons.2 ⟨hp, hps⟩⟩
      simp [List.mapM_cons, hb, hbs, bind, Except.bind, pure, Except.pure]

theorem mapM_ok {f : α → Except ε β} {as : List α} (h : ∀ a ∈ as, ∃ b, f a = .ok b) :
    ∃ bs, as.mapM f = .ok bs := by
  have hall := mapM_all_ok (P := fun _ => True) fun a ha => (h a ha).imp fun _ hb => ⟨hb, trivial⟩
  exact hall.imp fun _ hbs => hbs.1

theorem ok_of_bind {x : Except ε α} {k : α → Except ε β} {b : β} (h : (x >>= k) = .ok b) :
    ∃ a, x = .ok a ∧ k a = .ok b := by
  cases x with
  | ok a => exact ⟨a, rfl, h⟩
  | error e => cases h

theorem bind_ne_ok {x : Except ε α} {k : α → Except ε β} {b : β} (h : ∀ a, k a ≠ .ok b) :
    x >>= k ≠ .ok b := by
  intro hb
  obtain ⟨a, _, hk⟩ := ok_of_bind hb
  exact h a hk

theorem error_of_map {x : Except ε α} {f : α → β} {e : ε} (h : x.map f = .error e) :
    x = .error e := by
  cases x with
  | ok a => cases h
  | error e' => exact congrArg _ (Except.error.inj h)

theorem ok_of_check {c : Prop} [Decidable c] {x y : Except ε α} {a : α}
    (h : (if c then x else y) = .ok a) (hx : x ≠ .ok a) : ¬c ∧ y = .ok a := by
  by_cases hc : c
  · rw [if_pos hc] at h
    exact absurd h hx
  · rw [if_neg hc] at h
    exact ⟨hc, h⟩

theorem exists_of_mapM_ok {f : α → Except ε β} {as : List α} {bs : List β}
    (h : as.mapM f = .ok bs) : ∀ b ∈ bs, ∃ a ∈ as, f a = .ok b := by
  induction as generalizing bs with
  | nil =>
      cases h
      exact List.forall_mem_nil _
  | cons a as ih =>
      rw [List.mapM_cons] at h
      obtain ⟨b, hb, h⟩ := ok_of_bind h
      obtain ⟨cs, hcs, h⟩ := ok_of_bind h
      cases h
      refine List.forall_mem_cons.2 ⟨⟨a, List.mem_cons_self, hb⟩, fun c hc => ?_⟩
      obtain ⟨a', ha', hc⟩ := ih hcs c hc
      exact ⟨a', List.mem_cons_of_mem _ ha', hc⟩

theorem forM_ok {f : α → Except ε Unit} {as : List α} (h : ∀ a ∈ as, f a = .ok ()) :
    as.forM f = .ok () := by
  induction as with
  | nil => rfl
  | cons a as ih =>
      rw [List.forM, h a List.mem_cons_self]
      exact ih fun b hb => h b (List.mem_cons_of_mem _ hb)

theorem forall_of_forM_ok {f : α → Except ε Unit} {as : List α} (h : as.forM f = .ok ()) :
    ∀ a ∈ as, f a = .ok () := by
  induction as with
  | nil => exact List.forall_mem_nil _
  | cons a as ih =>
      obtain ⟨⟨⟩, ha, h⟩ := ok_of_bind h
      exact List.forall_mem_cons.2 ⟨ha, ih h⟩

theorem toOption_bind (x : Except ε α) (f : α → Except ε β) :
    (x >>= f).toOption = x.toOption.bind fun a => (f a).toOption := by
  cases x <;> rfl

theorem toOption_mapM (f : α → Except ε β) (as : List α) :
    (as.mapM f).toOption = as.mapM fun a => (f a).toOption := by
  induction as with
  | nil => rfl
  | cons a as ih =>
      rw [List.mapM_cons, List.mapM_cons, toOption_bind]
      congr 1
      funext b
      rw [toOption_bind, ih]
      rfl

theorem error_of_toOption {x : Except ε α} (h : x.toOption = none) :
    ∃ e, x = .error e := by
  cases x with
  | ok a => cases h
  | error e => exact ⟨e, rfl⟩

theorem ok_of_toOption {x : Except ε α} {a : α} (h : x.toOption = some a) :
    x = .ok a := by
  cases x with
  | ok b =>
      cases h
      rfl
  | error e => cases h

end KotlinDecl
