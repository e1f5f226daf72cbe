import KotlinDecl.Proofs.Drafting
import Mathlib.Data.Finset.Option
import Mathlib.Data.Finset.SymmDiff

namespace KotlinDecl.ModifierSet

open scoped symmDiff

variable {s t : ModifierSet} {S : Finset Modifier} {offered ms : List Modifier}

def members (s : ModifierSet) : Finset Modifier := s.toList.toFinset

theorem mem_members {m : Modifier} : m ∈ s.members ↔ m ∈ s.toList := List.mem_toFinset

theorem contains_iff {m : Modifier} : s.contains m = true ↔ m ∈ s.toList := List.contains_iff_mem

/-- The members of `s` that are in `S` stay as they stand. The others of `S` follow in the order in
which they are offered. -/
def Renews (offered : List Modifier) (S : Finset Modifier) (s t : ModifierSet) : Prop :=
  ∃ new, t.toList = s.toList.filter (· ∈ S) ++ new ∧
    new.Pairwise (offered.idxOf · < offered.idxOf ·) ∧ ∀ m, m ∈ new ↔ m ∈ S ∧ m ∉ s.toList

theorem renews_of_filter (h : t.toList = s.toList.filter (· ∈ S)) (hS : S ⊆ s.members) :
    Renews offered S s t := by
  refine ⟨[], by rw [h, List.append_nil], .nil, fun m => ?_⟩
  simp only [List.not_mem_nil, false_iff, not_and, not_not]
  exact fun hm => mem_members.1 (hS hm)

theorem renews_self : Renews offered s.members s s := by
  refine renews_of_filter (List.filter_eq_self.2 fun m hm => ?_).symm (Finset.Subset.refl _)
  exact decide_eq_true (mem_members.2 hm)

theorem Renews.members (h : Renews offered S s t) : t.members = S := by
  obtain ⟨new, hlist, _, hmem⟩ := h
  ext m
  rw [mem_members, hlist, List.mem_append, List.mem_filter, hmem, decide_eq_true_eq]
  tauto

theorem exists_insertMany (s : ModifierSet) (ms : List Modifier) :
    ∃ new, (s.insertMany ms).toList = s.toList ++ new ∧ new.Sublist ms ∧
      new.Pairwise (ms.idxOf · < ms.idxOf ·) ∧ ∀ m, m ∈ new ↔ m ∈ ms ∧ m ∉ s.toList := by
  induction ms generalizing s with
  | nil => exact ⟨[], (List.append_nil _).symm, .slnil, .nil, by simp⟩
  | cons n ms ih =>
      obtain ⟨new, hlist, hsub, hpairs, hmem⟩ := ih (s.insert n)
      have hlater {a : Modifier} (ha : n ≠ a) : (n :: ms).idxOf a = ms.idxOf a + 1 :=
        List.idxOf_cons_ne ms ha
      have hcons : s.insertMany (n :: ms) = (s.insert n).insertMany ms := rfl
      by_cases hn : n ∈ s.toList
      · have hs : s.insert n = s := if_pos (contains_iff.2 hn)
        rw [hs] at hlist hmem
        have hne {a : Modifier} (ha : a ∈ new) : n ≠ a := by
          rintro rfl
          exact ((hmem n).1 ha).2 hn
        refine ⟨new, by rw [hcons, hs, hlist], hsub.cons n, ?_, fun m => ?_⟩
        · refine hpairs.imp_of_mem fun ha hb hab => ?_
          rw [hlater (hne ha), hlater (hne hb)]
          exact Nat.succ_lt_succ hab
        · rw [hmem, List.mem_cons]
          refine ⟨fun h => ⟨.inr h.1, h.2⟩, fun h => ⟨h.1.resolve_left ?_, h.2⟩⟩
          rintro rfl
          exact h.2 hn
      · have hs : (s.insert n).toList = s.toList ++ [n] := by
          rw [insert, if_neg (mt contains_iff.1 hn)]
        rw [hs] at hlist hmem
        have hne {a : Modifier} (ha : a ∈ new) : n ≠ a := by
          rintro rfl
          exact ((hmem n).1 ha).2 (by simp)
        have hall : (s.insertMany (n :: ms)).toList = s.toList ++ n :: new := by
          rw [hcons, hlist, List.append_assoc]
          rfl
        refine ⟨n :: new, hall, hsub.cons_cons n, ?_, fun m => ?_⟩
        · refine List.pairwise_cons.2 ⟨fun a ha => ?_, hpairs.imp_of_mem fun ha hb hab => ?_⟩
          · rw [List.idxOf_cons_self, hlater (hne ha)]
            exact Nat.succ_pos _
          · rw [hlater (hne ha), hlater (hne hb)]
            exact Nat.succ_lt_succ hab
        · grind

theorem renews_of_append {new : List Modifier} (hlist : t.toList = s.toList ++ new)
    (hpairs : new.Pairwise (ms.idxOf · < ms.idxOf ·))
    (hmem : ∀ m, m ∈ new ↔ m ∈ ms ∧ m ∉ s.toList) :
    Renews ms (s.members ∪ ms.toFinset) s t := by
  have hall : s.toList.filter (· ∈ s.members ∪ ms.toFinset) = s.toList :=
    List.filter_eq_self.2 fun m hm => decide_eq_true (Finset.mem_union_left _ (mem_members.2 hm))
  refine ⟨new, by rw [hall, hlist], hpairs, fun m => ?_⟩
  rw [hmem, Finset.mem_union, mem_members, List.mem_toFinset]
  exact and_congr_left fun hm => (or_iff_right hm).symm

theorem renews_insertMany (s : ModifierSet) (ms : List Modifier) :
    Renews ms (s.members ∪ ms.toFinset) s (s.insertMany ms) := by
  obtain ⟨new, hlist, _, hpairs, hmem⟩ := exists_insertMany s ms
  exact renews_of_append hlist hpairs hmem

theorem insertMany_self (s : ModifierSet) : s.insertMany s.toList = s := by
  obtain ⟨new, hlist, _, _, hmem⟩ := exists_insertMany s s.toList
  have hnew : new = [] :=
    List.eq_nil_iff_forall_not_mem.2 fun m hm => absurd ((hmem m).1 hm) (by simp)
  rw [hnew, List.append_nil] at hlist
  exact congrArg ModifierSet.mk hlist

theorem toList_ofList (ms : List Modifier) :
    (ofList ms).toList.Pairwise (ms.idxOf · < ms.idxOf ·) ∧
      ∀ m, m ∈ (ofList ms).toList ↔ m ∈ ms := by
  obtain ⟨new, hlist, _, hpairs, hmem⟩ := exists_insertMany empty ms
  have hnew : (ofList ms).toList = new := hlist
  rw [hnew]
  exact ⟨hpairs, fun m => (hmem m).trans (and_iff_left List.not_mem_nil)⟩

theorem renews_union (s : ModifierSet) (ms : List Modifier) :
    Renews ms (s.members ∪ ms.toFinset) s (s.union (ofList ms)) := by
  obtain ⟨new, hlist, hsub, _, hmem⟩ := exists_insertMany s (ofList ms).toList
  refine renews_of_append hlist ((toList_ofList ms).1.sublist hsub) fun m => ?_
  rw [hmem, (toList_ofList ms).2]

theorem nodup_ofList (ms : List Modifier) : (ofList ms).toList.Nodup :=
  (toList_ofList ms).1.imp fun h => by
    rintro rfl
    exact Nat.lt_irrefl _ h

theorem toFinset_ofList (ms : List Modifier) : (ofList ms).members = ms.toFinset := by
  ext m
  rw [mem_members, List.mem_toFinset, (toList_ofList ms).2]

theorem ofList_of_nodup (h : ms.Nodup) : (ofList ms).toList = ms := by
  rw [ofList, insertMany_toList (s := ⟨ms⟩) h]

theorem toList_erase (hs : s.toList.Nodup) (m : Modifier) :
    (s.erase m).toList = s.toList.filter (· ≠ m) := by
  rw [erase, hs.erase_eq_filter]
  refine List.filter_congr fun a _ => ?_
  rw [bne, decide_not, beq_eq_decide]

theorem nodup_erase (hs : s.toList.Nodup) (m : Modifier) : (s.erase m).toList.Nodup := hs.erase m

theorem filter_erase (hs : s.toList.Nodup) (m : Modifier) (ms : List Modifier) :
    (s.erase m).toList.filter (· ∉ ms) = s.toList.filter (· ∉ m :: ms) := by
  rw [toList_erase hs, List.filter_filter]
  exact List.filter_congr fun a _ => by simp [Bool.and_comm]

theorem toList_foldl_erase (hs : s.toList.Nodup) (ms : List Modifier) :
    (ms.foldl erase s).toList = s.toList.filter (· ∉ ms) := by
  induction ms generalizing s with
  | nil => simp
  | cons m ms ih =>
      rw [List.foldl_cons, ih (nodup_erase hs m), filter_erase hs]

/-- Members that are toggled go if they were there, and come in order if they were not. -/
theorem toList_foldl_toggle (hs : s.toList.Nodup) (hms : ms.Nodup) :
    (ms.foldl toggle s).toList = s.toList.filter (· ∉ ms) ++ ms.filter (· ∉ s.toList) := by
  induction ms generalizing s with
  | nil => simp
  | cons m ms ih =>
      obtain ⟨hm, hms⟩ := List.nodup_cons.1 hms
      rw [List.foldl_cons]
      by_cases hin : m ∈ s.toList
      · have ht : s.toggle m = s.erase m := if_pos (contains_iff.2 hin)
        have hrest : ms.filter (· ∉ (s.erase m).toList) = ms.filter (· ∉ s.toList) := by
          refine List.filter_congr fun a ha => ?_
          have hne : a ≠ m := by
            rintro rfl
            exact hm ha
          simp [erase, List.mem_erase_of_ne hne]
        rw [ht, ih (nodup_erase hs m) hms, hrest, filter_erase hs,
          List.filter_cons_of_neg (by simpa using hin)]
      · have ht : s.toggle m = ⟨s.toList ++ [m]⟩ := by
          have hc : ¬s.contains m = true := mt contains_iff.1 hin
          rw [toggle, if_neg hc, insert, if_neg hc]
        have hs' : (s.toList ++ [m]).Nodup :=
          List.nodup_append.2 ⟨hs, List.nodup_singleton m, by grind⟩
        have hkept : s.toList.filter (· ∉ m :: ms) = s.toList.filter (· ∉ ms) :=
          List.filter_congr fun a ha => by grind
        have hrest : ms.filter (· ∉ s.toList ++ [m]) = ms.filter (· ∉ s.toList) :=
          List.filter_congr fun a ha => by grind
        rw [ht, ih hs' hms, List.filter_append, hrest, hkept, List.append_assoc]
        simp [hm, hin]

theorem renews_foldl_erase (hs : s.toList.Nodup) (ms : List Modifier) :
    Renews offered (s.members \ ms.toFinset) s (ms.foldl erase s) := by
  refine renews_of_filter ?_ Finset.sdiff_subset
  rw [toList_foldl_erase hs]
  refine List.filter_congr fun a ha => ?_
  simp [mem_members, ha]

theorem renews_keepOnly (hs : s.toList.Nodup) (t : ModifierSet) :
    Renews offered (s.members ∩ t.members) s (s.keepOnly t) := by
  refine renews_of_filter ?_ Finset.inter_subset_left
  rw [keepOnly, toList_foldl_erase hs, diff, ofList_of_nodup (hs.filter _)]
  refine List.filter_congr fun a ha => ?_
  simp [mem_members, ha, contains]

theorem renews_toggleMany (hs : s.toList.Nodup) (ms : List Modifier) :
    Renews ms (s.members ∆ ms.toFinset) s (s.toggleMany (ofList ms)) := by
  obtain ⟨hpairs, hmem⟩ := toList_ofList ms
  refine ⟨(ofList ms).toList.filter (· ∉ s.toList), ?_, hpairs.filter _, fun m => ?_⟩
  · rw [toggleMany, toList_foldl_toggle hs (nodup_ofList ms)]
    congr 1
    refine List.filter_congr fun a ha => ?_
    simp [Finset.mem_symmDiff, mem_members, ha, hmem]
  · simp only [List.mem_filter, hmem, Finset.mem_symmDiff, mem_members, List.mem_toFinset,
      decide_eq_true_eq]
    tauto

theorem erase_of_not_mem {m : Modifier} (h : m ∉ s.toList) : s.erase m = s := by
  rw [erase, List.erase_of_not_mem h]

theorem renews_erase? (hs : s.toList.Nodup) (o : Option Modifier) :
    Renews offered (s.members \ o.toFinset) s (o.elim s s.erase) := by
  cases o with
  | none =>
      rw [Option.toFinset_none, Finset.sdiff_empty]
      exact renews_self
  | some m =>
      refine renews_of_filter ?_ Finset.sdiff_subset
      rw [Option.elim, toList_erase hs]
      refine List.filter_congr fun a ha => ?_
      simp [mem_members, ha]

theorem nodup_insertMany (hs : s.toList.Nodup) (ms : List Modifier) :
    (s.insertMany ms).toList.Nodup := by
  induction ms generalizing s with
  | nil => exact hs
  | cons m ms ih => exact ih (nodup_insert hs m)

theorem members_union (s t : ModifierSet) : (s.union t).members = s.members ∪ t.members :=
  (renews_insertMany s t.toList).members

theorem members_inter (s : ModifierSet) (ms : List Modifier) :
    (s.inter ms).members = s.members ∩ ms.toFinset := by
  ext m
  rw [inter, toFinset_ofList]
  simp [mem_members, contains, and_comm]

theorem members_diff (s t : ModifierSet) : (s.diff t).members = s.members \ t.members := by
  ext m
  rw [diff, toFinset_ofList]
  simp [mem_members, contains]

end KotlinDecl.ModifierSet
