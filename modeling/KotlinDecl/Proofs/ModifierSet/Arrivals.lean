import KotlinDecl.Proofs.ModifierOrder
import KotlinDecl.Proofs.ModifierSet.Operators
import Mathlib.Data.List.MinMax
import Mathlib.Data.Prod.Lex

namespace KotlinDecl

/-- What is known of a call without looking at the order of the members. -/
structure Stage where
  offered : List Modifier
  members : Finset Modifier

/-- The stages of a run, the latest first. -/
abbrev Chronicle := List Stage

namespace Chronicle

def members : Chronicle → Finset Modifier
  | [] => ∅
  | stage :: _ => stage.members

/-- When a member came to stay: the stage before which it was absent, and its place among what was
offered there. -/
def arrival : Chronicle → Modifier → ℕ ×ₗ ℕ
  | [], _ => toLex (0, 0)
  | stage :: past, m =>
    if m ∈ members past then arrival past m
    else toLex (past.length, stage.offered.idxOf m)

def earliest? (story : Chronicle) : Option Modifier :=
  (Modifier.all.filter (· ∈ members story)).argmin (arrival story)

def note (unit : IndentUnit) (story : Chronicle) (call : ModifierSet.Call) : Chronicle :=
  ⟨call.offered, call.meaning unit (earliest? story) (members story)⟩ :: story

def ofCalls (unit : IndentUnit) (calls : List ModifierSet.Call) : Chronicle :=
  calls.foldl (note unit) []

theorem arrival_lt {story : Chronicle} {m : Modifier} (h : m ∈ members story) :
    (ofLex (arrival story m)).1 < story.length := by
  induction story with
  | nil => cases h
  | cons stage past ih =>
      rw [arrival, List.length_cons]
      split
      · next hm => exact Nat.lt_succ_of_lt (ih hm)
      · exact Nat.lt_succ_self past.length

end Chronicle

namespace Chronicle

variable {unit : IndentUnit} {story : Chronicle} {s t : ModifierSet}

/-- The set lists the members of the chronicle by their arrival. -/
structure Tells (story : Chronicle) (s : ModifierSet) : Prop where
  members : s.members = members story
  sorted : s.toList.Pairwise fun m n => arrival story m < arrival story n

namespace Tells

theorem nodup (h : Tells story s) : s.toList.Nodup :=
  h.sorted.imp fun hlt heq => absurd (heq ▸ hlt) (lt_irrefl _)

theorem mem_iff (h : Tells story s) {m : Modifier} :
    m ∈ s.toList ↔ m ∈ Chronicle.members story := by
  rw [← h.members, ModifierSet.mem_members]

theorem empty : Tells [] .empty := ⟨rfl, .nil⟩

theorem renew {stage : Stage} (h : Tells story s)
    (hr : ModifierSet.Renews stage.offered stage.members s t) : Tells (stage :: story) t := by
  have hmembers := hr.members
  obtain ⟨new, hlist, hpairs, hmem⟩ := hr
  have hold {m : Modifier} (hm : m ∈ s.toList) : arrival (stage :: story) m = arrival story m :=
    if_pos (h.mem_iff.1 hm)
  have hnew {m : Modifier} (hm : m ∈ new) :
      arrival (stage :: story) m = toLex (story.length, stage.offered.idxOf m) :=
    if_neg (mt h.mem_iff.2 ((hmem m).1 hm).2)
  refine ⟨hmembers, ?_⟩
  rw [hlist, List.pairwise_append]
  refine ⟨?_, ?_, fun a ha b hb => ?_⟩
  · refine (h.sorted.filter _).imp_of_mem fun ha hb hab => ?_
    rwa [hold (List.mem_filter.1 ha).1, hold (List.mem_filter.1 hb).1]
  · refine hpairs.imp_of_mem fun ha hb hab => ?_
    rw [hnew ha, hnew hb, Prod.Lex.toLex_lt_toLex]
    exact .inr ⟨rfl, hab⟩
  · -- What was there before came at an earlier stage.
    have ha := (List.mem_filter.1 ha).1
    rw [hold ha, hnew hb, ← toLex_ofLex (arrival story a), Prod.Lex.toLex_lt_toLex]
    exact .inl (arrival_lt (h.mem_iff.1 ha))

theorem head_le (h : Tells story s) {m : Modifier} (hm : s.toList.head? = some m) :
    ∀ n ∈ s.toList, arrival story m ≤ arrival story n := by
  obtain ⟨rest, hs⟩ := List.head?_eq_some_iff.1 hm
  have hsorted := h.sorted
  rw [hs] at hsorted ⊢
  exact List.forall_mem_cons.2 ⟨le_rfl, fun n hn => ((List.pairwise_cons.1 hsorted).1 n hn).le⟩

theorem earliest?_eq (h : Tells story s) : earliest? story = s.toList.head? := by
  have hmem {m : Modifier} :
      m ∈ Modifier.all.filter (· ∈ Chronicle.members story) ↔ m ∈ s.toList := by
    rw [List.mem_filter, decide_eq_true_eq, h.mem_iff]
    exact and_iff_right m.mem_all
  cases hfirst : earliest? story with
  | none =>
      rw [earliest?, List.argmin_eq_none] at hfirst
      cases hhead : s.toList.head? with
      | none => rfl
      | some m => cases hfirst ▸ hmem.2 (List.mem_of_head? hhead)
  | some n =>
      have hn : n ∈ s.toList := hmem.1 (List.argmin_mem hfirst)
      obtain ⟨m, rest, hs⟩ := List.exists_cons_of_ne_nil (List.ne_nil_of_mem hn)
      rw [hs] at hn
      rcases List.mem_cons.1 hn with rfl | hn
      · rw [hs]
        rfl
      · have hsorted := h.sorted
        rw [hs] at hsorted
        have hm : m ∈ s.toList := hs ▸ List.mem_cons_self
        have hlt := (List.pairwise_cons.1 hsorted).1 n hn
        exact absurd hlt (List.not_lt_of_mem_argmin (hmem.2 hm) hfirst)

theorem note (h : Tells story s) (call : ModifierSet.Call) :
    Tells (Chronicle.note unit story call) (call.after unit s) := by
  refine h.renew ?_
  rw [h.earliest?_eq, ← h.members]
  exact call.renews h.nodup

theorem foldl_note (h : Tells story s) (calls : List ModifierSet.Call) :
    Tells (calls.foldl (Chronicle.note unit) story) (s.after unit calls) := by
  induction calls generalizing story s with
  | nil => exact h
  | cons call calls ih => exact ih (h.note call)

end Tells

end Chronicle

namespace ModifierSet

/-- A set lists its members by arrival, whatever was called and whichever calls failed: none twice,
exactly those that set theory leaves, and the one that has been there longest is taken first. Two
sets make a third one with the members it is to have and stay as they are. -/
theorem listed_by_arrival {unit : IndentUnit} {start : Value} {s : ModifierSet}
    (hstart : ofValue unit start = .ok s) (calls : List Call) :
    let t := s.after unit calls
    let story := Chronicle.ofCalls unit (.update start :: calls)
    t.toList.Nodup ∧ t.members = story.members ∧
      (t.toList.Pairwise fun m n => story.arrival m < story.arrival n) ∧
      (t.members = ∅ ∧ Call.pop.apply unit t = .error .absent t ∨
        ∃ m ∈ t.members, (∀ n ∈ t.members, story.arrival m ≤ story.arrival n) ∧
          Call.pop.apply unit t = .ok (.member m) (t.erase m)) ∧
      ∀ (op : Operator) (other : Operand),
        (∀ T, op.operand? unit t.members other = some T →
          ∃ ns, (op.call other).apply unit t = .ok (.members ns) t ∧ ns.Nodup ∧
            ns.toFinset = op.onMembers t.members T) ∧
        (op.operand? unit t.members other = none →
          ∃ e, (op.call other).apply unit t = .error e t) := by
  intro t story
  have htells : Chronicle.Tells story t := by
    have hfirst : Chronicle.Tells _ ((Call.update start).after unit empty) :=
      Chronicle.Tells.empty.note (.update start)
    rw [after_update_empty hstart] at hfirst
    exact hfirst.foldl_note calls
  refine ⟨htells.nodup, htells.members, htells.sorted, ?_,
    fun op other => ⟨fun T => op.apply_of_operand htells.nodup, op.apply_of_none⟩⟩
  rw [pop_apply]
  cases hhead : t.toList.head? with
  | none =>
      refine .inl ⟨?_, rfl⟩
      rw [ModifierSet.members, List.head?_eq_none_iff.1 hhead]
      rfl
  | some m =>
      refine .inr ⟨m, mem_members.2 (List.mem_of_head? hhead), fun n hn => ?_, rfl⟩
      exact htells.head_le hhead n (mem_members.1 hn)

/-- One modifier leaves and comes back, another is toggled away and added again. Four of the calls
fail, two of them half way. -/
theorem listed_by_arrival_toggled :
    let unit : IndentUnit := .ok "  "
    let start : Value := .list [.modifier .openDecl, .modifier .publicVis, .modifier .openDecl]
    let calls : List Call := [.add (.str "data"),
      .unionWith (.items (.list [.modifier .data, .int 1, .modifier .finalDecl])),
      .diffWith (.items (.list [.str "x", .modifier .publicVis, .list [], .modifier .data])),
      .remove (.modifier .publicVis),
      .symmDiffWith (.made (.list [.modifier .openDecl, .modifier .publicVis])),
      .add (.modifier .openDecl)]
    let s : ModifierSet := ⟨[.openDecl, .publicVis]⟩
    let t := s.after unit calls
    let story := Chronicle.ofCalls unit (.update start :: calls)
    ofValue unit start = .ok s ∧ t.toList = [.data, .publicVis, .openDecl] ∧
      t.members = story.members ∧ story.arrival .data < story.arrival .publicVis ∧
      story.arrival .publicVis < story.arrival .openDecl ∧
      (∃ m ∈ t.members, (∀ n ∈ t.members, story.arrival m ≤ story.arrival n) ∧
        Call.pop.apply unit t = .ok (.member m) (t.erase m)) ∧
      ∃ ns, (Call.inter (.items (.list [.str "x", .modifier .openDecl]))).apply unit t =
          .ok (.members ns) t ∧ ns.toFinset = t.members ∩ {.openDecl} := by
  intro unit start calls s t story
  have hstart : ofValue unit start = .ok s := rfl
  have ht : t.toList = [.data, .publicVis, .openDecl] := by decide +kernel
  obtain ⟨_, hmembers, hsorted, hpop, hop⟩ := listed_by_arrival hstart calls
  have hsorted : [Modifier.data, .publicVis, .openDecl].Pairwise fun m n =>
    story.arrival m < story.arrival n := ht ▸ hsorted
  obtain ⟨hdata, hrest⟩ := List.pairwise_cons.1 hsorted
  obtain ⟨hpublic, _⟩ := List.pairwise_cons.1 hrest
  have hfound : Operator.inter.operand? unit t.members
    (.items (.list [.str "x", .modifier .openDecl])) = some {.openDecl} := rfl
  obtain ⟨ns, hns, _, hinter⟩ := (hop .inter _).1 _ hfound
  have hne : t.members ≠ ∅ := by
    rw [ModifierSet.members, ht]
    decide
  exact ⟨hstart, ht, hmembers, hdata _ (by simp), hpublic _ (by simp),
    hpop.resolve_left fun h => hne h.1, ns, hns, hinter⟩

end ModifierSet

end KotlinDecl
