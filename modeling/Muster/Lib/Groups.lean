import Mathlib.Data.List.Dedup
import Mathlib.Algebra.BigOperators.Group.List.Lemmas
import Mathlib.Algebra.Ring.Nat

/-!
# Groups by key

A grouping has each key once, with its members in some order.  It can be made from a list of
the keys (`isGrouping_ofKeys`) or by pushing one member after the other (`isGrouping_push`).
-/

namespace Muster

namespace Groups

variable {α κ : Type} [DecidableEq κ] (f : α → κ)

structure IsGrouping (xs : List α) (groups : List (κ × List α)) : Prop where
  distinct : (groups.map Prod.fst).Nodup
  keys : ∀ k, k ∈ groups.map Prod.fst ↔ ∃ x ∈ xs, f x = k
  members : ∀ g ∈ groups, g.2.Perm (xs.filter (f · = g.1))

/-- To the end of its group, or as a new one. -/
def push (x : α) : List (κ × List α) → List (κ × List α)
  | [] => [(f x, [x])]
  | g :: groups => if g.1 = f x then (g.1, g.2 ++ [x]) :: groups else g :: push x groups

/-- The members of a key. -/
def membersOf (groups : List (κ × List α)) (k : κ) : List α := (groups.lookup k).getD []

section
variable {f} {xs : List α} {groups : List (κ × List α)}

theorem isGrouping_nil : IsGrouping f [] [] := ⟨List.nodup_nil, by simp, by simp⟩

theorem isGrouping_ofKeys {ks : List κ} (hnodup : ks.Nodup) (hkeys : ∀ k, k ∈ ks ↔ ∃ x ∈ xs, f x = k)
    {g : κ → List α} (hg : ∀ k ∈ ks, (g k).Perm (xs.filter (f · = k))) :
    IsGrouping f xs (ks.map fun k => (k, g k)) := by
  have hfst : (ks.map fun k => (k, g k)).map Prod.fst = ks := by
    rw [List.map_map]
    exact List.map_id ks
  refine ⟨?_, ?_, ?_⟩
  · rwa [hfst]
  · rwa [hfst]
  · rintro _ hmem
    obtain ⟨k, hk, rfl⟩ := List.mem_map.1 hmem
    exact hg k hk

theorem push_keys (x : α) (groups : List (κ × List α)) :
    (push f x groups).map Prod.fst =
      if f x ∈ groups.map Prod.fst then groups.map Prod.fst else groups.map Prod.fst ++ [f x] := by
  induction groups with
  | nil => rfl
  | cons g groups ih =>
    rw [push]
    by_cases hg : g.1 = f x
    · rw [if_pos hg, List.map_cons, List.map_cons, if_pos (by rw [hg]; exact List.mem_cons_self)]
    · rw [if_neg hg, List.map_cons, ih, List.map_cons]
      by_cases hmem : f x ∈ groups.map Prod.fst
      · rw [if_pos hmem, if_pos (List.mem_cons_of_mem _ hmem)]
      · rw [if_neg hmem, if_neg (by simp [Ne.symm hg, hmem]), List.cons_append]

theorem mem_push {x : α} (hnodup : (groups.map Prod.fst).Nodup) {g : κ × List α} (hg : g ∈ push f x groups) :
    (g ∈ groups ∧ g.1 ≠ f x) ∨ (∃ ys, (f x, ys) ∈ groups ∧ g = (f x, ys ++ [x])) ∨
      (f x ∉ groups.map Prod.fst ∧ g = (f x, [x])) := by
  induction groups with
  | nil => exact .inr (.inr ⟨by simp, List.mem_singleton.1 hg⟩)
  | cons h groups ih =>
    rw [List.map_cons, List.nodup_cons] at hnodup
    rw [push] at hg
    split at hg
    · next hkey =>
      rcases List.mem_cons.1 hg with rfl | hg
      · exact .inr (.inl ⟨h.2, by rw [← hkey]; exact List.mem_cons_self, by rw [hkey]⟩)
      · refine .inl ⟨List.mem_cons_of_mem _ hg, ?_⟩
        intro heq
        exact hnodup.1 (by rw [hkey, ← heq]; exact List.mem_map_of_mem hg)
    · next hkey =>
      rcases List.mem_cons.1 hg with rfl | hg
      · exact .inl ⟨List.mem_cons_self, hkey⟩
      · rcases ih hnodup.2 hg with ⟨hmem, hne⟩ | ⟨ys, hmem, heq⟩ | ⟨hnone, heq⟩
        · exact .inl ⟨List.mem_cons_of_mem _ hmem, hne⟩
        · exact .inr (.inl ⟨ys, List.mem_cons_of_mem _ hmem, heq⟩)
        · exact .inr (.inr ⟨by simp [Ne.symm hkey]; simpa using hnone, heq⟩)

theorem isGrouping_push (h : IsGrouping f xs groups) (x : α) : IsGrouping f (xs ++ [x]) (push f x groups) := by
  have hfilter : ∀ k, (xs ++ [x]).filter (f · = k) = xs.filter (f · = k) ++ if f x = k then [x] else [] := by
    intro k
    rw [List.filter_append, List.filter_singleton]
    simp
  refine ⟨?_, ?_, ?_⟩
  · rw [push_keys]
    split
    · exact h.distinct
    · next hnew =>
      refine List.nodup_append.2 ⟨h.distinct, List.nodup_singleton _, ?_⟩
      rintro k hk _ hmem rfl
      exact hnew (by rwa [← List.mem_singleton.1 hmem])
  · intro k
    rw [push_keys]
    split
    · next hold =>
      rw [h.keys]
      constructor
      · rintro ⟨y, hy, hk⟩
        exact ⟨y, List.mem_append_left _ hy, hk⟩
      · rintro ⟨y, hy, rfl⟩
        rcases List.mem_append.1 hy with hy | hy
        · exact ⟨y, hy, rfl⟩
        · rw [List.mem_singleton.1 hy]
          exact (h.keys _).1 hold
    · rw [List.mem_append, h.keys, List.mem_singleton]
      constructor
      · rintro (⟨y, hy, hk⟩ | rfl)
        · exact ⟨y, List.mem_append_left _ hy, hk⟩
        · exact ⟨x, by simp, rfl⟩
      · rintro ⟨y, hy, rfl⟩
        rcases List.mem_append.1 hy with hy | hy
        · exact .inl ⟨y, hy, rfl⟩
        · exact .inr (by rw [List.mem_singleton.1 hy])
  · intro g hg
    rw [hfilter]
    rcases mem_push h.distinct hg with ⟨hmem, hne⟩ | ⟨ys, hmem, rfl⟩ | ⟨hnone, rfl⟩
    · rw [if_neg (Ne.symm hne), List.append_nil]
      exact h.members g hmem
    · rw [if_pos rfl]
      exact (h.members _ hmem).append_right _
    · have hempty : xs.filter (f · = f x) = [] := by
        refine List.filter_eq_nil_iff.2 fun y hy hk => hnone ((h.keys _).2 ⟨y, hy, ?_⟩)
        exact of_decide_eq_true hk
      rw [if_pos rfl, hempty]
      exact List.Perm.refl _

theorem IsGrouping.membersOf_perm (h : IsGrouping f xs groups) {k : κ} (hk : k ∈ groups.map Prod.fst) :
    (membersOf groups k).Perm (xs.filter (f · = k)) := by
  obtain ⟨g, hg, rfl⟩ := List.mem_map.1 hk
  have hlookup : groups.lookup g.1 = some g.2 := by
    have hnodup := h.distinct
    clear h hk
    induction groups with
    | nil => cases hg
    | cons g' groups ih =>
      rw [List.map_cons, List.nodup_cons] at hnodup
      rcases List.mem_cons.1 hg with rfl | hg
      · rw [List.lookup_cons, beq_self_eq_true]
      · have hne : g.1 ≠ g'.1 := by
          intro heq
          exact hnodup.1 (heq ▸ List.mem_map_of_mem hg)
        rw [List.lookup_cons, beq_false_of_ne hne]
        exact ih hg hnodup.2
  unfold membersOf
  rw [hlookup]
  exact h.members g hg

/-- Who is in which group. -/
theorem IsGrouping.mem_iff (h : IsGrouping f xs groups) {k : κ} {x : α} :
    (∃ g ∈ groups, g.1 = k ∧ x ∈ g.2) ↔ x ∈ xs ∧ f x = k := by
  constructor
  · rintro ⟨g, hg, rfl, hx⟩
    simpa using (h.members g hg).mem_iff.1 hx
  · rintro ⟨hx, rfl⟩
    obtain ⟨g, hg, hk⟩ := List.mem_map.1 ((h.keys (f x)).2 ⟨x, hx, rfl⟩)
    refine ⟨g, hg, hk, (h.members g hg).mem_iff.2 ?_⟩
    simp [hx, hk]

theorem IsGrouping.keys_perm (h : IsGrouping f xs groups) : (groups.map Prod.fst).Perm (xs.map f).dedup := by
  refine (List.perm_ext_iff_of_nodup h.distinct (List.nodup_dedup _)).2 fun k => ?_
  rw [h.keys, List.mem_dedup, List.mem_map]

theorem IsGrouping.length_keys (h : IsGrouping f xs groups) : groups.length = (xs.map f).dedup.length := by
  rw [← h.keys_perm.length_eq, List.length_map]

/-- Every member is in one group. -/
theorem IsGrouping.sum_length (h : IsGrouping f xs groups) : (groups.map fun g => g.2.length).sum = xs.length := by
  have hcount : (groups.map fun g => g.2.length) = (groups.map Prod.fst).map fun k => (xs.map f).count k := by
    rw [List.map_map]
    refine List.map_congr_left fun g hg => ?_
    show g.2.length = (xs.map f).count g.1
    rw [(h.members g hg).length_eq, ← List.countP_eq_length_filter, List.count, List.countP_map]
    rfl
  rw [hcount, (h.keys_perm.map _).sum_eq, List.sum_map_count_dedup_eq_length, List.length_map]

end

end Groups

end Muster
