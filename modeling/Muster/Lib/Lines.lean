import Mathlib.Data.List.Basic
import Mathlib.Algebra.BigOperators.Group.List.Basic
import Mathlib.Algebra.Ring.Nat

/-!
# Items joined into lines

A text that is joined of items falls into as many lines, unless some item has a separator of its
own (`length_lines_iff`).
-/

namespace Muster

namespace Lines

variable {α : Type} [DecidableEq α] (sep : α)

/-- Each separator adds a piece. -/
theorem length_splitOn (l : List α) : (l.splitOn sep).length = l.count sep + 1 := by
  induction l with
  | nil => rfl
  | cons x l ih =>
    rw [List.splitOn_cons_eq_if_modifyHead, List.count_cons]
    by_cases hx : x = sep
    · rw [if_pos (by simpa using hx), if_pos (by simpa using hx), List.length_cons, ih]
    · rw [if_neg (by simpa using hx), if_neg (by simpa using hx), List.length_modifyHead, ih]

/-- Lines are the items, and those that separators within items add. -/
theorem length_lines {items : List (List α)} (hne : items ≠ []) :
    (([sep].intercalate items).splitOn sep).length = items.length + (items.map (List.count sep)).sum := by
  rw [length_splitOn]
  induction items with
  | nil => exact absurd rfl hne
  | cons x items ih =>
    rw [List.map_cons, List.sum_cons, List.length_cons]
    cases items with
    | nil =>
      rw [List.intercalate_singleton, List.map_nil, List.sum_nil, List.length_nil]
      omega
    | cons y items =>
      have hcount := ih (List.cons_ne_nil _ _)
      rw [List.intercalate_cons_cons, List.count_append, List.count_append, List.count_singleton_self]
      omega

/-- **As many lines as items iff no item has a separator.** -/
theorem length_lines_iff {items : List (List α)} (hne : items ≠ []) :
    (([sep].intercalate items).splitOn sep).length = items.length ↔ ∀ x ∈ items, sep ∉ x := by
  have hsum : (items.map (List.count sep)).sum = 0 ↔ ∀ x ∈ items, sep ∉ x := by
    rw [List.sum_eq_zero_iff_forall_eq_nat]
    simp only [List.mem_map, forall_exists_index, and_imp, forall_apply_eq_imp_iff₂, List.count_eq_zero]
  rw [length_lines sep hne, ← hsum]
  omega

end Lines

end Muster
