import Mathlib.Data.List.Basic

/-!
# A list up to repetition

`firsts key skip l` is `l` without the elements whose key is in `skip` or has come
before; what has no key stays.  Two lists with the same `firsts` stay so when both
are extended (`firsts_extend`) and when more is skipped (`firsts_skip_more`).
-/

namespace Muster

section
variable {α κ : Type} [DecidableEq κ] (key : α → Option κ)

def firsts : List κ → List α → List α
  | _, [] => []
  | skip, x :: l =>
    match key x with
    | none => x :: firsts skip l
    | some k => if k ∈ skip then firsts skip l else x :: firsts (k :: skip) l

variable {key}

theorem firsts_cons_none {x : α} (h : key x = none) (skip : List κ) (l : List α) :
    firsts key skip (x :: l) = x :: firsts key skip l := by
  rw [firsts, h]

theorem firsts_cons_mem {x : α} {k : κ} {skip : List κ} (h : key x = some k) (hk : k ∈ skip)
    (l : List α) : firsts key skip (x :: l) = firsts key skip l := by
  rw [firsts, h]
  exact if_pos hk

theorem firsts_cons_new {x : α} {k : κ} {skip : List κ} (h : key x = some k) (hk : k ∉ skip)
    (l : List α) : firsts key skip (x :: l) = x :: firsts key (k :: skip) l := by
  rw [firsts, h]
  exact if_neg hk

/-- Only which keys are skipped matters. -/
theorem firsts_congr {skip skip' : List κ} (h : ∀ k, k ∈ skip ↔ k ∈ skip') (l : List α) :
    firsts key skip l = firsts key skip' l := by
  induction l generalizing skip skip' with
  | nil => rfl
  | cons x l ih =>
    cases hx : key x with
    | none => rw [firsts_cons_none hx, firsts_cons_none hx, ih h]
    | some k =>
      by_cases hk : k ∈ skip
      · rw [firsts_cons_mem hx hk, firsts_cons_mem hx ((h k).1 hk), ih h]
      · rw [firsts_cons_new hx hk, firsts_cons_new hx fun hk' => hk ((h k).2 hk')]
        refine congrArg _ (ih fun k' => ?_)
        rw [List.mem_cons, List.mem_cons, h]

theorem firsts_append (skip : List κ) (l m : List α) :
    firsts key skip (l ++ m) = firsts key skip l ++ firsts key (l.filterMap key ++ skip) m := by
  induction l generalizing skip with
  | nil => rfl
  | cons x l ih =>
    rw [List.cons_append]
    cases hx : key x with
    | none =>
      rw [firsts_cons_none hx, firsts_cons_none hx, ih, List.filterMap_cons_none hx]
      rfl
    | some k =>
      rw [List.filterMap_cons_some hx]
      by_cases hk : k ∈ skip
      · rw [firsts_cons_mem hx hk, firsts_cons_mem hx hk, ih]
        refine congrArg _ (firsts_congr (fun k' => ?_) m)
        simp only [List.mem_append, List.mem_cons]
        constructor
        · rintro (h | h)
          · exact .inl (.inr h)
          · exact .inr h
        · rintro ((rfl | h) | h)
          · exact .inr hk
          · exact .inl h
          · exact .inr h
      · rw [firsts_cons_new hx hk, firsts_cons_new hx hk, ih, List.cons_append]
        refine congrArg _ (congrArg _ (firsts_congr (fun k' => ?_) m))
        simp only [List.mem_append, List.mem_cons]
        tauto

theorem mem_of_mem_firsts {skip : List κ} {l : List α} {x : α} (h : x ∈ firsts key skip l) : x ∈ l := by
  induction l generalizing skip with
  | nil => exact h
  | cons y l ih =>
    cases hy : key y with
    | none =>
      rw [firsts_cons_none hy] at h
      rcases List.mem_cons.1 h with rfl | h
      · exact List.mem_cons_self
      · exact List.mem_cons_of_mem _ (ih h)
    | some k =>
      by_cases hk : k ∈ skip
      · rw [firsts_cons_mem hy hk] at h
        exact List.mem_cons_of_mem _ (ih h)
      · rw [firsts_cons_new hy hk] at h
        rcases List.mem_cons.1 h with rfl | h
        · exact List.mem_cons_self
        · exact List.mem_cons_of_mem _ (ih h)

/-- What has no key stays. -/
theorem mem_firsts_of_none {skip : List κ} {l : List α} {x : α} (hx : key x = none) (h : x ∈ l) :
    x ∈ firsts key skip l := by
  induction l generalizing skip with
  | nil => cases h
  | cons y l ih =>
    rcases List.mem_cons.1 h with rfl | h
    · rw [firsts_cons_none hx]
      exact List.mem_cons_self
    · cases hy : key y with
      | none =>
        rw [firsts_cons_none hy]
        exact List.mem_cons_of_mem _ (ih h)
      | some k =>
        by_cases hk : k ∈ skip
        · rw [firsts_cons_mem hy hk]
          exact ih h
        · rw [firsts_cons_new hy hk]
          exact List.mem_cons_of_mem _ (ih h)

/-- The keys that are there or skipped. -/
theorem mem_keys_firsts (skip : List κ) (l : List α) (k : κ) :
    k ∈ (firsts key skip l).filterMap key ++ skip ↔ k ∈ l.filterMap key ++ skip := by
  induction l generalizing skip with
  | nil => rfl
  | cons x l ih =>
    cases hx : key x with
    | none => rw [firsts_cons_none hx, List.filterMap_cons_none hx, List.filterMap_cons_none hx, ih]
    | some j =>
      rw [List.filterMap_cons_some hx]
      by_cases hj : j ∈ skip
      · rw [firsts_cons_mem hx hj, ih, List.cons_append, List.mem_cons]
        constructor
        · exact .inr
        · rintro (rfl | h)
          · exact List.mem_append_right _ hj
          · exact h
      · have := ih (j :: skip)
        rw [firsts_cons_new hx hj, List.filterMap_cons_some hx]
        simp only [List.mem_append, List.mem_cons, List.cons_append] at this ⊢
        tauto

/-- **Skipping more** takes the same out of both. -/
theorem firsts_more (more skip : List κ) (l : List α) :
    firsts key (more ++ skip) l =
      (firsts key skip l).filter fun x => (key x).all fun k => decide (k ∉ more) := by
  induction l generalizing skip with
  | nil => rfl
  | cons x l ih =>
    cases hx : key x with
    | none =>
      rw [firsts_cons_none hx, firsts_cons_none hx, ih, List.filter_cons_of_pos (by simp [hx])]
    | some k =>
      by_cases hk : k ∈ skip
      · rw [firsts_cons_mem hx hk, firsts_cons_mem hx (List.mem_append_right _ hk), ih]
      · rw [firsts_cons_new hx hk]
        by_cases hm : k ∈ more
        · rw [firsts_cons_mem hx (List.mem_append_left _ hm),
            List.filter_cons_of_neg (by simp [hx, hm]), ← ih]
          refine firsts_congr (fun k' => ?_) l
          simp only [List.mem_append, List.mem_cons]
          constructor
          · rintro (h | h)
            · exact .inl h
            · exact .inr (.inr h)
          · rintro (h | rfl | h)
            · exact .inl h
            · exact .inl hm
            · exact .inr h
        · rw [firsts_cons_new hx (by simp [hk, hm]), List.filter_cons_of_pos (by simp [hx, hm]), ← ih]
          refine congrArg _ (firsts_congr (fun k' => ?_) l)
          simp only [List.mem_append, List.mem_cons]
          tauto

theorem firsts_skip_more {skip : List κ} {l m : List α} (h : firsts key skip l = firsts key skip m)
    (more : List κ) : firsts key (more ++ skip) l = firsts key (more ++ skip) m := by
  rw [firsts_more, firsts_more, h]

theorem firsts_extend {skip : List κ} {l m : List α} (h : firsts key skip l = firsts key skip m)
    (n : List α) : firsts key skip (l ++ n) = firsts key skip (m ++ n) := by
  rw [firsts_append, firsts_append, h]
  refine congrArg _ (firsts_congr (fun k => ?_) n)
  rw [← mem_keys_firsts, ← mem_keys_firsts skip m, h]

/-- A repetition can be left out. -/
theorem firsts_again {skip : List κ} {l m : List α} {x : α} {k : κ} (hx : key x = some k)
    (hk : k ∈ l.filterMap key ++ skip) : firsts key skip (l ++ x :: m) = firsts key skip (l ++ m) := by
  rw [firsts_append, firsts_append, firsts_cons_mem hx hk]

end

end Muster
