import Mathlib.Data.List.Dedup
import Mathlib.Data.List.DropRight

/-!
# First in, first out, and least recently used

A memory of the last `n` that were let in, against the `n` distinct ones that came last.
The first keeps no count of those that come again while it remembers them (`fifoStep`);
the second does (`recent`).  They decide alike on a whole history iff, at each of its
members, those that came last and the last newcomers do (`agrees_iff`); so they do where
no more than `n` distinct ones come at all (`agrees_of_few`).  The first forgets what has
just come again (`forgets_by_admission`).
-/

namespace Muster

namespace Recency

variable {α : Type} [DecidableEq α] (n : Nat)

/-- The `n` distinct ones that came last; `hist` is oldest first. -/
def recent (hist : List α) : List α := hist.dedup.rtake n

/-- What is remembered stays where it is; else the oldest have to go. -/
def fifoStep (mem : List α) (x : α) : List α :=
  if x ∈ mem then mem else (mem ++ [x]).rtake n

def fifo (hist : List α) : List α := hist.foldl (fifoStep n) []

/-- Those that were not among the `n` that came last when they came. -/
def newcomersFrom (before : List α) : List α → List α
  | [] => []
  | x :: hist =>
    if x ∈ recent n before then newcomersFrom (before ++ [x]) hist
    else x :: newcomersFrom (before ++ [x]) hist

def newcomers (hist : List α) : List α := newcomersFrom n [] hist

/-- `P` of every member of the history, and of what came before it. -/
def Throughout (P : List α → α → Prop) (hist : List α) : Prop :=
  ∀ before x, before ++ [x] <+: hist → P before x

section
omit [DecidableEq α]

theorem throughout_nil (P : List α → α → Prop) : Throughout P [] := by
  intro before x h
  simpa using List.prefix_nil.1 h

theorem throughout_concat {P : List α → α → Prop} {hist : List α} {y : α} :
    Throughout P (hist ++ [y]) ↔ Throughout P hist ∧ P hist y := by
  constructor
  · intro h
    exact ⟨fun before x hx => h before x (hx.trans (List.prefix_append _ _)), h hist y List.prefix_rfl⟩
  · rintro ⟨h, hy⟩ before x hx
    rcases List.prefix_concat_iff.1 hx with heq | hx
    · obtain ⟨rfl, hxy⟩ := List.append_inj' heq rfl
      rw [List.singleton_inj.1 hxy]
      exact hy
    · exact h before x hx

theorem Throughout.of_prefix {P : List α → α → Prop} {hist before : List α}
    (h : Throughout P hist) (hb : before <+: hist) : Throughout P before :=
  fun b x hx => h b x (hx.trans hb)

theorem of_throughout {P : α → Prop} {hist : List α} (h : Throughout (fun _ => P) hist) :
    ∀ x ∈ hist, P x := by
  intro x hx
  obtain ⟨before, after, rfl⟩ := List.append_of_mem hx
  exact h before x ⟨after, by simp⟩

theorem throughout_filterMap {β : Type} {f : β → Option α} {P : List α → α → Prop} {hist : List β} :
    Throughout P (hist.filterMap f) ↔
      Throughout (fun before y => ∀ x, f y = some x → P (before.filterMap f) x) hist := by
  induction hist using List.reverseRecOn with
  | nil => exact ⟨fun _ => throughout_nil _, fun _ => throughout_nil _⟩
  | append_singleton hist y ih =>
    rw [List.filterMap_append, throughout_concat, ← ih]
    cases hy : f y with
    | none => simp [hy]
    | some x =>
      rw [List.filterMap_cons_some hy, List.filterMap_nil, throughout_concat]
      simp

theorem length_rtake_le (l : List α) : (l.rtake n).length ≤ n := by
  unfold List.rtake
  rw [List.length_drop]
  omega

theorem rtake_of_length_le {l : List α} (h : l.length ≤ n) : l.rtake n = l := by
  unfold List.rtake
  rw [Nat.sub_eq_zero_of_le h, List.drop_zero]

/-- Only the last ones matter for the last ones with one more. -/
theorem rtake_rtake_concat (l : List α) (x : α) : (l.rtake n ++ [x]).rtake n = (l ++ [x]).rtake n := by
  cases n with
  | zero => simp
  | succ n =>
    rw [List.rtake_concat_succ, List.rtake_concat_succ]
    congr 1
    unfold List.rtake
    rw [List.drop_drop, List.length_drop]
    congr 1
    omega

end

theorem fifo_concat (hist : List α) (x : α) : fifo n (hist ++ [x]) = fifoStep n (fifo n hist) x := by
  unfold fifo
  rw [List.foldl_append]
  rfl

theorem length_fifo_le (hist : List α) : (fifo n hist).length ≤ n := by
  induction hist using List.reverseRecOn with
  | nil => exact Nat.zero_le n
  | append_singleton hist x ih =>
    rw [fifo_concat, fifoStep]
    split
    · exact ih
    · exact length_rtake_le n _

theorem newcomersFrom_append (before hist hist' : List α) :
    newcomersFrom n before (hist ++ hist') =
      newcomersFrom n before hist ++ newcomersFrom n (before ++ hist) hist' := by
  induction hist generalizing before with
  | nil => rw [List.append_nil]; rfl
  | cons x hist ih =>
    rw [List.cons_append, newcomersFrom, newcomersFrom, ih]
    split
    · rw [List.append_assoc, List.singleton_append]
    · rw [List.append_assoc, List.singleton_append, List.cons_append]

theorem newcomers_concat (hist : List α) (x : α) :
    newcomers n (hist ++ [x]) = newcomers n hist ++ if x ∈ recent n hist then [] else [x] := by
  unfold newcomers
  rw [newcomersFrom_append, List.nil_append, newcomersFrom]
  rfl

/-- As long as it decides by what came last, the memory holds the last newcomers. -/
theorem fifo_eq_of_agrees {hist : List α}
    (h : Throughout (fun before x => x ∈ fifo n before ↔ x ∈ recent n before) hist) :
    fifo n hist = (newcomers n hist).rtake n := by
  induction hist using List.reverseRecOn with
  | nil => exact (List.rtake_nil n).symm
  | append_singleton hist x ih =>
    obtain ⟨hpast, hx⟩ := throughout_concat.1 h
    rw [fifo_concat, newcomers_concat, fifoStep]
    by_cases hmem : x ∈ recent n hist
    · rw [if_pos (hx.2 hmem), if_pos hmem, List.append_nil, ih hpast]
    · rw [if_neg (hmem ∘ hx.1), if_neg hmem, ih hpast, rtake_rtake_concat]

/-- **When first in, first out is as good.**  The memory decides by what came last throughout a
history iff, at each member, that is among those that came last iff it is among the last
newcomers. -/
theorem agrees_iff {hist : List α} :
    Throughout (fun before x => x ∈ fifo n before ↔ x ∈ recent n before) hist ↔
      Throughout (fun before x => x ∈ (newcomers n before).rtake n ↔ x ∈ recent n before) hist := by
  constructor
  · intro h before x hx
    have hbefore : before <+: hist := (List.prefix_append before [x]).trans hx
    rw [← fifo_eq_of_agrees n (h.of_prefix hbefore)]
    exact h before x hx
  · induction hist using List.reverseRecOn with
    | nil => exact fun _ => throughout_nil _
    | append_singleton hist y ih =>
      intro h
      obtain ⟨hpast, hy⟩ := throughout_concat.1 h
      refine throughout_concat.2 ⟨ih hpast, ?_⟩
      rw [fifo_eq_of_agrees n (ih hpast)]
      exact hy

theorem length_dedup_le {hist before : List α} (h : before <+: hist) :
    before.dedup.length ≤ hist.dedup.length := by
  refine List.Nodup.length_le_of_subset (List.nodup_dedup before) ?_
  intro x hx
  exact List.mem_dedup.2 (h.subset (List.mem_dedup.1 hx))

/-- Nothing is forgotten of few. -/
theorem fifo_of_few {hist : List α} (h : hist.dedup.length ≤ n) :
    (fifo n hist).Nodup ∧ ∀ x, x ∈ fifo n hist ↔ x ∈ hist := by
  induction hist using List.reverseRecOn with
  | nil => exact ⟨List.nodup_nil, fun x => Iff.rfl⟩
  | append_singleton hist y ih =>
    obtain ⟨hnodup, hmem⟩ := ih ((length_dedup_le (List.prefix_append hist [y])).trans h)
    rw [fifo_concat, fifoStep]
    by_cases hy : y ∈ fifo n hist
    · rw [if_pos hy]
      refine ⟨hnodup, fun x => ?_⟩
      rw [hmem, List.mem_append, List.mem_singleton]
      refine ⟨.inl, fun hx => hx.elim id ?_⟩
      rintro rfl
      exact (hmem x).1 hy
    · have hnodup' : (fifo n hist ++ [y]).Nodup := by
        refine List.nodup_append.2 ⟨hnodup, List.nodup_singleton y, ?_⟩
        intro x hx z hz
        rw [List.mem_singleton.1 hz]
        rintro rfl
        exact hy hx
      have hmem' : ∀ x, x ∈ fifo n hist ++ [y] ↔ x ∈ hist ++ [y] := by
        intro x
        rw [List.mem_append, List.mem_append, hmem]
      have hlen : (fifo n hist ++ [y]).length ≤ n := by
        refine (List.Nodup.length_le_of_subset hnodup' ?_).trans h
        intro x hx
        exact List.mem_dedup.2 ((hmem' x).1 hx)
      rw [if_neg hy, rtake_of_length_le n hlen]
      exact ⟨hnodup', hmem'⟩

theorem agrees_of_few {hist : List α} (h : hist.dedup.length ≤ n) :
    Throughout (fun before x => x ∈ fifo n before ↔ x ∈ recent n before) hist := by
  intro before x hx
  have hbefore : before <+: hist := (List.prefix_append before [x]).trans hx
  have hfew : before.dedup.length ≤ n := (length_dedup_le hbefore).trans h
  unfold recent
  rw [rtake_of_length_le n hfew, List.mem_dedup]
  exact (fifo_of_few n hfew).2 x

theorem fifo_of_nodup {hist : List α} (h : hist.Nodup) (hlen : hist.length ≤ n) :
    fifo n hist = hist := by
  induction hist using List.reverseRecOn with
  | nil => rfl
  | append_singleton hist x ih =>
    have hpast : hist.length ≤ n := by
      rw [List.length_append] at hlen
      omega
    have hx : x ∉ hist := fun hx => (List.nodup_append.1 h).2.2 x hx x (List.mem_singleton_self x) rfl
    rw [fifo_concat, ih (List.nodup_append.1 h).1 hpast, fifoStep, if_neg hx, rtake_of_length_le n hlen]

theorem mem_recent_concat₂ (hist : List α) (x y : α) (hn : 2 ≤ n) : x ∈ recent n (hist ++ [x, y]) := by
  obtain ⟨m, rfl⟩ : ∃ m, n = m + 2 := ⟨n - 2, by omega⟩
  unfold recent
  rw [List.dedup_append]
  by_cases hxy : x = y
  · subst hxy
    have hsuffix : [x] <:+ (hist ∪ [x, x].dedup) := by
      rw [List.dedup_cons_of_mem (List.mem_singleton_self x), (List.nodup_singleton x).dedup]
      exact List.suffix_union_right hist [x]
    obtain ⟨front, hfront⟩ := hsuffix
    rw [← hfront, List.rtake_concat_succ]
    simp
  · have hsuffix : [x, y] <:+ (hist ∪ [x, y].dedup) := by
      rw [List.dedup_cons_of_notMem (by simpa using hxy), (List.nodup_singleton y).dedup]
      exact List.suffix_union_right hist [x, y]
    obtain ⟨front, hfront⟩ := hsuffix
    rw [← hfront, show front ++ [x, y] = front ++ [x] ++ [y] by simp, List.rtake_concat_succ,
      List.rtake_concat_succ]
    simp

/-- **First in, first out forgets what has just come again**: the eldest of a full memory, when
one more comes after it. -/
theorem forgets_by_admission {x z : α} {ys : List α} (hnodup : (x :: ys).Nodup)
    (hlen : (x :: ys).length = n) (hz : z ∉ x :: ys) (hn : 2 ≤ n) :
    x ∉ fifo n (x :: ys ++ [x, z]) ∧ x ∈ recent n (x :: ys ++ [x, z]) := by
  refine ⟨?_, mem_recent_concat₂ n (x :: ys) x z hn⟩
  have hfull : fifo n (x :: ys) = x :: ys := fifo_of_nodup n hnodup (le_of_eq hlen)
  have hagain : fifo n (x :: ys ++ [x]) = x :: ys := by
    rw [fifo_concat, hfull, fifoStep, if_pos List.mem_cons_self]
  rw [show x :: ys ++ [x, z] = x :: ys ++ [x] ++ [z] by simp, fifo_concat, hagain, fifoStep, if_neg hz]
  have hdrop : (x :: ys ++ [z]).rtake n = ys ++ [z] := by
    unfold List.rtake
    rw [List.length_append, hlen, List.length_singleton, Nat.add_sub_cancel_left]
    rfl
  rw [hdrop, List.mem_append, List.mem_singleton]
  rintro (hx | rfl)
  · exact (List.nodup_cons.1 hnodup).1 hx
  · exact hz List.mem_cons_self

theorem not_agrees {x z : α} {ys : List α} (hnodup : (x :: ys).Nodup)
    (hlen : (x :: ys).length = n) (hz : z ∉ x :: ys) (hn : 2 ≤ n) :
    ¬ Throughout (fun before x => x ∈ fifo n before ↔ x ∈ recent n before) (x :: ys ++ [x, z, x]) := by
  intro h
  obtain ⟨hgone, hrecent⟩ := forgets_by_admission n hnodup hlen hz hn
  refine hgone ((h (x :: ys ++ [x, z]) x ?_).2 hrecent)
  rw [List.append_assoc]
  exact List.prefix_rfl

end Recency

end Muster
