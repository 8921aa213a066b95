import Mathlib.Algebra.BigOperators.Group.Finset.Basic
import Mathlib.Algebra.Order.BigOperators.Group.Finset
import Mathlib.Data.List.DropRight

/-!
# Backing off

Attempts one after the other.  After one that was answered the wait is `first`; after one
that was not it is the wait that stands, and each wait doubles what stands, up to `cap`.
So a wait is fixed by the number of attempts in vain since the last answer (`waits_eq`),
more answers make no wait longer (`waits_antitone`), and while nothing answers the
attempts are soon `cap` apart (`spacing`).
-/

namespace Muster

structure Backoff where
  first : Nat
  cap : Nat
  first_le : first ≤ cap

namespace Backoff

variable (b : Backoff)

/-- The wait after `k` attempts in vain. -/
def delay (k : Nat) : Nat := min (b.first * 2 ^ k) b.cap

/-- The wait after an attempt, where `d` stands. -/
def wait (d : Nat) (answered : Bool) : Nat := if answered then b.first else d

/-- What stands after a wait. -/
def next (d : Nat) : Nat := min (d * 2) b.cap

/-- The waits after attempts, where `d` stands before the first. -/
def waits (d : Nat) : List Bool → List Nat
  | [] => []
  | answered :: attempts =>
    b.wait d answered :: waits (b.next (b.wait d answered)) attempts

/-- The attempts in vain at the end, the first of all apart. -/
def inVain (attempts : List Bool) : Nat := (attempts.tail.rtakeWhile not).length

/-- What is lost of `cap` until the waits have come up to it, in `n` of them. -/
def slack (n : Nat) : Nat := ∑ i ∈ Finset.range n, (b.cap - b.delay i)

/-! ## Waits -/

@[simp] theorem delay_zero : b.delay 0 = b.first := by
  rw [delay, pow_zero, mul_one, min_eq_left b.first_le]

theorem delay_le (k : Nat) : b.delay k ≤ b.cap := min_le_right _ _

theorem delay_mono {j k : Nat} (h : j ≤ k) : b.delay j ≤ b.delay k :=
  min_le_min_right _ (Nat.mul_le_mul_left _ (Nat.pow_le_pow_right (by omega) h))

theorem next_delay (k : Nat) : b.next (b.delay k) = b.delay (k + 1) := by
  have hpow : b.first * 2 ^ (k + 1) = b.first * 2 ^ k * 2 := by rw [pow_succ, mul_assoc]
  unfold next delay
  rw [hpow]
  omega

theorem wait_le {d d' : Nat} {answered answered' : Bool} (hd : d' ≤ d) (hfirst : b.first ≤ d)
    (h : answered = true → answered' = true) : b.wait d' answered' ≤ b.wait d answered := by
  cases answered with
  | true => rw [h rfl, wait, wait, if_pos rfl, if_pos rfl]
  | false =>
    unfold wait
    split
    · exact hfirst
    · exact hd

@[simp] theorem length_waits (d : Nat) (attempts : List Bool) :
    (b.waits d attempts).length = attempts.length := by
  induction attempts generalizing d with
  | nil => rfl
  | cons answered attempts ih => rw [waits, List.length_cons, List.length_cons, ih]

/-- What stands after attempts. -/
def standing (attempts : List Bool) : Nat :=
  attempts.foldl (fun d answered => b.next (b.wait d answered)) b.first

theorem waits_concat (d : Nat) (attempts : List Bool) (answered : Bool) :
    b.waits d (attempts ++ [answered]) = b.waits d attempts ++
      [b.wait (attempts.foldl (fun d answered => b.next (b.wait d answered)) d) answered] := by
  induction attempts generalizing d with
  | nil => rfl
  | cons x attempts ih => rw [List.cons_append, waits, waits, ih, List.foldl_cons, List.cons_append]

theorem inVain_concat (attempts : List Bool) (answered : Bool) :
    inVain (attempts ++ [answered]) =
      if answered = true ∨ attempts = [] then 0 else inVain attempts + 1 := by
  unfold inVain
  cases attempts with
  | nil => rw [if_pos (.inr rfl)]; rfl
  | cons x attempts =>
    rw [List.cons_append, List.tail_cons, List.tail_cons]
    cases answered with
    | true => rw [if_pos (.inl rfl), List.rtakeWhile_concat_neg _ _ _ (by simp), List.length_nil]
    | false =>
      rw [if_neg (by simp), List.rtakeWhile_concat_pos _ _ _ rfl, List.length_append,
        List.length_singleton]

/-- What stands is the delay after one attempt more. -/
theorem standing_eq {attempts : List Bool} (h : attempts ≠ []) :
    b.standing attempts = b.delay (inVain attempts + 1) := by
  induction attempts using List.reverseRecOn with
  | nil => exact absurd rfl h
  | append_singleton attempts answered ih =>
    unfold standing at ih ⊢
    rw [List.foldl_append, List.foldl_cons, List.foldl_nil, inVain_concat, ← next_delay]
    by_cases hnil : attempts = []
    · rw [if_pos (.inr hnil), hnil, List.foldl_nil, delay_zero, wait]
      split <;> rfl
    · cases answered with
      | true => rw [if_pos (.inl rfl), delay_zero, wait, if_pos rfl]
      | false => rw [if_neg (by simp [hnil]), ih hnil, wait, if_neg (by simp)]

/-- **A wait is the delay of the attempts in vain since the last answer.** -/
theorem waits_eq (attempts : List Bool) :
    b.waits b.first attempts = attempts.inits.tail.map fun past => b.delay (inVain past) := by
  induction attempts using List.reverseRecOn with
  | nil => rfl
  | append_singleton attempts answered ih =>
    have hinits : (attempts ++ [answered]).inits.tail =
        attempts.inits.tail ++ [attempts ++ [answered]] := by
      rw [List.inits_append]
      cases attempts <;> simp
    rw [waits_concat, ih, hinits, List.map_append, List.map_singleton]
    congr 2
    show b.wait (b.standing attempts) answered = _
    rw [inVain_concat]
    by_cases hnil : attempts = []
    · rw [if_pos (.inr hnil), hnil, delay_zero]
      show b.wait b.first answered = b.first
      rw [wait]
      split <;> rfl
    · rw [standing_eq b hnil]
      cases answered with
      | true => rw [if_pos (.inl rfl), wait, if_pos rfl, delay_zero]
      | false => rw [if_neg (by simp [hnil]), wait, if_neg (by simp)]

theorem getElem_waits {attempts : List Bool} {i : Nat} (h : i < attempts.length) :
    (b.waits b.first attempts)[i]? = some (b.delay (inVain (attempts.take (i + 1)))) := by
  have hlen : i < attempts.inits.tail.length := by
    rw [List.length_tail, List.length_inits]
    omega
  rw [waits_eq, List.getElem?_map, List.getElem?_eq_getElem hlen, List.getElem_tail,
    List.getElem_inits]
  rfl

/-- **More answers make no wait longer.** -/
theorem waits_antitone {d d' : Nat} (hd : d' ≤ d) (hfirst : b.first ≤ d) {attempts attempts' : List Bool}
    (h : List.Forall₂ (fun x y => x = true → y = true) attempts attempts') :
    List.Forall₂ (· ≥ ·) (b.waits d attempts) (b.waits d' attempts') := by
  induction h generalizing d d' with
  | nil => exact .nil
  | cons hx _ ih =>
    have hwait := b.wait_le hd hfirst hx
    refine .cons hwait (ih ?_ ?_)
    · exact min_le_min_right _ (Nat.mul_le_mul_right _ hwait)
    · refine le_min ?_ b.first_le
      unfold wait
      split <;> omega

/-- The same in another unit. -/
def scale (n : Nat) : Backoff := ⟨n * b.first, n * b.cap, Nat.mul_le_mul_left _ b.first_le⟩

theorem waits_scale (n d : Nat) (attempts : List Bool) :
    (b.scale n).waits (n * d) attempts = (b.waits d attempts).map (n * ·) := by
  induction attempts generalizing d with
  | nil => rfl
  | cons answered attempts ih =>
    have hwait : (b.scale n).wait (n * d) answered = n * b.wait d answered := by
      unfold wait
      split <;> rfl
    have hnext : (b.scale n).next (n * b.wait d answered) = n * b.next (b.wait d answered) := by
      show min (n * b.wait d answered * 2) (n * b.cap) = n * min (b.wait d answered * 2) b.cap
      rw [mul_assoc, Nat.mul_min_mul_left]
    rw [waits, waits, List.map_cons, hwait, hnext, ih]

/-! ## Attempts in time -/

/-- Each attempt starts no sooner than the wait after the one before it. -/
def Paced : List Nat → List Nat → Prop
  | w :: waits, t :: u :: starts => t + w ≤ u ∧ Paced waits (u :: starts)
  | _, _ => True

def decidePaced : (waits starts : List Nat) → Decidable (Paced waits starts)
  | [], _ => .isTrue trivial
  | _ :: _, [] => .isTrue trivial
  | _ :: _, [_] => .isTrue trivial
  | w :: waits, t :: u :: starts =>
    have := decidePaced waits (u :: starts)
    inferInstanceAs (Decidable (t + w ≤ u ∧ _))

instance (waits starts : List Nat) : Decidable (Paced waits starts) := decidePaced waits starts

theorem Paced.le {waits starts : List Nat} (h : Paced waits starts) {i w t u : Nat}
    (hw : waits[i]? = some w) (ht : starts[i]? = some t) (hu : starts[i + 1]? = some u) : t + w ≤ u := by
  induction waits generalizing starts i with
  | nil => cases hw
  | cons w' waits ih =>
    cases starts with
    | nil => cases ht
    | cons t' starts =>
      cases starts with
      | nil => cases hu
      | cons u' starts =>
        cases i with
        | zero =>
          cases hw
          cases ht
          cases hu
          exact h.1
        | succ i => exact ih h.2 hw ht hu

/-- Nothing has answered but perhaps the first. -/
theorem le_inVain {attempts : List Bool} {i k : Nat} (hk : i + k < attempts.length)
    (h : ∀ l, i < l → l ≤ i + k → attempts[l]? = some false) :
    k ≤ inVain (attempts.take (i + k + 1)) := by
  induction k with
  | zero => exact Nat.zero_le _
  | succ k ih =>
    have hprev := ih (by omega) fun l hl hle => h l hl (by omega)
    have hlast : attempts[i + k + 1]? = some false := h (i + k + 1) (by omega) (by omega)
    have htake : attempts.take (i + (k + 1) + 1) = attempts.take (i + k + 1) ++ [false] := by
      rw [show i + (k + 1) + 1 = i + k + 1 + 1 from by omega, List.take_add_one, hlast]
      rfl
    have hne : attempts.take (i + k + 1) ≠ [] := by
      apply List.ne_nil_of_length_pos
      rw [List.length_take]
      omega
    rw [htake, inVain_concat, if_neg (by simp [hne])]
    omega

/-- `cap`, but for the slack. -/
theorem cap_mul_eq (n : Nat) : b.cap * n = ∑ i ∈ Finset.range n, b.delay i + b.slack n := by
  unfold slack
  induction n with
  | zero => rfl
  | succ n ih =>
    have hle := b.delay_le n
    rw [Finset.sum_range_succ, Finset.sum_range_succ, Nat.mul_succ, ih]
    omega

/-- The waits come up to `cap`. -/
theorem slack_le {m : Nat} (hm : b.cap ≤ b.first * 2 ^ m) (n : Nat) : b.slack n ≤ b.slack m := by
  have hzero : ∀ i, m ≤ i → b.cap - b.delay i = 0 := by
    intro i hi
    have hle : b.delay m ≤ b.delay i := b.delay_mono hi
    have hcap : b.delay m = b.cap := min_eq_right hm
    omega
  unfold slack
  rcases Nat.le_total n m with h | h
  · exact Finset.sum_le_sum_of_subset (Finset.range_mono h)
  · refine (Finset.sum_subset (Finset.range_mono h) fun i _ hi => ?_).ge
    exact hzero i (by simpa using hi)

/-- **While nothing answers, attempts are `cap` apart**, but for a slack that does not grow. -/
theorem spacing {attempts : List Bool} {starts : List Nat} (hp : Paced (b.waits b.first attempts) starts)
    {m : Nat} (hm : b.cap ≤ b.first * 2 ^ m) {i n t u : Nat} (hn : i + n ≤ attempts.length)
    (h : ∀ l, i < l → l < i + n → attempts[l]? = some false) (ht : starts[i]? = some t)
    (hu : starts[i + n]? = some u) : t + b.cap * n ≤ u + b.slack m := by
  have hsum : ∀ k, k ≤ n → ∀ v, starts[i + k]? = some v → t + ∑ q ∈ Finset.range k, b.delay q ≤ v := by
    intro k
    induction k with
    | zero =>
      intro _ v hv
      rw [Nat.add_zero, ht] at hv
      cases hv
      exact Nat.le_refl t
    | succ k ih =>
      intro hk v hv
      have hlen : i + k < starts.length := by
        have := (List.getElem?_eq_some_iff.1 hv).1
        omega
      have hmid := ih (by omega) _ (List.getElem?_eq_getElem hlen)
      have hwait := b.getElem_waits (show i + k < attempts.length by omega)
      have hstep := hp.le hwait (List.getElem?_eq_getElem hlen) hv
      have hdelay := b.delay_mono
        (le_inVain (show i + k < attempts.length by omega) fun l hl hle => h l hl (by omega))
      rw [Finset.sum_range_succ]
      omega
  have hlast := hsum n (Nat.le_refl n) u hu
  have hcap := b.cap_mul_eq n
  have hslack := b.slack_le hm n
  omega

end Backoff

end Muster
