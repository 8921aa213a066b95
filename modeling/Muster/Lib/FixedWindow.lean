import Mathlib.Data.List.Chain
import Mathlib.Data.List.TakeWhile
import Mathlib.Order.Interval.Finset.Nat
import Muster.Lib.Keyspace

/-!
# Fixed-window counters

A counter with a deadline.  A hit adds one while the counter lives and starts a new one,
with a deadline a window later, where it does not; `rearm` puts the deadline of a living
counter a window from now.  `hits` is the record: when, the count answered, and whether
the counter had to be started.

* `Meter.Sound`: the invariant of all three steps.  A counter's deadline is at most a window
  away, a window after its start or later, and counts go up by one from hit to hit until a
  counter is started.
* `Sound.count_unbroken`: while no counter is started, at most `n` hits are answered `n` or less;
* `Sound.count_window`: in any interval of the length of a window, at most twice `n` are;
* `Sound.count_total`: over the whole record, at most `n` for each window of its time, and twice `n` more.
-/

namespace Muster

structure Hit where
  time : Nat
  count : Nat
  /-- there was no counter -/
  fresh : Bool

structure Meter where
  now : Nat
  slot : Option (Slot Nat)
  hits : List Hit

namespace Meter

variable (window : Nat) (m : Meter)

/-- The counter, while it lives. -/
def current : Option (Slot Nat) := m.slot.filter (·.live m.now)

def hit : Meter :=
  match m.current with
  | some s => { m with
      slot := some ⟨s.val + 1, some (s.deadline.getD (m.now + window))⟩
      hits := m.hits ++ [⟨m.now, s.val + 1, false⟩] }
  | none => { m with
      slot := some ⟨1, some (m.now + window)⟩
      hits := m.hits ++ [⟨m.now, 1, true⟩] }

def rearm : Meter :=
  match m.current with
  | some s => { m with slot := some ⟨s.val, some (m.now + window)⟩ }
  | none => m

def wait (d : Nat) : Meter := { m with now := m.now + d }

/-- From one hit to a later one. -/
structure After (h h' : Hit) : Prop where
  le : h.time ≤ h'.time
  fresh : h'.fresh = true → h.time < h'.time ∧ (h.fresh = true → h.time + window ≤ h'.time)

structure Sound : Prop where
  armed : ∀ s, m.slot = some s → ∃ d, s.deadline = some d ∧ d ≤ m.now + window ∧
    ∀ h ∈ m.hits, h.time < d ∧ (h.fresh = true → h.time + window ≤ d)
  last : ∀ h, m.hits.getLast? = some h → ∃ s, m.slot = some s ∧ s.val = h.count
  past : ∀ h ∈ m.hits, h.time ≤ m.now ∧ 1 ≤ h.count
  after : m.hits.Pairwise (After window)
  counts : m.hits.IsChain fun h h' => h'.fresh = false → h'.count = h.count + 1

section
variable {window m}

theorem current_eq_some {s : Slot Nat} : m.current = some s ↔ m.slot = some s ∧ s.live m.now = true := by
  simp [current, Option.filter_eq_some_iff]

theorem Sound.start (hs : ∀ s, m.slot = some s → ∃ d, s.deadline = some d ∧ d ≤ m.now + window)
    (hnil : m.hits = []) : m.Sound window where
  armed s h := by
    obtain ⟨d, hd, hle⟩ := hs s h
    exact ⟨d, hd, hle, by simp [hnil]⟩
  last h hh := by simp [hnil] at hh
  past h hh := by simp [hnil] at hh
  after := by simp [hnil]
  counts := by simp [hnil]

theorem Sound.wait (h : m.Sound window) (d : Nat) : (m.wait d).Sound window where
  armed s hs := by
    obtain ⟨e, he, hle, hhits⟩ := h.armed s hs
    exact ⟨e, he, hle.trans (by simp [Meter.wait]), hhits⟩
  last := h.last
  past x hx := ⟨(h.past x hx).1.trans (by simp [Meter.wait]), (h.past x hx).2⟩
  after := h.after
  counts := h.counts

/-- Later deadlines. -/
theorem Sound.rearm (h : m.Sound window) : (m.rearm window).Sound window := by
  unfold Meter.rearm
  cases hc : m.current with
  | none => exact h
  | some s =>
    obtain ⟨hs, -⟩ := current_eq_some.1 hc
    obtain ⟨d, hd, hle, hhits⟩ := h.armed s hs
    refine ⟨?_, ?_, h.past, h.after, h.counts⟩
    · rintro _ ⟨⟩
      refine ⟨_, rfl, le_rfl, ?_⟩
      intro x hx
      obtain ⟨hlt, hfresh⟩ := hhits x hx
      exact ⟨hlt.trans_le hle, fun hf => (hfresh hf).trans hle⟩
    · intro x hx
      obtain ⟨s', hs', hv⟩ := h.last x hx
      rw [hs] at hs'
      cases hs'
      exact ⟨_, rfl, hv⟩

/-- What a hit adds to the record. -/
theorem Sound.append (h : m.Sound window) (x : Hit) (d : Nat)
    (htime : x.time = m.now) (hcount : 1 ≤ x.count) (hd : m.now < d) (hle : d ≤ m.now + window)
    (hhits : ∀ y ∈ m.hits, y.time < d ∧ (y.fresh = true → y.time + window ≤ d))
    (hself : x.fresh = true → d = m.now + window)
    (hafter : ∀ y ∈ m.hits, After window y x)
    (hnext : ∀ y, m.hits.getLast? = some y → x.fresh = false → x.count = y.count + 1) :
    Sound window { m with slot := some ⟨x.count, some d⟩, hits := m.hits ++ [x] } where
  armed s hs := by
    cases hs
    refine ⟨d, rfl, hle, ?_⟩
    intro y hy
    rcases List.mem_append.1 hy with hy | hy
    · exact hhits y hy
    · rw [List.mem_singleton.1 hy, htime]
      exact ⟨hd, fun hf => (hself hf).ge⟩
  last y hy := by
    rw [List.getLast?_concat] at hy
    cases hy
    exact ⟨_, rfl, rfl⟩
  past y hy := by
    rcases List.mem_append.1 hy with hy | hy
    · exact h.past y hy
    · rw [List.mem_singleton.1 hy]
      exact ⟨htime.le, hcount⟩
  after := by
    refine List.pairwise_append.2 ⟨h.after, List.pairwise_singleton _ _, ?_⟩
    intro y hy z hz
    rw [List.mem_singleton.1 hz]
    exact hafter y hy
  counts := by
    refine List.isChain_append.2 ⟨h.counts, List.isChain_singleton _, ?_⟩
    intro y hy z hz
    cases hz
    exact hnext y hy

theorem Sound.hit (hwindow : 0 < window) (h : m.Sound window) : (m.hit window).Sound window := by
  unfold Meter.hit
  cases hc : m.current with
  | some s =>
    obtain ⟨hs, hlive⟩ := current_eq_some.1 hc
    obtain ⟨d, hd, hle, hhits⟩ := h.armed s hs
    have hlt : m.now < d := by
      unfold Slot.live at hlive
      rw [hd] at hlive
      exact of_decide_eq_true hlive
    dsimp only
    rw [hd]
    refine h.append ⟨m.now, s.val + 1, false⟩ d rfl (Nat.succ_pos _) hlt hle hhits nofun ?_ ?_
    · intro y hy
      exact ⟨(h.past y hy).1, nofun⟩
    · intro y hy _
      obtain ⟨s', hs', hv⟩ := h.last y hy
      rw [hs] at hs'
      cases hs'
      exact congrArg (· + 1) hv
  | none =>
    -- the counter of the earlier hits is gone, so its deadline has passed
    have hgone : ∀ y ∈ m.hits, y.time < m.now ∧ (y.fresh = true → y.time + window ≤ m.now) := by
      intro y hy
      have hz := List.getLast?_eq_some_getLast (List.ne_nil_of_mem hy)
      obtain ⟨s, hs, -⟩ := h.last _ hz
      obtain ⟨d, hd, hle, hhits⟩ := h.armed s hs
      have hdead : d ≤ m.now := by
        by_contra hlt
        have hlive : s.live m.now = true := by
          unfold Slot.live
          rw [hd]
          exact decide_eq_true (by omega)
        rw [current_eq_some.2 ⟨hs, hlive⟩] at hc
        cases hc
      exact ⟨(hhits y hy).1.trans_le hdead, fun hf => ((hhits y hy).2 hf).trans hdead⟩
    refine h.append ⟨m.now, 1, true⟩ (m.now + window) rfl le_rfl (by omega) le_rfl ?_ (fun _ => rfl) ?_
      (fun _ _ h => nomatch h)
    · intro y hy
      have := hgone y hy
      exact ⟨by omega, fun hf => by have := this.2 hf; omega⟩
    · intro y hy
      exact ⟨(hgone y hy).1.le, fun _ => hgone y hy⟩

/-! ## Counting -/

/-- No counter is started but by the first of the hits. -/
def Unbroken (hits : List Hit) : Prop := ∀ h ∈ hits.tail, h.fresh = false

/-- Distinct numbers from 1 to `n`. -/
theorem length_le_of_lt {ns : List Nat} {n : Nat} (h : ns.Pairwise (· < ·))
    (hn : ∀ x ∈ ns, 1 ≤ x ∧ x ≤ n) : ns.length ≤ n := by
  have hnodup : ns.Nodup := h.imp fun hlt => ne_of_lt hlt
  calc ns.length = ns.toFinset.card := (List.toFinset_card_of_nodup hnodup).symm
    _ ≤ (Finset.Icc 1 n).card := by
      refine Finset.card_le_card ?_
      intro x hx
      exact Finset.mem_Icc.2 (hn x (List.mem_toFinset.1 hx))
    _ = n := by simp

/-- While no counter is started the counts grow. -/
theorem pairwise_count {hits : List Hit}
    (hcounts : hits.IsChain fun h h' => h'.fresh = false → h'.count = h.count + 1)
    (hu : Unbroken hits) : hits.Pairwise fun h h' => h.count < h'.count := by
  induction hits with
  | nil => exact .nil
  | cons x hits ih =>
    cases hits with
    | nil => exact List.pairwise_singleton _ _
    | cons y hits =>
      obtain ⟨hxy, hrest⟩ := List.isChain_cons_cons.1 hcounts
      have hpair := ih hrest fun h hh => hu h (List.mem_cons_of_mem _ hh)
      have hlt : x.count < y.count := by
        rw [hxy (hu y List.mem_cons_self)]
        exact Nat.lt_succ_self _
      refine List.pairwise_cons.2 ⟨?_, hpair⟩
      intro z hz
      rcases List.mem_cons.1 hz with rfl | hz
      · exact hlt
      · exact hlt.trans (List.rel_of_pairwise_cons hpair hz)

theorem Sound.count_unbroken (h : m.Sound window) {hits : List Hit} (hin : hits <:+: m.hits)
    (hu : Unbroken hits) (n : Nat) : hits.countP (fun x => x.count ≤ n) ≤ n := by
  have hcounts := h.counts
  obtain ⟨before, after, hsplit⟩ := id hin
  rw [← hsplit] at hcounts
  have hpair := pairwise_count hcounts.left_of_append.right_of_append hu
  rw [List.countP_eq_length_filter, ← List.length_map Hit.count]
  refine length_le_of_lt (List.pairwise_map.2 (hpair.filter _)) ?_
  intro c hc
  obtain ⟨x, hx, rfl⟩ := List.mem_map.1 hc
  obtain ⟨hx, hle⟩ := List.mem_filter.1 hx
  exact ⟨(h.past x (hin.subset hx)).2, of_decide_eq_true hle⟩

/-- Up to the next counter. -/
theorem exists_unbroken (x : Hit) (hits : List Hit) :
    ∃ run rest, x :: hits = x :: run ++ rest ∧ Unbroken (x :: run) ∧
      ∀ y ∈ rest.head?, y.fresh = true := by
  refine ⟨hits.takeWhile fun h => !h.fresh, hits.dropWhile fun h => !h.fresh, ?_, ?_, ?_⟩
  · rw [List.cons_append, List.takeWhile_append_dropWhile]
  · intro h hh
    simpa using List.mem_takeWhile_imp hh
  · intro y hy
    have := List.head?_dropWhile_not (fun h : Hit => !h.fresh) hits
    rw [hy] at this
    simpa using this

/-- **In an interval of the length of a window at most twice `n` hits are answered `n` or less.** -/
theorem Sound.count_window (h : m.Sound window) (n t : Nat) :
    m.hits.countP (fun x => decide (x.count ≤ n) && (decide (t ≤ x.time) && decide (x.time ≤ t + window))) ≤
      2 * n := by
  let p : Hit → Bool := fun x =>
    decide (x.count ≤ n) && (decide (t ≤ x.time) && decide (x.time ≤ t + window))
  have hrun : ∀ hits : List Hit, hits <:+: m.hits → Unbroken hits → hits.countP p ≤ n := by
    intro hits hin hu
    refine le_trans (List.countP_mono_left ?_) (h.count_unbroken hin hu n)
    intro x _ hx
    exact (Bool.and_eq_true_iff.1 hx).1
  have hbefore : (m.hits.takeWhile fun x => decide (x.time < t)).countP p = 0 := by
    rw [List.countP_eq_zero]
    intro x hx hp
    have hlt : x.time < t := by simpa using List.mem_takeWhile_imp hx
    have hge : t ≤ x.time := by simpa using (Bool.and_eq_true_iff.1 (Bool.and_eq_true_iff.1 hp).2).1
    omega
  have hsplit : m.hits = (m.hits.takeWhile fun x => decide (x.time < t)) ++
      m.hits.dropWhile fun x => decide (x.time < t) := List.takeWhile_append_dropWhile.symm
  have hhead := List.head?_dropWhile_not (fun x : Hit => decide (x.time < t)) m.hits
  show m.hits.countP p ≤ 2 * n
  generalize m.hits.takeWhile (fun x => decide (x.time < t)) = before at hbefore hsplit
  generalize m.hits.dropWhile (fun x => decide (x.time < t)) = hits at hsplit hhead
  rw [hsplit, List.countP_append, hbefore, Nat.zero_add]
  cases hits with
  | nil => simp
  | cons x hits =>
    obtain ⟨run, rest, heq, hu, hfresh⟩ := exists_unbroken x hits
    have hx : t ≤ x.time := by simpa using hhead
    rw [heq] at hsplit ⊢
    have hfirst := hrun (x :: run) ⟨before, rest, by rw [hsplit, List.append_assoc]⟩ hu
    rw [List.countP_append]
    cases rest with
    | nil =>
      simp only [List.countP_nil]
      omega
    | cons y rest =>
      -- a second counter, and a third is a window away
      obtain ⟨run', rest', heq', hu', hfresh'⟩ := exists_unbroken y rest
      rw [heq'] at hsplit ⊢
      have hsecond := hrun (y :: run') ⟨before ++ x :: run, rest', by simp [hsplit]⟩ hu'
      have hthird : rest'.countP p = 0 := by
        cases rest' with
        | nil => rfl
        | cons z rest' =>
          have hafter := h.after
          rw [hsplit] at hafter
          have hlast := (List.pairwise_append.1 hafter).2.1
          obtain ⟨-, hyz, hxy⟩ := List.pairwise_append.1 hlast
          have hy := (hxy x List.mem_cons_self y (by simp)).fresh (hfresh y rfl)
          have hz := ((List.pairwise_append.1 hyz).2.2 y List.mem_cons_self z
            List.mem_cons_self).fresh (hfresh' z rfl)
          have hzs := (List.pairwise_append.1 hyz).2.1
          rw [List.countP_eq_zero]
          intro w hw hp
          have hle : z.time ≤ w.time := by
            rcases List.mem_cons.1 hw with rfl | hw
            · exact le_rfl
            · exact (List.rel_of_pairwise_cons hzs hw).le
          have hend : w.time ≤ t + window := by
            simpa using (Bool.and_eq_true_iff.1 (Bool.and_eq_true_iff.1 hp).2).2
          have := hz.2 (hfresh y rfl)
          omega
      rw [List.countP_append, hthird]
      omega

/-- From where a counter is started on, a counter is started once a window. -/
theorem Sound.count_since (h : m.Sound window) (hwindow : 0 < window) (n k : Nat) {hits : List Hit}
    (hk : hits.length ≤ k) (hin : hits <:+ m.hits) (hfresh : ∀ x ∈ hits.head?, x.fresh = true) {t : Nat}
    (ht : ∀ x ∈ hits.head?, t ≤ x.time) :
    hits.countP (fun x => x.count ≤ n) ≤ n * ((m.now - t) / window + 1) := by
  induction k generalizing hits t with
  | zero =>
    rw [List.length_eq_zero_iff.1 (Nat.le_zero.1 hk)]
    exact Nat.zero_le _
  | succ k ih =>
    cases hits with
    | nil => exact Nat.zero_le _
    | cons x hits =>
      obtain ⟨run, rest, heq, hu, hfresh'⟩ := exists_unbroken x hits
      rw [heq] at hin hk ⊢
      have hfirst := h.count_unbroken ((List.prefix_append _ _).isInfix.trans hin.isInfix) hu n
      rw [List.countP_append]
      cases rest with
      | nil =>
        rw [List.countP_nil, Nat.mul_add]
        omega
      | cons y rest =>
        have hx := ht x rfl
        have hpair := h.after.sublist hin.sublist
        have hy := ((List.pairwise_append.1 hpair).2.2 x List.mem_cons_self y List.mem_cons_self).fresh
          (hfresh' y rfl)
        have hnext := hy.2 (hfresh x rfl)
        have hnow := (h.past y (hin.subset (by simp))).1
        have hrest := ih (t := t + window) (by simp at hk ⊢; omega)
          ((List.suffix_append _ _).trans hin) hfresh' (by rintro _ ⟨⟩; omega)
        have hdiv : (m.now - t) / window = (m.now - (t + window)) / window + 1 := by
          rw [← Nat.add_div_right _ hwindow]
          congr 1
          omega
        calc _ ≤ n + n * ((m.now - (t + window)) / window + 1) := Nat.add_le_add hfirst hrest
          _ = n * ((m.now - t) / window + 1) := by
            rw [hdiv, Nat.mul_succ n (_ + 1), Nat.add_comm]

/-- **Over the whole record** `n` hits for each window begun, and the counter before, are answered
`n` or less. -/
theorem Sound.count_total (h : m.Sound window) (hwindow : 0 < window) (n : Nat) {t : Nat}
    (ht : ∀ x ∈ m.hits, t ≤ x.time) :
    m.hits.countP (fun x => x.count ≤ n) ≤ n * ((m.now - t) / window + 2) := by
  cases hhits : m.hits with
  | nil => exact Nat.zero_le _
  | cons x hits =>
    obtain ⟨run, rest, heq, hu, hfresh⟩ := exists_unbroken x hits
    rw [heq] at hhits ⊢
    have hsuffix : rest <:+ m.hits := hhits ▸ List.suffix_append _ _
    have hfirst := h.count_unbroken (hhits ▸ (List.prefix_append _ _).isInfix) hu n
    have hrest := h.count_since hwindow n rest.length le_rfl hsuffix hfresh
      fun y hy => ht y (hsuffix.subset (List.mem_of_mem_head? hy))
    rw [List.countP_append]
    calc _ ≤ n + n * ((m.now - t) / window + 1) := Nat.add_le_add hfirst hrest
      _ = n * ((m.now - t) / window + 2) := by
        rw [Nat.mul_succ n (_ + 1), Nat.add_comm]

end

end Meter

end Muster
