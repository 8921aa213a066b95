import Muster.OpsRuns

/-!
# Waiting out `retry_after`

A call over the limit is told the TTL of its counter, which is what is left of the window in
seconds, rounded to the nearest.  Where that is less than what is left, waiting as told is not
enough (`retry_after_suffices_iff`).  Time may pass between the commands of a call as well, so that the
counter can be gone when its TTL is asked for.
-/

namespace Muster

/-- The same keys some milliseconds later. -/
def Db.later (s : Db) (ms : Nat) : Db := Env.apply (.tick ms) s

/-- A command that comes some time after the one before; the list is of the times to come. -/
def execLate (srv : Server) (c : Cmd) (s : Db × List Nat) : (Db × List Nat) × c.Reply :=
  let r := exec srv c (s.1.later (s.2.headD 0))
  ((r.1, s.2.tail), r.2)

/-- The milliseconds before each command of a `rate_check`, the first since the call before. -/
structure RateCall where
  incr : Nat
  ttl : Nat
  expire : Nat

/-! ## Time -/

section
variable {s : Db} {kind : RateKind} {a : PyStr}

@[simp] theorem now_later (s : Db) (ms : Nat) : (s.later ms).now = s.now + ms := rfl

theorem look_rate {n d : Nat} (h : s.keys (.rate kind a) = some ⟨n, some d⟩) :
    s.keys.look s.now (.rate kind a) = if s.now < d then some ⟨n, some d⟩ else none := by
  unfold Keyspace.look
  rw [h, Option.filter_some]
  have hlive : (⟨n, some d⟩ : Slot Nat).live s.now = decide (s.now < d) := rfl
  simp only [hlive, decide_eq_true_eq]

theorem counter_rate {n d : Nat} (h : s.keys (.rate kind a) = some ⟨n, some d⟩) :
    s.counter kind a = if s.now < d then n else 0 := by
  unfold Db.counter Keyspace.get
  rw [look_rate h]
  split
  · rfl
  · rfl

theorem ttl_rate {n d : Nat} (h : s.keys (.rate kind a) = some ⟨n, some d⟩) :
    s.keys.ttl s.now (.rate kind a) = if s.now < d then (((d - s.now + 500) / 1000 : Nat) : Int) else -2 := by
  unfold Keyspace.ttl
  rw [look_rate h]
  by_cases hlive : s.now < d
  · rw [if_pos hlive, if_pos hlive]
  · rw [if_neg hlive, if_neg hlive]

end

/-! ## A call -/

section
variable (srv : Server) (kind : RateKind) (a : PyStr) (limit window : Int)

def RateCall.run (c : RateCall) (s : Db) : Except PyExn (Bool × Int) × Db :=
  let r := (rateCheck kind a limit window).run (execLate srv) (s, [c.incr, c.ttl, c.expire])
  (r.1, r.2.1)

/-- What calls leave, one after the other. -/
def Db.after (s : Db) (history : List RateCall) : Db :=
  history.foldl (fun s c => (c.run srv kind a limit window s).2) s

/-- When the counter expires that a call counts in. -/
def Db.expiry (s : Db) : Nat :=
  ((s.keys.look s.now (.rate kind a)).bind (·.deadline)).getD (s.now + window.toNat * 1000)

/-- What is left of the window when the call asks for the TTL. -/
def RateCall.left (c : RateCall) (s : Db) : Nat :=
  (s.later c.incr).expiry kind a window - (s.now + c.incr + c.ttl)

/-- If it is rejected, the next call is accepted, if it is made no sooner than told. -/
def WaitSuffices (c : RateCall) (s : Db) : Prop :=
  ∀ retry t, c.run srv kind a limit window s = (.ok (false, retry), t) →
    ∀ next : RateCall, retry * 1000 ≤ next.incr →
      ∃ u, next.run srv kind a limit window t = (.ok (true, 0), u)

/-- In seconds it is not rounded to less, or it is less than a second. -/
def RoundedUp (ms : Nat) : Prop := ms ≤ 1000 ∨ ms % 1000 = 0 ∨ 500 ≤ ms % 1000

section
variable {srv kind a limit window}

theorem keys_incr (hwindow : 1 ≤ window) (s : Db) :
    (exec srv (.incr kind a window) s).1.keys (.rate kind a) =
      some ⟨s.counter kind a + 1, some (s.expiry kind a window)⟩ :=
  Keyspace.expireNx_edit_same (fun v => v.getD 0 + 1) (by omega)

/-- **A call with time between its commands.** -/
theorem RateCall.run_eq (c : RateCall) (s : Db) :
    c.run srv kind a limit window s =
      let counted := (exec srv (.incr kind a window) (s.later c.incr)).1
      if limit < ((s.later c.incr).counter kind a + 1 : Nat) then
        let asked := counted.later c.ttl
        if asked.keys.ttl asked.now (.rate kind a) < 0 then
          (.ok (false, max window 1), (exec srv (.expire (.rate kind a) window) (asked.later c.expire)).1)
        else (.ok (false, max (asked.keys.ttl asked.now (.rate kind a)) 1), asked)
      else (.ok (true, 0), counted) := by
  have hn : (exec srv (.incr kind a window) (s.later c.incr)).2 = (s.later c.incr).counter kind a + 1 := rfl
  unfold RateCall.run rateCheck
  simp only [send, Prog.cmd_bind, Prog.run_call, execLate, List.headD_cons, List.tail_cons, hn]
  by_cases hlimit : limit < ((s.later c.incr).counter kind a + 1 : Nat)
  · rw [if_pos hlimit, if_pos hlimit]
    simp only [Prog.run_call]
    split
    · next httl =>
      exact (if_pos httl).symm
    · next httl =>
      exact (if_neg httl).symm
  · rw [if_neg hlimit, if_neg hlimit]
    rfl

theorem RateCall.accepted_iff {c : RateCall} {s : Db} :
    (∃ t, c.run srv kind a limit window s = (.ok (true, 0), t)) ↔
      ((s.later c.incr).counter kind a : Int) + 1 ≤ limit := by
  rw [RateCall.run_eq]
  dsimp only
  by_cases hlimit : limit < ((s.later c.incr).counter kind a + 1 : Nat)
  · rw [if_pos hlimit]
    refine iff_of_false ?_ (by omega)
    rintro ⟨t, h⟩
    split at h
    · cases h
    · cases h
  · rw [if_neg hlimit]
    exact iff_of_true ⟨_, rfl⟩ (by omega)

/-- Over the limit, a call is accepted once the counter has expired. -/
theorem accepted_iff_expired (hlimit : 1 ≤ limit) {s : Db} {n d : Nat}
    (hkey : s.keys (.rate kind a) = some ⟨n, some d⟩) (hn : limit ≤ n) (c : RateCall) :
    (∃ t, c.run srv kind a limit window s = (.ok (true, 0), t)) ↔ d ≤ s.now + c.incr := by
  have hcounter : (s.later c.incr).counter kind a = if s.now + c.incr < d then n else 0 := counter_rate hkey
  rw [RateCall.accepted_iff, hcounter]
  split
  · omega
  · omega

/-- Nothing but a new call changes the counter. -/
theorem keys_expire_late {s : Db} {n d ms : Nat} (hkey : s.keys (.rate kind a) = some ⟨n, some d⟩)
    (hexpired : d ≤ s.now) :
    (exec srv (.expire (.rate kind a) window) (s.later ms)).1 = s.later ms := by
  have hlook : (s.later ms).keys.look (s.later ms).now (.rate kind a) = none := by
    rw [look_rate (s := s.later ms) hkey, if_neg]
    rw [now_later]
    omega
  show { s.later ms with keys := (s.later ms).keys.expire (s.later ms).now (.rate kind a) window } = s.later ms
  rw [Keyspace.expire_of_look_none hlook]

theorem roundedUp_iff {ms : Nat} (h : 0 < ms) :
    RoundedUp ms ↔ (ms : Int) ≤ max (((ms + 500) / 1000 : Nat) : Int) 1 * 1000 := by
  unfold RoundedUp
  omega

/-- Who waits as told is accepted, whenever that is, iff the counter has expired by then. -/
theorem told_iff (hlimit : 1 ≤ limit) {s : Db} {n d : Nat} (hkey : s.keys (.rate kind a) = some ⟨n, some d⟩)
    (hn : limit ≤ n) {told : Int} (htold : 0 ≤ told) :
    (∀ next : RateCall, told * 1000 ≤ next.incr →
      ∃ t, next.run srv kind a limit window s = (.ok (true, 0), t)) ↔
      (d : Int) ≤ s.now + told * 1000 := by
  simp only [accepted_iff_expired hlimit hkey hn]
  constructor
  · intro h
    have hsoonest := h ⟨(told * 1000).toNat, 0, 0⟩ (by dsimp only; omega)
    dsimp only at hsoonest
    omega
  · intro h next hwait
    omega

/-- Whether waiting is enough is decided when the call asks for the TTL. -/
theorem waitSuffices_iff (hlimit : 1 ≤ limit) (hwindow : 1 ≤ window) (c : RateCall) (s : Db) :
    WaitSuffices srv kind a limit window c s ↔
      (limit ≤ (s.later c.incr).counter kind a → RoundedUp (c.left kind a window s)) := by
  have hkey : (exec srv (.incr kind a window) (s.later c.incr)).1.keys (.rate kind a) =
      some ⟨_, some _⟩ := keys_incr hwindow (s.later c.incr)
  have hnow := exec_now srv (.incr kind a window) (s.later c.incr)
  unfold WaitSuffices RateCall.left
  rw [RateCall.run_eq]
  dsimp only
  generalize (exec srv (.incr kind a window) (s.later c.incr)).1 = counted at hkey hnow ⊢
  generalize (s.later c.incr).expiry kind a window = d at hkey ⊢
  by_cases hover : limit < ((s.later c.incr).counter kind a + 1 : Nat)
  · have hn : limit ≤ ((s.later c.incr).counter kind a + 1 : Nat) := by omega
    have hasked : (counted.later c.ttl).now = s.now + c.incr + c.ttl := by
      rw [now_later, hnow, now_later]
    replace hkey : (counted.later c.ttl).keys (.rate kind a) = some ⟨_, some d⟩ := hkey
    generalize counted.later c.ttl = asked at hkey hasked ⊢
    rw [if_pos hover, ttl_rate hkey, hasked, imp_iff_right (by omega)]
    by_cases hlive : s.now + c.incr + c.ttl < d
    · rw [if_pos hlive, if_neg (by omega), roundedUp_iff (by omega)]
      have htold := @told_iff srv kind a limit window hlimit asked _ d hkey hn
        (max (((d - (s.now + c.incr + c.ttl) + 500) / 1000 : Nat) : Int) 1) (by omega)
      constructor
      · intro h
        have hfit := htold.1 (h _ _ rfl)
        omega
      · rintro hfit retry t ⟨⟩
        refine htold.2 ?_
        omega
    · -- the counter has expired since it was counted
      rw [if_neg hlive, if_pos (by decide), keys_expire_late hkey (by rw [hasked]; omega)]
      refine iff_of_true ?_ (.inl (by omega))
      rintro retry t ⟨⟩ next -
      refine (accepted_iff_expired hlimit (s := asked.later c.expire) hkey hn next).2 ?_
      rw [now_later, hasked]
      omega
  · rw [if_neg hover]
    refine iff_of_true ?_ (fun h => absurd h (by omega))
    rintro retry t ⟨⟩

/-- **When `retry_after` is long enough.**  A call that any calls precede, and that is over the limit,
is told to wait long enough iff what is left of its window is a second at most, or is not rounded
down. -/
theorem retry_after_suffices_iff (hlimit : 1 ≤ limit) (hwindow : 1 ≤ window) (s : Db)
    (history : List RateCall) (c : RateCall) :
    WaitSuffices srv kind a limit window c (s.after srv kind a limit window history) ↔
      (limit ≤ ((s.after srv kind a limit window history).later c.incr).counter kind a →
        RoundedUp (c.left kind a window (s.after srv kind a limit window history))) :=
  waitSuffices_iff hlimit hwindow c _

end

end

/-! ## A wait of 1 s where 1.499 s are left -/

def hasty : PyStr := lit "u/h/r/p/s"

/-- One call, at a limit of one a minute. -/
def spent : Db := (Db.empty 5000).after .plain .chat hasty 1 60 [⟨0, 0, 0⟩]

/-- The second call, 58.501 s later, is told to wait for a second; the third does, and is rejected. -/
theorem told_too_little :
    ∃ t u, RateCall.run .plain .chat hasty 1 60 ⟨58501, 0, 0⟩ spent = (.ok (false, 1), t) ∧
      RateCall.run .plain .chat hasty 1 60 ⟨1000, 0, 0⟩ t = (.ok (false, 1), u) ∧
      ¬ WaitSuffices .plain .chat hasty 1 60 ⟨58501, 0, 0⟩ spent := by
  refine ⟨_, _, rfl, rfl, fun h => ?_⟩
  obtain ⟨u, hu⟩ := h 1 _ rfl ⟨1000, 0, 0⟩ (by decide)
  cases hu

theorem retry_after_suffices_iff_spent :
    WaitSuffices .plain .chat hasty 1 60 ⟨58501, 0, 0⟩
        ((Db.empty 5000).after .plain .chat hasty 1 60 [⟨0, 0, 0⟩]) ↔
      (1 ≤ ((((Db.empty 5000).after .plain .chat hasty 1 60 [⟨0, 0, 0⟩]).later 58501).counter .chat hasty : Int) →
        RoundedUp (RateCall.left .chat hasty 60 ⟨58501, 0, 0⟩
          ((Db.empty 5000).after .plain .chat hasty 1 60 [⟨0, 0, 0⟩]))) :=
  retry_after_suffices_iff (by decide) (by decide) (.empty 5000) [⟨0, 0, 0⟩] ⟨58501, 0, 0⟩

end Muster
