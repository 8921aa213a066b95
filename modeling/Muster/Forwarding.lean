import Muster.Lib.Machine
import Mathlib.Algebra.Order.Field.Basic
import Mathlib.Data.Rat.Cast.Order
import Mathlib.Tactic.Linarith

/-!
# How fresh the authorization of a forwarded event is

The generator of `stream_endpoint` against the clock (seconds), await by await: a
`get_message` takes up to a second, a yield as long as the reader lets it, everything
else no time.  `last_tick` is read after the unread and the ping frame have been
taken by the reader, so the time these yields are suspended is added to the ping
interval, while a suspended deliver frame is followed by the check and does no harm.

So events are forwarded within `ping_interval + 1` seconds of a successful resolve
exactly where the ping interval is positive and the reader takes unread and ping
frames at once (`forwards_fresh_iff`).
-/

namespace Muster

/-- Where the generator is. -/
inductive GenPoint where
  /-- subscribed, and the unread messages counted -/
  | opened
  /-- at the head of the loop -/
  | polling
  /-- before the check of the ping interval -/
  | checking
  | ended
  deriving DecidableEq

/-- The generator: its clock, `last_tick`, when the key was successfully resolved and when
messages were forwarded. -/
structure Gen where
  now : ℚ
  lastTick : ℚ
  point : GenPoint
  resolved : List ℚ
  forwarded : List ℚ
  deriving DecidableEq

inductive GenStep where
  /-- the unread frame, if there is one, and how long its yield is suspended -/
  | unread (suspended : Option ℚ)
  | disconnected
  /-- `get_message` returns a message after `wait`, which is forwarded -/
  | message (wait suspended : ℚ)
  /-- `get_message` returns nothing after `wait` -/
  | silence (wait : ℚ)
  /-- the ping interval has not passed -/
  | pass
  /-- it has; the key resolves, and the ping frame is suspended -/
  | ping (suspended : ℚ)
  /-- it has; the key does not resolve -/
  | refused
  deriving DecidableEq

section
variable (pingInterval : Int)

def Gen.due (g : Gen) : Prop := (pingInterval : ℚ) ≤ g.now - g.lastTick

instance Gen.instDecidableDue (g : Gen) : Decidable (g.due pingInterval) :=
  inferInstanceAs (Decidable (_ ≤ _))

def Gen.step (g : Gen) : GenStep → Option Gen
  | .unread none =>
    if g.point = .opened then some { g with lastTick := g.now, point := .polling } else none
  | .unread (some d) =>
    if g.point = .opened ∧ 0 ≤ d then
      some { g with now := g.now + d, lastTick := g.now + d, point := .polling }
    else none
  | .disconnected => if g.point = .polling then some { g with point := .ended } else none
  | .message w d =>
    if g.point = .polling ∧ 0 ≤ w ∧ w ≤ 1 ∧ 0 ≤ d then
      some { g with now := g.now + w + d, point := .checking,
                    forwarded := g.forwarded ++ [g.now + w] }
    else none
  | .silence w =>
    if g.point = .polling ∧ 0 ≤ w ∧ w ≤ 1 then some { g with now := g.now + w, point := .checking }
    else none
  | .pass =>
    if g.point = .checking ∧ ¬ g.due pingInterval then some { g with point := .polling } else none
  | .ping d =>
    if g.point = .checking ∧ g.due pingInterval ∧ 0 ≤ d then
      some { g with now := g.now + d, lastTick := g.now + d, point := .polling,
                    resolved := g.resolved ++ [g.now] }
    else none
  | .refused =>
    if g.point = .checking ∧ g.due pingInterval then some { g with point := .ended } else none

def generator : Machine Gen GenStep := ⟨Gen.step pingInterval⟩

/-- The request has just been authorized. -/
def Gen.connect (now : ℚ) : Gen := ⟨now, now, .opened, [now], []⟩

/-- Whenever a message was forwarded, the key had been successfully resolved less than the
ping interval and a second before. -/
def Gen.Fresh (g : Gen) : Prop :=
  ∀ t ∈ g.forwarded, ∃ r ∈ g.resolved, r ≤ t ∧ t - (pingInterval + 1) < r

end

/-- How long an unread or a ping frame waits for the reader. -/
def GenStep.held : GenStep → Option ℚ
  | .unread suspended => suspended
  | .ping suspended => some suspended
  | _ => none

/-- The reader keeps unread and ping frames waiting for times in `slow` only. -/
def ReaderIs (slow : ℚ → Prop) (_ : Gen) (l : GenStep) : Prop := ∀ d, l.held = some d → slow d

/-! ## A prompt reader -/

/-- `last_tick` is a time the key was resolved, and at the head of the loop that is less than the
ping interval ago. -/
structure Gen.Prompt (pingInterval : Int) (g : Gen) : Prop where
  opened : g.point = .opened → g.now ∈ g.resolved
  tick : g.point ≠ .opened → g.lastTick ∈ g.resolved
  past : g.lastTick ≤ g.now
  recent : g.point = .polling → g.now - g.lastTick < pingInterval
  fresh : g.Fresh pingInterval

section
variable {P : Int} {g g' : Gen}

theorem Gen.Fresh.of_resolved (h : g.Fresh P) {g' : Gen} (hf : g'.forwarded = g.forwarded)
    (hr : ∀ r ∈ g.resolved, r ∈ g'.resolved) : g'.Fresh P := by
  intro t ht
  rw [hf] at ht
  obtain ⟨r, hmem, hle, hlt⟩ := h t ht
  exact ⟨r, hr r hmem, hle, hlt⟩

/-- A message is forwarded within a second of a moment at which the tick was recent. -/
theorem Gen.Prompt.forward (h : g.Prompt P) (hpoint : g.point = .polling) {w : ℚ} (h0 : 0 ≤ w)
    (h1 : w ≤ 1) {g' : Gen} (hf : g'.forwarded = g.forwarded ++ [g.now + w])
    (hr : g'.resolved = g.resolved) : g'.Fresh P := by
  have hrecent := h.recent hpoint
  have hpast := h.past
  intro t ht
  rw [hf] at ht
  rw [hr]
  rcases List.mem_append.1 ht with ht | ht
  · exact h.fresh t ht
  · rw [List.mem_singleton.1 ht]
    refine ⟨g.lastTick, h.tick (by rw [hpoint]; simp), ?_, ?_⟩ <;> linarith

theorem Gen.Prompt.step (hP : 1 ≤ P) (h : g.Prompt P) {l : GenStep}
    (hok : ReaderIs (fun d => d = 0) g l) (hs : (generator P).step g l = some g') : g'.Prompt P := by
  have hP' : (1 : ℚ) ≤ P := by exact_mod_cast hP
  have hpast := h.past
  cases l with
  | unread suspended =>
    cases suspended with
    | none =>
      obtain ⟨hpoint, hs⟩ := Option.ite_none_right_eq_some.1 hs
      cases hs
      refine ⟨nofun, fun _ => h.opened hpoint, le_refl _, ?_, h.fresh⟩
      intro _
      show g.now - g.now < P
      linarith
    | some d =>
      obtain rfl : d = 0 := hok d rfl
      obtain ⟨⟨hpoint, -⟩, hs⟩ := Option.ite_none_right_eq_some.1 hs
      cases hs
      refine ⟨nofun, ?_, le_refl _, ?_, h.fresh⟩
      · intro _
        show g.now + 0 ∈ g.resolved
        rw [add_zero]
        exact h.opened hpoint
      · intro _
        show g.now + 0 - (g.now + 0) < P
        linarith
  | disconnected =>
    obtain ⟨hpoint, hs⟩ := Option.ite_none_right_eq_some.1 hs
    cases hs
    exact ⟨nofun, fun _ => h.tick (by rw [hpoint]; simp), hpast, nofun, h.fresh⟩
  | message w d =>
    obtain ⟨⟨hpoint, h0, h1, hd⟩, hs⟩ := Option.ite_none_right_eq_some.1 hs
    cases hs
    refine ⟨nofun, fun _ => h.tick (by rw [hpoint]; simp), ?_, nofun, h.forward hpoint h0 h1 rfl rfl⟩
    show g.lastTick ≤ g.now + w + d
    linarith
  | silence w =>
    obtain ⟨⟨hpoint, h0, -⟩, hs⟩ := Option.ite_none_right_eq_some.1 hs
    cases hs
    refine ⟨nofun, fun _ => h.tick (by rw [hpoint]; simp), ?_, nofun, h.fresh⟩
    show g.lastTick ≤ g.now + w
    linarith
  | pass =>
    obtain ⟨⟨hpoint, hdue⟩, hs⟩ := Option.ite_none_right_eq_some.1 hs
    cases hs
    refine ⟨nofun, fun _ => h.tick (by rw [hpoint]; simp), hpast, ?_, h.fresh⟩
    intro _
    exact not_le.1 hdue
  | ping d =>
    obtain rfl : d = 0 := hok d rfl
    obtain ⟨-, hs⟩ := Option.ite_none_right_eq_some.1 hs
    cases hs
    refine ⟨nofun, ?_, le_refl _, ?_, h.fresh.of_resolved rfl fun r hr => List.mem_append_left _ hr⟩
    · intro _
      show g.now + 0 ∈ g.resolved ++ [g.now]
      simp
    · intro _
      show g.now + 0 - (g.now + 0) < P
      linarith
  | refused =>
    obtain ⟨⟨hpoint, -⟩, hs⟩ := Option.ite_none_right_eq_some.1 hs
    cases hs
    exact ⟨nofun, fun _ => h.tick (by rw [hpoint]; simp), hpast, nofun, h.fresh⟩

theorem held_nonneg {l : GenStep} (hs : (generator P).step g l = some g') {d : ℚ}
    (hd : l.held = some d) : 0 ≤ d := by
  cases l with
  | unread suspended =>
    obtain rfl : suspended = some d := hd
    exact (Option.ite_none_right_eq_some.1 hs).1.2
  | ping suspended =>
    cases hd
    exact (Option.ite_none_right_eq_some.1 hs).1.2.2
  | _ => cases hd

theorem prompt_fresh (hP : 1 ≤ P) {slow : ℚ → Prop} (hslow : ∀ d, 0 ≤ d → slow d → d = 0) {t₀ : ℚ}
    (h : (generator P).Run (ReaderIs slow) (.connect t₀) g) : g.Fresh P := by
  refine (h.inv (Gen.Prompt P) ?_ ?_).fresh
  · exact ⟨fun _ => List.mem_singleton_self _, fun hne => absurd rfl hne, le_refl _, nofun, nofun⟩
  · intro g l g' hI hok hs
    refine hI.step hP ?_ hs
    intro d hd
    exact hslow d (held_nonneg hs hd) (hok d hd)

end

/-! ## Everybody else -/

section
variable {P : Int} {slow : ℚ → Prop} {t₀ : ℚ}

/-- Without a positive ping interval a message that takes its second is too late. -/
theorem interval_of_fresh
    (h : ∀ g, (generator P).Run (ReaderIs slow) (.connect t₀) g → g.Fresh P) : 1 ≤ P := by
  have h1 : (generator P).Run (ReaderIs slow) (.connect t₀) ⟨t₀, t₀, .polling, [t₀], []⟩ :=
    .next (l := .unread none) .start nofun rfl
  have h2 : (generator P).Run (ReaderIs slow) (.connect t₀)
      ⟨t₀ + 1 + 0, t₀, .checking, [t₀], [t₀ + 1]⟩ := by
    refine .next (l := .message 1 0) h1 nofun ?_
    simp [generator, Gen.step]
  obtain ⟨r, hr, -, hlt⟩ := h _ h2 (t₀ + 1) (List.mem_singleton_self _)
  obtain rfl : r = t₀ := List.mem_singleton.1 hr
  have hpos : (0 : ℚ) < P := by linarith
  exact_mod_cast hpos

/-- After an unread frame that waited for `d`, silence for `n` seconds. -/
theorem quiet_seconds {d : ℚ} (hd : 0 ≤ d) (hslow : slow d) (n : ℕ) (hn : (n : ℚ) ≤ P - 1) :
    (generator P).Run (ReaderIs slow) (.connect t₀)
      ⟨t₀ + d + n, t₀ + d, .polling, [t₀], []⟩ := by
  induction n with
  | zero =>
    refine .next (l := .unread (some d)) .start (fun _ h => by cases h; exact hslow) ?_
    simp [generator, Gen.step, Gen.connect, hd]
  | succ n ih =>
    have hn' : (n : ℚ) + 1 ≤ P - 1 := by exact_mod_cast hn
    have hwait : (generator P).Run (ReaderIs slow) (.connect t₀)
        ⟨t₀ + d + (n + 1), t₀ + d, .checking, [t₀], []⟩ := by
      refine .next (l := .silence 1) (ih (by linarith)) nofun ?_
      simp [generator, Gen.step, add_assoc]
    refine .next (l := .pass) hwait nofun ?_
    have hlt : (n : ℚ) + 1 < P := by linarith
    simp [generator, Gen.step, Gen.due, hlt]

/-- A reader that keeps a frame waiting gets a message that late. -/
theorem prompt_of_fresh
    (h : ∀ g, (generator P).Run (ReaderIs slow) (.connect t₀) g → g.Fresh P) {d : ℚ} (hd : 0 ≤ d)
    (hslow : slow d) : d = 0 := by
  have hP := interval_of_fresh h
  by_contra hne
  have hpos : 0 < d := lt_of_le_of_ne hd (Ne.symm hne)
  -- just before the check of the last second, by less than the frame waited
  have he0 : 0 < min d 1 / 2 := half_pos (lt_min hpos one_pos)
  have he1 : min d 1 / 2 ≤ d / 2 := by
    have := min_le_left d 1
    linarith
  have he2 : min d 1 / 2 ≤ 1 := by
    have := min_le_right d 1
    linarith
  generalize min d 1 / 2 = e at he0 he1 he2
  obtain ⟨n, hn⟩ : ∃ n : ℕ, (n : ℤ) = P - 1 := ⟨(P - 1).toNat, by omega⟩
  have hn' : (n : ℚ) = P - 1 := by exact_mod_cast hn
  have h1 : (generator P).Run (ReaderIs slow) (.connect t₀) ⟨t₀ + d + n, t₀ + d, .polling, [t₀], []⟩ :=
    quiet_seconds hd hslow n (le_of_eq hn')
  have h2 : (generator P).Run (ReaderIs slow) (.connect t₀)
      ⟨t₀ + d + n + (1 - e), t₀ + d, .checking, [t₀], []⟩ := by
    refine .next (l := .silence (1 - e)) h1 nofun ?_
    simp [generator, Gen.step, he2, he0.le]
  have h3 : (generator P).Run (ReaderIs slow) (.connect t₀)
      ⟨t₀ + d + n + (1 - e), t₀ + d, .polling, [t₀], []⟩ := by
    refine .next (l := .pass) h2 nofun ?_
    have hnd : ¬ (P : ℚ) ≤ t₀ + d + n + (1 - e) - (t₀ + d) := by linarith
    simp only [generator, Gen.step, Gen.due, hnd, not_false_eq_true, and_self, if_true]
  have h4 : (generator P).Run (ReaderIs slow) (.connect t₀)
      ⟨t₀ + d + n + (1 - e) + 1 + 0, t₀ + d, .checking, [t₀], [t₀ + d + n + (1 - e) + 1]⟩ := by
    refine .next (l := .message 1 0) h3 nofun ?_
    simp [generator, Gen.step]
  obtain ⟨r, hr, -, hlt⟩ := h _ h4 _ (List.mem_singleton_self _)
  obtain rfl : r = t₀ := List.mem_singleton.1 hr
  linarith

/-- **When every forwarded event is freshly authorized**: in all runs with a given reader,
exactly if the ping interval is positive and the reader takes unread and ping frames at once. -/
theorem forwards_fresh_iff (pingInterval : Int) (slow : ℚ → Prop) (t₀ : ℚ) :
    (∀ g, (generator pingInterval).Run (ReaderIs slow) (.connect t₀) g → g.Fresh pingInterval) ↔
      1 ≤ pingInterval ∧ ∀ d, 0 ≤ d → slow d → d = 0 := by
  constructor
  · intro h
    exact ⟨interval_of_fresh h, fun d hd hslow => prompt_of_fresh h hd hslow⟩
  · rintro ⟨hP, hslow⟩ g hg
    exact prompt_fresh hP hslow hg

end

/-- With pings every 15 seconds: the reader takes the unread frame after half a minute, and a
message is forwarded right then. -/
theorem slow_reader_outlives_authorization : ∃ g,
    (generator 15).Run (fun _ _ => True) (.connect 0) g ∧ g.forwarded = [30] ∧ g.resolved = [0] ∧
    ¬ g.Fresh 15 := by
  have htrace : (generator 15).trace (fun _ _ => true) (.connect 0)
      [.unread (some 30), .message 0 0] = some ⟨30, 30, .checking, [0], [30]⟩ := by
    decide +kernel
  refine ⟨_, Machine.Run.trace (fun _ _ _ => trivial) .start htrace, rfl, rfl, ?_⟩
  intro h
  obtain ⟨r, hr, -, hlt⟩ := h 30 (List.mem_singleton_self _)
  obtain rfl : r = 0 := List.mem_singleton.1 hr
  norm_num at hlt

end Muster
