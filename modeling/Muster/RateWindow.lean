import Muster.Lib.FixedWindow
import Muster.Traffic

/-!
# The rate limiter over whole runs

Any number of rate checks run at once, for any senders, one command at a time.  The
counter of one sender and kind is a fixed-window meter: INCR with EXPIRE NX is a hit, and
an EXPIRE of the re-arm branch, which may come when another call has started a new
counter, is a `rearm` (`meterOf_incr`, `meterOf_expire`).  Its bounds are the meter's
(`rate_limit_bounds_windows`).
-/

namespace Muster

abbrev LimiterWorld := World Cmd Cmd.Reply PyExn (Bool × Int) (RateKind × PyStr) Db

abbrev LimiterEvent := Event Cmd Cmd.Reply (RateKind × PyStr) Db

/-- Rate checks at once, each of a kind and a sender. -/
def limiter (srv : Server) (limit : RateKind → Int) (window : Int) :
    Pool Cmd Cmd.Reply PyExn (Bool × Int) (RateKind × PyStr) Db Env where
  exec := exec srv
  env := Env.apply
  body who := rateCheck who.1 who.2 (limit who.1) window

/-! ## One call -/

inductive CheckSends (kind : RateKind) (a : PyStr) (limit window : Int) : Log → Cmd → Prop
  | incr : CheckSends kind a limit window [] (.incr kind a window)
  | ttl (n : Nat) : limit < n →
    CheckSends kind a limit window [sent (.incr kind a window) n] (.ttl (.rate kind a))
  | expire (n : Nat) (ttl : Int) : limit < n → CheckSends kind a limit window
    [sent (.incr kind a window) n, sent (.ttl (.rate kind a)) ttl] (.expire (.rate kind a) window)

inductive CheckEnds (kind : RateKind) (a : PyStr) (limit window : Int) :
    Except PyExn (Bool × Int) → Log → Prop
  | accepted (n : Nat) : n ≤ limit →
    CheckEnds kind a limit window (.ok (true, 0)) [sent (.incr kind a window) n]
  | rejected (n : Nat) (ttl retry : Int) : limit < n → CheckEnds kind a limit window
    (.ok (false, retry)) [sent (.incr kind a window) n, sent (.ttl (.rate kind a)) ttl]
  | rearmed (n : Nat) (ttl retry : Int) : limit < n → CheckEnds kind a limit window
    (.ok (false, retry)) [sent (.incr kind a window) n, sent (.ttl (.rate kind a)) ttl,
      sent (.expire (.rate kind a) window) ()]

theorem rateCheck_steps (kind : RateKind) (a : PyStr) (limit window : Int) :
    (rateCheck kind a limit window).Ensures (CheckSends kind a limit window)
      (CheckEnds kind a limit window) [] := by
  simp only [rateCheck, send, Prog.cmd_bind, Prog.ensures_call]
  refine ⟨.incr, ?_⟩
  intro n
  split
  · next hn =>
    simp only [Prog.ensures_call]
    refine ⟨.ttl n hn, ?_⟩
    intro ttl
    split
    · exact ⟨.expire n ttl hn, fun _ => .rearmed n ttl _ hn⟩
    · exact .rejected n ttl _ hn
  · next hn => exact .accepted n (by omega)

section
variable {kind : RateKind} {a : PyStr} {limit window : Int} {l : Log}

/-- INCR comes first. -/
theorem CheckSends.of_incr {k : RateKind} {b : PyStr} {w : Int}
    (h : CheckSends kind a limit window l (.incr k b w)) : l = [] ∧ k = kind ∧ b = a ∧ w = window := by
  cases h
  exact ⟨rfl, rfl, rfl, rfl⟩

/-- An INCR answered within the limit is the whole of an accepted call. -/
theorem CheckEnds.accepted_of_mem {out : Except PyExn (Bool × Int)}
    (h : CheckEnds kind a limit window out l) {k : RateKind} {b : PyStr} {w : Int} {n : Nat}
    (hn : sent (.incr k b w) n ∈ l) (hle : n ≤ limit) : out = .ok (true, 0) := by
  cases h with
  | accepted => rfl
  | rejected m ttl retry hm =>
    rcases List.mem_cons.1 hn with hn | hn
    · cases hn
      omega
    · cases List.mem_singleton.1 hn
  | rearmed m ttl retry hm =>
    rcases List.mem_cons.1 hn with hn | hn
    · cases hn
      omega
    · rcases List.mem_cons.1 hn with hn | hn
      · cases hn
      · cases List.mem_singleton.1 hn

/-- And after it nothing is sent. -/
theorem CheckSends.not_after_accept {c : Cmd} (h : CheckSends kind a limit window l c) {k : RateKind}
    {b : PyStr} {w : Int} {n : Nat} (hn : sent (.incr k b w) n ∈ l) (hle : n ≤ limit) : False := by
  cases h with
  | incr => cases hn
  | ttl m hm =>
    cases List.mem_singleton.1 hn
    omega
  | expire m ttl hm =>
    rcases List.mem_cons.1 hn with hn | hn
    · cases hn
      omega
    · cases List.mem_singleton.1 hn

end

/-! ## The counter as a meter -/

/-- The hit that an INCR is, with the answer it had. -/
def hitOf (kind : RateKind) (a : PyStr) : LimiterEvent → Option Hit
  | ⟨_, _, .incr k b _, n, s⟩ =>
    if k = kind ∧ b = a then some ⟨s.now, n, !s.keys.has s.now (.rate kind a)⟩ else none
  | _ => none

def meterOf (kind : RateKind) (a : PyStr) (s : Db) (hist : List LimiterEvent) : Meter where
  now := s.now
  slot := s.keys (.rate kind a)
  hits := hist.filterMap (hitOf kind a)

section
variable {srv : Server} {limit : RateKind → Int} {window : Int} {kind : RateKind} {a : PyStr}

/-- A command that does not write the counter, and is no INCR of it. -/
theorem meterOf_other {s : Db} {hist : List LimiterEvent} {i : Nat} {op : RateKind × PyStr} {c : Cmd}
    {r : c.Reply} (hw : .rate kind a ∉ c.writes) :
    meterOf kind a (exec srv c s).1 (hist ++ [⟨i, op, c, r, s⟩]) = meterOf kind a s hist := by
  have hhit : hitOf kind a ⟨i, op, c, r, s⟩ = none := by
    unfold hitOf
    split
    · next heq =>
      cases heq
      refine if_neg ?_
      rintro ⟨rfl, rfl⟩
      simp [Cmd.writes] at hw
    · rfl
  unfold meterOf
  rw [exec_now, exec_other srv c s hw, List.filterMap_append, List.filterMap_cons, hhit]
  simp

theorem meterOf_incr (hwindow : 1 ≤ window) {s : Db} {hist : List LimiterEvent} {i : Nat}
    {op : RateKind × PyStr} :
    meterOf kind a (exec srv (.incr kind a window) s).1
        (hist ++ [⟨i, op, .incr kind a window, (exec srv (.incr kind a window) s).2, s⟩]) =
      (meterOf kind a s hist).hit (window.toNat * 1000) := by
  have hcurrent : (meterOf kind a s hist).current = s.keys.look s.now (.rate kind a) := rfl
  have hslot : (exec srv (.incr kind a window) s).1.keys (.rate kind a) = _ :=
    Keyspace.expireNx_edit_same (fun v => v.getD 0 + 1) (by omega)
  unfold Meter.hit
  rw [hcurrent]
  unfold meterOf
  rw [exec_now, hslot, List.filterMap_append]
  have hget : s.keys.get s.now (.rate kind a) = (s.keys.look s.now (.rate kind a)).map (·.val) := rfl
  have hreply : (exec srv (.incr kind a window) s).2 = (s.keys.get s.now (.rate kind a)).getD 0 + 1 := rfl
  simp only [hitOf, List.filterMap_cons, List.filterMap_nil, and_self, if_true, hreply, hget,
    Keyspace.has]
  cases s.keys.look s.now (.rate kind a) <;> rfl

theorem meterOf_expire (hwindow : 1 ≤ window) {s : Db} {hist : List LimiterEvent} {i : Nat}
    {op : RateKind × PyStr} {r : Unit} :
    meterOf kind a (exec srv (.expire (.rate kind a) window) s).1
        (hist ++ [⟨i, op, .expire (.rate kind a) window, r, s⟩]) =
      (meterOf kind a s hist).rearm (window.toNat * 1000) := by
  have hcurrent : (meterOf kind a s hist).current = s.keys.look s.now (.rate kind a) := rfl
  have hpos : ¬ window ≤ 0 := by omega
  unfold Meter.rearm
  rw [hcurrent]
  unfold meterOf
  rw [exec_now, List.filterMap_append]
  simp only [hitOf, List.filterMap_cons, List.filterMap_nil, List.append_nil, exec, Keyspace.expire]
  cases hs : s.keys.look s.now (.rate kind a) with
  | none => rfl
  | some slot => simp [hpos]

/-- The counter is absent, or expires within a window. -/
def Armed (kind : RateKind) (a : PyStr) (window : Int) (s : Db) : Prop :=
  ∀ slot, s.keys (.rate kind a) = some slot →
    ∃ d, slot.deadline = some d ∧ d ≤ s.now + window.toNat * 1000

theorem limiter_sends (_ : LimiterWorld) (op : RateKind × PyStr) (_ : True) :
    ((limiter srv limit window).body op).Ensures (CheckSends op.1 op.2 (limit op.1) window)
      (CheckEnds op.1 op.2 (limit op.1) window) [] :=
  rateCheck_steps op.1 op.2 (limit op.1) window

theorem limiter_commands (c : LimiterWorld) (op : RateKind × PyStr) (h : True) :
    ((limiter srv limit window).body op).Ensures (CheckSends op.1 op.2 (limit op.1) window)
      (fun _ _ => True) [] :=
  (limiter_sends c op h).mono (fun _ _ => id) fun _ _ _ => trivial

variable {s₀ : Db} {c : LimiterWorld}

/-- **The counter is a sound meter in every run.** -/
theorem meterOf_sound (hwindow : 1 ≤ window) (hs : Armed kind a window s₀)
    (h : (limiter srv limit window).Reach (fun _ _ => True) s₀ c) :
    (meterOf kind a c.st c.hist).Sound (window.toNat * 1000) := by
  refine Pool.reach_inv (fun s hist => (meterOf kind a s hist).Sound (window.toNat * 1000)) h
    limiter_commands (.start hs rfl) ?_ ?_
  · intro c i op cmd k _ ih _ _ hsends
    show (meterOf kind a (exec srv cmd c.st).1 _).Sound _
    by_cases hw : .rate kind a ∈ cmd.writes
    · generalize c.log i = l at hsends
      cases hsends with
      | incr =>
        obtain ⟨rfl, rfl⟩ : kind = op.1 ∧ a = op.2 := by simpa [Cmd.writes] using hw
        show (meterOf _ _ (exec srv _ c.st).1
          (c.hist ++ [⟨i, op, _, (exec srv (.incr op.1 op.2 window) c.st).2, c.st⟩])).Sound _
        rw [meterOf_incr hwindow]
        exact ih.hit (by omega)
      | ttl n hn => simp [Cmd.writes] at hw
      | expire n ttl hn =>
        obtain ⟨rfl, rfl⟩ : kind = op.1 ∧ a = op.2 := by simpa [Cmd.writes] using hw
        rw [meterOf_expire hwindow]
        exact ih.rearm
    · rw [meterOf_other hw]
      exact ih
  · intro c e ih _
    cases e with
    | tick d => exact ih.wait d
    | evict b n => exact ih

/-! ## The bounds -/

/-- The INCR of an accepted call. -/
def accepts (kind : RateKind) (a : PyStr) (limit : Int) : LimiterEvent → Bool
  | ⟨_, _, .incr k b _, n, _⟩ => decide (k = kind ∧ b = a ∧ (n : Int) ≤ limit)
  | _ => false

/-- Call `i` has been accepted. -/
def Accepted (kind : RateKind) (a : PyStr) (c : LimiterWorld) (i : Nat) : Prop :=
  (∃ p, c.procs[i]? = some p ∧ p.op = (kind, a)) ∧ ∃ retry, c.result i = some (.ok (true, retry))

/-- The counter does not expire: once an event leaves it there, it is there at every later one. -/
def NoExpiry (srv : Server) (kind : RateKind) (a : PyStr) (events : List LimiterEvent) : Prop :=
  events.Pairwise fun e e' => (exec srv e.cmd e.pre).1.keys.has e.pre.now (.rate kind a) = true →
    e'.pre.keys.has e'.pre.now (.rate kind a) = true

theorem accepts_iff {e : LimiterEvent} {n : Int} : accepts kind a n e = true ↔
    ∃ (w : Int) (m : Nat), sent e.cmd e.reply = sent (.incr kind a w) m ∧ (m : Int) ≤ n := by
  obtain ⟨i, op, cmd, r, s⟩ := e
  cases cmd with
  | incr k b w =>
    simp only [accepts, decide_eq_true_eq]
    constructor
    · rintro ⟨rfl, rfl, hle⟩
      exact ⟨w, r, rfl, hle⟩
    · rintro ⟨w', m, heq, hle⟩
      cases heq
      exact ⟨rfl, rfl, hle⟩
  | _ =>
    refine iff_of_false nofun ?_
    rintro ⟨w, m, heq, -⟩
    cases heq

/-- An INCR is accepted by what it is answered. -/
theorem accepts_eq_hit {n : Int} (hn : 0 ≤ n) (e : LimiterEvent) :
    accepts kind a n e = ((hitOf kind a e).map fun x => decide (x.count ≤ n.toNat)).getD false := by
  obtain ⟨i, op, cmd, r, s⟩ := e
  cases cmd with
  | incr k b w =>
    by_cases hk : k = kind ∧ b = a
    · obtain ⟨rfl, rfl⟩ := hk
      simp only [accepts, hitOf, true_and, and_self, if_true, Option.map_some, Option.getD_some,
        decide_eq_decide]
      omega
    · simp only [accepts, hitOf, if_neg hk, Option.map_none, Option.getD_none,
        decide_eq_false_iff_not]
      exact fun h => hk ⟨h.1, h.2.1⟩
  | _ => rfl

theorem hitOf_time {e : LimiterEvent} {x : Hit} (h : hitOf kind a e = some x) : x.time = e.pre.now := by
  unfold hitOf at h
  split at h
  · split at h
    · cases h
      rfl
    · cases h
  · cases h

/-- After an INCR the counter is there. -/
theorem has_incr (hwindow : 1 ≤ window) (s : Db) :
    (exec srv (.incr kind a window) s).1.keys.has s.now (.rate kind a) = true := by
  have hpos : ¬ window ≤ 0 := by omega
  simp only [exec, Keyspace.has, Keyspace.look_expireNx_same, Keyspace.look_edit_same,
    Option.bind_some]
  split
  · rfl
  · rw [if_neg hpos]
    rfl

/-- What an accepted call has executed. -/
theorem accepted_iff (h : (limiter srv limit window).Reach (fun _ _ => True) s₀ c) (i : Nat) :
    Accepted kind a c i ↔ ∃ e ∈ c.hist, e.pid = i ∧ accepts kind a (limit kind) e = true := by
  constructor
  · rintro ⟨⟨p, hp, hop⟩, retry, hres⟩
    obtain ⟨p', hp', hends⟩ := Pool.reach_result
      (Q := fun op => CheckEnds op.1 op.2 (limit op.1) window) h
      (fun c op hok => (limiter_sends c op hok).mono (fun _ _ _ => trivial) fun _ _ => id) hres
    rw [hp] at hp'
    cases hp'
    rw [hop] at hends
    generalize hl : c.log i = l at hends
    cases hends with
    | accepted n hn =>
      have hmem : sent (.incr kind a window) n ∈ c.log i := by
        rw [hl]
        exact List.mem_cons_self
      obtain ⟨e, he, hpid, heq⟩ := Event.mem_logOf_iff.1 hmem
      exact ⟨e, he, hpid, accepts_iff.2 ⟨window, n, heq, hn⟩⟩
  · rintro ⟨e, he, rfl, hacc⟩
    obtain ⟨w, n, heq, hn⟩ := accepts_iff.1 hacc
    obtain ⟨p, hp, hop⟩ := h.proc_of_mem_hist e he
    have hlog : sent (.incr kind a w) n ∈ c.log e.pid := Event.mem_logOf_iff.2 ⟨e, he, rfl, heq⟩
    obtain ⟨l, hsent⟩ := h.sends limiter_commands e he
    have hkind : kind = e.op.1 ∧ a = e.op.2 := by
      have hcmd : e.cmd = .incr kind a w := congrArg Sigma.fst heq
      rw [hcmd] at hsent
      exact ⟨hsent.of_incr.2.1, hsent.of_incr.2.2.1⟩
    have hens := Pool.reach_ensures h limiter_sends e.pid p hp
    rw [hop, ← hkind.1, ← hkind.2] at hens
    have hpair : e.op = (kind, a) := Prod.ext hkind.1.symm hkind.2.symm
    refine ⟨⟨p, hp, hop.trans hpair⟩, 0, ?_⟩
    unfold World.result
    rw [hp]
    obtain ⟨op, prog⟩ := p
    cases prog with
    | ret out => exact congrArg some (CheckEnds.accepted_of_mem hens hlog hn)
    | throw e => cases CheckEnds.accepted_of_mem hens hlog hn
    | call cmd k => exact (hens.1.not_after_accept hlog hn).elim

/-- A call has one INCR. -/
theorem accepts_distinct (h : (limiter srv limit window).Reach (fun _ _ => True) s₀ c) :
    ((c.hist.filter (accepts kind a (limit kind))).map (·.pid)).Nodup := by
  have hpair : c.hist.Pairwise fun e e' => accepts kind a (limit kind) e' = true → e.pid ≠ e'.pid := by
    refine Pool.reach_inv (fun _ hist => hist.Pairwise fun e e' : LimiterEvent =>
      accepts kind a (limit kind) e' = true → e.pid ≠ e'.pid) h limiter_commands .nil ?_ fun _ _ ih _ => ih
    intro c i op cmd k _ ih _ _ hsends
    refine List.pairwise_append.2 ⟨ih, List.pairwise_singleton _ _, ?_⟩
    intro e he e' he' hacc
    rw [List.mem_singleton.1 he'] at hacc ⊢
    obtain ⟨w, n, heq, -⟩ := accepts_iff.1 hacc
    have hcmd : cmd = .incr kind a w := congrArg Sigma.fst heq
    rw [hcmd] at hsends
    have hnil := hsends.of_incr.1
    intro hpid
    have hmem : sent e.cmd e.reply ∈ c.log i := Event.mem_logOf_iff.2 ⟨e, he, hpid, rfl⟩
    rw [hnil] at hmem
    cases hmem
  refine List.pairwise_map.2 (List.pairwise_filter.2 (hpair.imp ?_))
  intro e e' hne _ hacc
  exact hne hacc

/-- What the limiter holds one sender and kind to. -/
structure Limited (srv : Server) (kind : RateKind) (a : PyStr) (limit window : Int) (c : LimiterWorld) :
    Prop where
  /-- each accepted call is accepted by one INCR -/
  calls : ∀ i, Accepted kind a c i ↔ ∃ e ∈ c.hist, e.pid = i ∧ accepts kind a limit e = true
  distinct : ((c.hist.filter (accepts kind a limit)).map (·.pid)).Nodup
  betweenExpiries : ∀ events, events <:+: c.hist → NoExpiry srv kind a events →
    (events.countP (accepts kind a limit) : Int) ≤ limit
  perWindow : ∀ t, (c.hist.countP fun e => accepts kind a limit e &&
    (decide (t ≤ e.pre.now) && decide (e.pre.now ≤ t + window.toNat * 1000)) : Int) ≤ 2 * limit
  armed : c.st.keys.has c.st.now (.rate kind a) = true →
    0 ≤ c.st.keys.ttl c.st.now (.rate kind a) ∧ c.st.keys.ttl c.st.now (.rate kind a) ≤ window

theorem ttl_le_of_sound (hwindow : 1 ≤ window) {s : Db} {hist : List LimiterEvent}
    (h : (meterOf kind a s hist).Sound (window.toNat * 1000)) (hhas : s.keys.has s.now (.rate kind a) = true) :
    0 ≤ s.keys.ttl s.now (.rate kind a) ∧ s.keys.ttl s.now (.rate kind a) ≤ window := by
  obtain ⟨slot, hslot⟩ := Option.isSome_iff_exists.1 hhas
  obtain ⟨d, hd, hle, -⟩ := h.armed slot (Keyspace.look_eq_some_iff.1 hslot).1
  obtain ⟨n, _⟩ := slot
  cases hd
  have hle' : d ≤ s.now + window.toNat * 1000 := hle
  unfold Keyspace.ttl
  rw [hslot]
  dsimp only
  omega

/-- No counter is started within events between which the counter does not expire. -/
theorem unbroken_of_noExpiry (h : (limiter srv limit window).Reach (fun _ _ => True) s₀ c)
    (hwindow : 1 ≤ window) {events : List LimiterEvent} (hin : events <:+: c.hist)
    (hkeep : NoExpiry srv kind a events) : Meter.Unbroken (events.filterMap (hitOf kind a)) := by
  have hincr : ∀ e ∈ events, ∀ x, hitOf kind a e = some x → e.cmd = .incr kind a window ∧
      x.fresh = !e.pre.keys.has e.pre.now (.rate kind a) := by
    intro e he x hx
    obtain ⟨l, hsent⟩ := h.sends limiter_commands e (hin.subset he)
    obtain ⟨i, op, cmd, r, s⟩ := e
    cases cmd with
    | incr k b w =>
      by_cases hk : k = kind ∧ b = a
      · obtain ⟨rfl, rfl⟩ := hk
        simp only [hitOf, and_self, if_true, Option.some.injEq] at hx
        subst hx
        exact ⟨congrArg (Cmd.incr k b) (CheckSends.of_incr hsent).2.2.2, rfl⟩
      · simp only [hitOf, if_neg hk] at hx
        cases hx
    | _ => cases hx
  have hpair : (events.filterMap (hitOf kind a)).Pairwise fun _ x => x.fresh = false := by
    rw [List.pairwise_filterMap]
    refine List.Pairwise.imp_of_mem ?_ hkeep
    intro e e' he he' hlive x hx x' hx'
    obtain ⟨hcmd, -⟩ := hincr e he x hx
    obtain ⟨-, hfresh⟩ := hincr e' he' x' hx'
    rw [hfresh, hlive (by rw [hcmd]; exact has_incr hwindow e.pre)]
    rfl
  intro x hx
  cases hhits : events.filterMap (hitOf kind a) with
  | nil =>
    rw [hhits] at hx
    cases hx
  | cons y hits =>
    rw [hhits] at hpair hx
    exact List.rel_of_pairwise_cons hpair hx

/-- **The rate limiter bounds every window.**  In every run of rate checks, of whatever senders
and kinds, at most `limit` calls of one sender and kind are accepted while their counter does not
expire, at most twice as many in any interval of the length of a window, and a counter that exists
expires within a window. -/
theorem rate_limit_bounds_windows (hlimit : 0 ≤ limit kind) (hwindow : 1 ≤ window)
    (hs : Armed kind a window s₀)
    (h : (limiter srv limit window).Reach (fun _ _ => True) s₀ c) :
    Limited srv kind a (limit kind) window c where
  calls := accepted_iff h
  distinct := accepts_distinct h
  betweenExpiries events hin hkeep := by
    have hbound := (meterOf_sound hwindow hs h).count_unbroken (hin.filterMap (hitOf kind a))
      (unbroken_of_noExpiry h hwindow hin hkeep) (limit kind).toNat
    rw [List.countP_filterMap] at hbound
    have hcount : events.countP (accepts kind a (limit kind)) =
        events.countP fun e => ((hitOf kind a e).map fun x =>
          decide (x.count ≤ (limit kind).toNat)).getD false :=
      List.countP_congr fun e _ => by rw [accepts_eq_hit hlimit]
    rw [hcount]
    omega
  perWindow t := by
    have hbound := (meterOf_sound hwindow hs h).count_window (limit kind).toNat t
    have hhits : (meterOf kind a c.st c.hist).hits = c.hist.filterMap (hitOf kind a) := rfl
    rw [hhits, List.countP_filterMap] at hbound
    have hcount : (c.hist.countP fun e => accepts kind a (limit kind) e &&
          (decide (t ≤ e.pre.now) && decide (e.pre.now ≤ t + window.toNat * 1000))) =
        c.hist.countP fun e => ((hitOf kind a e).map fun x => decide (x.count ≤ (limit kind).toNat) &&
          (decide (t ≤ x.time) && decide (x.time ≤ t + window.toNat * 1000))).getD false := by
      refine List.countP_congr ?_
      intro e _
      rw [accepts_eq_hit hlimit]
      cases hx : hitOf kind a e with
      | none => simp
      | some x => simp [hitOf_time hx]
    rw [hcount]
    omega
  armed := ttl_le_of_sound hwindow (meterOf_sound hwindow hs h)

end

/-! ## Two calls at a limit of one -/

def burst : LimiterWorld :=
  (limiter Server.plain (fun _ => 1) 60).follow (.start (.empty 5000))
    [.spawn (.chat, lit "u/h/r/p/s"), .spawn (.chat, lit "u/h/r/p/s"), .step 0, .step 1,
      .env (.tick 2000), .step 1]

theorem rate_limit_bounds_windows_burst :
    burst.result 0 = some (.ok (true, 0)) ∧ burst.result 1 = some (.ok (false, 58)) ∧
      Limited .plain .chat (lit "u/h/r/p/s") 1 60 burst := by
  have harmed : Armed .chat (lit "u/h/r/p/s") 60 (.empty 5000) := by
    intro slot h
    cases h
  have hreach : (limiter Server.plain (fun _ => 1) 60).Reach (fun _ _ => True) (.empty 5000) burst :=
    Pool.Reach.follow .start fun _ _ _ => trivial
  exact ⟨rfl, rfl, @rate_limit_bounds_windows .plain (fun _ => 1) 60 .chat (lit "u/h/r/p/s")
    (.empty 5000) burst (by decide) (by decide) harmed hreach⟩

end Muster
