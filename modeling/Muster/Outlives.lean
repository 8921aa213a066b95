import Muster.MailLog
import Muster.ReaperRace
import Muster.RetryAfter

/-!
# Mail and the retention of identities (`config.py`, `reaper.py`)

The reaper deletes an inbox whole, expired or not: what keeps waiting mail from being lost is
the times.  A configuration with `agent_retention < message_ttl` is refused, so that what waits
when an agent registers expires before its identity does.

Any calls in any interleaving, registrations kept out of the window of a pass
(`RegisterClear`).  What has waited at a registration is in the inbox until it expires; what
arrives later is if it expires within the retention of the last registration, and is not
otherwise (`mail_outlives_reaper`).
-/

namespace Muster

/-- There, or expired. -/
def Db.Holds (s : Db) (a : PyStr) (e : Entry) : Prop := e ∈ s.inbox a ∨ e.expiresAt ≤ s.sec

def Cmd.registers (a : PyStr) : Cmd → Bool
  | .register b _ _ => b = a
  | _ => false

/-- When `a` last registered, in milliseconds. -/
def registeredAt (a : PyStr) (hist : List Ev) : Option Nat :=
  (hist.filter (·.cmd.registers a)).getLast?.map (·.pre.now)

/-- The calls are the code's: identities are registered for `agent_retention`, messages are
stamped with `message_ttl`; nothing is evicted. -/
structure Configured (cfg : Config) (w : Moment) (l : Label Call Env) : Prop where
  clear : RegisterClear w l
  retention : ∀ addr groups metadata retention,
    l = .spawn (.registerAgent addr groups metadata retention) → retention = cfg.agentRetention
  ttl : ∀ dest fields maxlen ttl, l = .spawn (.appendMessage dest fields maxlen ttl) →
    ttl = cfg.messageTtl
  full : ∀ a n, l ≠ .env (.evict a n)

/-- Found in the inbox at an event, and to expire within the retention of the registration
before it, which may be that event. -/
def Promised (cfg : Config) (a : PyStr) (e : Entry) (hist : List Ev) : Prop :=
  ∃ before ev after t, hist = before ++ ev :: after ∧ registeredAt a (before ++ [ev]) = some t ∧
    e ∈ ev.pre.inbox a ∧ e.expiresAt ≤ (t / 1000 : Nat) + cfg.agentRetention

/-- No message is stamped for longer than `message_ttl` from now. -/
def Db.Stamped (cfg : Config) (s : Db) : Prop :=
  ∀ a, ∀ e ∈ s.inbox a, e.expiresAt ≤ s.sec + cfg.messageTtl

structure Guarded (cfg : Config) (st : Db) (hist : List Ev) : Prop where
  inboxes : ∀ a, st.Permanent (.inbox a)
  identity : ∀ a t, registeredAt a hist = some t →
    t ≤ st.now ∧ ∃ v, st.keys (.agent a) = stamped v t cfg.agentRetention
  promised : ∀ a e, Promised cfg a e hist → st.Holds a e ∧
    ∃ t, registeredAt a hist = some t ∧ e.expiresAt ≤ (t / 1000 : Nat) + cfg.agentRetention
  clock : ∀ ev ∈ hist, ∀ now, sent ev.cmd ev.reply = sent .time now → now ≤ st.now
  fresh : st.Stamped cfg
  were : ∀ ev ∈ hist, ev.pre.Stamped cfg

/-! ## Registrations on record -/

theorem registeredAt_append (a : PyStr) (hist : List Ev) (ev : Ev) :
    registeredAt a (hist ++ [ev]) =
      if ev.cmd.registers a then some ev.pre.now else registeredAt a hist := by
  unfold registeredAt
  rw [List.filter_append]
  by_cases h : ev.cmd.registers a = true
  · rw [if_pos h, List.filter_cons_of_pos (by simpa using h), List.filter_nil, List.getLast?_append]
    rfl
  · rw [if_neg h, List.filter_cons_of_neg (by simpa using h), List.filter_nil, List.append_nil]

theorem Promised.of_append {cfg : Config} {a : PyStr} {e : Entry} {hist : List Ev} {ev : Ev}
    (h : Promised cfg a e (hist ++ [ev])) : Promised cfg a e hist ∨
      e ∈ ev.pre.inbox a ∧ ∃ t, registeredAt a (hist ++ [ev]) = some t ∧
        e.expiresAt ≤ (t / 1000 : Nat) + cfg.agentRetention := by
  obtain ⟨before, ev', after, t, hsplit, ht, hin, hexp⟩ := h
  rcases List.eq_nil_or_concat after with rfl | ⟨after', last, rfl⟩
  · obtain ⟨rfl, hev⟩ := List.append_inj' hsplit rfl
    cases hev
    exact .inr ⟨hin, t, ht, hexp⟩
  · rw [List.concat_eq_append, ← List.cons_append, ← List.append_assoc] at hsplit
    exact .inl ⟨before, ev', after', t, (List.append_inj' hsplit rfl).1, ht, hin, hexp⟩

/-! ## One step -/

theorem sec_le_sec {t n : Nat} (h : t ≤ n) : ((t / 1000 : Nat) : Int) ≤ (n / 1000 : Nat) :=
  Int.ofNat_le.2 (Nat.div_le_div_right h)

section
variable {cfg : Config} {st : Db} {hist : List Ev}

theorem Guarded.live_iff (hI : Guarded cfg st hist) {a : PyStr} {t : Nat}
    (ht : registeredAt a hist = some t) : st.agent a ≠ none ↔
      0 < cfg.agentRetention ∧ (st.now : Int) < t + cfg.agentRetention * 1000 := by
  obtain ⟨-, v, hv⟩ := hI.identity a t ht
  rw [← stamped_live (v := v), ← hv, ← Option.isSome_iff_ne_none]
  simp [Db.agent, Keyspace.get, Keyspace.look]

/-- An identity that is gone has outlived what was promised under it. -/
theorem Guarded.expired (hI : Guarded cfg st hist) {a : PyStr} {e : Entry} {t : Nat}
    (ht : registeredAt a hist = some t) (hexp : e.expiresAt ≤ (t / 1000 : Nat) + cfg.agentRetention)
    (hgone : st.agent a = none) : e.expiresAt ≤ st.sec := by
  have hdead : ¬ (0 < cfg.agentRetention ∧ (st.now : Int) < t + cfg.agentRetention * 1000) := by
    rw [← hI.live_iff ht]
    exact not_not.2 hgone
  have hsec := sec_le_sec (hI.identity a t ht).1
  show e.expiresAt ≤ (st.now / 1000 : Nat)
  omega

variable (srv : Server) {i : Nat} {op : Call} {c : Cmd}

/-- Who appends, and with which stamp. -/
theorem Call.Sends.xadd {l : Log} {dest : PyStr} {fields : Fields} {ts expiresAt : Int} {maxlen : Nat}
    (h : op.Sends cfg l (.xadd dest fields ts expiresAt maxlen)) :
    ∃ now ttl, sent .time now ∈ l ∧ expiresAt = (now / 1000 : Nat) + ttl ∧
      (ttl = cfg.messageTtl ∨ ∃ dest fields maxlen, op = .appendMessage dest fields maxlen ttl) := by
  generalize hc : Cmd.xadd dest fields ts expiresAt maxlen = c at h
  cases op with
  | rpc ident header op args =>
    obtain ⟨sender, -, h⟩ := h
    cases h with
    | chat hop h =>
      cases h with
      | directory h => subst hc; cases h
      | rate h => subst hc; cases h
      | @xadd _ _ now _ _ _ _ _ _ _ htime =>
        cases hc
        exact ⟨now, _, htime, rfl, .inl rfl⟩
      | _ => cases hc
    | fetch limit hop h => cases h <;> cases hc
    | roster hop h => subst hc; cases h
    | announce hop h =>
      cases h with
      | directory h => subst hc; cases h
      | rate h => subst hc; cases h
      | publish => cases hc
  | appendMessage b f m ttl =>
    cases h with
    | time => cases hc
    | xadd fields now maxlen =>
      cases hc
      exact ⟨now, ttl, List.mem_singleton_self _, rfl, .inr ⟨_, _, _, rfl⟩⟩
  | registerAgent | touchPresence => subst hc; obtain h | ⟨_, h⟩ := h <;> cases h
  | fetchUnread | unreadCount | reapOnce => cases h <;> cases hc
  | clearPresence => subst hc; cases h

/-- An inbox is deleted by the reaper only, and added to; nothing else. -/
theorem Call.Sends.writes_inbox {l : Log} {a : PyStr} (h : op.Sends cfg l c) (hw : .inbox a ∈ c.writes) :
    (∃ fields ts expiresAt maxlen, c = .xadd a fields ts expiresAt maxlen) ∨
      op = .reapOnce ∧ ∃ l', l = l' ++ [sent (.exists (.agent a)) false] ∧
        c = .del [.inbox a, .cursor a, .presence a] := by
  cases c with
  | xadd b fields ts expiresAt maxlen =>
    obtain rfl : a = b := by simpa [Cmd.writes] using hw
    exact .inl ⟨_, _, _, _, rfl⟩
  | del ks =>
    obtain ⟨l', b, hl, rfl⟩ := h.del.2.del_eq
    obtain rfl : a = b := by simpa [Cmd.writes] using hw
    exact .inr ⟨h.del.1, l', hl, rfl⟩
  | expire k secs =>
    obtain ⟨kind, b, rfl⟩ := h.expire
    simp [Cmd.writes] at hw
  | _ => simp [Cmd.writes] at hw

/-- One command: what is promised is still there, or goes expired. -/
theorem Guarded.step (hI : Guarded cfg st hist) (hsound : Sound st hist)
    (hs : op.Sends cfg (Event.logOf hist i) c)
    (hretention : ∀ addr groups metadata retention, op = .registerAgent addr groups metadata retention →
      retention = cfg.agentRetention)
    (httl : ∀ dest fields maxlen ttl, op = .appendMessage dest fields maxlen ttl → ttl = cfg.messageTtl) :
    Guarded cfg (exec srv c st).1 (hist ++ [⟨i, op, c, (exec srv c st).2, st⟩]) where
  inboxes a := (hI.inboxes a).exec rfl srv fun secs h => by
    obtain ⟨kind, b, hk⟩ := Call.Sends.expire (h ▸ hs)
    cases hk
  identity a t ht := by
    rw [exec_now]
    rw [registeredAt_append] at ht
    by_cases hw : .agent a ∈ c.writes
    · obtain ⟨v, retention, rfl⟩ := hs.writes_agent hw
      obtain ⟨addr, groups, metadata, hop, -⟩ := hs.register
      rw [if_pos (by simp [Cmd.registers])] at ht
      cases ht
      refine ⟨le_rfl, v, ?_⟩
      rw [agent_slot_register, hretention _ _ _ _ hop]
    · have hno : c.registers a = false := by
        cases c with
        | register b v retention => simpa [Cmd.registers, Cmd.writes, eq_comm] using hw
        | _ => rfl
      rw [if_neg (by simp [hno])] at ht
      obtain ⟨hle, v, hv⟩ := hI.identity a t ht
      exact ⟨hle, v, (exec_other srv c st hw).trans hv⟩
  promised a e hp := by
    -- before the command
    have hheld : st.Holds a e ∧ ∃ t, registeredAt a (hist ++ [⟨i, op, c, (exec srv c st).2, st⟩]) = some t ∧
        e.expiresAt ≤ (t / 1000 : Nat) + cfg.agentRetention := by
      rcases hp.of_append with hp | ⟨hin, ht⟩
      · obtain ⟨hholds, t, ht, hexp⟩ := hI.promised a e hp
        refine ⟨hholds, ?_⟩
        rw [registeredAt_append]
        split
        · have := sec_le_sec (hI.identity a t ht).1
          exact ⟨st.now, rfl, by omega⟩
        · exact ⟨t, ht, hexp⟩
      · exact ⟨.inl hin, ht⟩
    obtain ⟨hholds, t, ht, hexp⟩ := hheld
    refine ⟨?_, t, ht, hexp⟩
    have hsec : (exec srv c st).1.sec = st.sec := by
      unfold Db.sec
      rw [exec_now]
    rcases hholds with hin | hgone
    · by_cases hw : .inbox a ∈ c.writes
      · rcases hs.writes_inbox hw with ⟨fields, ts, expiresAt, maxlen, rfl⟩ | ⟨-, l, hl, rfl⟩
        · refine .inl ?_
          rw [Db.inbox, stream_exec_xadd]
          exact Stream.mem_add.2 (.inl hin)
        · -- the pass has found no identity, and none has come since
          rw [registeredAt_append, if_neg (by simp [Cmd.registers])] at ht
          exact .inr (hI.expired ht hexp (hsound.window i a ⟨l, .inl hl⟩))
      · refine .inl ?_
        rw [Db.inbox, stream_exec_other srv hw]
        exact hin
    · exact .inr (hsec ▸ hgone)
  clock ev hev now hnow := by
    rw [exec_now]
    rcases List.mem_append.1 hev with hev | hev
    · exact hI.clock ev hev now hnow
    · rw [List.mem_singleton] at hev
      subst hev
      obtain rfl : c = .time := congrArg Sigma.fst hnow
      simp only [sent, Sigma.mk.injEq, heq_eq_eq, true_and] at hnow
      exact hnow.symm.le
  fresh a e he := by
    have hsec : (exec srv c st).1.sec = st.sec := by
      unfold Db.sec
      rw [exec_now]
    rw [hsec]
    by_cases hw : .inbox a ∈ c.writes
    · rcases hs.writes_inbox hw with ⟨fields, ts, expiresAt, maxlen, rfl⟩ | ⟨-, l, -, rfl⟩
      · rw [Db.inbox, stream_exec_xadd] at he
        rcases Stream.mem_add.1 he with he | rfl
        · exact hI.fresh a e he
        · obtain ⟨now, ttl, htime, hexp, hstamp⟩ := hs.xadd
          obtain rfl : ttl = cfg.messageTtl := by
            rcases hstamp with h | ⟨dest, f, m, h⟩
            · exact h
            · exact httl _ _ _ _ h
          obtain ⟨ev, hev, -, hsent⟩ := Event.mem_logOf_iff.1 htime
          have hle := sec_le_sec (hI.clock ev hev now hsent)
          show expiresAt ≤ (st.now / 1000 : Nat) + cfg.messageTtl
          omega
      · have hnone : (exec srv (.del [.inbox a, .cursor a, .presence a]) st).1.keys (.inbox a) = none :=
          foldl_del_of_mem (by simp)
        simp [Db.inbox, Db.stream, Keyspace.get, Keyspace.look, hnone, Stream.empty] at he
    · rw [Db.inbox, stream_exec_other srv hw] at he
      exact hI.fresh a e he
  were ev hev := by
    rcases List.mem_append.1 hev with hev | hev
    · exact hI.were ev hev
    · rw [List.mem_singleton] at hev
      subst hev
      exact hI.fresh

theorem inbox_later {s : Db} {a : PyStr} (h : s.Permanent (.inbox a)) (d : Nat) :
    (s.later d).inbox a = s.inbox a := by
  unfold Db.inbox Db.stream
  rw [(h.env (.tick d)).get (s := s.later d), h.get]
  rfl

theorem sec_later (s : Db) (d : Nat) : s.sec ≤ (s.later d).sec := sec_le_sec (Nat.le_add_right _ _)

/-- Time passes. -/
theorem Guarded.later (hI : Guarded cfg st hist) (d : Nat) : Guarded cfg (st.later d) hist where
  inboxes a := (hI.inboxes a).env (.tick d)
  identity a t ht := by
    obtain ⟨hle, hv⟩ := hI.identity a t ht
    exact ⟨hle.trans (Nat.le_add_right _ _), hv⟩
  promised a e hp := by
    obtain ⟨hholds, ht⟩ := hI.promised a e hp
    refine ⟨?_, ht⟩
    rcases hholds with hin | hgone
    · exact .inl (by rwa [inbox_later (hI.inboxes a)])
    · exact .inr (hgone.trans (sec_later st d))
  clock ev hev now hnow := (hI.clock ev hev now hnow).trans (Nat.le_add_right _ _)
  fresh a e he := by
    rw [inbox_later (hI.inboxes a)] at he
    have := hI.fresh a e he
    have := sec_later st d
    omega
  were := hI.were

end

/-! ## Every run -/

section
variable [Python] {cfg : Config} {srv : Server} {ms : Nat} {w : Moment}

theorem reach_guarded (h : (service cfg srv).Reach (Configured cfg) (.empty ms) w) :
    Sound w.st w.hist ∧ Guarded cfg w.st w.hist := by
  have hreach : ∀ {w}, (service cfg srv).Reach (Configured cfg) (.empty ms) w → Sound w.st w.hist := by
    intro w hw
    exact reach_sound cfg srv (hw.mono fun _ _ hl => hl.clear) (fun _ hv => by cases hv)
      fun _ _ hv => by cases hv
  refine ⟨hreach h, Pool.reach_inv (Guarded cfg) h (service_sends cfg srv) ?_ ?_ ?_⟩
  · refine ⟨fun a v hv => (by cases hv), fun a t ht => (by cases ht), ?_, by simp, ?_, by simp⟩
    · rintro a e ⟨before, ev, after, t, hsplit, -⟩
      simp at hsplit
    · intro a e he
      cases he
  · intro w i op c k hw hI _ hp hs
    obtain ⟨w', hspawn⟩ := hw.admitted i _ hp
    refine hI.step srv (hreach hw) hs ?_ ?_
    · rintro addr groups metadata retention rfl
      exact hspawn.retention _ _ _ _ rfl
    · rintro dest fields maxlen ttl rfl
      exact hspawn.ttl _ _ _ _ rfl
  · intro w e hI hl
    cases e with
    | tick d => exact hI.later d
    | evict a n => exact absurd rfl (hl.full a n)

omit [Python] in
/-- A pass at some later time, with nothing else running, while the identity is live now. -/
theorem Guarded.pass_iff {st : Db} {hist : List Ev} (hI : Guarded cfg st hist) (hsound : Sound st hist)
    {a : PyStr} {t : Nat} (ht : registeredAt a hist = some t) (hlive : st.agent a ≠ none) {e : Entry}
    (he : e ∈ st.inbox a) :
    (∀ d, (reapOnce.run (exec srv) (st.later d)).2.Holds a e) ↔
      e.expiresAt ≤ (t / 1000 : Nat) + cfg.agentRetention := by
  have hsec : ∀ d, (reapOnce.run (exec srv) (st.later d)).2.sec = (st.later d).sec := by
    intro d
    unfold Db.sec
    rw [run_now]
  obtain ⟨v, hv⟩ := Option.ne_none_iff_exists'.1 hlive
  have hmember : ∀ d, a ∈ (st.later d).members := by
    intro d
    show a ∈ ((Env.tick d).apply st).members
    rw [members_env hsound.agents]
    exact hsound.listed a v hv
  constructor
  · intro hall
    obtain ⟨hpos, hbefore⟩ := (hI.live_iff ht).1 hlive
    -- a pass just when the identity has gone
    let d := (t + cfg.agentRetention * 1000 - st.now).toNat
    have hthen : (st.later d).now = t + cfg.agentRetention.toNat * 1000 := by
      show st.now + d = _
      omega
    have hgone : (st.later d).agent a = none := by
      rw [← not_not (a := _ = none), ← ne_eq, (hI.later d).live_iff ht, hthen]
      omega
    have hcollected := reapOnce_collects srv (st.later d) a (hmember d) hgone
    rcases hall d with hin | hexp
    · simp [Db.inbox, Db.stream, Keyspace.get, Keyspace.look, hcollected.inbox, Stream.empty] at hin
    · rw [hsec] at hexp
      have : (st.later d).sec = ((st.later d).now / 1000 : Nat) := rfl
      rw [this, hthen, Nat.add_mul_div_right _ _ (by decide)] at hexp
      omega
  · intro hexp d
    have hlater := hI.later d
    by_cases hgone : (st.later d).agent a = none
    · exact .inr (hsec d ▸ hlater.expired ht hexp hgone)
    · have hspared := reapOnce_run srv (st.later d) a fun _ => hgone
      refine .inl ?_
      rw [Db.inbox, stream_congr (run_now srv _ _) hspared.inbox]
      show e ∈ (st.later d).inbox a
      rwa [inbox_later (hI.inboxes a)]

/-- **Mail outlives the reaper.**  What waits when an agent registers is never deleted before
it expires.  Nor is what arrives later, if it expires within the retention of the last
registration; and if it does not, some pass deletes it too early unless the agent registers
again. -/
theorem mail_outlives_reaper (h : (service cfg srv).Reach (Configured cfg) (.empty ms) w) (a : PyStr) :
    (∀ reg ∈ w.hist, reg.cmd.registers a → ∀ e ∈ reg.pre.inbox a, w.st.Holds a e) ∧
    (∀ before ev after, w.hist = before ++ ev :: after → ∀ t, registeredAt a (before ++ [ev]) = some t →
      ∀ e ∈ ev.pre.inbox a, e.expiresAt ≤ (t / 1000 : Nat) + cfg.agentRetention → w.st.Holds a e) ∧
    ∀ t, registeredAt a w.hist = some t → w.st.agent a ≠ none → ∀ e ∈ w.st.inbox a,
      ((∀ d, (reapOnce.run (exec srv) (w.st.later d)).2.Holds a e) ↔
        e.expiresAt ≤ (t / 1000 : Nat) + cfg.agentRetention) := by
  obtain ⟨hsound, hI⟩ := reach_guarded h
  refine ⟨?_, ?_, fun t ht hlive e he => hI.pass_iff hsound ht hlive he⟩
  · intro reg hreg hregisters e he
    obtain ⟨before, after, hsplit⟩ := List.append_of_mem hreg
    have ht : registeredAt a (before ++ [reg]) = some reg.pre.now := by
      rw [registeredAt_append, if_pos hregisters]
    refine (hI.promised a e ⟨before, reg, after, _, hsplit, ht, he, ?_⟩).1
    -- the configuration's check
    exact (hI.were reg hreg a e he).trans (Int.add_le_add_left cfg.messageTtl_le _)
  · intro before ev after hsplit t ht e he hexp
    exact (hI.promised a e ⟨before, ev, after, t, hsplit, ht, he, hexp⟩).1

end

/-! ## Mail that waits for its agent to come back -/

def awayAddr : Address := ⟨lit "u", lit "h", lit "r", lit "p", lit "x"⟩

/-- Six days after it has registered it is sent a message, an hour later it registers again; a
pass two days after that would have found its identity gone. -/
def awayRun : List (Label Call Env) :=
  [.spawn (.registerAgent awayAddr [] .null 604800), .step 0, .step 0, .env (.tick 518400000),
    .spawn (.appendMessage awayAddr.text [] 1000 259200), .step 1, .step 1, .env (.tick 3600000),
    .spawn (.registerAgent awayAddr [] .null 604800), .step 2, .step 2, .env (.tick 172800000),
    .spawn .reapOnce, .step 3, .step 3]

def away : Moment :=
  (@service Python.plain Config.defaults Server.plain).follow (.start (.empty 5000)) awayRun

theorem configured_env (w : Moment) (d : Nat) : Configured Config.defaults w (.env (.tick d)) := by
  constructor <;> intros <;> simp_all [RegisterClear]

theorem configured_spawn {w : Moment} {op : Call}
    (hr : ∀ addr groups metadata retention, op = .registerAgent addr groups metadata retention →
      retention = 604800)
    (ht : ∀ dest fields maxlen ttl, op = .appendMessage dest fields maxlen ttl → ttl = 259200) :
    Configured Config.defaults w (.spawn op) where
  clear := clear_spawn
  retention addr groups metadata retention h := hr addr groups metadata retention (by cases h; rfl)
  ttl dest fields maxlen ttl h := ht dest fields maxlen ttl (by cases h; rfl)
  full := nofun

theorem configured_step {w : Moment} {i : Nat} (h : RegisterClear w (.step i)) :
    Configured Config.defaults w (.step i) := ⟨h, nofun, nofun, nofun⟩

theorem away_reach : (@service Python.plain Config.defaults Server.plain).Reach
    (Configured Config.defaults) (.empty 5000) away := by
  have hregister : ∀ w, Configured Config.defaults w (.spawn (.registerAgent awayAddr [] .null 604800)) :=
    fun w => configured_spawn (by rintro _ _ _ _ ⟨⟩; rfl) nofun
  have happend : ∀ w, Configured Config.defaults w (.spawn (.appendMessage awayAddr.text [] 1000 259200)) :=
    fun w => configured_spawn nofun (by rintro _ _ _ _ ⟨⟩; rfl)
  have h₀ : (@service Python.plain Config.defaults Server.plain).Reach (Configured Config.defaults)
    (.empty 5000) (.start (.empty 5000)) := .start
  have h₁ := h₀.next (hregister _)
  have h₂ := h₁.next (configured_step (clear_step (i := 0) rfl nofun))
  have h₃ := h₂.next (configured_step (clear_step (i := 0) rfl ?_))
  have h₄ := (h₃.next (configured_env _ 518400000)).next (happend _)
  have h₅ := h₄.next (configured_step (clear_step (i := 1) rfl nofun))
  have h₆ := h₅.next (configured_step (clear_step (i := 1) rfl nofun))
  have h₇ := (h₆.next (configured_env _ 3600000)).next (hregister _)
  have h₈ := h₇.next (configured_step (clear_step (i := 2) rfl nofun))
  have h₉ := h₈.next (configured_step (clear_step (i := 2) rfl ?_))
  have hreap : ∀ w, Configured Config.defaults w (.spawn .reapOnce) := fun _ => configured_spawn nofun nofun
  have h₁₀ := (h₉.next (configured_env _ 172800000)).next (hreap _)
  have h₁₁ := h₁₀.next (configured_step (clear_step (i := 3) rfl nofun))
  exact h₁₁.next (configured_step (clear_step (i := 3) rfl nofun))
  all_goals
    intro _ _ _ _ ev hev k hk
    fin_cases hev <;> cases hk

theorem mail_outlives_reaper_away : ∃ e,
    (∃ reg ∈ away.hist, reg.cmd.registers awayAddr.text = true ∧ e ∈ reg.pre.inbox awayAddr.text) ∧
    away.st.Holds awayAddr.text e := by
  have hreg : away.hist[5]? = some _ := rfl
  have hin := List.mem_of_getElem? hreg
  refine ⟨_, ⟨_, hin, rfl, List.mem_cons_self⟩, ?_⟩
  exact (@mail_outlives_reaper Python.plain Config.defaults Server.plain 5000 away away_reach
    awayAddr.text).1 _ hin rfl _ List.mem_cons_self

end Muster
