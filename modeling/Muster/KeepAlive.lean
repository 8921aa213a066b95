import Muster.StoreRuns

/-!
# How long an open stream keeps its agent alive

One address has one stream, which pings in time; everybody else does anything,
operation by operation.  A ping renews presence, but the identity hash is written
by `register_agent` only: at connect, and by a ping that finds the groups changed.
So the agent is listed as online, and spared by the reaper, exactly until
`agent_retention` after its last registration (`connected_iff`), however well the
stream pings.  `brief_stream_expires` is a run where it is collected while
connected.
-/

namespace Muster

/-- A store and the stream of one agent: its groups, and when it last registered and last
touched presence (milliseconds). -/
structure Kept where
  db : Db
  groups : List Member
  registeredAt : Nat
  touchedAt : Nat

/-- The agent's own registry and presence operations belong to its only stream. -/
def Call.foreign (a : PyStr) : Call → Prop
  | .registerAgent addr _ _ _ => addr.text ≠ a
  | .touchPresence b _ _ => b ≠ a
  | .clearPresence b _ => b ≠ a
  | _ => True

section
variable [Python] (cfg : Config) (srv : Server) (addr : Address) (cid : PyStr) (metadata : Json)

/-- The runs: the stream opens, then pings, the clock and whole operations of others in any
order, with never more than `ping_interval + 1` seconds since the last touch. -/
inductive Connected : Kept → Prop
  | open (s : Db) (groups : List Member) : s.Permanent .agents →
    Connected ⟨((streamOpen cfg addr cid metadata groups).run (exec srv) s).2, groups, s.now, s.now⟩
  | ping {k : Kept} (groups2 : List Member) : Connected k →
    Connected ⟨((streamPing cfg addr cid metadata k.groups groups2).run (exec srv) k.db).2, groups2,
      if groups2 ≠ k.groups then k.db.now else k.registeredAt, k.db.now⟩
  | tick {k : Kept} (d : Nat) : Connected k →
    ((k.db.now + d : Nat) : Int) ≤ k.touchedAt + (cfg.pingInterval + 1) * 1000 →
    Connected { k with db := (Env.tick d).apply k.db }
  | evict {k : Kept} (b : PyStr) (n : Nat) : Connected k →
    Connected { k with db := (Env.evict b n).apply k.db }
  | call {k : Kept} (call : Call) : Connected k → call.foreign addr.text →
    Connected { k with db := ((call.body cfg).run (exec srv) k.db).2 }

end

/-- `list_agents` has the address, online. -/
def ListedOnline (srv : Server) (a : PyStr) (s : Db) : Prop :=
  ∃ rows, (listAgents.run (exec srv) s).1 = .ok rows ∧ ∃ r ∈ rows, r.addr = a ∧ r.status = .online

/-- A reaper pass leaves the address its inbox and its cursor. -/
def ReapSpares (srv : Server) (a : PyStr) (s : Db) : Prop :=
  (reapOnce.run (exec srv) s).2.keys (.inbox a) = s.keys (.inbox a) ∧
  (reapOnce.run (exec srv) s).2.keys (.cursor a) = s.keys (.cursor a)

theorem listedOnline_iff {srv : Server} {a : PyStr} {s : Db} :
    ListedOnline srv a s ↔ a ∈ s.members ∧ s.agent a ≠ none ∧ s.online a = true := by
  unfold ListedOnline
  rw [listAgents_run]
  constructor
  · rintro ⟨rows, hrows, r, hr, rfl, hst⟩
    cases hrows
    obtain ⟨hm, hr⟩ := (mem_directory s).1 hr
    obtain ⟨h, hh, hr⟩ := Option.map_eq_some_iff.1 hr
    refine ⟨hm, by simp [hh], ?_⟩
    rw [← hr] at hst
    by_contra ho
    simp [Row.of, ho] at hst
  · rintro ⟨hm, ha, ho⟩
    obtain ⟨h, hh⟩ := Option.ne_none_iff_exists'.1 ha
    refine ⟨_, rfl, Row.of a h (s.online a), (mem_directory s).2 ⟨hm, ?_⟩, rfl, by simp [Row.of, ho]⟩
    show s.row a = _
    rw [Db.row, hh]
    rfl

/-! ## What the stream's steps write -/

section
variable (cfg : Config) (srv : Server) (addr : Address) (cid : PyStr) (metadata : Json) {s : Db}

theorem streamOpen_run (groups : List Member) :
    ((streamOpen cfg addr cid metadata groups).run (exec srv) s).2 =
      (exec srv (.touch addr.text ⟨cid, s.sec⟩ cfg.presenceTtl)
        (exec srv (.register addr.text (.of addr groups metadata s.sec) cfg.agentRetention) s).1).1 := by
  unfold streamOpen
  rw [Prog.run_bind_of_ok _ (registerAgent_run srv s addr groups metadata _),
    Prog.run_bind_of_ok _ (touchPresence_run srv _ addr.text cid _)]
  exact unreadCount_run srv _ _

theorem streamPing_run (groups groups2 : List Member) :
    ((streamPing cfg addr cid metadata groups groups2).run (exec srv) s).2 =
      (exec srv (.touch addr.text ⟨cid, s.sec⟩ cfg.presenceTtl)
        (if groups2 ≠ groups then
          (exec srv (.register addr.text (.of addr groups2 metadata s.sec) cfg.agentRetention) s).1
        else s)).1 := by
  unfold streamPing
  by_cases h : groups2 ≠ groups
  · rw [if_pos h, if_pos h, Prog.run_bind_of_ok _ (registerAgent_run srv s addr groups2 metadata _)]
    rfl
  · rw [if_neg h, if_neg h]
    rfl

end

/-! ## The invariant -/

/-- The identity hash runs out `agent_retention` after the last registration; while it
exists, the address is in the directory and presence is as the last touch left it. -/
structure Tracked (cfg : Config) (a : PyStr) (k : Kept) : Prop where
  agents : k.db.Permanent .agents
  agent : ∃ v, k.db.keys (.agent a) = stamped v k.registeredAt cfg.agentRetention
  listed : k.db.agent a ≠ none → a ∈ k.db.members
  presence : k.db.agent a ≠ none →
    ∃ p, k.db.keys (.presence a) = stamped p k.touchedAt cfg.presenceTtl
  recent : 0 < cfg.presenceTtl → (k.db.now : Int) < k.touchedAt + cfg.presenceTtl * 1000
  past : k.registeredAt ≤ k.db.now

section
variable {cfg : Config} {a : PyStr} {k : Kept}

/-- The hash exists until `agent_retention` after the last registration. -/
theorem Tracked.agent_iff (h : Tracked cfg a k) :
    k.db.agent a ≠ none ↔
      0 < cfg.agentRetention ∧ (k.db.now : Int) < k.registeredAt + cfg.agentRetention * 1000 := by
  obtain ⟨v, hv⟩ := h.agent
  rw [← stamped_live (v := v), ← hv, ← Option.isSome_iff_ne_none]
  simp [Db.agent, Keyspace.get, Keyspace.look]

theorem Tracked.online_iff (h : Tracked cfg a k) (ha : k.db.agent a ≠ none) :
    k.db.online a = true ↔ 0 < cfg.presenceTtl := by
  obtain ⟨p, hp⟩ := h.presence ha
  have : k.db.online a = ((stamped p k.touchedAt cfg.presenceTtl).filter (·.live k.db.now)).isSome := by
    rw [← hp]; rfl
  rw [this, stamped_live]
  exact ⟨fun h => h.1, fun hp => ⟨hp, h.recent hp⟩⟩

variable (srv : Server)

/-- A touch in the ping branch, after a registration or not. -/
theorem Tracked.touch {s : Db} (groups : List Member) {registeredAt : Nat} (p : PresenceHash)
    (hperm : s.Permanent .agents)
    (hagent : ∃ v, s.keys (.agent a) = stamped v registeredAt cfg.agentRetention)
    (hlisted : s.agent a ≠ none → a ∈ s.members) (hpast : registeredAt ≤ s.now) :
    Tracked cfg a ⟨(exec srv (.touch a p cfg.presenceTtl) s).1, groups, registeredAt, s.now⟩ where
  agents := hperm.exec rfl srv (by simp)
  agent := by
    obtain ⟨v, hv⟩ := hagent
    exact ⟨v, by rw [exec_other srv _ _ (by simp [Cmd.writes]), hv]⟩
  listed h := by
    rw [agent_exec_other srv (by simp [Cmd.writes])] at h
    rw [members_exec_other srv (by simp [Cmd.writes])]
    exact hlisted h
  presence _ := ⟨p, presence_slot_touch srv p _ a⟩
  recent h := by
    rw [exec_now]
    show (s.now : Int) < s.now + cfg.presenceTtl * 1000
    omega
  past := by rwa [exec_now]

variable (cfg a) in
theorem agent_after_register (v : AgentHash) {s : Db} (hperm : s.Permanent .agents) :
    (exec srv (.register a v cfg.agentRetention) s).1.Permanent .agents ∧
    (∃ w, (exec srv (.register a v cfg.agentRetention) s).1.keys (.agent a) =
      stamped w s.now cfg.agentRetention) ∧
    a ∈ (exec srv (.register a v cfg.agentRetention) s).1.members := by
  refine ⟨hperm.exec rfl srv (by simp), ⟨v, agent_slot_register srv v _ a⟩, ?_⟩
  rw [members_exec_register]
  exact Finset.mem_insert_self _ _

section
variable [Python] {op : Call} (hf : op.foreign a)
include hf

/-- Nobody else registers the address. -/
theorem agent_of_foreign (s : Db) :
    ((op.body cfg).run (exec srv) s).2.keys (.agent a) = s.keys (.agent a) := by
  refine body_run_keys srv s cfg op ?_
  intro l c hs hw
  obtain ⟨v, retention, rfl⟩ := hs.writes_agent hw
  obtain ⟨addr, groups, metadata, rfl, rfl⟩ := hs.register
  exact hf rfl

omit hf in
/-- While its identity exists nobody takes the address out of the directory. -/
theorem member_of_body {s : Db} (ha : s.agent a ≠ none) (hm : a ∈ s.members) :
    a ∈ ((op.body cfg).run (exec srv) s).2.members := by
  by_cases hr : op = .reapOnce
  · subst hr
    simp only [Call.body, Prog.run_map]
    exact (reapOnce_run srv s a fun _ => ha).member.2 hm
  · refine body_run_keeps srv s cfg op (I := fun t => a ∈ t.members) ?_ hm
    intro l c t hs ht
    by_cases hw : .agents ∈ c.writes
    · rcases hs.writes_agents hw with ⟨b, rfl⟩ | ⟨b, v, retention, rfl⟩
      · exact absurd hs.srem.1 hr
      · rw [members_exec_register]
        exact Finset.mem_insert_of_mem ht
    · rwa [members_exec_other srv hw]

/-- While its identity exists nobody else touches its presence. -/
theorem presence_of_foreign {s : Db} (ha : s.agent a ≠ none) :
    ((op.body cfg).run (exec srv) s).2.keys (.presence a) = s.keys (.presence a) := by
  by_cases hr : op = .reapOnce
  · subst hr
    simp only [Call.body, Prog.run_map]
    exact (reapOnce_run srv s a fun _ => ha).presence
  · refine body_run_keys srv s cfg op ?_
    intro l c hs hw
    rcases hs.writes_presence hw with ⟨cid, ttl, rfl⟩ | ⟨cid, rfl⟩ | rfl
    · exact hf rfl
    · exact hf rfl
    · exact hr rfl

/-- Any other operation, the reaper included. -/
theorem Tracked.call (h : Tracked cfg a k) :
    Tracked cfg a { k with db := ((op.body cfg).run (exec srv) k.db).2 } := by
  have hagent : ((op.body cfg).run (exec srv) k.db).2.keys (.agent a) = k.db.keys (.agent a) :=
    agent_of_foreign srv hf k.db
  have hlive : ((op.body cfg).run (exec srv) k.db).2.agent a = k.db.agent a := by
    unfold Db.agent
    rw [run_now]
    exact Keyspace.get_congr hagent
  refine ⟨?_, ?_, ?_, ?_, ?_, ?_⟩
  · refine body_run_keeps srv _ cfg op (I := fun s => s.Permanent .agents) ?_ h.agents
    intro l c s hs hp
    refine hp.exec rfl srv ?_
    rintro secs rfl
    obtain ⟨kind, b, hk⟩ := hs.expire
    cases hk
  · obtain ⟨v, hv⟩ := h.agent
    exact ⟨v, hagent.trans hv⟩
  · intro ha
    rw [hlive] at ha
    exact member_of_body srv ha (h.listed ha)
  · intro ha
    rw [hlive] at ha
    obtain ⟨p, hp⟩ := h.presence ha
    exact ⟨p, (presence_of_foreign srv hf ha).trans hp⟩
  · intro hp
    rw [run_now]
    exact h.recent hp
  · rw [run_now]
    exact h.past

end

end

/-! ## Every run -/

section
variable [Python] {cfg : Config} {srv : Server} {addr : Address} {cid : PyStr} {metadata : Json}
  {k : Kept}

theorem Connected.tracked (h : Connected cfg srv addr cid metadata k)
    (hping : cfg.pingInterval + 1 < cfg.presenceTtl) : Tracked cfg addr.text k := by
  induction h with
  | «open» s groups hperm =>
    rw [streamOpen_run]
    obtain ⟨hp, hv, hm⟩ := agent_after_register cfg addr.text srv
      (.of addr groups metadata s.sec) hperm
    have := Tracked.touch srv groups ⟨cid, s.sec⟩ hp hv (fun _ => hm)
      (exec_now srv _ s).ge
    rwa [exec_now] at this
  | @ping k groups2 _ ih =>
    rw [streamPing_run]
    by_cases hg : groups2 ≠ k.groups
    · rw [if_pos hg, if_pos hg]
      obtain ⟨hp, hv, hm⟩ := agent_after_register cfg addr.text srv
        (.of addr groups2 metadata k.db.sec) ih.agents
      have := Tracked.touch srv groups2 ⟨cid, k.db.sec⟩ hp hv
        (fun _ => hm) (exec_now srv _ k.db).ge
      rwa [exec_now] at this
    · rw [if_neg hg, if_neg hg]
      exact Tracked.touch srv _ _ ih.agents ih.agent ih.listed ih.past
  | @tick k d _ hgap ih =>
    have hlive : ((Env.tick d).apply k.db).agent addr.text ≠ none → k.db.agent addr.text ≠ none := by
      intro ha
      obtain ⟨v, hv⟩ := Option.ne_none_iff_exists'.1 ha
      simp [agent_env hv]
    refine ⟨ih.agents, ih.agent, ?_, fun ha => ih.presence (hlive ha), ?_, ?_⟩
    · intro ha
      rw [members_env ih.agents]
      exact ih.listed (hlive ha)
    · intro hp
      show ((k.db.now + d : Nat) : Int) < k.touchedAt + cfg.presenceTtl * 1000
      omega
    · exact ih.past.trans (Nat.le_add_right _ _)
  | @evict k b n _ ih =>
    refine ⟨ih.agents.env (.evict b n), ih.agent, ?_, fun ha => ih.presence ha, ih.recent, ih.past⟩
    intro ha
    rw [members_env ih.agents]
    exact ih.listed ha
  | @call k call _ hf ih => exact Tracked.call srv hf ih

/-- **How long a connected agent is kept.**  In every state of a run, the agent is listed as
online and spared by the reaper if and only if presence does not expire at once and the
clock is within `agent_retention` of its last registration. -/
theorem connected_iff (h : Connected cfg srv addr cid metadata k)
    (hping : cfg.pingInterval + 1 < cfg.presenceTtl) :
    (ListedOnline srv addr.text k.db ∧ ReapSpares srv addr.text k.db) ↔
      0 < cfg.presenceTtl ∧ (k.db.now : Int) < k.registeredAt + cfg.agentRetention * 1000 := by
  have hT := h.tracked hping
  rw [listedOnline_iff]
  constructor
  · rintro ⟨⟨-, ha, ho⟩, -⟩
    exact ⟨(hT.online_iff ha).1 ho, (hT.agent_iff.1 ha).2⟩
  · rintro ⟨hp, hnow⟩
    have hpast := hT.past
    have ha : k.db.agent addr.text ≠ none := hT.agent_iff.2 ⟨by omega, hnow⟩
    have hs := reapOnce_run srv k.db addr.text fun _ => ha
    exact ⟨⟨hT.listed ha, ha, (hT.online_iff ha).2 hp⟩, hs.inbox, hs.cursor⟩

end

/-! ## A stream that outlives its identity -/

def briefEnv : String → Option PyStr
  | "MUSTER_MESSAGE_TTL" => some (lit "1")
  | "MUSTER_AGENT_RETENTION" => some (lit "3")
  | "MUSTER_PING_INTERVAL" => some (lit "1")
  | _ => none

/-- Three seconds of retention, a ping every second, a minute of presence. -/
def briefConfig : Config :=
  { Config.defaults with messageTtl := 1, agentRetention := 3, pingInterval := 1,
                         messageTtl_le := by decide }

theorem load_briefEnv [Python] :
    load (fun _ => some []) briefEnv = .ok briefConfig := rfl

def briefAddr : Address := ⟨lit "u", lit "h", lit "r", lit "p", lit "x"⟩

/-- Open, two seconds, a ping, a message, two seconds. -/
def briefKept : Kept :=
  let s₀ := ((streamOpen briefConfig briefAddr (lit "A") .null []).run (exec Server.plain)
    (.empty 5000)).2
  let s₁ := ((streamPing briefConfig briefAddr (lit "A") .null [] []).run (exec Server.plain)
    ((Env.tick 2000).apply s₀)).2
  let s₂ := ((@Call.body Python.plain briefConfig (.appendMessage briefAddr.text [] 1000 60)).run
    (exec Server.plain) s₁).2
  ⟨(Env.tick 2000).apply s₂, [], 5000, 7000⟩

theorem briefKept_connected :
    @Connected Python.plain briefConfig Server.plain briefAddr (lit "A") .null briefKept := by
  let inst := Python.plain
  have h₀ := @Connected.open Python.plain briefConfig Server.plain briefAddr (lit "A") .null (.empty 5000)
    [] (fun _ hv => by cases hv)
  have h₁ := Connected.ping [] (h₀.tick 2000 (by decide))
  have h₂ := Connected.call (.appendMessage briefAddr.text [] 1000 60) h₁ trivial
  exact Connected.tick 2000 h₂ (by decide)

/-- Connected, pinging in time, not listed, and its mail collected. -/
theorem brief_stream_expires :
    @load Python.plain (fun _ => some []) briefEnv = .ok briefConfig ∧
    briefConfig.pingInterval + 1 < briefConfig.presenceTtl ∧
    @Connected Python.plain briefConfig Server.plain briefAddr (lit "A") .null briefKept ∧
    ¬ ListedOnline Server.plain briefAddr.text briefKept.db ∧
    ¬ ReapSpares Server.plain briefAddr.text briefKept.db := by
  refine ⟨@load_briefEnv Python.plain, by decide, briefKept_connected, ?_, ?_⟩
  · intro h
    exact (listedOnline_iff.1 h).2.1 rfl
  · intro h
    cases h.1

theorem connected_iff_brief :
    (ListedOnline Server.plain briefAddr.text briefKept.db ∧
      ReapSpares Server.plain briefAddr.text briefKept.db) ↔
    0 < briefConfig.presenceTtl ∧
      (briefKept.db.now : Int) < briefKept.registeredAt + briefConfig.agentRetention * 1000 :=
  @connected_iff Python.plain briefConfig Server.plain briefAddr (lit "A") .null briefKept
    briefKept_connected (by decide)

end Muster
