import Muster.StoreRuns

/-!
# The directory as a map

What the registry is for: a map from addresses to their latest registration and their
last sign of life (`AgentMap`).  The store keeps it in a set, a hash and a presence
record for each address, each with its own deadline, and a reaper pass clears up what
has expired.

`Refines` ties the two together; every operation and the clock keep it
(`reach_refines`), and `list_agents` reads the map off the store
(`directory_refines_map`).  A presence that was touched after a pass had already
collected the address is the one thing a pass leaves behind (`late_touch_survives`).
-/

namespace Muster

/-! ## The map -/

/-- What `register_agent` was given, and when (milliseconds). -/
structure Registration where
  addr : Address
  groups : List Member
  metadata : Json
  retention : Int
  time : Nat

/-- What `touch_presence` was given, and when. -/
structure Touch where
  connectionId : PyStr
  ttl : Int
  time : Nat

/-- Less than its retention old. -/
def Registration.Live (r : Registration) (now : Nat) : Prop := (now : Int) < r.time + r.retention * 1000

instance Registration.instDecidableLive (r : Registration) (now : Nat) : Decidable (r.Live now) :=
  inferInstanceAs (Decidable (_ < _))

/-- Less than its ttl old. -/
def Touch.Live (t : Touch) (now : Nat) : Prop := (now : Int) < t.time + t.ttl * 1000

instance Touch.instDecidableLive (t : Touch) (now : Nat) : Decidable (t.Live now) :=
  inferInstanceAs (Decidable (_ < _))

structure Agent where
  /-- the latest registration -/
  registration : Option Registration
  /-- a pass has found that registration expired -/
  collected : Bool
  /-- the last touch -/
  touch : Option Touch
  /-- since that touch its own connection has cleared it, or a pass has collected the address -/
  gone : Bool

structure AgentMap where
  now : Nat
  agents : PyStr → Agent

def Agent.unknown : Agent := ⟨none, false, none, false⟩

def AgentMap.empty (now : Nat) : AgentMap := ⟨now, fun _ => .unknown⟩

/-- Last touched less than the ttl ago, and neither cleared nor collected since. -/
def Agent.Online (x : Agent) (now : Nat) : Prop := ∃ t, x.touch = some t ∧ t.Live now ∧ x.gone = false

/-- The row of an agent whose latest registration is live. -/
structure AgentMap.HasRow (m : AgentMap) (r : Row) (reg : Registration) : Prop where
  latest : (m.agents r.addr).registration = some reg
  live : reg.Live m.now
  address : r.addr = reg.addr.text ∧ r.user = reg.addr.user ∧ r.host = reg.addr.host ∧
    r.runtime = reg.addr.runtime ∧ r.project = reg.addr.project ∧ r.session = reg.addr.session
  groups : r.groups = reg.groups
  metadata : r.metadata = if reg.metadata.truthy then reg.metadata else .obj []
  lastConnect : r.lastConnect = (reg.time / 1000 : Nat)
  status : r.status = .online ↔ (m.agents r.addr).Online m.now

/-- The rows in strict order of address: one for each live agent, and no others. -/
structure AgentMap.Lists (m : AgentMap) (rows : List Row) : Prop where
  sorted : rows.Pairwise fun r s => r.addr < s.addr
  sound : ∀ r ∈ rows, ∃ reg, m.HasRow r reg
  complete : ∀ a reg, (m.agents a).registration = some reg → reg.Live m.now → ∃ r ∈ rows, r.addr = a

/-- An operation on the registry, run without interleaving, or time passing. -/
inductive DirOp where
  | register (addr : Address) (groups : List Member) (metadata : Json) (retention : Int)
  | touch (a connectionId : PyStr) (ttl : Int)
  | clear (a connectionId : PyStr)
  | reap
  | tick (d : Nat)

/-- What a pass does to an agent: nothing unless it finds its registration expired. -/
def Agent.reap (now : Nat) (x : Agent) : Agent :=
  match x.registration with
  | none => x
  | some r => if r.Live now ∨ x.collected then x else { x with collected := true, gone := true }

def Agent.clear (cid : PyStr) (x : Agent) : Agent :=
  if x.touch.map (·.connectionId) = some cid then { x with gone := true } else x

def AgentMap.set (m : AgentMap) (a : PyStr) (x : Agent) : AgentMap :=
  { m with agents := Function.update m.agents a x }

/-- The operation on the map. -/
def DirOp.spec (m : AgentMap) : DirOp → AgentMap
  | .register addr groups metadata retention =>
    m.set addr.text { m.agents addr.text with
      registration := some ⟨addr, groups, metadata, retention, m.now⟩, collected := false }
  | .touch a cid ttl =>
    m.set a { m.agents a with touch := some ⟨cid, ttl, m.now⟩, gone := false }
  | .clear a cid => m.set a ((m.agents a).clear cid)
  | .reap => { m with agents := fun a => (m.agents a).reap m.now }
  | .tick d => { m with now := m.now + d }

/-- The operation on the store. -/
def DirOp.run (srv : Server) (s : Db) : DirOp → Db
  | .register addr groups metadata retention =>
    ((registerAgent addr groups metadata retention).run (exec srv) s).2
  | .touch a cid ttl => ((touchPresence a cid ttl).run (exec srv) s).2
  | .clear a cid => ((clearPresence a cid).run (exec srv) s).2
  | .reap => (reapOnce.run (exec srv) s).2
  | .tick d => (Env.tick d).apply s

/-! ## The store refines the map -/

def Registration.hash (r : Registration) : AgentHash :=
  .of r.addr r.groups r.metadata (r.time / 1000 : Nat)

def Touch.hash (t : Touch) : PresenceHash := ⟨t.connectionId, (t.time / 1000 : Nat)⟩

/-- The slot of the identity hash, live or not. -/
def Agent.identity (x : Agent) : Option (Slot AgentHash) :=
  x.registration.bind fun r => stamped r.hash r.time r.retention

/-- The slot of the presence record, live or not. -/
def Agent.presence (x : Agent) : Option (Slot PresenceHash) :=
  if x.gone then none else x.touch.bind fun t => stamped t.hash t.time t.ttl

/-- What the store has for one address. -/
structure Mirrors (s : Db) (a : PyStr) (x : Agent) : Prop where
  member : a ∈ s.members ↔ x.registration.isSome = true ∧ x.collected = false
  identity : s.keys.look s.now (.agent a) = x.identity.filter (·.live s.now)
  presence : s.keys.look s.now (.presence a) = x.presence.filter (·.live s.now)
  registered : ∀ r, x.registration = some r → r.addr.text = a ∧ r.time ≤ s.now
  touched : ∀ t, x.touch = some t → t.time ≤ s.now
  /-- a pass takes the mail with it, and only of what has expired -/
  collected : x.collected = true → s.keys (.inbox a) = none ∧ s.keys (.cursor a) = none ∧
    ∀ r, x.registration = some r → ¬ r.Live s.now

structure Refines (s : Db) (m : AgentMap) : Prop where
  now : s.now = m.now
  agents : s.Permanent .agents
  mirrors : ∀ a, Mirrors s a (m.agents a)

/-! ## What the slots read as -/

/-- What is live later is what was live before, less what has expired since. -/
theorem filter_live_of_le {α : Type} {now later : Nat} (h : now ≤ later) (x : Option (Slot α)) :
    (x.filter (·.live now)).filter (·.live later) = x.filter (·.live later) := by
  cases x with
  | none => rfl
  | some v =>
    cases hv : v.live later with
    | false => cases hn : v.live now <;> simp [Option.filter, hv, hn]
    | true => simp [Option.filter, hv, Slot.live_of_le h hv]

theorem look_of_le {s : Db} {k : Key} {later : Nat} {x : Option (Slot (Key.Val k))}
    (hl : s.now ≤ later) (h : s.keys.look s.now k = x.filter (·.live s.now)) :
    s.keys.look later k = x.filter (·.live later) := by
  rw [← filter_live_of_le hl x, ← h]
  exact (filter_live_of_le hl (s.keys k)).symm

theorem Registration.Live.mono {r : Registration} {now later : Nat} (h : now ≤ later)
    (hl : r.Live later) : r.Live now := by
  unfold Registration.Live at *
  omega

section
variable {s s' : Db} {a : PyStr} {x : Agent}

theorem stamped_val {α : Type} {v : α} {t now : Nat} {secs : Int} (ht : t ≤ now) :
    ((stamped v t secs).filter (·.live now)).map (·.val) =
      if (now : Int) < t + secs * 1000 then some v else none := by
  unfold stamped
  by_cases h : secs ≤ 0
  · rw [if_pos h, if_neg (by omega)]
    rfl
  · rw [if_neg h]
    by_cases hl : (now : Int) < t + secs * 1000
    · have hd : now < t + secs.toNat * 1000 := by omega
      simp [Option.filter, Slot.live, hd, hl]
    · have hd : ¬ now < t + secs.toNat * 1000 := by omega
      simp [Option.filter, Slot.live, hd, hl]

/-- The identity is what the latest registration wrote, while that is live. -/
theorem Mirrors.agent_eq_some_iff (h : Mirrors s a x) {v : AgentHash} :
    s.agent a = some v ↔ ∃ r, x.registration = some r ∧ r.Live s.now ∧ v = r.hash := by
  have hval : s.agent a = (x.identity.filter (·.live s.now)).map (·.val) := by
    rw [← h.identity]
    rfl
  rw [hval]
  unfold Agent.identity
  cases hr : x.registration with
  | none => simp
  | some r =>
    rw [Option.bind_some, stamped_val (h.registered r hr).2]
    show (if r.Live s.now then some r.hash else none) = some v ↔ _
    by_cases hl : r.Live s.now
    · rw [if_pos hl]
      simp [hl, eq_comm]
    · rw [if_neg hl]
      simp [hl]

theorem Mirrors.agent_iff (h : Mirrors s a x) :
    s.agent a ≠ none ↔ ∃ r, x.registration = some r ∧ r.Live s.now := by
  rw [Option.ne_none_iff_exists']
  constructor
  · rintro ⟨v, hv⟩
    obtain ⟨r, hr, hl, -⟩ := h.agent_eq_some_iff.1 hv
    exact ⟨r, hr, hl⟩
  · rintro ⟨r, hr, hl⟩
    exact ⟨r.hash, h.agent_eq_some_iff.2 ⟨r, hr, hl, rfl⟩⟩

theorem Mirrors.online_iff (h : Mirrors s a x) : s.online a = true ↔ x.Online s.now := by
  have hlook : s.online a = (x.presence.filter (·.live s.now)).isSome := by rw [← h.presence]; rfl
  rw [hlook]
  unfold Agent.presence Agent.Online
  cases hg : x.gone with
  | true => simp
  | false =>
    cases ht : x.touch with
    | none => simp
    | some t =>
      have hpast := h.touched t ht
      rw [if_neg (by simp), Option.bind_some, stamped_live]
      simp only [Option.some.injEq, exists_eq_left', Touch.Live, and_true]
      omega

theorem Mirrors.not_gone (h : Mirrors s a x) (hp : s.presence a ≠ none) : x.gone = false := by
  rw [← Bool.not_eq_true]
  intro hg
  refine hp ?_
  unfold Db.presence Keyspace.get
  rw [h.presence, Agent.presence, if_pos hg]
  rfl

/-- What leaves an address alone leaves what the store has for it. -/
theorem Mirrors.spared (h : Mirrors s a x) (hs : Spared a s s') (hnow : s'.now = s.now) :
    Mirrors s' a x where
  member := hs.member.trans h.member
  identity := by rw [hnow, Keyspace.look_congr hs.agent, h.identity]
  presence := by rw [hnow, Keyspace.look_congr hs.presence, h.presence]
  registered := by rw [hnow]; exact h.registered
  touched := by rw [hnow]; exact h.touched
  collected hc := by rw [hs.inbox, hs.cursor, hnow]; exact h.collected hc

end

/-! ## One operation -/

section
variable (srv : Server) {s : Db} {m : AgentMap}

theorem spared_exec {c : Cmd} {a : PyStr}
    (hk : ∀ k ∈ [Key.agent a, .inbox a, .cursor a, .presence a], k ∉ c.writes)
    (hm : a ∈ (exec srv c s).1.members ↔ a ∈ s.members) : Spared a s (exec srv c s).1 where
  agent := exec_other srv c s (hk _ (by simp))
  inbox := exec_other srv c s (hk _ (by simp))
  cursor := exec_other srv c s (hk _ (by simp))
  presence := exec_other srv c s (hk _ (by simp))
  member := hm

/-- An operation on one address: what it makes of that address, the others spared. -/
theorem Refines.set {c : Cmd} {a : PyStr} {x : Agent} (h : Refines s m)
    (hperm : (exec srv c s).1.Permanent .agents) (ha : Mirrors (exec srv c s).1 a x)
    (hother : ∀ b, b ≠ a → Spared b s (exec srv c s).1) :
    Refines (exec srv c s).1 (m.set a x) where
  now := (exec_now srv c s).trans h.now
  agents := hperm
  mirrors b := by
    show Mirrors _ b (Function.update m.agents a x b)
    by_cases hb : b = a
    · subst hb
      rwa [Function.update_self]
    · rw [Function.update_of_ne hb]
      exact (h.mirrors b).spared (hother b hb) (exec_now srv c s)

theorem Refines.register (h : Refines s m) (addr : Address) (groups : List Member) (metadata : Json)
    (retention : Int) : Refines (DirOp.run srv s (.register addr groups metadata retention))
      (DirOp.spec m (.register addr groups metadata retention)) := by
  have hx := h.mirrors addr.text
  refine h.set srv (c := .register addr.text (.of addr groups metadata s.sec) retention)
    (h.agents.exec rfl srv (by simp)) ?_ ?_
  · constructor
    · rw [members_exec_register]
      simp
    · rw [exec_now, Keyspace.look, agent_slot_register, ← h.now]
      rfl
    · rw [exec_now, Keyspace.look_congr (exec_other srv _ s (by simp [Cmd.writes])), hx.presence]
      rfl
    · intro r hr
      cases hr
      exact ⟨rfl, by rw [exec_now, h.now]⟩
    · rw [exec_now]
      exact hx.touched
    · intro hc
      cases hc
  · intro b hb
    refine spared_exec srv (by simp [Cmd.writes, hb]) ?_
    rw [members_exec_register, Finset.mem_insert]
    exact or_iff_right hb

theorem Refines.touch (h : Refines s m) (a cid : PyStr) (ttl : Int) :
    Refines (DirOp.run srv s (.touch a cid ttl)) (DirOp.spec m (.touch a cid ttl)) := by
  have hx := h.mirrors a
  have hm : ∀ b, b ∈ (exec srv (.touch a ⟨cid, s.sec⟩ ttl) s).1.members ↔ b ∈ s.members := by
    intro b
    rw [members_exec_other srv (by simp [Cmd.writes])]
  refine h.set srv (c := .touch a ⟨cid, s.sec⟩ ttl) (h.agents.exec rfl srv (by simp)) ?_ ?_
  · constructor
    · exact (hm a).trans hx.member
    · rw [exec_now, Keyspace.look_congr (exec_other srv _ s (by simp [Cmd.writes])), hx.identity]
      rfl
    · rw [exec_now, Keyspace.look, presence_slot_touch, ← h.now]
      rfl
    · rw [exec_now]
      exact hx.registered
    · intro t ht
      cases ht
      rw [exec_now, h.now]
    · rw [exec_now, exec_other srv _ s (by simp [Cmd.writes]), exec_other srv _ s (by simp [Cmd.writes])]
      exact hx.collected
  · intro b hb
    exact spared_exec srv (by simp [Cmd.writes, hb]) (hm b)

/-- A presence record that is there is the last touch's. -/
theorem Mirrors.connection {a : PyStr} {x : Agent} (h : Mirrors s a x) {p : PresenceHash}
    (hp : s.presence a = some p) : x.touch.map (·.connectionId) = some p.connectionId := by
  obtain ⟨v, hv, rfl⟩ := Option.map_eq_some_iff.1 hp
  rw [h.presence] at hv
  have hv' := (Option.filter_eq_some_iff.1 hv).1
  unfold Agent.presence at hv'
  split at hv'
  · cases hv'
  · obtain ⟨t, ht, hs⟩ := Option.bind_eq_some_iff.1 hv'
    unfold stamped at hs
    split at hs
    · cases hs
    · cases hs
      rw [ht]
      rfl

/-- The script deletes the record if the last touch was by that connection and the record is
still there. -/
theorem Refines.clear (h : Refines s m) (a cid : PyStr) :
    Refines (DirOp.run srv s (.clear a cid)) (DirOp.spec m (.clear a cid)) := by
  have hx := h.mirrors a
  have hm : ∀ b, b ∈ (exec srv (.clearIfOwner a cid) s).1.members ↔ b ∈ s.members := by
    intro b
    rw [members_exec_other srv (by simp [Cmd.writes])]
  have hreg : ((m.agents a).clear cid).registration = (m.agents a).registration ∧
      ((m.agents a).clear cid).collected = (m.agents a).collected ∧
      ((m.agents a).clear cid).touch = (m.agents a).touch := by
    unfold Agent.clear
    split <;> exact ⟨rfl, rfl, rfl⟩
  have hid : ((m.agents a).clear cid).identity = (m.agents a).identity := by
    unfold Agent.identity
    rw [hreg.1]
  refine h.set srv (c := .clearIfOwner a cid) (h.agents.exec rfl srv (by simp)) ?_ ?_
  · constructor
    · rw [hreg.1, hreg.2.1]
      exact (hm a).trans hx.member
    · rw [exec_now, Keyspace.look_congr (exec_other srv _ s (by simp [Cmd.writes])), hx.identity, hid]
    · rw [exec_now]
      unfold Agent.clear
      by_cases hc : (m.agents a).touch.map (·.connectionId) = some cid
      · rw [if_pos hc]
        show (exec srv (.clearIfOwner a cid) s).1.keys.look s.now (.presence a) = none
        simp only [exec]
        split
        · simp [Keyspace.look]
        · next hne =>
          -- what is not the connection's own is not there
          cases hp : s.presence a with
          | none => exact Option.map_eq_none_iff.1 hp
          | some p =>
            rw [hp] at hne
            exact absurd ((hx.connection hp).symm.trans hc) hne
      · rw [if_neg hc, ← hx.presence]
        simp only [exec]
        rw [if_neg]
        intro hown
        obtain ⟨p, hp, rfl⟩ := Option.map_eq_some_iff.1 hown
        exact hc (hx.connection hp)
    · rw [exec_now, hreg.1]
      exact hx.registered
    · rw [exec_now, hreg.2.2]
      exact hx.touched
    · rw [exec_now, hreg.1, hreg.2.1, exec_other srv _ s (by simp [Cmd.writes]),
        exec_other srv _ s (by simp [Cmd.writes])]
      exact hx.collected
  · intro b hb
    exact spared_exec srv (by simp [Cmd.writes, hb]) (hm b)

/-- A pass collects the members without an identity, and spares everybody else. -/
theorem Refines.reap (h : Refines s m) :
    Refines (DirOp.run srv s .reap) (DirOp.spec m .reap) := by
  have hnow : (reapOnce.run (exec srv) s).2.now = s.now := run_now srv reapOnce s
  refine ⟨hnow.trans h.now, reapOnce_permanent srv s h.agents, ?_⟩
  intro a
  have hx := h.mirrors a
  show Mirrors (reapOnce.run (exec srv) s).2 a ((m.agents a).reap m.now)
  by_cases hgone : a ∈ s.members ∧ s.agent a = none
  · have hr := reapOnce_collects srv s a hgone.1 hgone.2
    obtain ⟨hsome, hc⟩ := hx.member.1 hgone.1
    obtain ⟨r, hreg⟩ := Option.isSome_iff_exists.1 hsome
    have hdead : ¬ r.Live s.now := by
      intro hl
      exact hx.agent_iff.2 ⟨r, hreg, hl⟩ hgone.2
    have hreap : (m.agents a).reap m.now = { m.agents a with collected := true, gone := true } := by
      unfold Agent.reap
      simp [hreg, ← h.now, hdead, hc]
    rw [hreap]
    constructor
    · exact iff_of_false hr.member (by simp)
    · rw [hnow, Keyspace.look_congr (reapOnce_agent srv s a), hx.identity]
      rfl
    · rw [Keyspace.look, hr.presence]
      rfl
    · rw [hnow]
      exact hx.registered
    · rw [hnow]
      exact hx.touched
    · intro _
      refine ⟨hr.inbox, hr.cursor, ?_⟩
      intro r' hr'
      rw [hnow]
      rw [hreg] at hr'
      cases hr'
      exact hdead
  · have hspared : Spared a s (reapOnce.run (exec srv) s).2 :=
      reapOnce_run srv s a fun ha hn => hgone ⟨ha, hn⟩
    have hreap : (m.agents a).reap m.now = m.agents a := by
      unfold Agent.reap
      cases hreg : (m.agents a).registration with
      | none => rfl
      | some r =>
        refine if_pos ?_
        by_contra hno
        simp only [not_or, Bool.not_eq_true] at hno
        refine hgone ⟨hx.member.2 ⟨by rw [hreg]; rfl, hno.2⟩, ?_⟩
        by_contra hn
        obtain ⟨r', hr', hl⟩ := hx.agent_iff.1 hn
        rw [hreg] at hr'
        cases hr'
        rw [h.now] at hl
        exact hno.1 hl
    rw [hreap]
    exact hx.spared hspared hnow

theorem Refines.tick (h : Refines s m) (d : Nat) :
    Refines (DirOp.run srv s (.tick d)) (DirOp.spec m (.tick d)) := by
  have hle : s.now ≤ s.now + d := Nat.le_add_right _ _
  refine ⟨congrArg (· + d) h.now, h.agents.env (.tick d), ?_⟩
  intro a
  have hx := h.mirrors a
  constructor
  · show a ∈ ((Env.tick d).apply s).members ↔ _
    rw [members_env h.agents]
    exact hx.member
  · exact look_of_le (s := s) hle hx.identity
  · exact look_of_le (s := s) hle hx.presence
  · intro r hr
    exact ⟨(hx.registered r hr).1, (hx.registered r hr).2.trans hle⟩
  · intro t ht
    exact (hx.touched t ht).trans hle
  · intro hc
    obtain ⟨hin, hcur, hdead⟩ := hx.collected hc
    exact ⟨hin, hcur, fun r hr hl => hdead r hr (hl.mono hle)⟩

/-- **Every operation keeps the refinement.** -/
theorem Refines.step (h : Refines s m) (op : DirOp) : Refines (op.run srv s) (op.spec m) := by
  cases op with
  | register addr groups metadata retention => exact h.register srv addr groups metadata retention
  | touch a cid ttl => exact h.touch srv a cid ttl
  | clear a cid => exact h.clear srv a cid
  | reap => exact h.reap srv
  | tick d => exact h.tick srv d

end

/-! ## Every run -/

/-- Nobody has registered or touched presence; there may be mail. -/
def Db.Fresh (s : Db) : Prop :=
  s.keys .agents = none ∧ ∀ a, s.keys (.agent a) = none ∧ s.keys (.presence a) = none

theorem Refines.start {s₀ : Db} (h : s₀.Fresh) : Refines s₀ (.empty s₀.now) := by
  refine ⟨rfl, ?_, ?_⟩
  · intro v hv
    rw [h.1] at hv
    cases hv
  · intro a
    have hm : s₀.members = ∅ := by simp [Db.members, Keyspace.get, Keyspace.look, h.1]
    constructor
    · rw [hm]
      simp [AgentMap.empty, Agent.unknown]
    · rw [Keyspace.look, (h.2 a).1]
      rfl
    · rw [Keyspace.look, (h.2 a).2]
      rfl
    · intro r hr
      cases hr
    · intro t ht
      cases ht
    · intro hc
      cases hc

section
variable (srv : Server)

theorem reach_refines {s₀ : Db} (h : s₀.Fresh) (ops : List DirOp) :
    Refines (ops.foldl (DirOp.run srv) s₀) (ops.foldl DirOp.spec (.empty s₀.now)) := by
  have key : ∀ (s : Db) (m : AgentMap), Refines s m →
      Refines (ops.foldl (DirOp.run srv) s) (ops.foldl DirOp.spec m) := by
    induction ops with
    | nil => intro s m h; exact h
    | cons op ops ih => intro s m h; exact ih _ _ (h.step srv op)
  exact key s₀ _ (.start h)

variable {s : Db} {m : AgentMap}

theorem Refines.hasRow (h : Refines s m) {a : PyStr} {reg : Registration}
    (hr : (m.agents a).registration = some reg) (hl : reg.Live m.now) :
    m.HasRow (Row.of a reg.hash (s.online a)) reg where
  latest := hr
  live := hl
  address := ⟨((h.mirrors a).registered reg hr).1.symm, rfl, rfl, rfl, rfl, rfl⟩
  groups := rfl
  metadata := rfl
  lastConnect := rfl
  status := by
    show (if s.online a = true then Status.online else .offline) = .online ↔ _
    rw [← h.now]
    show _ ↔ (m.agents a).Online s.now
    rw [← (h.mirrors a).online_iff]
    split
    · next ho => simp [ho]
    · next ho => simp [ho]

/-- The members with a live identity are the agents with a live registration. -/
theorem Refines.mem_directory (h : Refines s m) {r : Row} : r ∈ s.directory ↔
    ∃ reg, (m.agents r.addr).registration = some reg ∧ reg.Live m.now ∧
      r = Row.of r.addr reg.hash (s.online r.addr) := by
  have hx := h.mirrors r.addr
  rw [Muster.mem_directory, Db.row, ← h.now]
  constructor
  · rintro ⟨-, hr⟩
    obtain ⟨v, hv, hr⟩ := Option.map_eq_some_iff.1 hr
    obtain ⟨reg, hreg, hl, rfl⟩ := hx.agent_eq_some_iff.1 hv
    exact ⟨reg, hreg, hl, hr.symm⟩
  · rintro ⟨reg, hreg, hl, hr⟩
    refine ⟨hx.member.2 ⟨by rw [hreg]; rfl, ?_⟩, ?_⟩
    · rw [← Bool.not_eq_true]
      intro hc
      exact (hx.collected hc).2.2 reg hreg hl
    · rw [hx.agent_eq_some_iff.2 ⟨reg, hreg, hl, rfl⟩]
      exact congrArg some hr.symm

/-- **`list_agents` lists the map.** -/
theorem Refines.lists (h : Refines s m) : m.Lists s.directory where
  sorted := directory_sorted s
  sound r hr := by
    obtain ⟨reg, hreg, hl, hrow⟩ := h.mem_directory.1 hr
    rw [hrow]
    exact ⟨reg, h.hasRow hreg hl⟩
  complete a reg hreg hl :=
    ⟨Row.of a reg.hash (s.online a), h.mem_directory.2 ⟨reg, hreg, hl, rfl⟩, rfl⟩

/-- What a pass does to a store that refines the map. -/
structure PassSpec (s s' : Db) (m : AgentMap) : Prop where
  listing : (listAgents.run (exec srv) s').1 = (listAgents.run (exec srv) s).1
  spares : ∀ a reg, (m.agents a).registration = some reg → reg.Live m.now →
    s'.keys (.inbox a) = s.keys (.inbox a) ∧ s'.keys (.cursor a) = s.keys (.cursor a) ∧
      s'.keys (.presence a) = s.keys (.presence a)
  removes : ∀ a reg, (m.agents a).registration = some reg → ¬ reg.Live m.now →
    a ∉ s'.members ∧ s'.keys (.inbox a) = none ∧ s'.keys (.cursor a) = none
  /-- what is left was touched after an earlier pass had collected the address -/
  presence : ∀ a reg, (m.agents a).registration = some reg → ¬ reg.Live m.now →
    s'.presence a ≠ none → (m.agents a).collected = true ∧ (m.agents a).gone = false
  again : reapOnce.run (exec srv) s' = (.ok 0, s')

theorem Refines.passSpec (h : Refines s m) : PassSpec srv s (reapOnce.run (exec srv) s).2 m where
  listing := by rw [listAgents_run, listAgents_run, reapOnce_directory]
  spares a reg hreg hl := by
    rw [← h.now] at hl
    have hs := reapOnce_run srv s a fun _ => (h.mirrors a).agent_iff.2 ⟨reg, hreg, hl⟩
    exact ⟨hs.inbox, hs.cursor, hs.presence⟩
  removes a reg hreg hl := by
    have h' := (h.reap srv).mirrors a
    have hc : ((m.agents a).reap m.now).collected = true := by
      unfold Agent.reap
      cases hcoll : (m.agents a).collected <;> simp [hreg, hl, hcoll]
    refine ⟨?_, (h'.collected hc).1, (h'.collected hc).2.1⟩
    intro hm
    have hno := (h'.member.1 hm).2
    rw [show (DirOp.spec m .reap).agents a = (m.agents a).reap m.now from rfl, hc] at hno
    cases hno
  presence a reg hreg hl hp := by
    have hgone : ((m.agents a).reap m.now).gone = false := ((h.reap srv).mirrors a).not_gone hp
    unfold Agent.reap at hgone
    rw [hreg] at hgone
    cases hcoll : (m.agents a).collected with
    | false => simp [hl, hcoll] at hgone
    | true => exact ⟨rfl, by simpa [hcoll] using hgone⟩
  again := reapOnce_again srv s

/-- **The directory refines the map.**  After any sequence of registrations, touches, clears,
passes and ticks `list_agents` answers the rows of the map, and a pass now changes nothing that
is listed and removes what has expired. -/
theorem directory_refines_map {s₀ : Db} (h : s₀.Fresh) (ops : List DirOp) :
    (∃ rows, listAgents.run (exec srv) (ops.foldl (DirOp.run srv) s₀) =
        (.ok rows, ops.foldl (DirOp.run srv) s₀) ∧
      (ops.foldl DirOp.spec (.empty s₀.now)).Lists rows) ∧
    PassSpec srv (ops.foldl (DirOp.run srv) s₀)
      (reapOnce.run (exec srv) (ops.foldl (DirOp.run srv) s₀)).2
      (ops.foldl DirOp.spec (.empty s₀.now)) := by
  have href := reach_refines srv h ops
  exact ⟨⟨_, listAgents_run srv _, href.lists⟩, href.passSpec srv⟩

end

/-- `x` registers for a second, expires, is collected, and touches presence. -/
def lateTouch : List DirOp :=
  [.register ⟨lit "u", lit "h", lit "r", lit "p", lit "x"⟩ [] .null 1, .tick 2000, .reap,
    .touch (lit "u/h/r/p/x") (lit "c") 60]

/-- Its registration has expired, and a pass leaves it its presence. -/
theorem late_touch_survives :
    (∃ reg, ((lateTouch.foldl DirOp.spec (.empty 5000)).agents (lit "u/h/r/p/x")).registration =
      some reg ∧ ¬ reg.Live (lateTouch.foldl DirOp.spec (.empty 5000)).now) ∧
    (reapOnce.run (exec Server.plain) (lateTouch.foldl (DirOp.run Server.plain) (.empty 5000))).2.presence
      (lit "u/h/r/p/x") = some ⟨lit "c", 7⟩ :=
  ⟨⟨_, rfl, by decide⟩, rfl⟩

theorem directory_refines_map_lateTouch :
    (∃ rows, listAgents.run (exec Server.plain)
        (lateTouch.foldl (DirOp.run Server.plain) (.empty 5000)) =
        (.ok rows, lateTouch.foldl (DirOp.run Server.plain) (.empty 5000)) ∧
      (lateTouch.foldl DirOp.spec (.empty 5000)).Lists rows) ∧
    PassSpec Server.plain (lateTouch.foldl (DirOp.run Server.plain) (.empty 5000))
      (reapOnce.run (exec Server.plain) (lateTouch.foldl (DirOp.run Server.plain) (.empty 5000))).2
      (lateTouch.foldl DirOp.spec (.empty 5000)) :=
  @directory_refines_map Server.plain (.empty 5000) ⟨rfl, fun _ => ⟨rfl, rfl⟩⟩ lateTouch

end Muster
