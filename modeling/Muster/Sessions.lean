import Muster.Lib.Machine
import Muster.Auth
import Muster.KeepAlive

/-!
# Streams, requests and the resolver

The pod over time: the resolver changes what it answers, the authenticator caches what
it has answered, streams connect, ping and close, and requests come in and are served.
Each leg of a stream is one step: between its resolution and what it writes it does not
wait for its client.  A request is two, since its key is resolved before its body is
awaited, and the client may take its time over that.

`reports` is what the resolver has said and when; in local development the table of
static keys is the resolver.  `confirmed` are the resolutions at connects and pings,
`waiting` the requests whose body has not come, `decisions` the visibility decisions
that requests have made.
-/

namespace Muster

/-- An open stream. -/
structure Session where
  key : PyStr
  addr : Address
  /-- rebound where a ping finds the groups changed -/
  ident : Identity Member
  metadata : Json
  connectionId : PyStr
  /-- the users its pings have resolved the key to -/
  pinged : List PyStr

/-- The key of a connect or a ping of `addr` resolved to `ident`, by an answer that is fresh in the
cache until `freshUntil`. -/
structure Confirmation where
  addr : PyStr
  ident : Identity Member
  freshUntil : Int

/-- The key of a request resolved to `ident`, and its body is awaited. -/
structure Waiting where
  ident : Identity Member
  header : PyStr
  freshUntil : Int

/-- `identity.visible` of `caller` and `agent`. -/
structure Decision where
  time : Nat
  caller : Identity Member
  agent : Row

structure Bus where
  db : Db
  resolver : PyStr → Answer
  cache : AuthCache
  reports : List (Nat × Identity Member)
  sessions : List Session
  confirmed : List Confirmation
  waiting : List Waiting
  decisions : List Decision

inductive BusStep where
  | connect (key header connectionId : PyStr) (metadata : Json)
  | ping (i : Nat)
  | disconnect (i : Nat)
  | request (key header : PyStr)
  /-- the body of a request that waits -/
  | body (i : Nat) (op : PyStr) (args : Args)
  | resolver (key : PyStr) (answer : Answer)
  | reap
  | tick (d : Nat)

/-- The first command of `list_agents`, which no request sends elsewhere. -/
def Cmd.lists : Cmd → Bool
  | .smembers => true
  | _ => false

section
variable [Python] (sha256 : PyStr → PyStr) (cfg : Config) (srv : Server)

/-- `auth.resolve(key)` now. -/
def Bus.resolve (s : Bus) (key : PyStr) : Except AuthExn (Identity Member) × Bus :=
  let (out, cache) := Muster.resolve sha256 cfg key s.db.now (s.resolver key) s.db.now s.cache
  let asked := (cfg.staticKeys.lookup key).isSome ||
    (resolveStart sha256 cfg key s.db.now s.cache).isNone
  (out.map Identity.members, { s with
    cache := cache
    reports := match out with
      | .ok ident => if asked then s.reports ++ [(s.db.now, ident.members)] else s.reports
      | .error _ => s.reports })

/-- How long the answer that the key has resolved by is fresh; a static key is answered anew each
time. -/
def Bus.freshUntil (s : Bus) (key : PyStr) : Int :=
  match cfg.staticKeys.lookup key, s.cache (sha256 key) with
  | none, some (_, freshUntil) => freshUntil
  | _, _ => s.db.now + cfg.authCacheTtl * 1000

/-- The decisions a request makes: about everybody it lists. -/
def Bus.decides (s : Bus) (ident : Identity Member) (header op : PyStr) (args : Args) :
    List Decision :=
  (((Call.rpc ident header op args).body cfg).visits Cmd.lists (exec srv) s.db).flatMap fun db =>
    match (listAgents.run (exec srv) db).1 with
    | .ok rows => rows.map fun agent => ⟨db.now, ident, agent⟩
    | .error _ => []

def Bus.close (s : Bus) (i : Nat) (session : Session) : Bus :=
  { s with
    db := ((streamClose session.addr session.connectionId).run (exec srv) s.db).2
    sessions := s.sessions.eraseIdx i }

def Bus.step (s : Bus) : BusStep → Option Bus
  | .connect key header connectionId metadata =>
    match s.resolve sha256 cfg key with
    | (.error _, s) => some s
    | (.ok ident, s) =>
      match parseAgentHeader ident.userId header with
      | .error _ => some s
      | .ok addr => some { s with
          db := ((streamOpen cfg addr connectionId metadata ident.groups).run (exec srv) s.db).2
          sessions := s.sessions ++ [⟨key, addr, ident, metadata, connectionId, []⟩]
          confirmed := s.confirmed ++ [⟨addr.text, ident, s.freshUntil sha256 cfg key⟩] }
  | .ping i => do
    let session ← s.sessions[i]?
    match s.resolve sha256 cfg session.key with
    | (.error _, s) => return s.close srv i session
    | (.ok ident2, s) => return { s with
        db := ((streamPing cfg session.addr session.connectionId session.metadata session.ident.groups
          ident2.groups).run (exec srv) s.db).2
        sessions := s.sessions.set i { session with
          ident := if ident2.groups ≠ session.ident.groups then ident2 else session.ident
          pinged := session.pinged ++ [ident2.userId] }
        confirmed := s.confirmed ++
          [⟨session.addr.text, ident2, s.freshUntil sha256 cfg session.key⟩] }
  | .disconnect i => do
    let session ← s.sessions[i]?
    return s.close srv i session
  | .request key header =>
    match s.resolve sha256 cfg key with
    | (.error _, s) => some s
    | (.ok ident, s) =>
      match parseAgentHeader ident.userId header with
      | .error _ => some s
      | .ok _ => some { s with
          waiting := s.waiting ++ [⟨ident, header, s.freshUntil sha256 cfg key⟩] }
  | .body i op args => do
    let p ← s.waiting[i]?
    return { s with
      db := (((Call.rpc p.ident p.header op args).body cfg).run (exec srv) s.db).2
      waiting := s.waiting.eraseIdx i
      decisions := s.decisions ++ s.decides cfg srv p.ident p.header op args }
  | .resolver key answer => some { s with resolver := Function.update s.resolver key answer }
  | .reap => some { s with db := (reapOnce.run (exec srv) s.db).2 }
  | .tick d => some { s with db := (Env.tick d).apply s.db }

def bus : Machine Bus BusStep := ⟨Bus.step sha256 cfg srv⟩

end

/-- A pod with nobody on it. -/
def Bus.start (now : Nat) (resolver : PyStr → Answer) : Bus :=
  ⟨.empty now, resolver, fun _ => none, [], [], [], [], []⟩

/-! ## What a step does -/

/-- The key a step comes in with. -/
def BusStep.key : BusStep → Option PyStr
  | .connect key _ _ _ => some key
  | .request key _ => some key
  | _ => none

section
variable [Python] (sha256 : PyStr → PyStr) (cfg : Config) (srv : Server)

/-- Where a step can lead. -/
inductive Bus.Next (s : Bus) : BusStep → Bus → Prop
  /-- the key or the header is refused, before anything else has happened -/
  | turnedAway {l : BusStep} {key : PyStr} {out : Except AuthExn (Identity Member)} {r : Bus} :
    l.key = some key → s.resolve sha256 cfg key = (out, r) → Bus.Next s l r
  | connected {key header connectionId : PyStr} {metadata : Json} {ident : Identity Member}
      {addr : Address} {r : Bus} : s.resolve sha256 cfg key = (.ok ident, r) →
    parseAgentHeader ident.userId header = .ok addr →
    Bus.Next s (.connect key header connectionId metadata) { r with
      db := ((streamOpen cfg addr connectionId metadata ident.groups).run (exec srv) r.db).2
      sessions := r.sessions ++ [⟨key, addr, ident, metadata, connectionId, []⟩]
      confirmed := r.confirmed ++ [⟨addr.text, ident, r.freshUntil sha256 cfg key⟩] }
  | pinged {i : Nat} {session : Session} {ident2 : Identity Member} {r : Bus} :
    s.sessions[i]? = some session → s.resolve sha256 cfg session.key = (.ok ident2, r) →
    Bus.Next s (.ping i) { r with
      db := ((streamPing cfg session.addr session.connectionId session.metadata session.ident.groups
        ident2.groups).run (exec srv) r.db).2
      sessions := r.sessions.set i { session with
        ident := if ident2.groups ≠ session.ident.groups then ident2 else session.ident
        pinged := session.pinged ++ [ident2.userId] }
      confirmed := r.confirmed ++
        [⟨session.addr.text, ident2, r.freshUntil sha256 cfg session.key⟩] }
  /-- a ping whose key is refused closes the stream -/
  | refused {i : Nat} {session : Session} {e : AuthExn} {r : Bus} :
    s.sessions[i]? = some session → s.resolve sha256 cfg session.key = (.error e, r) →
    Bus.Next s (.ping i) (r.close srv i session)
  | disconnected {i : Nat} {session : Session} : s.sessions[i]? = some session →
    Bus.Next s (.disconnect i) (s.close srv i session)
  | asked {key header : PyStr} {ident : Identity Member} {r : Bus} :
    s.resolve sha256 cfg key = (.ok ident, r) →
    Bus.Next s (.request key header) { r with
      waiting := r.waiting ++ [⟨ident, header, r.freshUntil sha256 cfg key⟩] }
  | served {i : Nat} {p : Waiting} {op : PyStr} {args : Args} : s.waiting[i]? = some p →
    Bus.Next s (.body i op args) { s with
      db := (((Call.rpc p.ident p.header op args).body cfg).run (exec srv) s.db).2
      waiting := s.waiting.eraseIdx i
      decisions := s.decisions ++ s.decides cfg srv p.ident p.header op args }
  | resolver (key : PyStr) (answer : Answer) :
    Bus.Next s (.resolver key answer) { s with resolver := Function.update s.resolver key answer }
  | reap : Bus.Next s .reap { s with db := (reapOnce.run (exec srv) s.db).2 }
  | tick (d : Nat) : Bus.Next s (.tick d) { s with db := (Env.tick d).apply s.db }

theorem Bus.next_of_step {s s' : Bus} {l : BusStep}
    (h : (bus sha256 cfg srv).step s l = some s') : Bus.Next sha256 cfg srv s l s' := by
  simp only [bus] at h
  cases l with
  | connect key header connectionId metadata =>
    simp only [Bus.step] at h
    split at h
    · next hr =>
      cases h
      exact .turnedAway rfl hr
    · next ident r hr =>
      split at h
      · cases h
        exact .turnedAway rfl hr
      · next addr ha =>
        cases h
        exact .connected hr ha
  | ping i =>
    simp only [Bus.step] at h
    obtain ⟨session, hsess, h⟩ := Option.bind_eq_some_iff.1 h
    split at h
    · next hr =>
      cases h
      exact .refused hsess hr
    · next ident2 r hr =>
      cases h
      exact .pinged hsess hr
  | disconnect i =>
    simp only [Bus.step] at h
    obtain ⟨session, hsess, h⟩ := Option.bind_eq_some_iff.1 h
    cases h
    exact .disconnected hsess
  | request key header =>
    simp only [Bus.step] at h
    split at h
    · next hr =>
      cases h
      exact .turnedAway rfl hr
    · next ident r hr =>
      split at h
      · cases h
        exact .turnedAway rfl hr
      · cases h
        exact .asked hr
  | body i op args =>
    simp only [Bus.step] at h
    obtain ⟨p, hp, h⟩ := Option.bind_eq_some_iff.1 h
    cases h
    exact .served hp
  | resolver key answer =>
    cases h
    exact .resolver key answer
  | reap =>
    cases h
    exact .reap
  | tick d =>
    cases h
    exact .tick d

end

/-! ## What becomes of the records -/

section
variable (cfg : Config) (srv : Server) (addr : Address) (cid : PyStr) (metadata : Json) {s : Db}
  {b : PyStr} {v : AgentHash}

theorem agent_of_register {h : AgentHash} {a : PyStr} {retention : Int}
    (hv : (exec srv (.register a h retention) s).1.agent b = some v) :
    b = a ∧ v = h ∨ s.agent b = some v := by
  by_cases hb : b = a
  · subst hb
    refine .inl ⟨rfl, ?_⟩
    obtain ⟨d, hd⟩ := Keyspace.get_eq_some_iff.1 hv
    have hslot := (Keyspace.look_eq_some_iff.1 hd).1
    rw [agent_slot_register] at hslot
    unfold stamped at hslot
    split at hslot
    · cases hslot
    · cases hslot
      rfl
  · rw [agent_exec_other srv (by simp [Cmd.writes, hb])] at hv
    exact .inr hv

theorem agent_of_touch {p : PresenceHash} {a : PyStr} {ttl : Int}
    (hv : (exec srv (.touch a p ttl) s).1.agent b = some v) : s.agent b = some v := by
  rwa [agent_exec_other srv (by simp [Cmd.writes])] at hv

/-- A connect writes the record of its address. -/
theorem agent_of_streamOpen {groups : List Member}
    (hv : ((streamOpen cfg addr cid metadata groups).run (exec srv) s).2.agent b = some v) :
    b = addr.text ∧ v = .of addr groups metadata s.sec ∨ s.agent b = some v := by
  rw [streamOpen_run] at hv
  exact agent_of_register srv (agent_of_touch srv hv)

/-- A ping writes it where the groups are not the stream's. -/
theorem agent_of_streamPing {groups groups2 : List Member}
    (hv : ((streamPing cfg addr cid metadata groups groups2).run (exec srv) s).2.agent b = some v) :
    b = addr.text ∧ v = .of addr groups2 metadata s.sec ∨ s.agent b = some v := by
  rw [streamPing_run] at hv
  replace hv := agent_of_touch srv hv
  split at hv
  · exact agent_of_register srv hv
  · exact .inr hv

theorem agent_of_streamClose
    (hv : ((streamClose addr cid).run (exec srv) s).2.agent b = some v) : s.agent b = some v := by
  unfold streamClose at hv
  rw [clearPresence_run] at hv
  rwa [agent_exec_other srv (by simp [Cmd.writes])] at hv

end

/-! ## What a request sees -/

section
variable {cfg : Config} (srv : Server) {s : Db} {ident : Identity Member} {header op : PyStr}
  {args : Args}

theorem rpc_not_listing {l : Log} {c : Cmd} (h : (Call.rpc ident header op args).Sends cfg l c)
    {k : Key} (hk : k.Listing) : k ∉ c.writes := by
  have hup : ¬ c.Upkeep := by
    obtain ⟨sender, -, h⟩ := h
    exact h.not_upkeep
  intro hw
  cases c with
  | set | xadd | incr =>
    cases List.mem_singleton.1 hw
    exact hk
  | expire k' secs =>
    obtain ⟨kind, b, rfl⟩ := h.expire
    cases List.mem_singleton.1 hw
    exact hk
  | srem | register | touch | clearIfOwner | del => exact hup trivial
  | _ => cases hw

variable [Python]

/-- A request changes nothing that is listed. -/
theorem rpc_keys {k : Key} (hk : k.Listing) :
    ((((Call.rpc ident header op args).body cfg).run (exec srv) s).2).keys k = s.keys k :=
  body_run_keys srv s cfg _ fun _ _ hs => rpc_not_listing hs hk

/-- It decides about the agents in the directory, now. -/
theorem listed_of_visit {s : Bus} {db : Db} (h : db ∈
    ((Call.rpc ident header op args).body cfg).visits Cmd.lists (exec srv) s.db) :
    db.now = s.db.now ∧ (listAgents.run (exec srv) db).1 = .ok s.db.directory := by
  obtain ⟨hnow, hkeys⟩ := Prog.visits_keeps Cmd.lists (exec srv)
    (I := fun t => t.now = s.db.now ∧ ∀ k : Key, k.Listing → t.keys k = s.db.keys k)
    (fun l c t hs ht => ⟨(exec_now srv c t).trans ht.1, fun k hk =>
      (exec_other srv c t (rpc_not_listing hs hk)).trans (ht.2 k hk)⟩)
    (Call.body_ensures cfg (.rpc ident header op args)) ⟨rfl, fun _ _ => rfl⟩ h
  exact ⟨hnow, by rw [listAgents_run, directory_congr hnow hkeys]⟩

theorem mem_decides {s : Bus} {d : Decision} (h : d ∈ s.decides cfg srv ident header op args) :
    d.time = s.db.now ∧ d.caller = ident ∧ d.agent ∈ s.db.directory := by
  obtain ⟨db, hdb, hd⟩ := List.mem_flatMap.1 h
  obtain ⟨hnow, hrows⟩ := listed_of_visit srv hdb
  rw [hrows, hnow] at hd
  obtain ⟨row, hrow, rfl⟩ := List.mem_map.1 hd
  exact ⟨rfl, rfl, hrow⟩

/-- If about any, about all of them. -/
theorem decides_all {s : Bus} (h : s.decides cfg srv ident header op args ≠ []) {agent : Row}
    (ha : agent ∈ s.db.directory) :
    ∃ d ∈ s.decides cfg srv ident header op args, d.agent = agent := by
  obtain ⟨d, hd⟩ := List.exists_mem_of_ne_nil _ h
  obtain ⟨db, hdb, -⟩ := List.mem_flatMap.1 hd
  obtain ⟨-, hrows⟩ := listed_of_visit srv hdb
  refine ⟨⟨db.now, ident, agent⟩, List.mem_flatMap.2 ⟨db, hdb, ?_⟩, rfl⟩
  rw [hrows]
  exact List.mem_map.2 ⟨agent, ha, rfl⟩

end

/-! ## What the resolver has said -/

/-- What is cached was reported when its time began to run. -/
def Bus.Known (cfg : Config) (s : Bus) : Prop :=
  ∀ kh ident freshUntil, s.cache kh = some (ident, freshUntil) →
    ∃ t, (t, ident.members) ∈ s.reports ∧ t ≤ s.db.now ∧ freshUntil = t + cfg.authCacheTtl * 1000

theorem Bus.Known.start (cfg : Config) (now : Nat) (resolver : PyStr → Answer) :
    (Bus.start now resolver).Known cfg := by
  intro kh ident freshUntil hc
  cases hc

/-- The resolver has reported `ident`, and the report is fresh until `freshUntil`. -/
def Bus.Vouched (cfg : Config) (s : Bus) (ident : Identity Member) (freshUntil : Int) : Prop :=
  ∃ t, (t, ident) ∈ s.reports ∧ t ≤ s.db.now ∧ freshUntil = t + cfg.authCacheTtl * 1000

theorem Bus.Known.mono {cfg : Config} {s s' : Bus} (h : s.Known cfg) (hcache : s'.cache = s.cache)
    (hreports : s'.reports = s.reports) (hnow : s.db.now ≤ s'.db.now) : s'.Known cfg := by
  intro kh ident freshUntil hc
  rw [hcache] at hc
  obtain ⟨t, ht, hle, he⟩ := h kh ident freshUntil hc
  exact ⟨t, hreports ▸ ht, le_trans hle hnow, he⟩

/-- A resolution changes the cache and the reports, and nothing else. -/
structure Bus.Resolved (sha256 : PyStr → PyStr) (cfg : Config) (s : Bus) (key : PyStr)
    (out : Except AuthExn (Identity Member)) (r : Bus) : Prop where
  frame : r = { s with cache := r.cache, reports := r.reports }
  known : r.Known cfg
  vouched : ∀ ident, out = .ok ident → r.Vouched cfg ident (r.freshUntil sha256 cfg key)
  reports : ∀ x ∈ s.reports, x ∈ r.reports

section
variable [Python] (sha256 : PyStr → PyStr) {cfg : Config} {s r : Bus} {key : PyStr}
  {out : Except AuthExn (Identity Member)}

/-- **What `resolve` returns was reported when its time in the cache began to run.** -/
theorem Bus.Known.resolve (h : s.Known cfg) (hr : s.resolve sha256 cfg key = (out, r)) :
    s.Resolved sha256 cfg key out r := by
  unfold Bus.resolve Muster.resolve at hr
  cases hstart : resolveStart sha256 cfg key s.db.now s.cache with
  | some res =>
    rw [hstart] at hr
    cases res with
    | error e =>
      cases hr
      exact ⟨rfl, h, nofun, fun _ hx => hx⟩
    | ok ident =>
      rcases resolveStart_ok hstart with hs | ⟨hs, freshUntil, hc, hlt⟩
      · simp only [hs, Option.isSome_some, Bool.true_or, if_true] at hr
        cases hr
        refine ⟨rfl, ?_, ?_, fun _ hx => List.mem_append_left _ hx⟩
        · intro kh ident' freshUntil hc
          obtain ⟨t, ht, hle⟩ := h kh ident' freshUntil hc
          exact ⟨t, List.mem_append_left _ ht, hle⟩
        · rintro ident' ⟨⟩
          refine ⟨s.db.now, by simp, le_refl _, ?_⟩
          unfold Bus.freshUntil
          rw [hs]
      · simp only [hs, Option.isSome_none, Option.isNone_some, Bool.or_self, Bool.false_eq_true,
          if_false] at hr
        cases hr
        refine ⟨rfl, h, ?_, fun _ hx => hx⟩
        rintro ident' ⟨⟩
        obtain ⟨t, ht, hle, he⟩ := h _ _ _ hc
        refine ⟨t, ht, hle, ?_⟩
        unfold Bus.freshUntil
        rw [hs, hc]
        exact he
  | none =>
    rw [hstart] at hr
    simp only [Option.isNone_none, Bool.or_true, if_true] at hr
    rcases resolveFinish_cases sha256 cfg key s.db.now s.cache (s.resolver key) with
      ⟨-, e, he⟩ | ⟨-, -, ident, he⟩ | ⟨-, e, he⟩
    · rw [he] at hr
      cases hr
      refine ⟨rfl, ?_, nofun, fun _ hx => hx⟩
      intro kh ident freshUntil hc
      refine h kh ident freshUntil ?_
      simp only at hc
      by_cases hk : kh = sha256 key
      · subst hk
        simp at hc
      · rwa [Function.update_of_ne hk] at hc
    · rw [he] at hr
      cases hr
      refine ⟨rfl, ?_, ?_, fun _ hx => List.mem_append_left _ hx⟩
      · intro kh ident' freshUntil hc
        simp only at hc
        by_cases hk : kh = sha256 key
        · subst hk
          rw [Function.update_self] at hc
          cases hc
          exact ⟨s.db.now, by simp, le_refl _, rfl⟩
        · rw [Function.update_of_ne hk] at hc
          obtain ⟨t, ht, hle⟩ := h kh ident' freshUntil hc
          exact ⟨t, List.mem_append_left _ ht, hle⟩
      · rintro ident' ⟨⟩
        refine ⟨s.db.now, by simp, le_refl _, ?_⟩
        unfold Bus.freshUntil
        dsimp only
        rw [Function.update_self]
        split
        · next heq =>
          cases heq
          rfl
        · rfl
    · rw [he] at hr
      cases hr
      exact ⟨rfl, h, nofun, fun _ hx => hx⟩

end

end Muster
