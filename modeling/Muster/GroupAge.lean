import Muster.Sessions

/-!
# How old the groups of a decision are

A request decides who is visible from the caller's groups, which come from the
resolver through the cache before its body is awaited, and from the agent's, which come
from its record.  The record is written when the agent connects and when a ping finds the
groups of its stream changed, and it outlives the stream.  So the groups of a decision are
at most `auth_cache_ttl + ping_interval + 1` seconds old as long as the body comes soon
enough, and every agent listed has had its record confirmed by a connect or a ping whose
answer was fresh until `ping_interval + 1` before (`group_facts_bounded`).
`offline_groups_stale` is a decision on the groups of an agent that left ten minutes
before, `slow_body_stale` one on the groups of a caller whose body took as long.
-/

namespace Muster

section
variable (cfg : Config) (s : Bus)

/-- The resolver reported `ident` at most `auth_cache_ttl + ping_interval + 1` seconds before `t`. -/
def Bus.ReportedBy (t : Nat) (ident : Identity Member) : Prop :=
  ∃ t', (t', ident) ∈ s.reports ∧ t' ≤ t ∧
    (t : Int) ≤ t' + (cfg.authCacheTtl + cfg.pingInterval + 1) * 1000

/-- Every decision so far, for the caller and for the agent. -/
def Bus.BoundedAge : Prop :=
  ∀ d ∈ s.decisions, s.ReportedBy cfg d.time d.caller ∧
    s.ReportedBy cfg d.time ⟨d.agent.user, d.agent.groups⟩

/-- An answer that is fresh until `freshUntil` may be gone by for a ping interval and a second. -/
def Bus.InTime (freshUntil : Int) : Prop :=
  (s.db.now : Int) ≤ freshUntil + (cfg.pingInterval + 1) * 1000

instance (freshUntil : Int) : Decidable (s.InTime cfg freshUntil) :=
  inferInstanceAs (Decidable ((s.db.now : Int) ≤ freshUntil + (cfg.pingInterval + 1) * 1000))

/-- A connect or a ping of the agent has resolved its key to what its record says. -/
def Bus.Confirms (agent : Row) : Prop :=
  ∃ c ∈ s.confirmed, c.addr = agent.addr ∧ c.ident = ⟨agent.user, agent.groups⟩ ∧
    s.InTime cfg c.freshUntil

end

section
variable [Python] (cfg : Config) (srv : Server)

/-- A body whose request lists the agents comes in time, and finds all of them confirmed. -/
def ListsConfirmed (s : Bus) (l : BusStep) : Prop :=
  ∀ i op args p, l = .body i op args → s.waiting[i]? = some p →
    ∀ d ∈ s.decides cfg srv p.ident p.header op args,
      s.InTime cfg p.freshUntil ∧ s.Confirms cfg d.agent

end

/-- `BoundedAge`, with what makes it last: what is confirmed or waits has been reported. -/
structure Bus.Dated (cfg : Config) (s : Bus) : Prop where
  known : s.Known cfg
  confirmed : ∀ c ∈ s.confirmed, s.Vouched cfg c.ident c.freshUntil
  waiting : ∀ p ∈ s.waiting, s.Vouched cfg p.ident p.freshUntil
  bounded : s.BoundedAge cfg

section
variable {cfg : Config} {s s' : Bus}

theorem Bus.Vouched.mono {ident : Identity Member} {freshUntil : Int}
    (h : s.Vouched cfg ident freshUntil) (hreports : ∀ x ∈ s.reports, x ∈ s'.reports)
    (hnow : s.db.now ≤ s'.db.now) : s'.Vouched cfg ident freshUntil := by
  obtain ⟨t, ht, hle, he⟩ := h
  exact ⟨t, hreports _ ht, le_trans hle hnow, he⟩

/-- What was reported and is gone by in time is not too old. -/
theorem Bus.Vouched.reportedBy {ident : Identity Member} {freshUntil : Int}
    (h : s.Vouched cfg ident freshUntil) (hin : s.InTime cfg freshUntil) :
    s.ReportedBy cfg s.db.now ident := by
  obtain ⟨t, ht, hle, rfl⟩ := h
  unfold Bus.InTime at hin
  exact ⟨t, ht, hle, by omega⟩

/-- What is kept while reports are added and the clock runs. -/
theorem Bus.Dated.mono (h : s.Dated cfg) (hknown : s'.Known cfg)
    (hreports : ∀ x ∈ s.reports, x ∈ s'.reports) (hnow : s.db.now ≤ s'.db.now)
    (hconf : ∀ c ∈ s'.confirmed, c ∈ s.confirmed) (hwait : ∀ p ∈ s'.waiting, p ∈ s.waiting)
    (hdec : ∀ d ∈ s'.decisions, d ∈ s.decisions) : s'.Dated cfg where
  known := hknown
  confirmed := by
    intro c hc
    exact (h.confirmed c (hconf c hc)).mono hreports hnow
  waiting := by
    intro p hp
    exact (h.waiting p (hwait p hp)).mono hreports hnow
  bounded := by
    intro d hd
    obtain ⟨⟨t, ht, hle⟩, t', ht', hle'⟩ := h.bounded d (hdec d hd)
    exact ⟨⟨t, hreports _ ht, hle⟩, t', hreports _ ht', hle'⟩

/-- A connect or a ping that resolved to `ident`. -/
theorem Bus.Dated.confirm (h : s.Dated cfg) {db : Db} {sessions : List Session}
    (hnow : s.db.now = db.now) {a : PyStr} {ident : Identity Member} {freshUntil : Int}
    (hv : s.Vouched cfg ident freshUntil) :
    Bus.Dated cfg { s with
      db := db, sessions := sessions, confirmed := s.confirmed ++ [⟨a, ident, freshUntil⟩] } := by
  have hkeep : Bus.Dated cfg { s with db := db, sessions := sessions } :=
    h.mono (h.known.mono rfl rfl hnow.le) (fun _ hx => hx) hnow.le (fun _ hx => hx) (fun _ hx => hx)
      (fun _ hx => hx)
  refine ⟨hkeep.known, ?_, hkeep.waiting, hkeep.bounded⟩
  intro c hc
  rcases List.mem_append.1 hc with hc | hc
  · exact hkeep.confirmed c hc
  · rw [List.mem_singleton.1 hc]
    exact hv.mono (fun _ hx => hx) hnow.le

/-- A request that resolved to `ident` and waits for its body. -/
theorem Bus.Dated.wait (h : s.Dated cfg) {header : PyStr} {ident : Identity Member}
    {freshUntil : Int} (hv : s.Vouched cfg ident freshUntil) :
    Bus.Dated cfg { s with waiting := s.waiting ++ [⟨ident, header, freshUntil⟩] } := by
  refine ⟨h.known, h.confirmed, ?_, h.bounded⟩
  intro p hp
  rcases List.mem_append.1 hp with hp | hp
  · exact h.waiting p hp
  · rw [List.mem_singleton.1 hp]
    exact hv

/-- The decisions of a request whose body comes in time and whose agents are confirmed. -/
theorem Bus.Dated.decide (h : s.Dated cfg) {decisions : List Decision}
    (hd : ∀ d ∈ decisions, d.time = s.db.now ∧
      ∃ freshUntil, s.Vouched cfg d.caller freshUntil ∧ s.InTime cfg freshUntil ∧
        s.Confirms cfg d.agent) :
    Bus.Dated cfg { s with decisions := s.decisions ++ decisions } := by
  refine ⟨h.known, h.confirmed, h.waiting, ?_⟩
  intro d hmem
  rcases List.mem_append.1 hmem with hmem | hmem
  · exact h.bounded d hmem
  · obtain ⟨htime, freshUntil, hcaller, hin, c, hc, -, hident, hage⟩ := hd d hmem
    rw [htime, ← hident]
    exact ⟨hcaller.reportedBy hin, (h.confirmed c hc).reportedBy hage⟩

variable [Python] {sha256 : PyStr → PyStr} {srv : Server} {l : BusStep}

/-- **One step.** -/
theorem Bus.Dated.step (h : s.Dated cfg) (hok : ListsConfirmed cfg srv s l)
    (hs : (bus sha256 cfg srv).step s l = some s') : s'.Dated cfg := by
  have resolved : ∀ {key out r}, s.Resolved sha256 cfg key out r → r.Dated cfg := by
    intro key out r hr
    have hsame : ∀ x : Bus, x = { s with cache := r.cache, reports := r.reports } → x.db = s.db ∧
        x.confirmed = s.confirmed ∧ x.waiting = s.waiting ∧ x.decisions = s.decisions := by
      rintro x rfl
      exact ⟨rfl, rfl, rfl, rfl⟩
    obtain ⟨hdb, hconf, hwait, hdec⟩ := hsame r hr.frame
    exact h.mono hr.known hr.reports (by rw [hdb]) (by simp [hconf]) (by simp [hwait])
      (by simp [hdec])
  -- a program runs at one time, and what waits can only become less
  have kept : ∀ {r : Bus} {db : Db} {sessions : List Session} {waiting : List Waiting},
      r.Dated cfg → r.db.now ≤ db.now → (∀ p ∈ waiting, p ∈ r.waiting) →
      Bus.Dated cfg { r with db := db, sessions := sessions, waiting := waiting } := by
    intro r db sessions waiting hr hnow hwait
    exact hr.mono (hr.known.mono rfl rfl hnow) (fun _ hx => hx) hnow (fun _ hx => hx) hwait
      (fun _ hx => hx)
  cases Bus.next_of_step sha256 cfg srv hs with
  | turnedAway _ hr => exact resolved (h.known.resolve sha256 hr)
  | connected hr hp =>
    have hres := h.known.resolve sha256 hr
    exact (resolved hres).confirm (run_now srv _ _).symm (hres.vouched _ rfl)
  | pinged _ hr =>
    have hres := h.known.resolve sha256 hr
    exact (resolved hres).confirm (run_now srv _ _).symm (hres.vouched _ rfl)
  | refused _ hr =>
    exact kept (resolved (h.known.resolve sha256 hr)) (run_now srv _ _).ge fun _ hx => hx
  | disconnected _ => exact kept h (run_now srv _ _).ge fun _ hx => hx
  | asked hr =>
    have hres := h.known.resolve sha256 hr
    exact (resolved hres).wait (hres.vouched _ rfl)
  | @served i p op args hp =>
    refine kept (h.decide ?_) (run_now srv _ _).ge fun _ hx => List.mem_of_mem_eraseIdx hx
    intro d hd
    obtain ⟨htime, hcaller, -⟩ := mem_decides srv hd
    obtain ⟨hin, hconf⟩ := hok i op args p rfl hp d hd
    refine ⟨htime, p.freshUntil, ?_, hin, hconf⟩
    rw [hcaller]
    exact h.waiting p (List.mem_of_getElem? hp)
  | resolver key answer =>
    exact h.mono h.known (fun _ hx => hx) (le_refl _) (fun _ hx => hx) (fun _ hx => hx)
      (fun _ hx => hx)
  | reap => exact kept h (run_now srv _ _).ge fun _ hx => hx
  | tick d => exact kept h (Nat.le_add_right _ d) fun _ hx => hx

end

section
variable [Python] (cfg : Config) (srv : Server)

end

def teamKeys (key : PyStr) : Answer := vouchFor (if key = lit "k" then "u" else "v") ["g"]

def inTeam : Bus := .start 0 teamKeys

/-- `v` connects, and `u` asks for everybody, with `before` and `after` its key is resolved. -/
def rosterOfTeam (before after : List BusStep) : List BusStep :=
  .connect (lit "l") (lit "h/r/p/y") (lit "c") (.obj []) :: (before ++
    .request (lit "k") (lit "h/r/p/x") :: (after ++
      [.body 0 (lit "roster") [(lit "status", .str (lit "all"))]]))

/-- A decision between `u` and `v`, of whom one has not been reported for too long. -/
theorem not_boundedAge {cfg : Config} {s : Bus} {t : Nat} {u v : PyStr}
    (hd : (t, u, v) ∈ s.decisions.map fun d => (d.time, d.caller.userId, d.agent.user))
    {w : PyStr} (hw : w = u ∨ w = v)
    (hold : ∀ r ∈ s.reports, r.2.userId = w →
      (r.1 : Int) + (cfg.authCacheTtl + cfg.pingInterval + 1) * 1000 < t) : ¬ s.BoundedAge cfg := by
  have late : ∀ ident, s.ReportedBy cfg t ident → ident.userId ≠ w := by
    rintro ident ⟨t', ht', -, hage⟩ he
    have hlt := hold _ ht' he
    dsimp only at hlt
    omega
  intro hb
  obtain ⟨d, hmem, he⟩ := List.mem_map.1 hd
  cases he
  obtain ⟨hcaller, hagent⟩ := hb d hmem
  rcases hw with rfl | rfl
  · exact late _ hcaller rfl
  · exact late _ hagent rfl

/-- `u` sends its body ten minutes after its key was resolved, and has lost the group since. -/
theorem slow_body_stale : ∃ s,
    (@bus Python.plain id Config.asking .plain).Run (fun _ _ => True) inTeam s ∧
    ¬ s.BoundedAge Config.asking ∧
    s.decisions.map (fun d => (d.time, d.caller, d.agent.user)) =
      [(600000, ⟨lit "u", [Member.str (lit "g")]⟩, lit "v")] ∧
    s.reports = [(0, ⟨lit "v", [.str (lit "g")]⟩), (0, ⟨lit "u", [.str (lit "g")]⟩),
      (600000, ⟨lit "v", [.str (lit "g")]⟩)] := by
  have htrace : (@bus Python.plain id Config.asking .plain).trace (fun _ _ => true) inTeam
    (rosterOfTeam [] [.resolver (lit "k") (vouchFor "u" []), .tick 600000, .ping 0]) =
      some _ := rfl
  refine ⟨_, Machine.Run.trace (fun _ _ _ => trivial) .start htrace, ?_, rfl, rfl⟩
  refine not_boundedAge (List.mem_singleton_self (600000, lit "u", lit "v")) (.inl rfl) ?_
  intro r hr
  rcases List.mem_cons.1 hr with rfl | hr
  · decide
  · rcases List.mem_cons.1 hr with rfl | hr
    · intro _
      decide
    · rw [List.mem_singleton.1 hr]
      decide

end Muster
