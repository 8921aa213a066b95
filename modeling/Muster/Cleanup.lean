import Muster.Lib.Machine
import Muster.StoreRuns
import Muster.Auth

/-!
# What a stream leaves when it ends

The generator of `stream_endpoint`, await by await and yield by yield, with what it has
done outside: the gauge, the subscription and the store.  Whatever it waits for may raise
or be cancelled; a command that is cut off so has been executed by then or never is.

The gauge is incremented, the agent registered, its presence touched and the channel
subscribed before the `try`, so a failure up to there skips the `finally`
(`early_failure_leaks`).  A stream that has ended has left nothing behind iff none of its
failures came that early (`stream_cleanup_iff`).
-/

namespace Muster

/-- Where the generator is. -/
inductive GenAt where
  | idle
  | registering
  | touching
  | subscribing
  /-- the first await of the `try` -/
  | counting
  | nudging
  | polling
  | receiving
  | forwarding
  /-- at the check of the ping interval -/
  | checking
  | resolving
  /-- yielding the error of a key that is refused -/
  | refusing
  | refreshing (groups : List Member)
  | renewing
  | pinging
  | ended
  deriving DecidableEq

/-- Started, and not yet in the `try`. -/
def GenAt.early : GenAt → Bool
  | .registering => true
  | .touching => true
  | .subscribing => true
  | _ => false

/-- Waiting for nothing. -/
def GenAt.running : GenAt → Bool
  | .idle => true
  | .checking => true
  | .ended => true
  | _ => false

/-- The generator, the groups of `ident`, and what it has done outside; the gauge without what other
streams add to it. -/
structure StreamGen where
  db : Db
  gauge : Int
  subscribed : Bool
  groups : List Member
  point : GenAt

inductive StreamEvent where
  | start
  /-- what it waits for is done -/
  | done
  | counted (count : Nat)
  | polled (disconnected : Bool)
  | received (message : Bool)
  /-- whether the ping interval has passed -/
  | due (passed : Bool)
  | resolved (answer : Except AuthExn (List Member))
  /-- what it waits for raises or is cancelled, the command executed or not -/
  | fail (executed : Bool)
  /-- the rest of the world -/
  | others (s : Db)

section
variable (srv : Server) (cfg : Config) (addr : Address) (connectionId : PyStr) (metadata : Json)

namespace StreamGen

/-- What the command in progress does. -/
def effect (g : StreamGen) : StreamGen :=
  match g.point with
  | .registering => { g with
      db := ((registerAgent addr g.groups metadata cfg.agentRetention).run (exec srv) g.db).2 }
  | .touching => { g with
      db := ((touchPresence addr.text connectionId cfg.presenceTtl).run (exec srv) g.db).2 }
  | .subscribing => { g with subscribed := true }
  | .refreshing groups => { g with
      db := ((registerAgent addr groups metadata cfg.agentRetention).run (exec srv) g.db).2 }
  | .renewing => { g with
      db := ((touchPresence addr.text connectionId cfg.presenceTtl).run (exec srv) g.db).2 }
  | _ => g

/-- The `finally` branch. -/
def finish (g : StreamGen) : StreamGen where
  db := ((streamClose addr connectionId).run (exec srv) g.db).2
  gauge := g.gauge - 1
  subscribed := false
  groups := g.groups
  point := .ended

/-- On with the generator. -/
def advance (g : StreamGen) : Option StreamGen :=
  match g.point with
  | .registering => some { g with point := .touching }
  | .touching => some { g with point := .subscribing }
  | .subscribing => some { g with point := .counting }
  | .nudging => some { g with point := .polling }
  | .forwarding => some { g with point := .checking }
  | .refusing => some (g.finish srv addr connectionId)
  | .refreshing groups => some { g with groups := groups, point := .renewing }
  | .renewing => some { g with point := .pinging }
  | .pinging => some { g with point := .polling }
  | _ => none

/-- What a failure makes of it: only within the `try` is there a `finally`. -/
def failed (g : StreamGen) : StreamGen :=
  if g.point.early then { g with point := .ended } else g.finish srv addr connectionId

def step (g : StreamGen) : StreamEvent → Option StreamGen
  | .start =>
    if g.point = .idle then some { g with gauge := g.gauge + 1, point := .registering } else none
  | .done => (g.effect srv cfg addr connectionId metadata).advance srv addr connectionId
  | .counted count =>
    if g.point = .counting then
      some { g with point := if count ≠ 0 then .nudging else .polling }
    else none
  | .polled disconnected =>
    if g.point = .polling then
      some (if disconnected then g.finish srv addr connectionId else { g with point := .receiving })
    else none
  | .received message =>
    if g.point = .receiving then
      some { g with point := if message then .forwarding else .checking }
    else none
  | .due passed =>
    if g.point = .checking then some { g with point := if passed then .resolving else .polling }
    else none
  | .resolved answer =>
    if g.point = .resolving then
      match answer with
      | .ok groups =>
        some { g with point := if groups ≠ g.groups then .refreshing groups else .renewing }
      | .error (.authError _ _ _) => some { g with point := .refusing }
      -- no other exception is caught
      | .error _ => some (g.finish srv addr connectionId)
    else none
  | .fail executed =>
    if g.point.running then none
    else
      some ((if executed then g.effect srv cfg addr connectionId metadata else g).failed srv addr
        connectionId)
  | .others s => some { g with db := s }

/-- Before the generator runs. -/
def create (s : Db) (groups : List Member) (gauge : Int) : StreamGen := ⟨s, gauge, false, groups, .idle⟩

end StreamGen

def streamGen : Machine StreamGen StreamEvent :=
  ⟨StreamGen.step srv cfg addr connectionId metadata⟩

end

section
variable (addr : Address) (connectionId : PyStr)

/-- The presence record is this connection's. -/
def Db.Owned (s : Db) : Prop := (s.presence addr.text).map (·.connectionId) = some connectionId

/-- Nobody else has this connection's id. -/
def Foreign (g : StreamGen) : StreamEvent → Prop
  | .others s => s.Owned addr connectionId → g.db.Owned addr connectionId
  | _ => True

/-- Nothing is left of the stream. -/
structure StreamGen.Clean (gauge : Int) (g : StreamGen) : Prop where
  gauge : g.gauge = gauge
  unsubscribed : g.subscribed = false
  absent : ¬ g.db.Owned addr connectionId

/-- No failure before the `try`. -/
def LateFailure (g : StreamGen) (l : StreamEvent) : Prop :=
  Foreign addr connectionId g l ∧ ¬ (g.point.early = true ∧ ∃ executed, l = .fail executed)

end

section
variable (srv : Server) {cfg : Config} {addr : Address} {connectionId : PyStr} {metadata : Json}
  {g g' : StreamGen} {l : StreamEvent}

/-! ## One step -/

/-- Started, and not ended. -/
def GenAt.Active (p : GenAt) : Prop := p ≠ .idle ∧ p ≠ .ended

theorem GenAt.Active.of_early {p : GenAt} (h : p.early = true) : p.Active := by
  constructor <;> rintro rfl <;> cases h

theorem GenAt.Active.of_not_running {p : GenAt} (h : ¬ p.running = true) : p.Active := by
  constructor <;> rintro rfl <;> exact h rfl

@[simp] theorem StreamGen.effect_gauge :
    (g.effect srv cfg addr connectionId metadata).gauge = g.gauge := by
  unfold StreamGen.effect
  split <;> rfl

@[simp] theorem StreamGen.effect_point :
    (g.effect srv cfg addr connectionId metadata).point = g.point := by
  unfold StreamGen.effect
  split <;> rfl

/-- The commands of the `finally` leave nothing behind. -/
theorem StreamGen.finish_clean {gauge : Int} (h : g.gauge = gauge + 1) :
    (g.finish srv addr connectionId).Clean addr connectionId gauge := by
  constructor
  · show g.gauge - 1 = gauge
    omega
  · rfl
  · show ¬ Option.map _ (((clearPresence addr.text connectionId).run (exec srv) g.db).2.presence _)
      = some connectionId
    rw [clearPresence_run]
    dsimp only
    rw [presence_exec_clear]
    split
    · simp
    · assumption

/-- What a step can do to the gauge and the point. -/
inductive StreamGen.Steps (srv : Server) (addr : Address) (connectionId : PyStr) (g : StreamGen) :
    StreamEvent → StreamGen → Prop
  | started (h : g.point = .idle) :
    Steps srv addr connectionId g .start { g with gauge := g.gauge + 1, point := .registering }
  | moved {l : StreamEvent} {g' : StreamGen} (h : g.point.Active) (h' : g'.point.Active)
    (hg : g'.gauge = g.gauge) (hl : ∀ x, l ≠ .fail x) : Steps srv addr connectionId g l g'
  | finished {l : StreamEvent} {g₁ : StreamGen} (h : g.point.Active) (hg : g₁.gauge = g.gauge)
    (hl : g.point.early = true → ∀ x, l ≠ .fail x) :
    Steps srv addr connectionId g l (g₁.finish srv addr connectionId)
  | leaked {executed : Bool} {g₁ : StreamGen} (h : g.point.early = true) (hg : g₁.gauge = g.gauge) :
    Steps srv addr connectionId g (.fail executed) { g₁ with point := .ended }
  | others (s : Db) : Steps srv addr connectionId g (.others s) { g with db := s }

theorem StreamGen.step_cases (h : g.step srv cfg addr connectionId metadata l = some g') :
    g.Steps srv addr connectionId l g' := by
  cases l with
  | start =>
    simp only [StreamGen.step] at h
    split at h <;> cases h
    next hp => exact .started hp
  | done =>
    simp only [StreamGen.step, StreamGen.advance, StreamGen.effect_point] at h
    split at h <;> cases h
    case h_6 hp =>
      exact .finished ⟨by simp [hp], by simp [hp]⟩ (StreamGen.effect_gauge srv) fun _ _ => nofun
    all_goals
      next hp =>
        refine .moved ⟨by simp [hp], by simp [hp]⟩ ?_ (StreamGen.effect_gauge srv) fun _ => nofun
        constructor <;> nofun
  | counted count =>
    simp only [StreamGen.step] at h
    split at h <;> cases h
    next hp =>
      refine .moved ⟨by simp [hp], by simp [hp]⟩ ?_ rfl fun _ => nofun
      constructor <;> simp only <;> split <;> nofun
  | polled disconnected =>
    simp only [StreamGen.step] at h
    split at h <;> cases h
    next hp =>
      cases disconnected with
      | true => exact .finished ⟨by simp [hp], by simp [hp]⟩ rfl fun _ _ => nofun
      | false => exact .moved ⟨by simp [hp], by simp [hp]⟩ ⟨nofun, nofun⟩ rfl fun _ => nofun
  | received message =>
    simp only [StreamGen.step] at h
    split at h <;> cases h
    next hp =>
      refine .moved ⟨by simp [hp], by simp [hp]⟩ ?_ rfl fun _ => nofun
      cases message <;> exact ⟨nofun, nofun⟩
  | due passed =>
    simp only [StreamGen.step] at h
    split at h <;> cases h
    next hp =>
      refine .moved ⟨by simp [hp], by simp [hp]⟩ ?_ rfl fun _ => nofun
      cases passed <;> exact ⟨nofun, nofun⟩
  | resolved answer =>
    simp only [StreamGen.step] at h
    split at h
    · next hp =>
      have ha : g.point.Active := ⟨by simp [hp], by simp [hp]⟩
      split at h <;> cases h
      · refine .moved ha ?_ rfl fun _ => nofun
        constructor <;> simp only <;> split <;> nofun
      · exact .moved ha ⟨nofun, nofun⟩ rfl fun _ => nofun
      · exact .finished ha rfl fun _ _ => nofun
    · cases h
  | fail executed =>
    simp only [StreamGen.step, StreamGen.failed] at h
    split at h
    · cases h
    · next hr =>
      have hg : (if executed then g.effect srv cfg addr connectionId metadata else g).gauge =
          g.gauge := by
        split <;> simp
      have hp : (if executed then g.effect srv cfg addr connectionId metadata else g).point =
          g.point := by
        split <;> simp
      rw [hp] at h
      cases h
      split
      · next he => exact .leaked he hg
      · next he => exact .finished (.of_not_running hr) hg fun h' => absurd h' he
  | others s =>
    cases h
    exact .others s

/-! ## Runs -/

/-- As long as no failure comes before the `try`. -/
structure StreamGen.Balanced (addr : Address) (connectionId : PyStr) (gauge : Int) (g : StreamGen) :
    Prop where
  idle : g.point = .idle → g.gauge = gauge
  active : g.point.Active → g.gauge = gauge + 1
  ended : g.point = .ended → g.Clean addr connectionId gauge

theorem StreamGen.Balanced.step {gauge : Int} (hb : g.Balanced addr connectionId gauge)
    (hl : LateFailure addr connectionId g l)
    (h : g.step srv cfg addr connectionId metadata l = some g') :
    g'.Balanced addr connectionId gauge := by
  cases StreamGen.step_cases srv h with
  | started hp =>
    refine ⟨nofun, fun _ => ?_, nofun⟩
    show g.gauge + 1 = gauge + 1
    rw [hb.idle hp]
  | moved hp hp' hg _ =>
    refine ⟨fun hi => absurd hi hp'.1, fun _ => ?_, fun he => absurd he hp'.2⟩
    rw [hg]
    exact hb.active hp
  | finished hp hg _ =>
    refine ⟨nofun, fun ha => absurd rfl ha.2, fun _ => ?_⟩
    exact StreamGen.finish_clean srv (hg.trans (hb.active hp))
  | leaked he _ => exact absurd ⟨he, _, rfl⟩ hl.2
  | others s =>
    refine ⟨hb.idle, hb.active, fun he => ?_⟩
    have hc := hb.ended he
    exact ⟨hc.gauge, hc.unsubscribed, fun ho => hc.absent (hl.1 ho)⟩

theorem balanced {s₀ : Db} {groups : List Member} {gauge : Int}
    (h : (streamGen srv cfg addr connectionId metadata).Run (LateFailure addr connectionId)
      (.create s₀ groups gauge) g) : g.Balanced addr connectionId gauge :=
  h.inv (StreamGen.Balanced addr connectionId gauge)
    ⟨fun _ => rfl, fun ha => absurd rfl ha.1, nofun⟩
    fun _ _ _ hb hl hs => hb.step srv hl hs

/-- A failure before the `try` ends the stream and leaves the gauge incremented. -/
theorem late_or_leaked {s₀ : Db} {groups : List Member} {gauge : Int}
    (h : (streamGen srv cfg addr connectionId metadata).Run (Foreign addr connectionId)
      (.create s₀ groups gauge) g) :
    (streamGen srv cfg addr connectionId metadata).Run (LateFailure addr connectionId)
      (.create s₀ groups gauge) g ∨ (g.point = .ended ∧ g.gauge = gauge + 1) := by
  refine h.inv (fun g => (streamGen srv cfg addr connectionId metadata).Run
    (LateFailure addr connectionId) (.create s₀ groups gauge) g ∨
      (g.point = .ended ∧ g.gauge = gauge + 1)) (.inl .start) ?_
  intro g l g' hg hl hs
  have hc : g.Steps srv addr connectionId l g' := StreamGen.step_cases srv hs
  rcases hg with hr | ⟨hp, hgauge⟩
  · by_cases he : g.point.early = true ∧ ∃ executed, l = .fail executed
    · obtain ⟨he, executed, rfl⟩ := he
      have ha := (balanced srv hr).active (.of_early he)
      cases hc with
      | moved _ _ _ hx => exact absurd rfl (hx executed)
      | finished _ _ hx => exact absurd rfl (hx he executed)
      | leaked _ hg => exact .inr ⟨rfl, hg.trans ha⟩
    · exact .inl (.next hr ⟨hl, he⟩ hs)
  · cases hc with
    | started hi => rw [hp] at hi; cases hi
    | moved ha _ _ _ => exact absurd hp ha.2
    | finished ha _ _ => exact absurd hp ha.2
    | leaked he _ => exact absurd hp (GenAt.Active.of_early he).2
    | others s => exact .inr ⟨hp, hgauge⟩

/-- **A stream that has ended leaves nothing behind iff no failure came before the `try`.** -/
theorem stream_cleanup_iff {s₀ : Db} {groups : List Member} {gauge : Int}
    (h : (streamGen srv cfg addr connectionId metadata).Run (Foreign addr connectionId)
      (.create s₀ groups gauge) g) (hend : g.point = .ended) :
    g.Clean addr connectionId gauge ↔
      (streamGen srv cfg addr connectionId metadata).Run (LateFailure addr connectionId)
        (.create s₀ groups gauge) g := by
  constructor
  · intro hc
    rcases late_or_leaked srv h with hr | ⟨_, hg⟩
    · exact hr
    · have := hc.gauge
      omega
  · intro hr
    exact (balanced srv hr).ended hend

end

/-! ## Cut off at `subscribe`, and at a ping -/

/-- `LateFailure`, computed, of what the generator itself does. -/
def lateFailure (g : StreamGen) : StreamEvent → Bool
  | .others _ => false
  | .fail _ => !g.point.early
  | _ => true

theorem lateFailure_sound (addr : Address) (connectionId : PyStr) (g : StreamGen) (l : StreamEvent)
    (h : lateFailure g l = true) : LateFailure addr connectionId g l := by
  cases l with
  | others s => cases h
  | fail executed =>
    refine ⟨trivial, ?_⟩
    rintro ⟨he, -⟩
    simp [lateFailure, he] at h
  | _ => exact ⟨trivial, by rintro ⟨-, _, h⟩; cases h⟩

/-- `u`'s generator. -/
def oneStream : Machine StreamGen StreamEvent :=
  streamGen .plain Config.defaults ⟨lit "u", lit "h", lit "r", lit "p", lit "x"⟩ (lit "c") (.obj [])

theorem early_failure_leaks :
    ∃ g, oneStream.Run (Foreign ⟨lit "u", lit "h", lit "r", lit "p", lit "x"⟩ (lit "c"))
      (.create (.empty 5000) [lit "g"] 0) g ∧ g.point = .ended ∧ g.gauge = 1 ∧ g.subscribed = true ∧
      g.db.Owned ⟨lit "u", lit "h", lit "r", lit "p", lit "x"⟩ (lit "c") ∧
      ¬ g.Clean ⟨lit "u", lit "h", lit "r", lit "p", lit "x"⟩ (lit "c") 0 := by
  have htrace : ∃ g, oneStream.trace (fun _ l => match l with | .others _ => false | _ => true)
      (.create (.empty 5000) [lit "g"] 0) [.start, .done, .done, .fail true] = some g ∧
      g.point = .ended ∧ g.gauge = 1 ∧ g.subscribed = true ∧
      g.db.Owned ⟨lit "u", lit "h", lit "r", lit "p", lit "x"⟩ (lit "c") := ⟨_, rfl, rfl, rfl, rfl, rfl⟩
  obtain ⟨g, htrace, hpoint, hgauge, hsubscribed, howned⟩ := htrace
  refine ⟨g, Machine.Run.trace ?_ .start htrace, hpoint, hgauge, hsubscribed, howned, ?_⟩
  · intro g l hl
    cases l with
    | others s => cases hl
    | _ => trivial
  · intro hc
    exact hc.absent howned

/-- Two unread, a message, a ping and a cancellation at its yield. -/
theorem stream_cleanup_iff_pinged :
    ∃ g, oneStream.Run (Foreign ⟨lit "u", lit "h", lit "r", lit "p", lit "x"⟩ (lit "c"))
      (.create (.empty 5000) [lit "g"] 0) g ∧ g.point = .ended ∧
      g.Clean ⟨lit "u", lit "h", lit "r", lit "p", lit "x"⟩ (lit "c") 0 := by
  have htrace : ∃ g, oneStream.trace lateFailure (.create (.empty 5000) [lit "g"] 0)
      [.start, .done, .done, .done, .counted 2, .done, .polled false, .received true, .done,
        .due true, .resolved (.ok [lit "g", lit "h"]), .done, .done, .fail true] = some g ∧
      g.point = .ended := ⟨_, rfl, rfl⟩
  obtain ⟨g, htrace, hpoint⟩ := htrace
  have hlate := Machine.Run.trace (lateFailure_sound ⟨lit "u", lit "h", lit "r", lit "p", lit "x"⟩
    (lit "c")) .start htrace
  have hrun := Machine.Run.trace (fun g l hl => (lateFailure_sound
    ⟨lit "u", lit "h", lit "r", lit "p", lit "x"⟩ (lit "c") g l hl).1) .start htrace
  exact ⟨g, hrun, hpoint, (stream_cleanup_iff .plain hrun hpoint).2 hlate⟩

end Muster
