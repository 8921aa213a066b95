import Muster.Lib.Machine
import Muster.Lib.Json

/-!
# Draining the inbox into the session (`muster-chat.js`)

`drainInbox` fetches a page of mail and wakes the session once per message.  It waits for
the answer to each fetch and for the end of each wake; while it does, everything else
can happen, and another call of it only leaves word.  Between two waits nothing
interrupts it: at `looping`, the only step is the next turn of its loop.

`hist` is what has happened, oldest first.  The answers to the fetches, the ends of the
wakes and everything from outside are labels.
-/

namespace Muster

/-- A message of the fetch op; a missing `msg_id` is empty. -/
structure Mail where
  msgId : PyStr
  sender : PyStr
  subject : PyStr
  body : PyStr
  important : Bool
  deriving DecidableEq

/-- Where the drain in flight is. -/
inductive Point where
  /-- there is none -/
  | idle
  /-- `await rpc("fetch", …)` -/
  | fetching
  /-- at the head of the loop over `queue`; `fetched` is `messages.length` -/
  | looping (queue : List Mail) (fetched : Nat)
  /-- `await wake(…)` of `m`, with `queue` to follow -/
  | waking (m : Mail) (queue : List Mail) (fetched : Nat)
  deriving DecidableEq

/-- At the head of its loop a drain is not waiting. -/
def Point.waits : Point → Bool
  | .looping _ _ => false
  | _ => true

inductive DrainEvent where
  /-- a drain has issued a fetch -/
  | asked
  /-- and got these -/
  | fetched (messages : List Mail)
  /-- a wake has succeeded -/
  | woke (m : Mail)
  /-- the `muster_fetch` tool has displayed these -/
  | shown (messages : List Mail)
  /-- a call of `drainInbox` found a drain in flight -/
  | turnedAway
  deriving DecidableEq

structure Plugin where
  sessionId : Option PyStr
  disposed : Bool
  /-- oldest first -/
  seen : List PyStr
  pendingWakes : List Mail
  relaying : Bool
  again : Bool
  point : Point
  hist : List DrainEvent

/-- How the fetch of a drain ends. -/
inductive FetchResult where
  /-- `rpc` throws, or the body is `null` -/
  | failed
  /-- a 2xx answer whose `messages` cannot be spread, such as a body that is not JSON -/
  | malformed
  | messages (ms : List Mail)
  deriving DecidableEq

inductive PluginStep where
  /-- `onEvent` -/
  | event (name : PyStr) (ev : Json)
  /-- the session hooks -/
  | session (sid : PyStr)
  | answer (r : FetchResult)
  /-- the drain goes on with its loop -/
  | turn
  | wakeEnd (ok : Bool)
  /-- a fetch of the `muster_fetch` tool comes back -/
  | shown (messages : List Mail)
  | dispose

/-- `remember`. -/
def remember (seen : List PyStr) (id : PyStr) : List PyStr :=
  if id ∈ seen then seen
  else if 256 < (seen ++ [id]).length then (seen ++ [id]).tail
  else seen ++ [id]

def Mail.remember (seen : List PyStr) (m : Mail) : List PyStr :=
  if m.msgId = [] then seen else Muster.remember seen m.msgId

namespace Plugin

def start : Plugin := ⟨none, false, [], [], false, false, .idle, []⟩

/-- The head of the outer loop, up to the wait. -/
def fetch (s : Plugin) : Plugin :=
  { s with again := false, point := .fetching, hist := s.hist ++ [.asked] }

/-- The `finally` branch. -/
def leave (s : Plugin) : Plugin := { s with relaying := false, point := .idle }

def drainInbox (s : Plugin) : Plugin :=
  if s.sessionId = none then s
  else if s.relaying then { s with again := true, hist := s.hist ++ [.turnedAway] }
  else { s with relaying := true }.fetch

/-- A nudge, not an announce. -/
def drains (name : PyStr) (ev : Json) : Bool :=
  name == lit "deliver" &&
    match ev with
    | .null => false
    | .obj kvs => match Json.get kvs "kind" with
      | .str kind => kind != lit "announce"
      | _ => true
    | _ => true

/-- A hook sees the id of a session: the first one drains what was held. -/
def learn (s : Plugin) (sid : PyStr) : Plugin :=
  if sid = [] then s
  else if s.sessionId = none then { s with sessionId := some sid }.drainInbox
  else { s with sessionId := some sid }

/-- From `fetching` on. -/
def answer (s : Plugin) : FetchResult → Plugin
  | .failed => s.leave
  | .malformed => { s with pendingWakes := [] }.leave
  | .messages ms => { s with
      pendingWakes := []
      point := .looping (s.pendingWakes ++ ms) ms.length
      hist := s.hist ++ [.fetched ms] }

/-- From `looping queue fetched` on. -/
def turn (s : Plugin) (fetched : Nat) : List Mail → Plugin
  | [] =>
    let s := { s with again := s.again || fetched == 20 }
    if s.again && !s.disposed then s.fetch else s.leave
  | m :: queue =>
    if m.msgId ≠ [] ∧ m.msgId ∈ s.seen then { s with point := .looping queue fetched }
    else { s with point := .waking m queue fetched }

/-- From `waking m queue fetched` on. -/
def wakeEnd (s : Plugin) (m : Mail) (queue : List Mail) (fetched : Nat) (ok : Bool) : Plugin :=
  if ok then { s with
    seen := m.remember s.seen
    point := .looping queue fetched
    hist := s.hist ++ [.woke m] }
  else { s with pendingWakes := s.pendingWakes ++ m :: queue }.leave

def step (s : Plugin) : PluginStep → Option Plugin
  | .answer r =>
    match s.point with
    | .fetching => some (s.answer r)
    | _ => none
  | .turn =>
    match s.point with
    | .looping queue fetched => some (s.turn fetched queue)
    | _ => none
  | .wakeEnd ok =>
    match s.point with
    | .waking m queue fetched => some (s.wakeEnd m queue fetched ok)
    | _ => none
  | .event name ev =>
    if s.point.waits then some (if drains name ev then s.drainInbox else s) else none
  | .session sid => if s.point.waits then some (s.learn sid) else none
  | .shown ms =>
    if s.point.waits then some { s with
      seen := ms.foldl Mail.remember s.seen
      hist := s.hist ++ [.shown ms] }
    else none
  | .dispose => if s.point.waits then some { s with disposed := true } else none

end Plugin

def plugin : Machine Plugin PluginStep := ⟨Plugin.step⟩

/-! ## What a step does -/

/-- What is not a drain's own step. -/
def PluginStep.outside : PluginStep → Prop
  | .event _ _ => True
  | .session _ => True
  | .shown _ => True
  | .dispose => True
  | _ => False

/-- Where a step can lead. -/
inductive Plugin.Next (s : Plugin) : PluginStep → Plugin → Prop
  | failed : s.point = .fetching → Next s (.answer .failed) s.leave
  | malformed : s.point = .fetching →
    Next s (.answer .malformed) { s with pendingWakes := [] }.leave
  | messages {ms : List Mail} : s.point = .fetching → Next s (.answer (.messages ms)) { s with
    pendingWakes := []
    point := .looping (s.pendingWakes ++ ms) ms.length
    hist := s.hist ++ [.fetched ms] }
  /-- the queue is empty, but there may be more mail -/
  | refetch {fetched : Nat} : s.point = .looping [] fetched →
    Next s .turn { s with again := s.again || fetched == 20 }.fetch
  | finish {fetched : Nat} : s.point = .looping [] fetched →
    (s.disposed = false → s.again = false) →
    Next s .turn { s with again := s.again || fetched == 20 }.leave
  | skip {m : Mail} {queue : List Mail} {fetched : Nat} : s.point = .looping (m :: queue) fetched →
    m.msgId ≠ [] → m.msgId ∈ s.seen → Next s .turn { s with point := .looping queue fetched }
  | wake {m : Mail} {queue : List Mail} {fetched : Nat} : s.point = .looping (m :: queue) fetched →
    (m.msgId ≠ [] → m.msgId ∉ s.seen) → Next s .turn { s with point := .waking m queue fetched }
  | woke {m : Mail} {queue : List Mail} {fetched : Nat} : s.point = .waking m queue fetched →
    Next s (.wakeEnd true) { s with
      seen := m.remember s.seen
      point := .looping queue fetched
      hist := s.hist ++ [.woke m] }
  | stale {m : Mail} {queue : List Mail} {fetched : Nat} : s.point = .waking m queue fetched →
    Next s (.wakeEnd false) { s with pendingWakes := s.pendingWakes ++ m :: queue }.leave
  /-- a call of `drainInbox` that starts a drain -/
  | started {l : PluginStep} (sid : Option PyStr) : l.outside → s.point.waits = true → s.relaying = false →
    Next s l { s with sessionId := sid, relaying := true }.fetch
  /-- one that is turned away -/
  | turnedAway {l : PluginStep} (sid : Option PyStr) : l.outside → s.point.waits = true → s.relaying = true →
    Next s l { s with sessionId := sid, again := true, hist := s.hist ++ [.turnedAway] }
  | shown (ms : List Mail) : s.point.waits = true → Next s (.shown ms) { s with
    seen := ms.foldl Mail.remember s.seen
    hist := s.hist ++ [.shown ms] }
  /-- anything else -/
  | apart {l : PluginStep} (sid : Option PyStr) (disposed : Bool) : l.outside → s.point.waits = true →
    (s.disposed = true → disposed = true) →
    Next s l { s with sessionId := sid, disposed := disposed }

theorem Plugin.next_of_drainInbox {s : Plugin} {l : PluginStep} (sid : Option PyStr) (hl : l.outside)
    (hp : s.point.waits = true) : Plugin.Next s l { s with sessionId := sid }.drainInbox := by
  by_cases hsid : sid = none
  · have h : { s with sessionId := sid }.drainInbox = { s with sessionId := sid } := if_pos hsid
    rw [h]
    exact .apart sid s.disposed hl hp id
  · by_cases hr : s.relaying = true
    · have h : { s with sessionId := sid }.drainInbox =
          { s with sessionId := sid, again := true, hist := s.hist ++ [.turnedAway] } :=
        (if_neg hsid).trans (if_pos hr)
      rw [h]
      exact .turnedAway sid hl hp hr
    · have h : { s with sessionId := sid }.drainInbox =
          { s with sessionId := sid, relaying := true }.fetch := (if_neg hsid).trans (if_neg hr)
      rw [h]
      exact .started sid hl hp (Bool.eq_false_iff.2 hr)

theorem Plugin.next_of_step {s s' : Plugin} {l : PluginStep} (h : plugin.step s l = some s') :
    Plugin.Next s l s' := by
  simp only [plugin] at h
  cases l with
  | answer r =>
    simp only [Plugin.step] at h
    split at h
    · next hp =>
      cases h
      cases r with
      | failed => exact .failed hp
      | malformed => exact .malformed hp
      | messages ms => exact .messages hp
    · cases h
  | turn =>
    simp only [Plugin.step] at h
    split at h
    · next queue fetched hp =>
      cases h
      cases queue with
      | nil =>
        simp only [Plugin.turn]
        split
        · exact .refetch hp
        · next hagain =>
          refine .finish hp fun hd => ?_
          simp [hd] at hagain
          exact hagain.1
      | cons m queue =>
        simp only [Plugin.turn]
        split
        · next hm => exact .skip hp hm.1 hm.2
        · next hm => exact .wake hp fun hne hmem => hm ⟨hne, hmem⟩
    · cases h
  | wakeEnd ok =>
    simp only [Plugin.step] at h
    split at h
    · next m queue fetched hp =>
      cases h
      cases ok with
      | true => exact .woke hp
      | false => exact .stale hp
    · cases h
  | event name ev =>
    simp only [Plugin.step] at h
    split at h
    · next hp =>
      cases h
      split
      · exact next_of_drainInbox s.sessionId trivial hp
      · exact .apart s.sessionId s.disposed trivial hp id
    · cases h
  | session sid =>
    simp only [Plugin.step] at h
    split at h
    · next hp =>
      cases h
      unfold Plugin.learn
      split
      · exact .apart s.sessionId s.disposed trivial hp id
      · split
        · exact next_of_drainInbox (some sid) trivial hp
        · exact .apart (some sid) s.disposed trivial hp id
    · cases h
  | shown ms =>
    simp only [Plugin.step] at h
    split at h
    · next hp =>
      cases h
      exact .shown ms hp
    · cases h
  | dispose =>
    simp only [Plugin.step] at h
    split at h
    · next hp =>
      cases h
      exact .apart s.sessionId true trivial hp fun _ => rfl
    · cases h

end Muster
