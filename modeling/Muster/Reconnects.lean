import Muster.Lib.Backoff
import Muster.Relay
import Muster.Sse

/-!
# Connecting again (`muster_channel.py`, `muster-chat.js`)

Both relays hold one stream and, when it ends, wait and connect again.  The wait is one
second and doubles up to a minute.  The shim begins anew with each event a stream yields,
the plugin with each piece it reads.  So a wait is fixed by the connections in a row that
brought nothing (`reconnect_waits`), the plugin waits no longer than the shim on the same
streams (`plugin_waits_no_longer`), and a server that is down is asked about once a minute
by each (`reconnects_spaced`).
-/

namespace Muster

open Backoff

/-! ## The two loops -/

section
variable [Python]

/-- `relay` with its waits, in seconds: connections by the events they yield. -/
def relayLoop (seen : List Relay.MsgKey) (backoff : Nat) :
    List (List Relay.Event.Dict) → List (List Relay.Step × Nat)
  | [] => []
  | evs :: connections =>
    let r := Relay.relayConnection seen evs
    let backoff := if evs.isEmpty then backoff else 1
    (r.2, backoff) :: relayLoop r.1 (min (backoff * 2) 60) connections

end

/-- A connection of the plugin.  An answer other than 2xx is not read. -/
structure Connection where
  pieces : List PyStr
  /-- by the end of it -/
  disposed : Bool

section
variable (jsonParse : PyStr → Option Json)

/-- `relay` of the plugin with its waits, in milliseconds: the calls of `onEvent`. -/
def relayLoopJs (backoff : Nat) : List Connection → List (List (PyStr × Json) × Option Nat)
  | [] => []
  | c :: connections =>
    let backoff := if c.pieces.isEmpty then backoff else 1000
    let events := (relayRead jsonParse c.pieces).2
    if c.disposed then [(events, none)]
    else (events, some backoff) :: relayLoopJs (min (backoff * 2) 60000) connections

end

/-- In seconds. -/
def shimBackoff : Backoff := ⟨1, 60, by decide⟩

/-- In milliseconds. -/
def pluginBackoff : Backoff := shimBackoff.scale 1000

/-- The connections at the end that brought nothing, the first of all apart. -/
def silent {α : Type} (past : List (List α)) : Nat := (past.tail.rtakeWhile List.isEmpty).length

/-! ## Their waits -/

theorem inVain_map {α : Type} (past : List (List α)) :
    inVain (past.map fun got => !got.isEmpty) = silent past := by
  have hcomp : (not ∘ fun got : List α => !got.isEmpty) = List.isEmpty := by
    funext got
    exact Bool.not_not _
  unfold inVain silent List.rtakeWhile
  rw [← List.map_tail, ← List.map_reverse, List.takeWhile_map, hcomp, List.length_reverse,
    List.length_reverse, List.length_map]

/-- The waits of a backoff, where `got` came of the attempts. -/
theorem waits_silent {α : Type} (b : Backoff) (got : List (List α)) :
    b.waits b.first (got.map fun x => !x.isEmpty) =
      got.inits.tail.map fun past => b.delay (silent past) := by
  rw [waits_eq, List.map_inits, ← List.map_tail, List.map_map]
  exact List.map_congr_left fun past _ => congrArg b.delay (inVain_map past)

section
variable [Python]

theorem relayLoop_waits (seen : List Relay.MsgKey) (backoff : Nat)
    (connections : List (List Relay.Event.Dict)) :
    (relayLoop seen backoff connections).map Prod.snd =
      shimBackoff.waits backoff (connections.map fun evs => !evs.isEmpty) := by
  induction connections generalizing seen backoff with
  | nil => rfl
  | cons evs connections ih =>
    have hwait : shimBackoff.wait backoff (!evs.isEmpty) = if evs.isEmpty then backoff else 1 := by
      cases evs <;> rfl
    rw [relayLoop, List.map_cons, List.map_cons, waits, hwait, ih]
    rfl

/-- Waiting changes nothing in what is relayed. -/
theorem relayLoop_steps (seen : List Relay.MsgKey) (backoff : Nat)
    (connections : List (List Relay.Event.Dict)) :
    (relayLoop seen backoff connections).flatMap Prod.fst = (Relay.relay seen connections).2 := by
  induction connections generalizing seen backoff with
  | nil => rfl
  | cons evs connections ih =>
    rw [relayLoop, List.flatMap_cons, ih]
    rfl

end

section
variable (jsonParse : PyStr → Option Json)

theorem relayLoopJs_waits (backoff : Nat) (connections : List Connection) :
    (relayLoopJs jsonParse backoff connections).filterMap Prod.snd =
      pluginBackoff.waits backoff
        (((connections.takeWhile (!·.disposed)).map Connection.pieces).map fun pieces => !pieces.isEmpty) := by
  induction connections generalizing backoff with
  | nil => rfl
  | cons c connections ih =>
    have hwait : pluginBackoff.wait backoff (!c.pieces.isEmpty) =
        if c.pieces.isEmpty then backoff else 1000 := by
      cases c.pieces <;> rfl
    rw [relayLoopJs, List.takeWhile_cons]
    cases hd : c.disposed with
    | true => rfl
    | false =>
      show List.filterMap Prod.snd ((_, some _) :: _) =
        pluginBackoff.waits backoff (List.map _ (List.map _ (c :: _)))
      rw [List.filterMap_cons, List.map_cons, List.map_cons, waits, hwait, ih]
      rfl

/-- **Waits are fixed by the connections in a row that brought nothing**, and what is relayed does
not depend on them. -/
theorem reconnect_waits [Python] (connections : List (List Relay.Event.Dict)) (readings : List Connection) :
    (relayLoop [] 1 connections).flatMap Prod.fst = (Relay.relay [] connections).2 ∧
    (relayLoop [] 1 connections).map Prod.snd =
      connections.inits.tail.map (fun past => min (2 ^ silent past) 60) ∧
    (relayLoopJs jsonParse 1000 readings).filterMap Prod.snd =
      ((readings.takeWhile (!·.disposed)).map Connection.pieces).inits.tail.map
        fun past => min (1000 * 2 ^ silent past) 60000 := by
  refine ⟨relayLoop_steps _ _ _, ?_, ?_⟩
  · have hwaits := waits_silent shimBackoff connections
    rw [relayLoop_waits]
    refine hwaits.trans (List.map_congr_left fun past _ => ?_)
    show min (1 * 2 ^ silent past) 60 = _
    rw [one_mul]
  · have hwaits := waits_silent pluginBackoff ((readings.takeWhile (!·.disposed)).map Connection.pieces)
    rw [relayLoopJs_waits]
    exact hwaits

end

/-! ## On the same streams -/

/-- A stream that yields an event to the shim gives the plugin a piece. -/
theorem pieces_of_events {loads : PyStr → Option Json} {pieces : List PyStr}
    (h : (parseSse loads (PyStr.splitLines pieces.flatten)).2 ≠ []) : pieces ≠ [] := by
  rintro rfl
  exact h rfl

/-- **The plugin waits no longer than the shim**, where both read the same streams. -/
theorem plugin_waits_no_longer [Python] (loads jsonParse : PyStr → Option Json) (streams : List (List PyStr)) :
    List.Forall₂ (fun w w' => w' ≤ 1000 * w)
      ((relayLoop [] 1 (streams.map fun pieces =>
        (parseSse loads (PyStr.splitLines pieces.flatten)).2)).map Prod.snd)
      ((relayLoopJs jsonParse 1000 (streams.map fun pieces => ⟨pieces, false⟩)).filterMap Prod.snd) := by
  have hall : (streams.map fun pieces => (⟨pieces, false⟩ : Connection)).takeWhile (!·.disposed) =
      streams.map fun pieces => ⟨pieces, false⟩ := by
    rw [List.takeWhile_eq_self_iff]
    intro c hc
    obtain ⟨pieces, -, rfl⟩ := List.mem_map.1 hc
    rfl
  rw [relayLoop_waits, relayLoopJs_waits, hall, List.map_map, List.map_map, List.map_map]
  show List.Forall₂ _ _ ((shimBackoff.scale 1000).waits (1000 * 1) _)
  rw [waits_scale, List.forall₂_map_right_iff]
  refine (waits_antitone shimBackoff (Nat.le_refl 1) (Nat.le_refl 1) ?_).imp fun w w' h => ?_
  · rw [List.forall₂_map_left_iff, List.forall₂_map_right_iff, List.forall₂_same]
    intro pieces _ hheard
    have hevents : (parseSse loads (PyStr.splitLines pieces.flatten)).2 ≠ [] := by
      simpa using hheard
    have hpieces := pieces_of_events hevents
    simpa using hpieces
  · exact Nat.mul_le_mul_left _ h

/-! ## While the server is down -/

theorem slack_shim : shimBackoff.slack 6 = 297 := by decide

theorem slack_plugin : pluginBackoff.slack 6 = 297000 := by decide

/-- After connection `i`, and before the `n`th after it, the connections bring nothing. -/
structure Down {α : Type} (got : List (List α)) (i n : Nat) : Prop where
  le : i + n ≤ got.length
  silent : ∀ l, i < l → l < i + n → got[l]? = some []

/-- Attempts of which no one between brings anything are `cap` apart, but for the slack. -/
theorem Down.spaced {α : Type} {b : Backoff} {got : List (List α)} {starts : List Nat} {i n t u m : Nat}
    (h : Down got i n) (hp : Paced (b.waits b.first (got.map fun x => !x.isEmpty)) starts)
    (hm : b.cap ≤ b.first * 2 ^ m) (ht : starts[i]? = some t) (hu : starts[i + n]? = some u) :
    t + b.cap * n ≤ u + b.slack m := by
  refine spacing b hp hm ?_ ?_ ht hu
  · rw [List.length_map]
    exact h.le
  · intro l hl hn
    rw [List.getElem?_map, h.silent l hl hn]
    rfl

/-- **A server that is down is asked about once a minute.**  Of `n` connections after one another
that bring nothing, the last starts `60 n` seconds after the one before them, less at most 297. -/
theorem reconnects_spaced [Python] (jsonParse : PyStr → Option Json)
    (connections : List (List Relay.Event.Dict)) (readings : List Connection) (starts : List Nat)
    (i n t u : Nat) (ht : starts[i]? = some t) (hu : starts[i + n]? = some u) :
    (Down connections i n → Paced ((relayLoop [] 1 connections).map Prod.snd) starts →
      t + 60 * n ≤ u + 297) ∧
    (Down ((readings.takeWhile (!·.disposed)).map Connection.pieces) i n →
      Paced ((relayLoopJs jsonParse 1000 readings).filterMap Prod.snd) starts →
      t + 60000 * n ≤ u + 297000) := by
  constructor
  · intro hdown hp
    rw [relayLoop_waits] at hp
    have hspaced := hdown.spaced (m := 6) hp (by decide) ht hu
    rw [slack_shim] at hspaced
    exact hspaced
  · intro hdown hp
    rw [relayLoopJs_waits] at hp
    have hspaced := hdown.spaced (b := pluginBackoff) (m := 6) hp (by decide) ht hu
    rw [slack_plugin] at hspaced
    exact hspaced

/-- Four attempts of each, all a little late. -/
theorem reconnects_spaced_four : 10 + 60 * 3 ≤ 23 + 297 ∧ 0 + 60000 * 3 ≤ 7500 + 297000 := by
  let _ : Python := Python.plain
  have hdown : ∀ {α : Type}, Down [[], [], [], ([] : List α)] 0 3 := by
    refine ⟨by simp, ?_⟩
    intro l hl hn
    interval_cases l <;> rfl
  constructor
  · have h := reconnects_spaced (fun _ => none) [[], [], [], []] [] [10, 13, 17, 23] 0 3 10 23 rfl rfl
    exact h.1 hdown (by decide)
  · have h := reconnects_spaced (fun _ => none) [] [⟨[], false⟩, ⟨[], false⟩, ⟨[], false⟩, ⟨[], false⟩]
      [0, 1500, 3500, 7500] 0 3 0 7500 rfl rfl
    exact h.2 hdown (by decide)

end Muster
