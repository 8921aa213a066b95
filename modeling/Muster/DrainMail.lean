import Muster.Lib.Firsts
import Muster.Drain

/-!
# Drains conserve mail

A fetch consumes the mail on the server, so what a drain has fetched must be woken or
kept.  At every point what has been woken and what waits, in the queue of the drain or
in `pendingWakes`, is what has been fetched, in order, up to repetitions and to what
the `muster_fetch` tool has displayed; and no message is woken twice
(`drains_conserve`).  Two things break this: a 2xx answer without a list of messages
comes after `pendingWakes` has been emptied (`malformed_answer_drops`), and a message
that comes again once 256 others have pushed its id out of `seen` is woken again.
-/

namespace Muster

/-- `msg_id`, where there is one. -/
def Mail.key (m : Mail) : Option PyStr := if m.msgId = [] then none else some m.msgId

def DrainEvent.mail : DrainEvent → List Mail
  | .fetched ms => ms
  | _ => []

def DrainEvent.wakes : DrainEvent → List Mail
  | .woke m => [m]
  | _ => []

def DrainEvent.shows : DrainEvent → List Mail
  | .shown ms => ms
  | _ => []

namespace Plugin

variable (s : Plugin)

/-- The messages fetched by drains. -/
def fetched : List Mail := s.hist.flatMap DrainEvent.mail

/-- The messages woken. -/
def woken : List Mail := s.hist.flatMap DrainEvent.wakes

/-- The ids of the messages woken. -/
def wokenIds : List PyStr := s.woken.filterMap Mail.key

/-- The ids of the messages that `muster_fetch` has displayed. -/
def shownIds : List PyStr := (s.hist.flatMap DrainEvent.shows).filterMap Mail.key

/-- What the drain in flight has in its queue. -/
def inFlight : List Mail :=
  match s.point with
  | .looping queue _ => queue
  | .waking m queue _ => m :: queue
  | _ => []

/-- Woken, or waiting. -/
def held : List Mail := s.woken ++ (s.inFlight ++ s.pendingWakes)

/-- The mail held is the mail fetched, up to repetitions and what has been displayed; no message is
dropped, and none is woken twice. -/
structure Conserved : Prop where
  order : firsts Mail.key s.shownIds s.held = firsts Mail.key s.shownIds s.fetched
  kept : ∀ m ∈ s.fetched, m ∈ s.held ∨
    ∃ id, m.key = some id ∧ (id ∈ s.shownIds ∨ ∃ m' ∈ s.held, m'.key = some id)
  once : s.wokenIds.Nodup

end Plugin

/-- A 2xx answer without a list of messages finds nothing pending, and a message that comes up after
it has been woken finds its id still in `seen`. -/
def KeepsMail (s : Plugin) (l : PluginStep) : Prop :=
  (l = .answer .malformed → s.pendingWakes = []) ∧
  (l = .turn → ∀ m queue n, s.point = .looping (m :: queue) n →
    m.msgId ∈ s.wokenIds → m.msgId ∈ s.seen)

/-- `Conserved`, with what makes it last. -/
structure Plugin.Careful (s : Plugin) : Prop where
  order : firsts Mail.key s.shownIds s.held = firsts Mail.key s.shownIds s.fetched
  once : s.wokenIds.Nodup
  seen : ∀ id ∈ s.seen, id ∈ s.wokenIds ++ s.shownIds
  /-- the message being woken has not been woken -/
  fresh : ∀ m queue n, s.point = .waking m queue n → ∀ id, m.key = some id → id ∉ s.wokenIds
  /-- while there is a queue, nothing is pending -/
  taken : s.inFlight ≠ [] → s.pendingWakes = []
  busy : s.relaying = false → s.point = .idle

section
variable {s s' : Plugin}

theorem Mail.key_eq_some {m : Mail} {id : PyStr} : m.key = some id ↔ m.msgId ≠ [] ∧ m.msgId = id := by
  unfold Mail.key
  split
  · next h => simp [h]
  · next h => simp [h]

theorem mem_remember {seen : List PyStr} {m : Mail} {id : PyStr} (h : id ∈ m.remember seen) :
    id ∈ seen ∨ m.key = some id := by
  unfold Mail.remember at h
  split at h
  · exact .inl h
  · next hm =>
    have hkey : m.key = some m.msgId := Mail.key_eq_some.2 ⟨hm, rfl⟩
    have hsub : id ∈ seen ++ [m.msgId] := by
      unfold Muster.remember at h
      split at h
      · exact List.mem_append_left _ h
      · split at h
        · exact List.mem_of_mem_tail h
        · exact h
    rcases List.mem_append.1 hsub with h | h
    · exact .inl h
    · rw [List.mem_singleton.1 h]
      exact .inr hkey

theorem mem_foldl_remember {ms : List Mail} {seen : List PyStr} {id : PyStr}
    (h : id ∈ ms.foldl Mail.remember seen) : id ∈ seen ∨ id ∈ ms.filterMap Mail.key := by
  induction ms generalizing seen with
  | nil => exact .inl h
  | cons m ms ih =>
    rcases ih h with h | h
    · rcases mem_remember h with h | h
      · exact .inl h
      · exact .inr (List.mem_filterMap.2 ⟨m, List.mem_cons_self, h⟩)
    · obtain ⟨m', hm', hk⟩ := List.mem_filterMap.1 h
      exact .inr (List.mem_filterMap.2 ⟨m', List.mem_cons_of_mem _ hm', hk⟩)

section
variable {e : DrainEvent} (h : s'.hist = s.hist ++ [e])
include h

theorem Plugin.fetched_of_hist : s'.fetched = s.fetched ++ e.mail := by
  unfold Plugin.fetched
  rw [h, List.flatMap_append, List.flatMap_singleton]

theorem Plugin.woken_of_hist : s'.woken = s.woken ++ e.wakes := by
  unfold Plugin.woken
  rw [h, List.flatMap_append, List.flatMap_singleton]

theorem Plugin.shownIds_of_hist : s'.shownIds = s.shownIds ++ e.shows.filterMap Mail.key := by
  unfold Plugin.shownIds
  rw [h, List.flatMap_append, List.flatMap_singleton, List.filterMap_append]

theorem Plugin.wokenIds_of_hist : s'.wokenIds = s.wokenIds ++ e.wakes.filterMap Mail.key := by
  unfold Plugin.wokenIds
  rw [Plugin.woken_of_hist h, List.filterMap_append]

end

/-- Steps that fetch, wake and show nothing. -/
theorem Plugin.Careful.of_hist (h : s.Careful) (hf : s'.fetched = s.fetched) (hw : s'.woken = s.woken)
    (hshown : s'.shownIds = s.shownIds) (hseen : s'.seen = s.seen)
    (horder : firsts Mail.key s.shownIds (s.woken ++ (s'.inFlight ++ s'.pendingWakes)) =
      firsts Mail.key s.shownIds s.held)
    (hfresh : ∀ m queue n, s'.point = .waking m queue n → ∀ id, m.key = some id → id ∉ s.wokenIds)
    (htaken : s'.inFlight ≠ [] → s'.pendingWakes = [])
    (hbusy : s'.relaying = false → s'.point = .idle) : s'.Careful := by
  have hids : s'.wokenIds = s.wokenIds := by
    unfold Plugin.wokenIds
    rw [hw]
  refine ⟨?_, ?_, ?_, ?_, htaken, hbusy⟩
  · unfold Plugin.held
    rw [hshown, hf, hw, horder]
    exact h.order
  · rw [hids]
    exact h.once
  · rw [hseen, hids, hshown]
    exact h.seen
  · rw [hids]
    exact hfresh

/-- No drain has a queue. -/
theorem Plugin.Careful.of_pending (h : s.Careful) (hold : s.inFlight = []) (hnew : s'.inFlight = [])
    (hp : s'.pendingWakes = s.pendingWakes) (hf : s'.fetched = s.fetched) (hw : s'.woken = s.woken)
    (hshown : s'.shownIds = s.shownIds) (hseen : s'.seen = s.seen)
    (hbusy : s'.relaying = false → s'.point = .idle) : s'.Careful := by
  refine h.of_hist hf hw hshown hseen ?_ ?_ ?_ hbusy
  · unfold Plugin.held
    rw [hold, hnew, hp]
  · intro m queue n hpoint
    unfold Plugin.inFlight at hnew
    rw [hpoint] at hnew
    cases hnew
  · intro hne
    exact absurd hnew hne

theorem inFlight_of_point {queue : List Mail} {n : Nat} (h : s.point = .looping queue n) :
    s.inFlight = queue := by
  unfold Plugin.inFlight
  rw [h]

theorem Plugin.Careful.messages (h : s.Careful) (hp : s.point = .fetching) (ms : List Mail) :
    let s' : Plugin := { s with
      pendingWakes := []
      point := .looping (s.pendingWakes ++ ms) ms.length
      hist := s.hist ++ [.fetched ms] }
    s'.Careful := by
  intro s'
  have hhist : s'.hist = s.hist ++ [.fetched ms] := rfl
  have hflight : s.inFlight = [] := by
    unfold Plugin.inFlight
    rw [hp]
  have hfetched : s'.fetched = s.fetched ++ ms := Plugin.fetched_of_hist hhist
  have hwoken : s'.woken = s.woken := (Plugin.woken_of_hist hhist).trans (List.append_nil _)
  have hids : s'.wokenIds = s.wokenIds := (Plugin.wokenIds_of_hist hhist).trans (List.append_nil _)
  have hshown : s'.shownIds = s.shownIds := (Plugin.shownIds_of_hist hhist).trans (List.append_nil _)
  refine ⟨?_, ?_, ?_, ?_, ?_, ?_⟩
  · have hheld : s'.held = s.held ++ ms := by
      unfold Plugin.held
      rw [hwoken, hflight]
      show s.woken ++ ((s.pendingWakes ++ ms) ++ []) = _
      simp
    rw [hheld, hfetched, hshown]
    exact firsts_extend h.order ms
  · rw [hids]
    exact h.once
  · rw [hids, hshown]
    exact h.seen
  · intro m queue n hpoint
    cases hpoint
  · intro _
    rfl
  · intro hrel
    rw [h.busy hrel] at hp
    cases hp

theorem Plugin.Careful.woke (h : s.Careful) {m : Mail} {queue : List Mail} {n : Nat}
    (hp : s.point = .waking m queue n) :
    let s' : Plugin := { s with
      seen := m.remember s.seen
      point := .looping queue n
      hist := s.hist ++ [.woke m] }
    s'.Careful := by
  intro s'
  have hhist : s'.hist = s.hist ++ [.woke m] := rfl
  have hflight : s.inFlight = m :: queue := by
    unfold Plugin.inFlight
    rw [hp]
  have hfetched : s'.fetched = s.fetched := (Plugin.fetched_of_hist hhist).trans (List.append_nil _)
  have hwoken : s'.woken = s.woken ++ [m] := Plugin.woken_of_hist hhist
  have hids : s'.wokenIds = s.wokenIds ++ [m].filterMap Mail.key := Plugin.wokenIds_of_hist hhist
  have hshown : s'.shownIds = s.shownIds := (Plugin.shownIds_of_hist hhist).trans (List.append_nil _)
  refine ⟨?_, ?_, ?_, ?_, ?_, ?_⟩
  · have hheld : s'.held = s.held := by
      unfold Plugin.held
      rw [hwoken, hflight]
      show s.woken ++ [m] ++ (queue ++ s.pendingWakes) = _
      simp
    rw [hheld, hfetched, hshown]
    exact h.order
  · rw [hids, List.nodup_append]
    refine ⟨h.once, ?_, ?_⟩
    · cases hk : m.key <;> simp [hk]
    · intro id hid id' hid'
      obtain ⟨m', hm', hk⟩ := List.mem_filterMap.1 hid'
      rw [List.mem_singleton.1 hm'] at hk
      rintro rfl
      exact h.fresh m queue n hp id hk hid
  · rw [hids, hshown]
    intro id hid
    rcases mem_remember hid with hid | hk
    · rcases List.mem_append.1 (h.seen id hid) with hid | hid
      · exact List.mem_append_left _ (List.mem_append_left _ hid)
      · exact List.mem_append_right _ hid
    · refine List.mem_append_left _ (List.mem_append_right _ ?_)
      exact List.mem_filterMap.2 ⟨m, List.mem_singleton_self m, hk⟩
  · intro m' queue' n' hpoint
    cases hpoint
  · intro _
    exact h.taken (by rw [hflight]; exact List.cons_ne_nil _ _)
  · intro hrel
    rw [h.busy hrel] at hp
    cases hp

theorem Plugin.Careful.shown (h : s.Careful) (ms : List Mail) :
    let s' : Plugin := { s with
      seen := ms.foldl Mail.remember s.seen
      hist := s.hist ++ [.shown ms] }
    s'.Careful := by
  intro s'
  have hhist : s'.hist = s.hist ++ [.shown ms] := rfl
  have hfetched : s'.fetched = s.fetched := (Plugin.fetched_of_hist hhist).trans (List.append_nil _)
  have hwoken : s'.woken = s.woken := (Plugin.woken_of_hist hhist).trans (List.append_nil _)
  have hids : s'.wokenIds = s.wokenIds := (Plugin.wokenIds_of_hist hhist).trans (List.append_nil _)
  have hshown : s'.shownIds = s.shownIds ++ ms.filterMap Mail.key := Plugin.shownIds_of_hist hhist
  have hheld : s'.held = s.held := by
    unfold Plugin.held
    rw [hwoken]
    rfl
  have hcomm : ∀ l : List Mail, firsts Mail.key (s.shownIds ++ ms.filterMap Mail.key) l =
      firsts Mail.key (ms.filterMap Mail.key ++ s.shownIds) l :=
    firsts_congr fun id => by rw [List.mem_append, List.mem_append, or_comm]
  refine ⟨?_, ?_, ?_, ?_, h.taken, h.busy⟩
  · rw [hheld, hfetched, hshown, hcomm, hcomm]
    exact firsts_skip_more h.order _
  · rw [hids]
    exact h.once
  · rw [hids, hshown]
    intro id hid
    rcases mem_foldl_remember hid with hid | hid
    · rw [← List.append_assoc]
      exact List.mem_append_left _ (h.seen id hid)
    · exact List.mem_append_right _ (List.mem_append_right _ hid)
  · rw [hids]
    exact h.fresh

/-- **One step.** -/
theorem Plugin.Careful.step {l : PluginStep} (h : s.Careful) (hok : KeepsMail s l)
    (hs : plugin.step s l = some s') : s'.Careful := by
  have hidle : ∀ {point}, s.point = point → (∀ q n, point ≠ .looping q n) →
      (∀ m q n, point ≠ .waking m q n) → s.inFlight = [] := by
    intro point hp hl hw
    unfold Plugin.inFlight
    rw [hp]
    cases point with
    | looping q n => exact absurd rfl (hl q n)
    | waking m q n => exact absurd rfl (hw m q n)
    | _ => rfl
  cases Plugin.next_of_step hs with
  | failed hp => exact h.of_pending (hidle hp nofun nofun) rfl rfl rfl rfl rfl rfl fun _ => rfl
  | malformed hp =>
    refine h.of_pending (hidle hp nofun nofun) rfl ?_ rfl rfl rfl rfl fun _ => rfl
    exact (hok.1 rfl).symm
  | messages hp => exact h.messages hp _
  | refetch hp =>
    refine h.of_pending (inFlight_of_point hp) rfl rfl ?_ ?_ ?_ rfl ?_
    · exact (Plugin.fetched_of_hist rfl).trans (List.append_nil _)
    · exact (Plugin.woken_of_hist rfl).trans (List.append_nil _)
    · exact (Plugin.shownIds_of_hist rfl).trans (List.append_nil _)
    · intro hrel
      rw [h.busy hrel] at hp
      cases hp
  | finish hp _ => exact h.of_pending (inFlight_of_point hp) rfl rfl rfl rfl rfl rfl fun _ => rfl
  | @skip m queue n hp hne hmem =>
    have hflight := inFlight_of_point hp
    refine h.of_hist rfl rfl rfl rfl ?_ ?_ ?_ ?_
    · -- it repeats what has been woken or shown
      have hrest : s.held = s.woken ++ m :: (queue ++ s.pendingWakes) := by
        unfold Plugin.held
        rw [hflight]
        rfl
      rw [hrest]
      exact (firsts_again (Mail.key_eq_some.2 ⟨hne, rfl⟩) (h.seen _ hmem)).symm
    · intro m' queue' n' hpoint
      cases hpoint
    · intro _
      exact h.taken (by rw [hflight]; exact List.cons_ne_nil _ _)
    · intro hrel
      rw [h.busy hrel] at hp
      cases hp
  | @wake m queue n hp hnew =>
    have hflight := inFlight_of_point hp
    refine h.of_hist rfl rfl rfl rfl ?_ ?_ ?_ ?_
    · unfold Plugin.held
      rw [hflight]
      rfl
    · intro m' queue' n' hpoint id hk hid
      cases hpoint
      obtain ⟨hne, rfl⟩ := Mail.key_eq_some.1 hk
      exact hnew hne (hok.2 rfl m queue n hp hid)
    · intro _
      exact h.taken (by rw [hflight]; exact List.cons_ne_nil _ _)
    · intro hrel
      rw [h.busy hrel] at hp
      cases hp
  | woke hp => exact h.woke hp
  | @stale m queue n hp =>
    have hflight : s.inFlight = m :: queue := by
      unfold Plugin.inFlight
      rw [hp]
    have hpending : s.pendingWakes = [] := h.taken (by rw [hflight]; exact List.cons_ne_nil _ _)
    refine h.of_hist rfl rfl rfl rfl ?_ ?_ ?_ fun _ => rfl
    · unfold Plugin.held
      rw [hflight, hpending, List.append_nil]
      rfl
    · intro m' queue' n' hpoint
      cases hpoint
    · intro hne
      exact absurd rfl hne
  | started sid _ _ hrel =>
    refine h.of_pending (hidle (h.busy hrel) nofun nofun) rfl rfl ?_ ?_ ?_ rfl nofun
    · exact (Plugin.fetched_of_hist rfl).trans (List.append_nil _)
    · exact (Plugin.woken_of_hist rfl).trans (List.append_nil _)
    · exact (Plugin.shownIds_of_hist rfl).trans (List.append_nil _)
  | turnedAway sid _ _ hrel =>
    refine h.of_hist ?_ ?_ ?_ rfl rfl h.fresh h.taken ?_
    · exact (Plugin.fetched_of_hist rfl).trans (List.append_nil _)
    · exact (Plugin.woken_of_hist rfl).trans (List.append_nil _)
    · exact (Plugin.shownIds_of_hist rfl).trans (List.append_nil _)
    · exact h.busy
  | shown ms _ => exact h.shown ms
  | apart => exact h.of_hist rfl rfl rfl rfl rfl h.fresh h.taken h.busy

end

/-- What has been fetched is held, under its id at least, or has been displayed. -/
theorem kept_of_order {s : Plugin}
    (h : firsts Mail.key s.shownIds s.held = firsts Mail.key s.shownIds s.fetched) {m : Mail}
    (hm : m ∈ s.fetched) : m ∈ s.held ∨
      ∃ id, m.key = some id ∧ (id ∈ s.shownIds ∨ ∃ m' ∈ s.held, m'.key = some id) := by
  cases hk : m.key with
  | none =>
    have hfirst : m ∈ firsts Mail.key s.shownIds s.fetched := mem_firsts_of_none hk hm
    rw [← h] at hfirst
    exact .inl (mem_of_mem_firsts hfirst)
  | some id =>
    have hid : id ∈ s.fetched.filterMap Mail.key ++ s.shownIds :=
      List.mem_append_left _ (List.mem_filterMap.2 ⟨m, hm, hk⟩)
    rw [← mem_keys_firsts, ← h, mem_keys_firsts] at hid
    refine .inr ⟨id, rfl, ?_⟩
    rcases List.mem_append.1 hid with hid | hid
    · exact .inr (List.mem_filterMap.1 hid)
    · exact .inl hid

/-- **Drains conserve mail**, as long as the answers have messages while some are pending, and the
messages that come again are remembered. -/
theorem drains_conserve {s : Plugin} (h : plugin.Run KeepsMail .start s) : s.Conserved := by
  have hstart : Plugin.start.Careful := by
    exact ⟨rfl, List.nodup_nil, nofun, nofun, fun _ => rfl, fun _ => rfl⟩
  have hI : s.Careful := h.inv Plugin.Careful hstart fun _ _ _ hI hok hs => hI.step hok hs
  exact ⟨hI.order, fun _ => kept_of_order hI.order, hI.once⟩

/-! ## An answer without messages -/

/-- `KeepsMail`, computed. -/
def keepsMail (s : Plugin) : PluginStep → Bool
  | .answer .malformed => s.pendingWakes.isEmpty
  | .turn =>
    match s.point with
    | .looping (m :: _) _ => !s.wokenIds.contains m.msgId || s.seen.contains m.msgId
    | _ => true
  | _ => true

theorem keepsMail_sound (s : Plugin) (l : PluginStep) (h : keepsMail s l = true) : KeepsMail s l := by
  refine ⟨?_, ?_⟩
  · rintro rfl
    exact List.isEmpty_iff.1 h
  · rintro rfl m queue n hp hid
    unfold keepsMail at h
    rw [hp] at h
    simpa [hid] using h

def mail (id : String) : Mail := ⟨lit id, lit "u/h/r/p/y", [], lit "hi", false⟩

/-- A nudge, and the page its fetch brings. -/
def page (r : FetchResult) : List PluginStep :=
  [.event (lit "deliver") (.obj (dict [("kind", .str (lit "chat"))])), .answer r]

/-- A wake fails; the next page repeats a message and brings one that `muster_fetch` has shown. -/
theorem drains_conserve_retried : ∃ s : Plugin, s.Conserved ∧
    s.woken = [mail "1", mail "2", mail "4"] ∧ s.pendingWakes = [] ∧ s.relaying = false := by
  have htrace : plugin.trace keepsMail .start
    (.session (lit "s") :: .answer (.messages [mail "1", mail "2"]) :: .turn :: .wakeEnd true ::
      .turn :: .wakeEnd false :: .shown [mail "3"] ::
      (page (.messages [mail "2", mail "3", mail "4"]) ++
        [.turn, .wakeEnd true, .turn, .turn, .turn, .wakeEnd true, .turn])) = some _ := rfl
  exact ⟨_, drains_conserve (Machine.Run.trace keepsMail_sound .start htrace), rfl, rfl, rfl⟩

/-- A wake fails, and the next fetch is answered with a page that is not JSON: the message is
gone. -/
theorem malformed_answer_drops : ∃ s : Plugin,
    plugin.Run (fun _ _ => True) .start s ∧ ¬ s.Conserved ∧
    s.fetched = [mail "1"] ∧ s.held = [] ∧ s.shownIds = [] := by
  have htrace : plugin.trace (fun _ _ => true) .start
    (.session (lit "s") :: .answer (.messages [mail "1"]) :: .turn :: .wakeEnd false ::
      page .malformed) = some _ := rfl
  refine ⟨_, Machine.Run.trace (fun _ _ _ => trivial) .start htrace, ?_, rfl, rfl, rfl⟩
  intro hc
  rcases hc.kept (mail "1") (List.mem_singleton_self _) with h | ⟨_, -, h | ⟨_, h, -⟩⟩
  · cases h
  · cases h
  · cases h

end Muster
