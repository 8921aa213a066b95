import Muster.DrainMail
import Muster.Published
import Muster.Shown

/-!
# From the inbox into the session

The OpenCode plugin at the server.  Its drains and its `muster_fetch` tool ask for pages; the
server takes each off the unread mail, and the answer is on its way for a while, or is lost.
All the time there may be mail from anybody, and everything else the plugin does.  Two fetches
are not served at once here: they would take the same page (`overlapping_fetches_return_twice`).

No two pages have a message in common, so no drain comes upon an id it has seen: what the
drains have been given is what the session has been woken with, in order and once each,
followed by what is to come (`mail_reaches_session`).  The server's answers always have a list
of messages, so that a drain that empties `pendingWakes` for nothing does not occur.
-/

namespace Muster

/-! ## The plugin's requests -/

section
variable [Python] [JsNumbers]

/-- What a drain reads of a message. -/
def Mail.ofJson (m : Json) : Mail where
  msgId := (m.jsField "msg_id").asStr
  sender := (m.template "from").getD []
  subject := (m.jsField "subject").asStr
  body := (m.template "body").getD []
  important := (m.jsField "important").jsTruthy

/-- What a drain makes of the outcome of its fetch. -/
def drainAnswer : Except PluginExn Json → FetchResult
  | .error _ => .failed
  | .ok data =>
    if data.isNull then .failed
    else
      match data.jsField "messages" with
      | .arr ms => .messages (ms.map Mail.ofJson)
      -- a string is spread into its characters
      | .str s => .messages (s.map fun c => Mail.ofJson (.str [c]))
      | _ => .malformed

def fetchPayload (limit : Json) : Json :=
  .obj (dict [("op", .str (lit "fetch")), ("args", .obj (dict [("limit", limit)]))])

/-- `rpc("fetch", { limit })`, and what it leaves on the server. -/
def askFetch (cfg : Config) (srv : Server) (c : Client) (limit : Json) (fate : Fate) (s : Db) :
    Except PluginExn Json × Db :=
  match fate with
  | .answered =>
    let r := serve cfg srv c.resolved c.header (some (fetchPayload limit)) s
    (rpcJs r.1, r.2)
  | .lost name n =>
    (.error (.other name), serveCut cfg srv c.resolved c.header (some (fetchPayload limit)) n s)

/-- A message as it arrives. -/
def Mail.of (e : Entry) : Mail :=
  ⟨e.id.text, (Message.of e).sender, (Message.of e).subject, (Message.of e).body, (Message.of e).important⟩

omit [Python] in
theorem ofJson_json (e : Entry) : Mail.ofJson (Message.of e).json = Mail.of e := by
  simp +decide only [Mail.ofJson, Message.json, Json.jsField, Json.template, lookup_dict_cons, get_dict_cons,
    if_false, if_true, Json.jsString, Json.asStr, Option.getD_some, Json.jsTruthy]
  rfl

omit [Python] in
theorem drainAnswer_fetch (es : List Entry) :
    drainAnswer (rpcJs (answerOf (.ok (.fetch (es.map Message.of))))) = .messages (es.map Mail.of) := by
  have hfield : (Response.fetch (es.map Message.of)).json.jsField "messages" =
      .arr ((es.map Message.of).map Message.json) := by
    simp +decide only [Response.json, Json.jsField, get_dict_cons, if_false, if_true]
  have hmails : ((es.map Message.of).map Message.json).map Mail.ofJson = es.map Mail.of := by
    rw [List.map_map, List.map_map]
    exact List.map_congr_left fun e _ => ofJson_json e
  show drainAnswer (.ok (Response.fetch (es.map Message.of)).json) = _
  unfold drainAnswer
  dsimp only
  rw [if_neg (by simp [Response.json, Json.isNull]), hfield]
  dsimp only
  rw [hmails]

/-- A fetch of the plugin's takes a page, and is sent what has not expired of it, or nothing. -/
theorem askFetch_answer (cfg : Config) (srv : Server) {c : Client} {a : PyStr} (hc : c.Is a) (limit : Json)
    (fate : Fate) (s : Db) : ∃ page, Takes srv a page s (askFetch cfg srv c limit fate s).2 ∧
      ((fate = .answered ∧ (askFetch cfg srv c limit fate s).1 =
        .ok (Response.fetch ((unexpired s.sec page).map Message.of)).json) ∨
      ((∃ e, (askFetch cfg srv c limit fate s).1 = .error e) ∧
        (page = [] ∨ ∃ name n, fate = .lost name n ∧ 3 ≤ n))) := by
  obtain ⟨ident, sender, hident, hsender, rfl⟩ := hc
  have hroute : rpcRoute cfg ident c.header (some (fetchPayload limit)) =
      opFetch sender (dict [("limit", limit)]) := by
    unfold fetchPayload
    rw [rpcRoute_client, rpc, hsender]
    dsimp only
    unfold dispatch
    rw [if_neg (by decide), if_pos rfl]
  unfold askFetch serve serveCut
  rw [hident]
  cases fate with
  | lost name n =>
    dsimp only
    rw [hroute]
    obtain ⟨page, htakes, hn⟩ := opFetch_cut srv sender (dict [("limit", limit)]) s n
    refine ⟨page, htakes, .inr ⟨⟨_, rfl⟩, ?_⟩⟩
    by_cases hpage : page = []
    · exact .inl hpage
    · exact .inr ⟨name, n, rfl, hn hpage⟩
  | answered =>
    dsimp only
    rw [hroute]
    obtain ⟨out, t, hrun⟩ : ∃ out t, (opFetch sender (dict [("limit", limit)])).run (exec srv) s =
      (out, t) := ⟨_, _, rfl⟩
    rw [hrun]
    rcases opFetch_outcome hrun with ⟨e, rfl, rfl, he⟩ | ⟨page, rfl, htakes⟩
    · refine ⟨[], .inl ⟨rfl, rfl⟩, .inr ⟨?_, .inl rfl⟩⟩
      show ∃ e', rpcJs e.answer = .error e'
      rw [he]
      exact ⟨_, rfl⟩
    · exact ⟨page, htakes, .inl ⟨rfl, rfl⟩⟩

/-- **A fetch of a drain** is given the unexpired messages of its page, or fails. -/
theorem askFetch_outcome (cfg : Config) (srv : Server) {c : Client} {a : PyStr} (hc : c.Is a) (limit : Json)
    (fate : Fate) (s : Db) : ∃ page, Takes srv a page s (askFetch cfg srv c limit fate s).2 ∧
      ((fate = .answered ∧ drainAnswer (askFetch cfg srv c limit fate s).1 =
        .messages ((unexpired s.sec page).map Mail.of)) ∨
      (drainAnswer (askFetch cfg srv c limit fate s).1 = .failed ∧
        (page = [] ∨ ∃ name n, fate = .lost name n ∧ 3 ≤ n))) := by
  obtain ⟨page, htakes, ⟨hfate, hanswer⟩ | ⟨⟨e, he⟩, hpage⟩⟩ := askFetch_answer cfg srv hc limit fate s
  · refine ⟨page, htakes, .inl ⟨hfate, ?_⟩⟩
    rw [hanswer]
    exact drainAnswer_fetch _
  · refine ⟨page, htakes, .inr ⟨?_, hpage⟩⟩
    rw [he]
    rfl

/-- **A fetch of the tool** displays them, a line each, where it does not fail. -/
theorem askFetch_text (cfg : Config) (srv : Server) {c : Client} {a : PyStr} (hc : c.Is a) (limit : Json)
    (fate : Fate) (s : Db) : ∃ page, Takes srv a page s (askFetch cfg srv c limit fate s).2 ∧
      ((fate = .answered ∧ pluginText fetchTextJs (askFetch cfg srv c limit fate s).1 =
        some (bullets ((unexpired s.sec page).map Message.of))) ∨
      ∃ e, (askFetch cfg srv c limit fate s).1 = .error e) := by
  obtain ⟨page, htakes, ⟨hfate, hanswer⟩ | ⟨hfailed, -⟩⟩ := askFetch_answer cfg srv hc limit fate s
  · refine ⟨page, htakes, .inl ⟨hfate, ?_⟩⟩
    rw [hanswer]
    exact fetchTextJs_fetch _
  · exact ⟨page, htakes, .inr hfailed⟩

end

/-! ## Drains that are given nothing twice -/

/-- Own steps of the plugin: neither a fetch nor `muster_fetch` comes back. -/
def PluginStep.own : PluginStep → Bool
  | .answer _ => false
  | .shown _ => false
  | _ => true

/-- What `muster_fetch` has displayed. -/
def Plugin.displayed (s : Plugin) : List Mail := s.hist.flatMap DrainEvent.shows

/-- What the drains have been given is what has been woken and what waits. -/
structure Plugin.Exact (s : Plugin) : Prop where
  held : s.held = s.fetched
  /-- what waits has not been seen -/
  unseen : ∀ m ∈ s.inFlight ++ s.pendingWakes, m.msgId ∉ s.seen
  seen : ∀ id ∈ s.seen, ∃ m ∈ s.woken ++ s.displayed, m.msgId = id
  /-- while there is a queue, nothing is pending -/
  taken : s.inFlight ≠ [] → s.pendingWakes = []
  busy : s.relaying = false → s.point = .idle

/-- The mail that a step gives to the drain. -/
def PluginStep.given : PluginStep → List Mail
  | .answer (.messages ms) => ms
  | _ => []

/-- The mail that a step displays. -/
def PluginStep.displays : PluginStep → List Mail
  | .shown ms => ms
  | _ => []

section
variable {s s' : Plugin} {l : PluginStep}

theorem Plugin.displayed_of_hist {e : DrainEvent} (h : s'.hist = s.hist ++ [e]) :
    s'.displayed = s.displayed ++ e.shows := by
  unfold Plugin.displayed
  rw [h, List.flatMap_append, List.flatMap_singleton]

theorem inFlight_of_waking {m : Mail} {queue : List Mail} {n : Nat} (h : s.point = .waking m queue n) :
    s.inFlight = m :: queue := by
  unfold Plugin.inFlight
  rw [h]

theorem inFlight_of_fetching (h : s.point = .fetching) : s.inFlight = [] := by
  unfold Plugin.inFlight
  rw [h]

/-- Steps that fetch, wake and show nothing. -/
theorem Plugin.Exact.of_hist (h : s.Exact) (hf : s'.fetched = s.fetched) (hw : s'.woken = s.woken)
    (hd : s'.displayed = s.displayed) (hseen : s'.seen = s.seen)
    (hwait : s'.inFlight ++ s'.pendingWakes = s.inFlight ++ s.pendingWakes)
    (htaken : s'.inFlight ≠ [] → s'.pendingWakes = [])
    (hbusy : s'.relaying = false → s'.point = .idle) : s'.Exact where
  held := by
    rw [Plugin.held, hw, hwait, hf]
    exact h.held
  unseen := by
    rw [hwait, hseen]
    exact h.unseen
  seen := by
    rw [hseen, hw, hd]
    exact h.seen
  taken := htaken
  busy := hbusy

/-- An event that is no mail. -/
theorem Plugin.Exact.of_event (h : s.Exact) {e : DrainEvent} (hhist : s'.hist = s.hist ++ [e])
    (he : e.mail = [] ∧ e.wakes = [] ∧ e.shows = []) (hseen : s'.seen = s.seen)
    (hwait : s'.inFlight ++ s'.pendingWakes = s.inFlight ++ s.pendingWakes)
    (htaken : s'.inFlight ≠ [] → s'.pendingWakes = [])
    (hbusy : s'.relaying = false → s'.point = .idle) : s'.Exact := by
  refine h.of_hist ?_ ?_ ?_ hseen hwait htaken hbusy
  · rw [Plugin.fetched_of_hist hhist, he.1, List.append_nil]
  · rw [Plugin.woken_of_hist hhist, he.2.1, List.append_nil]
  · rw [Plugin.displayed_of_hist hhist, he.2.2, List.append_nil]

/-- The answer to a fetch, with nothing in it that has been seen. -/
theorem Plugin.Exact.messages (h : s.Exact) (hp : s.point = .fetching) {ms : List Mail}
    (hfresh : ∀ m ∈ ms, m.msgId ∉ s.seen) : Plugin.Exact { s with
      pendingWakes := []
      point := .looping (s.pendingWakes ++ ms) ms.length
      hist := s.hist ++ [.fetched ms] } := by
  have hheld := h.held
  have hunseen := h.unseen
  rw [Plugin.held, inFlight_of_fetching hp, List.nil_append] at hheld
  rw [inFlight_of_fetching hp, List.nil_append] at hunseen
  constructor
  · rw [Plugin.held, Plugin.woken_of_hist rfl, Plugin.fetched_of_hist rfl]
    show (s.woken ++ []) ++ ((s.pendingWakes ++ ms) ++ []) = s.fetched ++ ms
    rw [List.append_nil, List.append_nil, ← List.append_assoc, hheld]
  · intro m hm
    replace hm : m ∈ (s.pendingWakes ++ ms) ++ [] := hm
    rw [List.append_nil] at hm
    rcases List.mem_append.1 hm with hm | hm
    · exact hunseen m hm
    · exact hfresh m hm
  · rw [Plugin.woken_of_hist rfl, Plugin.displayed_of_hist rfl]
    show ∀ id ∈ s.seen, ∃ m ∈ (s.woken ++ []) ++ (s.displayed ++ []), _
    rw [List.append_nil, List.append_nil]
    exact h.seen
  · exact fun _ => rfl
  · intro hrel
    rw [h.busy hrel] at hp
    cases hp

/-- A wake that succeeds, where the ids of what has been fetched differ. -/
theorem Plugin.Exact.woke (h : s.Exact) (hids : (s.fetched.map Mail.msgId).Nodup) {m : Mail}
    {queue : List Mail} {n : Nat} (hp : s.point = .waking m queue n) : Plugin.Exact { s with
      seen := m.remember s.seen
      point := .looping queue n
      hist := s.hist ++ [.woke m] } := by
  have hflight := inFlight_of_waking hp
  have hpending : s.pendingWakes = [] := h.taken (by rw [hflight]; exact List.cons_ne_nil _ _)
  have hheld := h.held
  rw [Plugin.held, hflight, hpending, List.append_nil] at hheld
  have hunseen := h.unseen
  rw [hflight, hpending, List.append_nil] at hunseen
  constructor
  · rw [Plugin.held, Plugin.woken_of_hist rfl, Plugin.fetched_of_hist rfl]
    show (s.woken ++ [m]) ++ (queue ++ s.pendingWakes) = s.fetched ++ []
    rw [hpending, List.append_nil, List.append_nil, List.append_assoc]
    exact hheld
  · intro m' hm' hseen
    replace hm' : m' ∈ queue ++ s.pendingWakes := hm'
    rw [hpending, List.append_nil] at hm'
    rcases mem_remember hseen with hseen | hkey
    · exact hunseen m' (List.mem_cons_of_mem _ hm') hseen
    · obtain ⟨-, hid⟩ := Mail.key_eq_some.1 hkey
      rw [← hheld, List.map_append, List.map_cons] at hids
      have hnodup := hids.of_append_right
      exact (List.nodup_cons.1 hnodup).1 (hid ▸ List.mem_map_of_mem hm')
  · rw [Plugin.woken_of_hist rfl, Plugin.displayed_of_hist rfl]
    intro id hid
    rcases mem_remember hid with hid | hkey
    · obtain ⟨m', hm', rfl⟩ := h.seen id hid
      refine ⟨m', ?_, rfl⟩
      rcases List.mem_append.1 hm' with hm' | hm' <;> simp [hm']
    · obtain ⟨-, rfl⟩ := Mail.key_eq_some.1 hkey
      exact ⟨m, by simp [DrainEvent.wakes], rfl⟩
  · exact fun _ => hpending
  · intro hrel
    rw [h.busy hrel] at hp
    cases hp

/-- A page of the tool, with nothing in it that a drain has been given. -/
theorem Plugin.Exact.shown (h : s.Exact) {ms : List Mail}
    (hapart : ∀ m ∈ ms, ∀ m' ∈ s.fetched, m.msgId ≠ m'.msgId) : Plugin.Exact { s with
      seen := ms.foldl Mail.remember s.seen
      hist := s.hist ++ [.shown ms] } := by
  constructor
  · rw [Plugin.held, Plugin.woken_of_hist rfl, Plugin.fetched_of_hist rfl]
    show (s.woken ++ []) ++ (s.inFlight ++ s.pendingWakes) = s.fetched ++ []
    rw [List.append_nil, List.append_nil]
    exact h.held
  · intro m hm hseen
    rcases mem_foldl_remember hseen with hseen | hid
    · exact h.unseen m hm hseen
    · obtain ⟨m', hm', hkey⟩ := List.mem_filterMap.1 hid
      obtain ⟨-, hid⟩ := Mail.key_eq_some.1 hkey
      refine hapart m' hm' m ?_ hid
      rw [← h.held]
      exact List.mem_append_right _ hm
  · rw [Plugin.woken_of_hist rfl, Plugin.displayed_of_hist rfl]
    intro id hid
    rcases mem_foldl_remember hid with hid | hid
    · obtain ⟨m, hm, rfl⟩ := h.seen id hid
      refine ⟨m, ?_, rfl⟩
      rcases List.mem_append.1 hm with hm | hm <;> simp [hm]
    · obtain ⟨m, hm, hkey⟩ := List.mem_filterMap.1 hid
      obtain ⟨-, rfl⟩ := Mail.key_eq_some.1 hkey
      exact ⟨m, by simp [DrainEvent.shows, hm], rfl⟩
  · exact h.taken
  · exact h.busy

/-- What a step fetches and displays. -/
theorem Plugin.given_of_step (hs : plugin.step s l = some s') :
    s'.fetched = s.fetched ++ l.given ∧ s'.displayed = s.displayed ++ l.displays := by
  have hsame : s'.hist = s.hist → s'.fetched = s.fetched ++ [] ∧ s'.displayed = s.displayed ++ [] := by
    intro h
    rw [Plugin.fetched, Plugin.displayed, h, List.append_nil, List.append_nil]
    exact ⟨rfl, rfl⟩
  have hevent : ∀ {e : DrainEvent}, s'.hist = s.hist ++ [e] →
      s'.fetched = s.fetched ++ e.mail ∧ s'.displayed = s.displayed ++ e.shows :=
    fun h => ⟨Plugin.fetched_of_hist h, Plugin.displayed_of_hist h⟩
  cases l with
  | shown ms =>
    simp only [plugin, Plugin.step] at hs
    split at hs
    · cases hs
      exact hevent rfl
    · cases hs
  | answer r =>
    cases Plugin.next_of_step hs with
    | failed | malformed => exact hsame rfl
    | messages => exact hevent rfl
    | started _ hl | turnedAway _ hl | apart _ _ hl => exact hl.elim
  | turn =>
    cases Plugin.next_of_step hs with
    | finish | skip | wake => exact hsame rfl
    | refetch => exact hevent rfl
    | started _ hl | turnedAway _ hl | apart _ _ hl => exact hl.elim
  | wakeEnd ok =>
    cases Plugin.next_of_step hs with
    | stale => exact hsame rfl
    | woke => exact hevent rfl
    | started _ hl | turnedAway _ hl | apart _ _ hl => exact hl.elim
  | event | session | dispose =>
    cases Plugin.next_of_step hs with
    | started | turnedAway => exact hevent rfl
    | apart => exact hsame rfl

/-- A drain that waits for its page goes on waiting. -/
theorem Plugin.Exact.waits (h : s.Exact) (hl : ∀ r, l ≠ .answer r) (hp : s.point = .fetching)
    (hs : plugin.step s l = some s') : s'.point = .fetching := by
  have hne : ∀ {point : Point}, s.point = point → point ≠ .fetching → s'.point = .fetching :=
    fun hpoint hne => absurd (hpoint.symm.trans hp) hne
  cases Plugin.next_of_step hs with
  | failed | malformed | messages => exact absurd rfl (hl _)
  | refetch hpoint | finish hpoint | skip hpoint | wake hpoint | woke hpoint | stale hpoint =>
    exact hne hpoint nofun
  | started _ _ _ hrel => exact hne (h.busy hrel) nofun
  | turnedAway | shown | apart => exact hp

/-- **One step** of the plugin, where no id comes twice. -/
theorem Plugin.Exact.step (h : s.Exact) (hids : (s.fetched.map Mail.msgId).Nodup)
    (hlist : l ≠ .answer .malformed)
    (hfresh : ∀ ms, l = .answer (.messages ms) → ∀ m ∈ ms, m.msgId ∉ s.seen)
    (hapart : ∀ ms, l = .shown ms → ∀ m ∈ ms, ∀ m' ∈ s.fetched, m.msgId ≠ m'.msgId)
    (hs : plugin.step s l = some s') : s'.Exact := by
  have hrelaying : ∀ {point}, s.point = point → point ≠ .idle → s.relaying ≠ false := by
    intro point hp hne hrel
    exact hne (hp.symm.trans (h.busy hrel))
  cases Plugin.next_of_step hs with
  | failed hp =>
    refine h.of_hist rfl rfl rfl rfl ?_ (fun hne => absurd rfl hne) fun _ => rfl
    rw [inFlight_of_fetching hp]
    rfl
  | malformed hp => exact absurd rfl hlist
  | @messages ms hp => exact h.messages hp (hfresh ms rfl)
  | refetch hp =>
    refine h.of_event rfl ⟨rfl, rfl, rfl⟩ rfl ?_ (fun hne => absurd rfl hne) fun hrel => ?_
    · rw [inFlight_of_point hp]
      rfl
    · exact absurd hrel (hrelaying hp nofun)
  | finish hp _ =>
    refine h.of_hist rfl rfl rfl rfl ?_ (fun hne => absurd rfl hne) fun _ => rfl
    rw [inFlight_of_point hp]
    rfl
  | @skip m queue n hp _ hmem =>
    refine absurd hmem (h.unseen m ?_)
    rw [inFlight_of_point hp]
    exact List.mem_append_left _ List.mem_cons_self
  | wake hp =>
    have hflight := inFlight_of_point hp
    refine h.of_hist rfl rfl rfl rfl ?_ (fun _ => h.taken ?_) fun hrel => ?_
    · rw [hflight]
      rfl
    · rw [hflight]
      exact List.cons_ne_nil _ _
    · exact absurd hrel (hrelaying hp nofun)
  | woke hp => exact h.woke hids hp
  | stale hp =>
    have hflight := inFlight_of_waking hp
    have hpending : s.pendingWakes = [] := h.taken (by rw [hflight]; exact List.cons_ne_nil _ _)
    refine h.of_hist rfl rfl rfl rfl ?_ (fun hne => absurd rfl hne) fun _ => rfl
    rw [hflight, hpending, List.append_nil]
    rfl
  | started sid _ _ hrel =>
    have hidle : s.inFlight = [] := by
      unfold Plugin.inFlight
      rw [h.busy hrel]
    refine h.of_event rfl ⟨rfl, rfl, rfl⟩ rfl ?_ (fun hne => absurd rfl hne) nofun
    rw [hidle]
    rfl
  | turnedAway sid => exact h.of_event rfl ⟨rfl, rfl, rfl⟩ rfl rfl h.taken h.busy
  | shown ms => exact h.shown (hapart ms rfl)
  | apart sid disposed => exact h.of_hist rfl rfl rfl rfl rfl h.taken h.busy

end

/-! ## The plugin at the server -/

/-- The server, the plugin, and what is on its way to it. -/
structure Desk where
  db : Db
  plugin : Plugin
  /-- to the fetch of the drain -/
  answer : Option FetchResult
  /-- to fetches of the tool -/
  pages : List (List Mail)

inductive DeskStep where
  /-- whatever else there is of the service -/
  | other (x : ToolStep)
  /-- anything of the plugin's that is no answer -/
  | plugin (l : PluginStep)
  /-- the fetch of the drain is served, or is lost -/
  | serve (fate : Fate)
  | answer
  /-- a fetch of the tool -/
  | serveTool (limit : Json) (fate : Fate)
  | answerTool (i : Nat)

def Desk.start (s : Db) : Desk := ⟨s, .start, none, []⟩

def FetchResult.mail : FetchResult → List Mail
  | .messages ms => ms
  | _ => []

def underway (answer : Option FetchResult) : List Mail := (answer.map FetchResult.mail).getD []

/-- The page that the drain is about to be given. -/
def Desk.underway (w : Desk) : List Mail := Muster.underway w.answer

section
variable [Python] [JsNumbers] (cfg : Config) (srv : Server) (c : Client)

def Desk.step (w : Desk) : DeskStep → Option Desk
  | .other x => some { w with db := (x.run cfg srv w.db).2 }
  | .plugin l =>
    if l.own then (w.plugin.step l).map fun p => { w with plugin := p } else none
  | .serve fate =>
    if w.plugin.point = .fetching ∧ w.answer = none then
      let r := askFetch cfg srv c (.int 20) fate w.db
      some { w with db := r.2, answer := some (drainAnswer r.1) }
    else none
  | .answer =>
    match w.answer with
    | none => none
    | some r => (w.plugin.step (.answer r)).map fun p => { w with plugin := p, answer := none }
  | .serveTool limit fate =>
    let r := askFetch cfg srv c (jsOr limit (.int 20)) fate w.db
    match drainAnswer r.1 with
    | .messages ms => some { w with db := r.2, pages := w.pages ++ [ms] }
    -- the tool says what is wrong
    | _ => some { w with db := r.2 }
  | .answerTool i =>
    match w.pages[i]? with
    | none => none
    | some ms =>
      (w.plugin.step (.shown ms)).map fun p => { w with plugin := p, pages := w.pages.eraseIdx i }

def desk : Machine Desk DeskStep := ⟨Desk.step cfg srv c⟩

end

/-! ## Pages -/

/-- A page off the unread mail, taken at `now`. -/
inductive Taking where
  | drain (page : List Entry) (now : Int)
  | tool (page : List Entry) (now : Int)
  /-- no answer to the plugin has it -/
  | missed (page : List Entry)

namespace Taking

def page : Taking → List Entry
  | .drain page _ => page
  | .tool page _ => page
  | .missed page => page

/-- What the drain is given of it. -/
def drained : Taking → List Mail
  | .drain page now => (unexpired now page).map Mail.of
  | _ => []

/-- What the tool is given of it. -/
def shown : Taking → List Mail
  | .tool page now => (unexpired now page).map Mail.of
  | _ => []

end Taking

theorem Takes.stream {srv : Server} {a : PyStr} {page : List Entry} {s t : Db} (h : Takes srv a page s t) :
    t.stream a = s.stream a := by
  rcases h with ⟨-, rfl⟩ | ⟨n, last, -, -, rfl⟩
  · rfl
  · rw [stream_exec_other srv (by simp [Cmd.writes])]

/-- What a step takes at `w`. -/
inductive TakenBy (a : PyStr) (w : Desk) : DeskStep → Taking → Prop
  | nothing {x : DeskStep} : TakenBy a w x (.missed [])
  | drain {page : List Entry} : TakenBy a w (.serve .answered) (.drain page w.db.sec)
  | tool {limit : Json} {page : List Entry} :
    TakenBy a w (.serveTool limit .answered) (.tool page w.db.sec)
  /-- the answer is lost, but not before the cursor is set -/
  | drainLost {page : List Entry} {name : PyStr} {n : Nat} (hn : 3 ≤ n) :
    TakenBy a w (.serve (.lost name n)) (.missed page)
  | toolLost {limit : Json} {page : List Entry} {name : PyStr} {n : Nat} (hn : 3 ≤ n) :
    TakenBy a w (.serveTool limit (.lost name n)) (.missed page)
  /-- another program of the agent's -/
  | elsewhere {x : ToolStep} {page : List Entry} (hx : x.Fetches a) : TakenBy a w (.other x) (.missed page)
  | evicted {n : Nat} {page : List Entry} : TakenBy a w (.other (.env (.evict a n))) (.missed page)

/-- What arrives in a step, and what it takes. -/
structure Desk.Moves (a : PyStr) (w : Desk) (x : DeskStep) (w' : Desk) (new : List Entry) (t : Taking) :
    Prop where
  arrives : Arrives a w.db w'.db new
  taken : TakenBy a w x t
  page : w.db.unread a ++ new = t.page ++ w'.db.unread a
  whole : (∀ n, x ≠ .other (.env (.evict a n))) → w'.db.inbox a = w.db.inbox a ++ new

/-- The same of a run from `w`, step by step. -/
inductive Takings [Python] [JsNumbers] (cfg : Config) (srv : Server) (c : Client) (a : PyStr) :
    Desk → List DeskStep → List Entry → List Taking → Prop
  | nil {w : Desk} : Takings cfg srv c a w [] [] []
  | cons {w w' : Desk} {x : DeskStep} {new : List Entry} {t : Taking} {xs : List DeskStep}
    {news : List Entry} {ts : List Taking} (hstep : (desk cfg srv c).step w x = some w')
    (ht : Desk.Moves a w x w' new t) (hrest : Takings cfg srv c a w' xs news ts) :
    Takings cfg srv c a w (x :: xs) (new ++ news) (t :: ts)

section
variable {a : PyStr} {w w' : Desk} {x : DeskStep}

theorem Desk.Moves.nothing (h : w'.db = w.db) : Desk.Moves a w x w' [] (.missed []) := by
  refine ⟨.inl ?_, .nothing, ?_, fun _ => ?_⟩ <;> rw [h, List.append_nil]
  rfl

theorem Desk.Moves.of_takes {srv : Server} {t : Taking} (htakes : Takes srv a t.page w.db w'.db)
    (ht : TakenBy a w x t) : Desk.Moves a w x w' [] t := by
  have hinbox : w'.db.inbox a = w.db.inbox a ++ [] := by
    rw [List.append_nil]
    exact congrArg Stream.entries htakes.stream
  refine ⟨.inl hinbox, ht, ?_, fun _ => hinbox⟩
  rw [List.append_nil]
  exact htakes.unread

/-- Where nothing is evicted, the inbox has all that has arrived. -/
theorem Takings.whole [Python] [JsNumbers] {cfg : Config} {srv : Server} {c : Client} {xs : List DeskStep}
    {new : List Entry} {ts : List Taking} (h : Takings cfg srv c a w xs new ts)
    (hrun : xs.foldlM (desk cfg srv c).step w = some w')
    (hno : ∀ n, .other (.env (.evict a n)) ∉ xs) : w'.db.inbox a = w.db.inbox a ++ new := by
  induction h with
  | nil =>
    cases hrun
    exact (List.append_nil _).symm
  | @cons w w₁ x new t xs news ts hstep ht _ ih =>
    rw [List.foldlM_cons, hstep] at hrun
    rw [ih hrun fun n hn => hno n (List.mem_cons_of_mem _ hn), ht.whole ?_, List.append_assoc]
    rintro n rfl
    exact hno n List.mem_cons_self

end

section
variable {taken : List Taking}

theorem sublist_page (t : Taking) : List.Sublist ((t.drained ++ t.shown).map Mail.msgId) (t.page.map (·.id.text)) := by
  have hunexpired : ∀ now page, ((unexpired now page).map Mail.of).map Mail.msgId =
      (unexpired now page).map (·.id.text) := by
    intro now page
    rw [List.map_map]
    rfl
  cases t with
  | drain page now =>
    rw [show (Taking.drain page now).drained ++ (Taking.drain page now).shown =
      (unexpired now page).map Mail.of from List.append_nil _, hunexpired]
    exact List.filter_sublist.map _
  | tool page now =>
    rw [show (Taking.tool page now).drained ++ (Taking.tool page now).shown =
      (unexpired now page).map Mail.of from rfl, hunexpired]
    exact List.filter_sublist.map _
  | missed page => exact List.nil_sublist _

/-- The ids of the mail given differ, where those of the mail taken do. -/
theorem nodup_given (h : (taken.flatMap Taking.page).Pairwise fun e e' => e.id < e'.id) :
    ((taken.flatMap Taking.drained ++ taken.flatMap Taking.shown).map Mail.msgId).Nodup := by
  have hids : ((taken.flatMap Taking.page).map (·.id.text)).Nodup :=
    List.pairwise_map.2 (h.imp fun hlt heq => hlt.ne (StreamId.text_injective heq))
  have hperm := (List.flatMap_append_perm taken Taking.drained Taking.shown).map Mail.msgId
  rw [hperm.nodup_iff]
  rw [List.map_flatMap] at hids ⊢
  refine hids.sublist ?_
  clear h hids hperm
  induction taken with
  | nil => exact List.nil_sublist _
  | cons t taken ih => exact (sublist_page t).append ih

end

/-! ## Runs -/

/-- The mail is accounted for: each page is with the one that it was taken for. -/
structure Accounted (a : PyStr) (s₀ : Db) (w : Desk) (new : List Entry) (taken : List Taking) : Prop where
  kept : w.db.Kept
  cursor : w.db.Permanent (.cursor a)
  bounded : w.db.Bounded a
  sorted : (s₀.inbox a ++ new).Pairwise fun e e' => e.id < e'.id
  below : ∀ e ∈ s₀.inbox a ++ new, e.id ≤ (w.db.stream a).last
  pages : s₀.unread a ++ new = taken.flatMap Taking.page ++ w.db.unread a
  drained : w.plugin.fetched ++ w.underway = taken.flatMap Taking.drained
  shown : (w.plugin.displayed ++ w.pages.flatten).Perm (taken.flatMap Taking.shown)
  exact : w.plugin.Exact
  waiting : w.answer ≠ none → w.plugin.point = .fetching
  listed : w.answer ≠ some .malformed

section
variable {a : PyStr} {s₀ : Db} {w : Desk} {new : List Entry} {taken : List Taking}

theorem flatMap_concat (f : Taking → List Mail) (t : Taking) :
    (taken ++ [t]).flatMap f = taken.flatMap f ++ f t := by
  rw [List.flatMap_append, List.flatMap_singleton]

/-- No id is with the plugin, or on its way to it, twice. -/
theorem Accounted.nodup (h : Accounted a s₀ w new taken) :
    (((w.plugin.fetched ++ w.underway) ++ (w.plugin.displayed ++ w.pages.flatten)).map Mail.msgId).Nodup := by
  rw [((h.shown.append_left _).map Mail.msgId).nodup_iff, h.drained]
  refine nodup_given (List.Pairwise.sublist ?_ h.sorted)
  have hsub : List.Sublist (s₀.unread a ++ new) (s₀.inbox a ++ new) := List.filter_sublist.append_right _
  rw [h.pages] at hsub
  exact (List.sublist_append_left _ _).trans hsub

theorem ids_ne {l l' : List Mail} (h : ((l ++ l').map Mail.msgId).Nodup) {m m' : Mail} (hm : m ∈ l)
    (hm' : m' ∈ l') : m.msgId ≠ m'.msgId := by
  rw [List.map_append, List.nodup_append] at h
  exact h.2.2 _ (List.mem_map_of_mem hm) _ (List.mem_map_of_mem hm')

/-- A step of the plugin, with what it is given off its way. -/
theorem Accounted.moved (h : Accounted a s₀ w new taken) {l : PluginStep} {p : Plugin}
    (hs : plugin.step w.plugin l = some p) {answer : Option FetchResult} {pages : List (List Mail)}
    (hgiven : w.underway = l.given ++ Muster.underway answer)
    (hdisplays : w.pages.flatten.Perm (l.displays ++ pages.flatten)) (hlist : l ≠ .answer .malformed)
    (hwaiting : answer ≠ none → p.point = .fetching) (hlisted : answer ≠ some .malformed) :
    Accounted a s₀ ⟨w.db, p, answer, pages⟩ new taken := by
  obtain ⟨hfetched, hdisplayed⟩ := Plugin.given_of_step hs
  have hnodup := h.nodup
  refine ⟨h.kept, h.cursor, h.bounded, h.sorted, h.below, h.pages, ?_, ?_, ?_, hwaiting, hlisted⟩
  · show p.fetched ++ Muster.underway answer = _
    rw [hfetched, List.append_assoc, ← hgiven]
    exact h.drained
  · show (p.displayed ++ pages.flatten).Perm _
    rw [hdisplayed, List.append_assoc]
    exact (hdisplays.symm.append_left _).trans h.shown
  · refine h.exact.step ?_ hlist ?_ ?_ hs
    · rw [List.map_append, List.map_append] at hnodup
      exact hnodup.of_append_left.of_append_left
    · rintro ms rfl m hm hseen
      have hunder : m ∈ w.underway := by
        rw [hgiven]
        exact List.mem_append_left _ hm
      obtain ⟨m', hm', hid⟩ := h.exact.seen _ hseen
      rcases List.mem_append.1 hm' with hm' | hm'
      · have hmem : m' ∈ w.plugin.fetched := by
          rw [← h.exact.held]
          exact List.mem_append_left _ hm'
        rw [List.map_append] at hnodup
        exact ids_ne hnodup.of_append_left hmem hunder hid
      · exact ids_ne hnodup (List.mem_append_right _ hunder) (List.mem_append_left _ hm') hid.symm
    · rintro ms rfl m hm m' hm'
      have hpage : m ∈ w.pages.flatten := hdisplays.symm.subset (List.mem_append_left _ hm)
      exact (ids_ne hnodup (List.mem_append_left _ hm') (List.mem_append_right _ hpage)).symm

variable {srv : Server} {s : Db}

theorem Takes.permanent {page : List Entry} {t : Db} (h : Takes srv a page s t) {k : Key}
    (hk : k.lasting = true) (hs : s.Permanent k) : t.Permanent k := by
  rcases h with ⟨-, rfl⟩ | ⟨n, last, -, -, rfl⟩
  · exact hs
  · exact hs.exec hk srv nofun

/-- A page is taken for the plugin. -/
theorem Accounted.takes (h : Accounted a s₀ w new taken) {t : Taking} (htakes : Takes srv a t.page w.db s)
    {answer : Option FetchResult} {pages : List (List Mail)}
    (hunderway : Muster.underway answer = w.underway ++ t.drained)
    (hpages : pages.flatten = w.pages.flatten ++ t.shown)
    (hwaiting : answer ≠ none → w.plugin.point = .fetching) (hlisted : answer ≠ some .malformed) :
    Accounted a s₀ ⟨s, w.plugin, answer, pages⟩ (new ++ []) (taken ++ [t]) := by
  rw [List.append_nil]
  refine ⟨fun b => htakes.permanent rfl (h.kept b), htakes.permanent rfl h.cursor,
    htakes.bounded h.bounded, h.sorted, ?_, ?_, ?_, ?_, h.exact, hwaiting, hlisted⟩
  · rw [htakes.stream]
    exact h.below
  · rw [h.pages, htakes.unread, List.flatMap_append, List.flatMap_singleton, List.append_assoc]
  · show w.plugin.fetched ++ Muster.underway answer = _
    rw [hunderway, ← List.append_assoc, h.drained, flatMap_concat]
  · show (w.plugin.displayed ++ pages.flatten).Perm _
    rw [hpages, ← List.append_assoc, flatMap_concat]
    exact h.shown.append_right _

/-- Nothing is taken. -/
theorem Accounted.nothing (h : Accounted a s₀ w new taken) :
    Accounted a s₀ w (new ++ []) (taken ++ [.missed []]) := by
  rw [List.append_nil]
  refine ⟨h.kept, h.cursor, h.bounded, h.sorted, h.below, ?_, ?_, ?_, h.exact, h.waiting, h.listed⟩
  · rw [List.flatMap_append, List.flatMap_singleton, show Taking.page (.missed []) = [] from rfl,
      List.append_nil]
    exact h.pages
  · rw [flatMap_concat]
    exact h.drained.trans (List.append_nil _).symm
  · rw [flatMap_concat, show Taking.shown (.missed []) = [] from rfl, List.append_nil]
    exact h.shown

/-- A page is fetched, or evicted. -/
theorem StepPage.takenBy {x : ToolStep} {text : Option PyStr} {page : List Entry}
    (h : StepPage a w.db x text page) : TakenBy a w (.other x) (.missed page) := by
  cases h with
  | idle => exact .nothing
  | shown ha => exact .elsewhere (.inl ⟨_, _, _, rfl, ha⟩)
  | unseen hx =>
    cases hx with
    | lost ha => exact .elsewhere (.inl ⟨_, _, _, rfl, ha⟩)
    | elsewhere hop => exact .elsewhere (.inr ⟨_, rfl, hop⟩)
  | evicted => exact .evicted

section
variable [Python] [JsNumbers] {cfg : Config} {c : Client} {w' : Desk}

omit [JsNumbers] in
/-- What else the service does. -/
theorem Accounted.other (h : Accounted a s₀ w new taken) {x : ToolStep} (hx : x.Sound cfg) :
    ∃ more t, Desk.Moves a w (.other x) { w with db := (x.run cfg srv w.db).2 } more t ∧
      Accounted a s₀ { w with db := (x.run cfg srv w.db).2 } (new ++ more) (taken ++ [t]) := by
  obtain ⟨more, page, hpage, harrives, hordered, hwhole, hunread, hbounded⟩ :=
    step_page srv hx h.kept h.cursor h.bounded
  refine ⟨more, .missed page, ⟨harrives, hpage.takenBy, hunread, fun hno => hwhole ?_⟩,
    fun b => x.run_permanent rfl (h.kept b), x.run_permanent rfl h.cursor, hbounded, ?_, ?_, ?_, ?_, ?_,
    h.exact, h.waiting, h.listed⟩
  · rintro n rfl
    exact hno n rfl
  · rw [← List.append_assoc, List.pairwise_append]
    exact ⟨h.sorted, hordered.sorted, fun e he e' he' => (h.below e he).trans_lt (hordered.fresh e' he').1⟩
  · intro e he
    rw [← List.append_assoc] at he
    rcases List.mem_append.1 he with he | he
    · exact (h.below e he).trans hordered.last
    · exact (hordered.fresh e he).2
  · rw [← List.append_assoc, h.pages, List.append_assoc, hunread, List.flatMap_append,
      List.flatMap_singleton, List.append_assoc]
    rfl
  · rw [flatMap_concat]
    exact h.drained.trans (List.append_nil _).symm
  · rw [flatMap_concat, show Taking.shown (.missed page) = [] from rfl, List.append_nil]
    exact h.shown

/-- **One step**. -/
theorem Accounted.step (h : Accounted a s₀ w new taken) (hc : c.Is a) {x : DeskStep}
    (hx : ∀ y, x = .other y → y.Sound cfg) (hs : (desk cfg srv c).step w x = some w') :
    ∃ more t, Desk.Moves a w x w' more t ∧ Accounted a s₀ w' (new ++ more) (taken ++ [t]) := by
  simp only [desk] at hs
  cases x with
  | other x =>
    cases hs
    exact h.other (hx x rfl)
  | plugin l =>
    simp only [Desk.step] at hs
    split at hs
    · next hown =>
      obtain ⟨p, hp, rfl⟩ := Option.map_eq_some_iff.1 hs
      have hgiven : l.given = [] ∧ l.displays = [] := by
        cases l with
        | answer | shown => cases hown
        | _ => exact ⟨rfl, rfl⟩
      refine ⟨[], _, .nothing rfl, Accounted.nothing (h.moved hp ?_ ?_ ?_ ?_ h.listed)⟩
      · rw [hgiven.1]
        rfl
      · rw [hgiven.2]
        exact .refl _
      · rintro rfl
        cases hown
      · refine fun hne => h.exact.waits ?_ (h.waiting hne) hp
        rintro r rfl
        cases hown
    · cases hs
  | serve fate =>
    simp only [Desk.step] at hs
    split at hs
    · next hpoint =>
      cases hs
      obtain ⟨hfetching, hnone⟩ := hpoint
      have hunder : w.underway = [] := by
        unfold Desk.underway
        rw [hnone]
        rfl
      obtain ⟨page, htakes, ⟨rfl, hanswer⟩ | ⟨hanswer, hlost⟩⟩ :=
        askFetch_outcome cfg srv hc (.int 20) fate w.db
      · refine ⟨[], .drain page w.db.sec, .of_takes htakes .drain, h.takes htakes ?_ ?_ (fun _ => hfetching) ?_⟩
        · rw [hanswer, hunder]
          rfl
        · exact (List.append_nil _).symm
        · rw [hanswer]
          nofun
      · refine ⟨[], .missed page, .of_takes htakes ?_, h.takes htakes ?_ ?_ (fun _ => hfetching) ?_⟩
        · rcases hlost with rfl | ⟨name, n, rfl, hn⟩
          · exact .nothing
          · exact .drainLost hn
        · rw [hanswer, hunder]
          rfl
        · exact (List.append_nil _).symm
        · rw [hanswer]
          nofun
    · cases hs
  | answer =>
    simp only [Desk.step] at hs
    split at hs
    · cases hs
    · next r hr =>
      obtain ⟨p, hp, rfl⟩ := Option.map_eq_some_iff.1 hs
      replace hp : plugin.step w.plugin (.answer r) = some p := hp
      refine ⟨[], _, .nothing rfl, Accounted.nothing (h.moved hp ?_ (.refl _) ?_ ?_ nofun)⟩
      · unfold Desk.underway
        rw [hr]
        cases r with
        | messages ms => exact (List.append_nil ms).symm
        | failed | malformed => rfl
      · rintro heq
        cases heq
        exact h.listed hr
      · exact fun hne => absurd rfl hne
  | serveTool limit fate =>
    simp only [Desk.step] at hs
    obtain ⟨page, htakes, ⟨rfl, hanswer⟩ | ⟨hanswer, hlost⟩⟩ :=
      askFetch_outcome cfg srv hc (jsOr limit (.int 20)) fate w.db
    · rw [hanswer] at hs
      cases hs
      refine ⟨[], .tool page w.db.sec, .of_takes htakes .tool, h.takes htakes ?_ ?_ h.waiting h.listed⟩
      · exact (List.append_nil _).symm
      · rw [List.flatten_append, List.flatten_singleton]
        rfl
    · rw [hanswer] at hs
      cases hs
      refine ⟨[], .missed page, .of_takes htakes ?_, h.takes htakes ?_ ?_ h.waiting h.listed⟩
      · rcases hlost with rfl | ⟨name, n, rfl, hn⟩
        · exact .nothing
        · exact .toolLost hn
      · exact (List.append_nil _).symm
      · exact (List.append_nil _).symm
  | answerTool i =>
    simp only [Desk.step] at hs
    split at hs
    · cases hs
    · next ms hms =>
      obtain ⟨p, hp, rfl⟩ := Option.map_eq_some_iff.1 hs
      obtain ⟨hi, rfl⟩ := List.getElem?_eq_some_iff.1 hms
      replace hp : plugin.step w.plugin (.shown w.pages[i]) = some p := hp
      refine ⟨[], _, .nothing rfl, Accounted.nothing (h.moved hp rfl ?_ nofun ?_ h.listed)⟩
      · exact (List.getElem_cons_eraseIdx_perm hi).symm.flatten
      · intro hne
        refine h.exact.waits ?_ (h.waiting hne) hp
        rintro r ⟨⟩

theorem Accounted.run (h : Accounted a s₀ w new taken) (hc : c.Is a) {steps : List DeskStep}
    (hsound : ∀ y, .other y ∈ steps → y.Sound cfg) (hrun : steps.foldlM (desk cfg srv c).step w = some w') :
    ∃ more ts, Takings cfg srv c a w steps more ts ∧ Accounted a s₀ w' (new ++ more) (taken ++ ts) := by
  induction steps generalizing w new taken with
  | nil =>
    cases hrun
    exact ⟨[], [], .nil, by rwa [List.append_nil, List.append_nil]⟩
  | cons x steps ih =>
    obtain ⟨w₁, hx, hrest⟩ := Option.bind_eq_some_iff.1 (List.foldlM_cons.symm.trans hrun)
    obtain ⟨more, t, ht, h₁⟩ := h.step hc (fun y hy => hsound y (hy ▸ List.mem_cons_self)) hx
    obtain ⟨mores, ts, hts, h'⟩ := ih h₁ (fun y hy => hsound y (List.mem_cons_of_mem _ hy)) hrest
    rw [List.append_assoc, List.append_assoc] at h'
    exact ⟨more ++ mores, t :: ts, .cons hx ht hts, h'⟩

end

/-- Before the first step. -/
theorem Accounted.start {s : Db} (hkept : s.Kept) (hcur : s.Permanent (.cursor a)) (hb : s.Bounded a) :
    Accounted a s (Desk.start s) [] [] := by
  refine ⟨hkept, hcur, hb, ?_, ?_, List.append_nil _, rfl, .nil,
    ⟨rfl, by simp [Plugin.inFlight, Plugin.start, Desk.start], nofun, fun _ => rfl, fun _ => rfl⟩,
    fun hne => absurd rfl hne, nofun⟩
  · rw [List.append_nil]
    exact (s.stream a).sorted
  · rw [List.append_nil]
    exact (s.stream a).le_last

end

/-- **Mail reaches the session**: what was unread and what has arrived is in the page of one fetch, or
is evicted, or is still unread.  The pages of the drains have been woken, or are to be; those of the
tool have been displayed, or are on their way.  Both have each message of their pages that has not
expired when it is fetched, once. -/
theorem mail_reaches_session [Python] [JsNumbers] (cfg : Config) (srv : Server) {c : Client} {a : PyStr}
    (hc : c.Is a) {s : Db} (hkept : s.Kept) (hcur : s.Permanent (.cursor a)) (hb : s.Bounded a)
    {steps : List DeskStep} {w : Desk} (hsound : ∀ y, .other y ∈ steps → y.Sound cfg)
    (hrun : steps.foldlM (desk cfg srv c).step (Desk.start s) = some w) :
    ∃ new taken, Takings cfg srv c a (Desk.start s) steps new taken ∧
      s.unread a ++ new = taken.flatMap Taking.page ++ w.db.unread a ∧
      w.plugin.woken ++ (w.plugin.inFlight ++ w.plugin.pendingWakes) ++ w.underway =
        taken.flatMap Taking.drained ∧
      (w.plugin.displayed ++ w.pages.flatten).Perm (taken.flatMap Taking.shown) ∧
      ((∀ n, .other (.env (.evict a n)) ∉ steps) → w.db.inbox a = s.inbox a ++ new) := by
  obtain ⟨new, taken, htaken, h⟩ := (Accounted.start hkept hcur hb).run hc hsound hrun
  refine ⟨new, taken, htaken, h.pages, ?_, h.shown, htaken.whole hrun⟩
  have hheld := h.exact.held
  rw [Plugin.held] at hheld
  rw [hheld]
  exact h.drained

/-- Two messages: a drain wakes the session with one, the tool displays the other. -/
def deskSteps : List DeskStep :=
  [.other (.chat devClient busyArgs .answered), .plugin (.session (lit "s")), .serve .answered, .answer,
    .plugin .turn, .plugin (.wakeEnd true), .plugin .turn, .other (.chat devClient busyArgs .answered),
    .serveTool .null .answered, .answerTool 0]

theorem mail_reaches_session_both :
    let _ : Python := Python.plain
    let _ : JsNumbers := JsNumbers.plain
    let a := busyTarget.text
    ∃ w, deskSteps.foldlM (desk devConfig .plain readClient).step (Desk.start busyStore) = some w ∧
      ∃ new taken, Takings devConfig .plain readClient a (Desk.start busyStore) deskSteps new taken ∧
        busyStore.unread a ++ new = taken.flatMap Taking.page ++ w.db.unread a ∧
        w.plugin.woken ++ (w.plugin.inFlight ++ w.plugin.pendingWakes) ++ w.underway =
          taken.flatMap Taking.drained ∧
        (w.plugin.displayed ++ w.pages.flatten).Perm (taken.flatMap Taking.shown) ∧
        ((∀ n, .other (.env (.evict a n)) ∉ deskSteps) → w.db.inbox a = busyStore.inbox a ++ new) := by
  intro _ _ a
  have hsome : (deskSteps.foldlM (desk devConfig .plain readClient).step (Desk.start busyStore)).isSome = true := by
    decide +kernel
  obtain ⟨w, hw⟩ := Option.isSome_iff_exists.1 hsome
  obtain ⟨hcur, hb⟩ := busyStore_cursor a
  have hclient : readClient.Is a := ⟨_, busyTarget, rfl, by decide, rfl⟩
  refine ⟨w, hw, mail_reaches_session devConfig .plain hclient busyStore_kept hcur hb ?_ hw⟩
  intro y hy
  simp only [deskSteps, List.mem_cons, List.not_mem_nil, DeskStep.other.injEq, reduceCtorEq, false_or,
    or_false] at hy
  rcases hy with rfl | rfl
  · exact devClient_resolves
  · exact devClient_resolves

end Muster
