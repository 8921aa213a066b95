import Muster.SessionMail

/-!
# How far one drain goes

The first event or session hook after a while starts a drain.  Left to itself, with its fetches
answered and its wakes succeeding, it comes to an end: after the first page that gives it fewer
than 20 messages.  Until then it has woken the session with what was pending and then, in order,
with everything unexpired of its pages (`one_drain_ends`).  So where nothing has expired one
trigger leaves nothing unread.
-/

namespace Muster

/-- What the drain in flight does next, when all goes well. -/
def Desk.drainStep (w : Desk) : Option DeskStep :=
  match w.plugin.point with
  | .idle => none
  | .fetching => if w.answer = none then some (.serve .answered) else some .answer
  | .looping _ _ => some (.plugin .turn)
  | .waking _ _ _ => some (.plugin (.wakeEnd true))

/-- A call of `drainInbox` with a session: a nudge, or the first session. -/
inductive Trigger (s : Plugin) : PluginStep → Prop
  | nudge {name : PyStr} {ev : Json} (hdrains : Plugin.drains name ev = true) (hsession : s.sessionId ≠ none) :
    Trigger s (.event name ev)
  | first {sid : PyStr} (hsid : sid ≠ []) (hsession : s.sessionId = none) : Trigger s (.session sid)

/-- The `k`-th page of twenty, from 0. -/
def pageAt (es : List Entry) (k : Nat) : List Entry := (es.drop (20 * k)).take 20

/-- What a drain has done at its end, which is after page `k`. -/
structure Drained (a : PyStr) (w w' : Desk) (k : Nat) : Prop where
  idle : w'.plugin.relaying = false ∧ w'.plugin.point = .idle
  pending : w'.plugin.pendingWakes = []
  unread : w'.db.unread a = (w.db.unread a).drop (20 * (k + 1))
  full : ∀ j < k, (unexpired w.db.sec (pageAt (w.db.unread a) j)).length = 20
  short : (unexpired w.db.sec (pageAt (w.db.unread a) k)).length < 20
  woken : w'.plugin.woken = w.plugin.woken ++
    (w.plugin.pendingWakes ++ (unexpired w.db.sec ((w.db.unread a).take (20 * (k + 1)))).map Mail.of)

theorem unexpired_append (now : Int) (es es' : List Entry) :
    unexpired now (es ++ es') = unexpired now es ++ unexpired now es' := List.filter_append es es'

theorem length_page_le (now : Int) (es : List Entry) : (unexpired now (es.take 20)).length ≤ 20 :=
  (List.length_filter_le _ _).trans ((List.length_take_le _ _).trans (le_refl _))

/-! ## The fetch of a drain -/

section
variable [Python] [JsNumbers] {cfg : Config} {srv : Server} {c : Client} {a : PyStr}

theorem askFetch_page (hc : c.Is a) (s : Db) :
    drainAnswer (askFetch cfg srv c (.int 20) .answered s).1 =
      .messages ((unexpired s.sec ((s.unread a).take 20)).map Mail.of) ∧
    (askFetch cfg srv c (.int 20) .answered s).2.unread a = (s.unread a).drop 20 ∧
    (askFetch cfg srv c (.int 20) .answered s).2.sec = s.sec := by
  obtain ⟨ident, sender, hident, hsender, rfl⟩ := hc
  have hroute : rpcRoute cfg ident c.header (some (fetchPayload (.int 20))) =
      opFetch sender (dict [("limit", .int 20)]) := by
    unfold fetchPayload
    rw [rpcRoute_client, rpc, hsender]
    dsimp only
    unfold dispatch
    rw [if_neg (by decide), if_pos rfl]
  have hlimit : pyInt ((Json.get (dict [("limit", .int 20)]) "limit").or (.int 20)) = .ok 20 := by
    rw [get_dict_cons, if_pos rfl]
    rfl
  obtain ⟨hpage, hunread⟩ := fetchUnread_spec srv s sender.text (show (1 : Int) ≤ 20 by decide)
  have hnow := run_now srv (fetchUnread sender.text 20) s
  unfold askFetch serve
  rw [hident]
  dsimp only
  rw [hroute, opFetch_run_eq, hlimit]
  dsimp only
  rw [show min (20 : Int) 100 = 20 from rfl, hpage]
  refine ⟨drainAnswer_fetch _, hunread, ?_⟩
  unfold Db.sec
  rw [hnow]

/-! ## Steps -/

/-- Every drain of the run is accounted for. -/
def Desk.Ok (a : PyStr) (w : Desk) : Prop := ∃ s₀ new taken, Accounted a s₀ w new taken

theorem Desk.Ok.chosen {w w' : Desk} (h : w.Ok a) (hc : c.Is a)
    (hs : (desk cfg srv c).Chosen Desk.drainStep w w') : w'.Ok a := by
  obtain ⟨s₀, new, taken, hacc⟩ := h
  obtain ⟨l, hl, hs⟩ := hs
  have hown : ∀ y, l ≠ .other y := by
    rintro y rfl
    unfold Desk.drainStep at hl
    split at hl
    · cases hl
    · split at hl <;> cases hl
    · cases hl
    · cases hl
  obtain ⟨more, t, -, hnext⟩ := hacc.step hc (fun y hy => absurd hy (hown y)) hs
  exact ⟨s₀, _, _, hnext⟩

/-- The wakes of a queue. -/
theorem goes_wakes (hc : c.Is a) {queue : List Mail} {fetched : Nat} {w : Desk} (hok : w.Ok a)
    (hp : w.plugin.point = .looping queue fetched) :
    ∃ seen, (desk cfg srv c).Goes Desk.drainStep w { w with plugin := { w.plugin with
      seen := seen
      point := .looping [] fetched
      hist := w.plugin.hist ++ queue.map .woke } } := by
  induction queue generalizing w with
  | nil =>
    refine ⟨w.plugin.seen, ?_⟩
    rw [List.map_nil, List.append_nil, ← hp]
  | cons m queue ih =>
    obtain ⟨s₀, new, taken, hacc⟩ := id hok
    have hunseen : m.msgId ∉ w.plugin.seen := by
      refine hacc.exact.unseen m ?_
      rw [inFlight_of_point hp]
      exact List.mem_append_left _ List.mem_cons_self
    -- the loop takes the message, and the session is woken
    let w₁ : Desk := { w with plugin := { w.plugin with point := .waking m queue fetched } }
    have h₁ : (desk cfg srv c).Chosen Desk.drainStep w w₁ := by
      refine ⟨.plugin .turn, ?_, ?_⟩
      · unfold Desk.drainStep
        rw [hp]
      · show Desk.step cfg srv c w (.plugin .turn) = some w₁
        simp [Desk.step, PluginStep.own, Plugin.step, hp, Plugin.turn, hunseen, w₁]
    let w₂ : Desk := { w with plugin := { w.plugin with
      seen := m.remember w.plugin.seen
      point := .looping queue fetched
      hist := w.plugin.hist ++ [.woke m] } }
    have h₂ : (desk cfg srv c).Chosen Desk.drainStep w₁ w₂ := ⟨.plugin (.wakeEnd true), rfl, rfl⟩
    obtain ⟨seen, hrest⟩ := ih ((hok.chosen hc h₁).chosen hc h₂) rfl
    refine ⟨seen, .head h₁ (.head h₂ ?_)⟩
    have hhist : w.plugin.hist ++ [.woke m] ++ queue.map .woke = w.plugin.hist ++ (m :: queue).map .woke := by
      rw [List.append_assoc]
      rfl
    rw [← hhist]
    exact hrest

/-- A fetch, its answer and the wakes: one page. -/
theorem goes_page (hc : c.Is a) {w : Desk} (hok : w.Ok a) (hp : w.plugin.point = .fetching)
    (hanswer : w.answer = none) : ∃ w', (desk cfg srv c).Goes Desk.drainStep w w' ∧
      w'.plugin.point = .looping [] (unexpired w.db.sec ((w.db.unread a).take 20)).length ∧
      w'.answer = none ∧ w'.plugin.again = w.plugin.again ∧ w'.plugin.disposed = w.plugin.disposed ∧
      w'.plugin.pendingWakes = [] ∧ w'.db.unread a = (w.db.unread a).drop 20 ∧ w'.db.sec = w.db.sec ∧
      w'.plugin.woken = w.plugin.woken ++
        (w.plugin.pendingWakes ++ (unexpired w.db.sec ((w.db.unread a).take 20)).map Mail.of) := by
  obtain ⟨hmessages, hunread, hsec⟩ := @askFetch_page _ _ cfg srv c a hc w.db
  generalize hms : (unexpired w.db.sec ((w.db.unread a).take 20)).map Mail.of = ms at hmessages
  let w₁ : Desk := { w with
    db := (askFetch cfg srv c (.int 20) .answered w.db).2
    answer := some (.messages ms) }
  have h₁ : (desk cfg srv c).Chosen Desk.drainStep w w₁ := by
    refine ⟨.serve .answered, ?_, ?_⟩
    · unfold Desk.drainStep
      rw [hp]
      exact if_pos hanswer
    · show Desk.step cfg srv c w (.serve .answered) = some w₁
      simp only [Desk.step, hp, hanswer, and_self, if_true, hmessages, w₁]
  let w₂ : Desk := { w₁ with
    plugin := { w.plugin with
      pendingWakes := []
      point := .looping (w.plugin.pendingWakes ++ ms) ms.length
      hist := w.plugin.hist ++ [.fetched ms] }
    answer := none }
  have h₂ : (desk cfg srv c).Chosen Desk.drainStep w₁ w₂ := by
    refine ⟨.answer, ?_, ?_⟩
    · show Desk.drainStep w₁ = some .answer
      unfold Desk.drainStep
      rw [show w₁.plugin.point = .fetching from hp]
      rfl
    · show Desk.step cfg srv c w₁ .answer = some w₂
      simp [Desk.step, w₁, w₂, Plugin.step, hp, Plugin.answer]
  obtain ⟨seen, h₃⟩ := goes_wakes hc ((hok.chosen hc h₁).chosen hc h₂) (rfl : w₂.plugin.point = _)
  refine ⟨_, .head h₁ (.head h₂ h₃), ?_, rfl, rfl, rfl, rfl, hunread, hsec, ?_⟩
  · rw [← hms, List.length_map]
  · have hwakes : ∀ queue : List Mail, (queue.map DrainEvent.woke).flatMap DrainEvent.wakes = queue := by
      intro queue
      induction queue with
      | nil => rfl
      | cons m queue ih =>
        rw [List.map_cons, List.flatMap_cons, ih]
        rfl
    show (w.plugin.hist ++ [DrainEvent.fetched ms] ++ (w.plugin.pendingWakes ++ ms).map DrainEvent.woke).flatMap
      DrainEvent.wakes = _
    rw [List.flatMap_append, List.flatMap_append, hwakes, List.flatMap_singleton]
    show w.plugin.woken ++ [] ++ (w.plugin.pendingWakes ++ ms) = _
    rw [List.append_nil]

/-! ## To the end -/

/-- **A drain that waits for its page** comes to its end. -/
theorem goes_end (hc : c.Is a) {w : Desk} (hok : w.Ok a) (hp : w.plugin.point = .fetching)
    (hanswer : w.answer = none) (hagain : w.plugin.again = false) (hlive : w.plugin.disposed = false) :
    ∃ k w', (desk cfg srv c).Goes Desk.drainStep w w' ∧ Drained a w w' k := by
  -- each full page leaves less unread
  induction hn : (w.db.unread a).length using Nat.strong_induction_on generalizing w with
  | h n ih =>
    subst hn
    obtain ⟨w₁, h₁, hpoint, hanswer₁, hagain₁, hlive₁, hpending, hunread, hsec, hwoken⟩ :=
      @goes_page _ _ cfg srv c a hc w hok hp hanswer
    have hok₁ : w₁.Ok a := by
      clear hwoken hunread hsec hpending hlive₁ hagain₁ hanswer₁ hpoint
      induction h₁ with
      | refl => exact hok
      | tail _ hs ihok => exact ihok.chosen hc hs
    by_cases hfull : (unexpired w.db.sec ((w.db.unread a).take 20)).length = 20
    · -- there may be another page
      let w₂ : Desk := { w₁ with plugin := { w₁.plugin with again := true }.fetch }
      have h₂ : (desk cfg srv c).Chosen Desk.drainStep w₁ w₂ := by
        refine ⟨.plugin .turn, ?_, ?_⟩
        · unfold Desk.drainStep
          rw [hpoint]
        · show Desk.step cfg srv c w₁ (.plugin .turn) = some w₂
          simp [Desk.step, PluginStep.own, Plugin.step, hpoint, Plugin.turn, hfull, hlive₁, hlive, w₂]
      have hlen : (w₂.db.unread a).length < (w.db.unread a).length := by
        have htwenty : 20 ≤ (w.db.unread a).length := by
          have hle : (unexpired w.db.sec ((w.db.unread a).take 20)).length ≤ (w.db.unread a).length :=
            (List.length_filter_le _ _).trans (List.length_take_le' _ _)
          omega
        show (w₁.db.unread a).length < _
        rw [hunread, List.length_drop]
        omega
      obtain ⟨k, w', hgoes, hdrained⟩ := ih _ hlen (hok₁.chosen hc h₂) rfl hanswer₁ rfl
        (show w₁.plugin.disposed = false from hlive₁.trans hlive) rfl
      have hunread₂ : w₂.db.unread a = (w.db.unread a).drop 20 := hunread
      have hsec₂ : w₂.db.sec = w.db.sec := hsec
      have hpage : ∀ j, pageAt (w₂.db.unread a) j = pageAt (w.db.unread a) (j + 1) := by
        intro j
        rw [pageAt, pageAt, hunread₂, List.drop_drop, Nat.mul_add, Nat.add_comm]
      refine ⟨k + 1, w', h₁.trans (.head h₂ hgoes), hdrained.idle, hdrained.pending, ?_, ?_, ?_, ?_⟩
      · rw [hdrained.unread, hunread₂, List.drop_drop]
        congr 1
        omega
      · intro j hj
        cases j with
        | zero => exact hfull
        | succ j =>
          rw [← hpage, ← hsec₂]
          exact hdrained.full j (by omega)
      · rw [← hpage, ← hsec₂]
        exact hdrained.short
      · have hwoken₂ : w₂.plugin.woken = w₁.plugin.woken := by
          rw [Plugin.woken_of_hist (s := w₁.plugin) (e := .asked) rfl]
          exact List.append_nil _
        have hpending₂ : w₂.plugin.pendingWakes = [] := hpending
        rw [hdrained.woken, hwoken₂, hwoken, hpending₂, hunread₂, hsec₂, List.nil_append, List.append_assoc,
          List.append_assoc, ← List.map_append, ← unexpired_append, ← List.take_add]
        congr 5
        omega
    · let w₂ : Desk := { w₁ with plugin := { w₁.plugin with again := false }.leave }
      have hshort : ((unexpired w.db.sec ((w.db.unread a).take 20)).length == 20) = false :=
        beq_eq_false_iff_ne.2 hfull
      have h₂ : (desk cfg srv c).Chosen Desk.drainStep w₁ w₂ := by
        refine ⟨.plugin .turn, ?_, ?_⟩
        · unfold Desk.drainStep
          rw [hpoint]
        · show Desk.step cfg srv c w₁ (.plugin .turn) = some w₂
          simp [Desk.step, PluginStep.own, Plugin.step, hpoint, Plugin.turn, hshort, hagain₁, hagain, w₂]
      refine ⟨0, w₂, h₁.tail h₂, ⟨rfl, rfl⟩, hpending, hunread, ?_, ?_, hwoken⟩
      · intro j hj
        omega
      · exact lt_of_le_of_ne (length_page_le _ _) hfull

omit [Python] [JsNumbers] in
/-- What starts a drain. -/
theorem Trigger.starts {s : Plugin} {l : PluginStep} (h : Trigger s l) (hrel : s.relaying = false)
    (hp : s.point = .idle) : l.own = true ∧
    ∃ sid, s.step l = some { s with sessionId := sid, relaying := true }.fetch := by
  cases h with
  | @nudge name ev hdrains hsession =>
    refine ⟨rfl, s.sessionId, ?_⟩
    simp [Plugin.step, hp, Point.waits, hdrains, Plugin.drainInbox, hsession, hrel]
  | @first sid hsid hsession =>
    refine ⟨rfl, some sid, ?_⟩
    simp [Plugin.step, hp, Point.waits, Plugin.learn, hsid, hsession, Plugin.drainInbox, hrel]

/-- **How far one drain goes.**  At any point of a run where there is no drain, one trigger starts one
that, left to itself, ends after the first page with fewer than 20 unexpired messages; it has woken
the session with what was pending, then with each unexpired message of its pages, in order.  If
nothing unread has expired, nothing is left unread. -/
theorem one_drain_ends (cfg : Config) (srv : Server) (hc : c.Is a) {s : Db} (hkept : s.Kept)
    (hcur : s.Permanent (.cursor a)) (hb : s.Bounded a) {steps : List DeskStep} {w : Desk}
    (hsound : ∀ y, .other y ∈ steps → y.Sound cfg)
    (hrun : steps.foldlM (desk cfg srv c).step (Desk.start s) = some w) (hrel : w.plugin.relaying = false)
    (hlive : w.plugin.disposed = false) {l : PluginStep} (htrigger : Trigger w.plugin l) :
    ∃ w₁ k w', (desk cfg srv c).step w (.plugin l) = some w₁ ∧ Drained a w w' k ∧
      (∀ w₂, (desk cfg srv c).Goes Desk.drainStep w₁ w₂ → (desk cfg srv c).Goes Desk.drainStep w₂ w') ∧
      ((∀ e ∈ w.db.unread a, w.db.sec < e.expiresAt) → w'.db.unread a = []) := by
  obtain ⟨new, taken, -, hacc⟩ := (Accounted.start hkept hcur hb).run hc hsound hrun
  have hidle := hacc.exact.busy hrel
  have hanswer : w.answer = none := by
    by_contra hne
    cases hidle.symm.trans (hacc.waiting hne)
  obtain ⟨hown, sid, hstep⟩ := htrigger.starts hrel hidle
  let w₁ : Desk := { w with plugin := { w.plugin with sessionId := sid, relaying := true }.fetch }
  have h₁ : (desk cfg srv c).step w (.plugin l) = some w₁ := by
    show Desk.step cfg srv c w (.plugin l) = some w₁
    simp only [Desk.step, hown, if_true, hstep, Option.map_some, w₁]
  have hok : w₁.Ok a := by
    obtain ⟨more, t, -, hnext⟩ := hacc.step hc (fun y hy => by cases hy) h₁
    exact ⟨s, _, _, hnext⟩
  obtain ⟨k, w', hgoes, hdrained⟩ := @goes_end _ _ cfg srv c a hc w₁ hok rfl hanswer rfl hlive
  have hwoken : w₁.plugin.woken = w.plugin.woken := by
    rw [Plugin.woken_of_hist (s := w.plugin) (e := .asked) rfl]
    exact List.append_nil _
  have hall : Drained a w w' k := by
    refine ⟨hdrained.idle, hdrained.pending, hdrained.unread, hdrained.full, hdrained.short, ?_⟩
    rw [hdrained.woken, hwoken]
    rfl
  refine ⟨w₁, k, w', h₁, hall, fun w₂ h₂ => hgoes.stops ?_ h₂, fun hfresh => ?_⟩
  · unfold Desk.drainStep
    rw [hall.idle.2]
  · have hpage : unexpired w.db.sec (pageAt (w.db.unread a) k) = pageAt (w.db.unread a) k := by
      refine List.filter_eq_self.2 fun e he => decide_eq_true (hfresh e ?_)
      exact List.mem_of_mem_drop (List.mem_of_mem_take he)
    have hshort := hall.short
    rw [hpage, pageAt, List.length_take, List.length_drop] at hshort
    rw [hall.unread]
    refine List.drop_eq_nil_of_le ?_
    omega

end

/-- A message comes, and then the first session. -/
theorem one_drain_ends_first :
    let _ : Python := Python.plain
    let _ : JsNumbers := JsNumbers.plain
    let a := busyTarget.text
    let w : Desk := { Desk.start busyStore with
      db := (ToolStep.run devConfig .plain (.chat devClient busyArgs .answered) busyStore).2 }
    ∃ w₁ k w', (desk devConfig .plain readClient).step w (.plugin (.session (lit "s"))) = some w₁ ∧
      Drained a w w' k ∧
      (∀ w₂, (desk devConfig .plain readClient).Goes Desk.drainStep w₁ w₂ →
        (desk devConfig .plain readClient).Goes Desk.drainStep w₂ w') ∧
      ((∀ e ∈ w.db.unread a, w.db.sec < e.expiresAt) → w'.db.unread a = []) := by
  intro _ _ a w
  obtain ⟨hcur, hb⟩ := busyStore_cursor a
  have hclient : readClient.Is a := ⟨_, busyTarget, rfl, by decide, rfl⟩
  have hrun : [DeskStep.other (.chat devClient busyArgs .answered)].foldlM
      (desk devConfig .plain readClient).step (Desk.start busyStore) = some w := rfl
  refine one_drain_ends devConfig .plain hclient busyStore_kept hcur hb ?_ hrun rfl rfl (.first nofun rfl)
  rintro y (_ | ⟨_, ⟨⟩⟩)
  exact devClient_resolves

end Muster
