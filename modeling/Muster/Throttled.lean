import Muster.Published
import Muster.RateWindow

/-!
# What the limits hold a sender to

The rate limiter is there against message loops, so what counts is not the calls that it
accepts but what these do: a chat appends one message, an announcement is published to
every recipient.  Over any run of the service, with calls of the same sender at once, both
stay within the limits for each window of the run's time, and twice the limits more
(`senders_throttled`).
-/

namespace Muster

def Config.rate (cfg : Config) : RateKind → Int
  | .chat => cfg.chatRate
  | .announce => cfg.announceRate

/-- The field of an event is this string. -/
def Json.says (event : Json) (key : String) (t : PyStr) : Bool :=
  match Json.get event.fields key with
  | .str s => s = t
  | _ => false

/-- A message of `a` is appended, an announcement of `a` is published. -/
def Cmd.speaks (kind : RateKind) (a : PyStr) : Cmd → Bool
  | .xadd _ fields _ _ _ => kind = .chat && fields.get "from" [] = a
  | .publish _ event => kind = .announce && event.says "kind" (lit "announce") && event.says "from" a
  | _ => false

theorem appends_of_speaks {c : Cmd} {a : PyStr} (h : c.speaks .chat a = true) : c.appends = true := by
  cases c with
  | xadd => rfl
  | publish => cases h
  | _ => cases h

/-- The limiter has accepted. -/
def Asked (cfg : Config) (kind : RateKind) (a : PyStr) (l : Log) : Prop :=
  ∃ n : Nat, sent (.incr kind a cfg.rateWindow) n ∈ l ∧ (n : Int) ≤ cfg.rate kind

/-- What a call does about the limits: a message only after the limiter has accepted, and one only. -/
inductive Throttles (cfg : Config) (l : Log) : Cmd → Prop
  | apart {c : Cmd} (hspeaks : ∀ kind a, c.speaks kind a = false)
    (hwrites : ∀ kind a, .rate kind a ∉ c.writes) : Throttles cfg l c
  | incr (kind : RateKind) (a : PyStr) : Throttles cfg l (.incr kind a cfg.rateWindow)
  | expire (kind : RateKind) (a : PyStr) : Throttles cfg l (.expire (.rate kind a) cfg.rateWindow)
  | message (dest frm body subject : PyStr) (important : Bool) (ts expiresAt : Int) (maxlen : Nat)
    (hasked : Asked cfg .chat frm l) (hl : Unappended l) :
    Throttles cfg l (.xadd dest (chatFields frm body subject important) ts expiresAt maxlen)
  | announcement (dest frm body subject : PyStr) (hasked : Asked cfg .announce frm l) :
    Throttles cfg l (.publish dest (announceEvent frm body subject))

/-! ## Calls -/

theorem Asked.mono {cfg : Config} {kind : RateKind} {a : PyStr} {l l' : Log} (h : Asked cfg kind a l)
    (hl : l <+: l') : Asked cfg kind a l' := by
  obtain ⟨n, hn, hle⟩ := h
  exact ⟨n, hl.subset hn, hle⟩

theorem Unappended.concat {l : Log} {y : (c : Cmd) × c.Reply} (h : Unappended l)
    (hy : y.1.appends = false) : Unappended (l ++ [y]) := by
  intro z hz
  rcases List.mem_append.1 hz with hz | hz
  · exact h z hz
  · rw [List.mem_singleton.1 hz]
    exact hy

section
variable {cfg : Config} {l : Log}

theorem Cmd.ReadsDirectory.throttles {c : Cmd} (h : c.ReadsDirectory) : Throttles cfg l c := by
  refine .apart ?_ ?_
  · intro kind a
    cases c with
    | xadd => cases h
    | publish => cases h
    | _ => rfl
  · intro kind a
    cases c with
    | incr => cases h
    | expire => cases h
    | del => cases h
    | _ => simp [Cmd.writes]

theorem FetchSends.throttles {a : PyStr} {limit : Int} {c : Cmd} (h : FetchSends a limit l c) :
    Throttles cfg l c := by
  refine .apart ?_ ?_
  · intro kind b
    cases h <;> rfl
  · intro kind b
    cases h <;> simp [Cmd.writes]

theorem rateCheck_throttles (kind : RateKind) (a : PyStr) (l : Log) :
    (rateCheck kind a (cfg.rate kind) cfg.rateWindow).Ensures
      (fun l' c => Throttles cfg l' c ∧ c.appends = false)
      (fun out l' => ∀ r, out = .ok r → r.1 = true → Asked cfg kind a l') l := by
  simp only [rateCheck, send, Prog.cmd_bind, Prog.ensures_call]
  refine ⟨⟨.incr kind a, rfl⟩, ?_⟩
  intro n
  split
  · simp only [Prog.ensures_call]
    refine ⟨⟨.apart (fun _ _ => rfl) (by simp [Cmd.writes]), rfl⟩, ?_⟩
    intro ttl
    split
    · refine ⟨⟨.expire kind a, rfl⟩, ?_⟩
      rintro _ _ ⟨⟩ ⟨⟩
    · rintro _ ⟨⟩ ⟨⟩
  · next hn =>
    rintro _ - -
    exact ⟨n, List.mem_append_right _ (List.mem_singleton_self _), by omega⟩

/-- `_check_rate` goes through only where the limiter accepts. -/
theorem checkRate_throttles (kind : RateKind) (a : PyStr) (l : Log) :
    (checkRate kind a (cfg.rate kind) cfg.rateWindow).Ensures
      (fun l' c => Throttles cfg l' c ∧ c.appends = false)
      (fun out l' => ∀ r, out = .ok r → Asked cfg kind a l') l := by
  refine (rateCheck_throttles kind a l).bind ?_ (fun _ _ _ _ h => by cases h)
  intro r l' h
  obtain ⟨ok, retry⟩ := r
  cases ok with
  | true => exact fun _ _ => h _ rfl rfl
  | false => rintro _ ⟨⟩

/-- A part of a call that appends nothing. -/
theorem Unappended.throttled {α : Type} {p : M α} {Φ : Log → Cmd → Prop} {Q : Except PyExn α → Log → Prop}
    (h : Unappended l) (hp : p.Ensures Φ Q l) (hΦ : ∀ l c, Φ l c → Throttles cfg l c ∧ c.appends = false) :
    p.Ensures (Throttles cfg) (fun out l' => Q out l' ∧ Unappended l') l := by
  refine hp.logged.mono (fun l c hc => (hΦ l c hc).1) ?_
  rintro out l' ⟨hout, hl'⟩
  refine ⟨hout, fun y hy => ?_⟩
  obtain hy | ⟨l'', hy⟩ := hl' y hy
  · exact h y hy
  · exact (hΦ l'' _ hy).2

end

section
variable (cfg : Config) (ident : Identity Member) (sender : Address) (args : Args)

theorem opChat_throttles [Python] :
    (opChat cfg ident sender args).Ensures (Throttles cfg) (fun _ _ => True) [] := by
  refine lift_ensures ?_ (fun _ _ => trivial)
  intro r _
  obtain ⟨body, subject⟩ := r
  have hlist : (visibleAgents ident).Ensures (Throttles cfg) _ [] :=
    unappended_nil.throttled (visibleAgents_ensures ident []) fun _ _ h => ⟨h.throttles, h.appends⟩
  refine hlist.bind ?_ (fun _ _ _ => trivial)
  rintro rows l ⟨-, hl⟩
  refine lift_ensures ?_ (fun _ _ => trivial)
  intro row _
  split
  · trivial
  · have hrate : (checkRate .chat sender.text cfg.chatRate cfg.rateWindow).Ensures (Throttles cfg) _ l :=
      hl.throttled (checkRate_throttles .chat sender.text l) fun _ _ h => h
    refine hrate.bind ?_ (fun _ _ _ => trivial)
    rintro u l' ⟨hasked, hl'⟩
    refine ⟨.apart (fun _ _ => rfl) (by simp [Cmd.writes]), ?_⟩
    intro now
    have htime : Unappended (l' ++ [sent .time now]) := hl'.concat rfl
    dsimp only [appendMessage]
    split
    · trivial
    · refine ⟨.message _ _ _ _ _ _ _ _ ((hasked u rfl).mono (List.prefix_append _ _)) htime, fun id =>
        ⟨.apart ?_ (by simp [Cmd.writes]), fun _ => trivial⟩⟩
      intro kind a
      cases kind <;> rfl

theorem publishAll_throttles (frm body subject : PyStr) (rows : List Row) (l : Log)
    (hasked : Asked cfg .announce frm l) :
    (publishAll (announceEvent frm body subject) rows).Ensures (Throttles cfg) (fun _ _ => True) l := by
  induction rows generalizing l with
  | nil => trivial
  | cons a rows ih =>
    exact ⟨.announcement _ _ _ _ hasked, fun _ => ih _ (hasked.mono (List.prefix_append _ _))⟩

theorem opAnnounce_throttles :
    (opAnnounce cfg ident sender args).Ensures (Throttles cfg) (fun _ _ => True) [] := by
  unfold opAnnounce
  dsimp only
  split
  · refine lift_ensures ?_ (fun _ _ => trivial)
    intro r _
    obtain ⟨body, subject⟩ := r
    refine lift_ensures ?_ (fun _ _ => trivial)
    intro inScope _
    have hrate : (checkRate .announce sender.text cfg.announceRate cfg.rateWindow).Ensures (Throttles cfg) _ [] :=
      (checkRate_throttles .announce sender.text []).mono (fun _ _ h => h.1) fun _ _ => id
    refine hrate.bind ?_ (fun _ _ _ => trivial)
    intro u l hasked
    have hlist : (visibleAgents ident).Ensures (Throttles cfg) _ l :=
      (visibleAgents_ensures ident l).extends.mono (fun _ _ h => h.1.throttles) fun _ _ => id
    refine hlist.bind ?_ (fun _ _ _ => trivial)
    rintro rows l' ⟨-, hl'⟩
    exact (publishAll_throttles cfg sender.text body subject _ l' ((hasked u rfl).mono hl')).bind
      (fun _ _ _ => trivial) (fun _ _ _ => trivial)
  · trivial

theorem dispatch_throttles [Python] (op : PyStr) :
    (dispatch cfg ident sender args op).Ensures (Throttles cfg) (fun _ _ => True) [] := by
  unfold dispatch
  split
  · exact opChat_throttles cfg ident sender args
  · split
    · refine (opFetch_ensures sender args (Throttles cfg) ?_).mono (fun _ _ => id) fun _ _ _ => trivial
      exact fun limit l c h => h.throttles
    · split
      · exact (opRoster_ensures ident sender args).mono (fun _ _ h => h.throttles) fun _ _ _ => trivial
      · split
        · exact opAnnounce_throttles cfg ident sender args
        · trivial

end

theorem Call.body_throttles [Python] (cfg : Config) (call : Call) (h : call.served) :
    (call.body cfg).Ensures (Throttles cfg) (fun _ _ => True) [] := by
  have hquiet : (∀ l c, call.Sends cfg l c → Throttles cfg l c) →
      (call.body cfg).Ensures (Throttles cfg) (fun _ _ => True) [] := by
    intro hsends
    exact (Call.body_ensures cfg call).mono hsends fun _ _ => id
  cases call with
  | rpc ident header op args =>
    refine (Prog.ensures_map _ _ _).2 ?_
    unfold Muster.rpc
    split
    · trivial
    · exact dispatch_throttles cfg ident _ args op
  | registerAgent addr groups metadata retention =>
    refine hquiet ?_
    rintro l c (rfl | ⟨v, rfl⟩) <;> exact .apart (fun _ _ => rfl) (by simp [Cmd.writes])
  | touchPresence b cid ttl =>
    refine hquiet ?_
    rintro l c (rfl | ⟨t, rfl⟩) <;> exact .apart (fun _ _ => rfl) (by simp [Cmd.writes])
  | clearPresence b cid =>
    refine hquiet ?_
    rintro l c rfl
    exact .apart (fun _ _ => rfl) (by simp [Cmd.writes])
  | unreadCount b =>
    refine hquiet ?_
    intro l c hc
    cases hc <;> exact .apart (fun _ _ => rfl) (by simp [Cmd.writes])
  | appendMessage | fetchUnread | reapOnce => exact absurd h id

/-! ## Runs -/

/-- An event of the service, as the limiter sees it. -/
def Ev.check (kind : RateKind) (a : PyStr) (e : Ev) : LimiterEvent :=
  ⟨e.pid, (kind, a), e.cmd, e.reply, e.pre⟩

section
variable [Python] {cfg : Config} {srv : Server} {kind : RateKind} {a : PyStr} {s₀ : Db} {w : Moment}

theorem served_throttles (w : Moment) (op : Call) (h : Served w (.spawn op)) :
    ((service cfg srv).body op).Ensures (Throttles cfg) (fun _ _ => True) [] :=
  Call.body_throttles cfg op h

/-- **Each counter is a sound meter**, whatever else the service does. -/
theorem reach_meter (hwindow : 1 ≤ cfg.rateWindow) (hs : Armed kind a cfg.rateWindow s₀)
    (h : (service cfg srv).Reach Served s₀ w) :
    (meterOf kind a w.st (w.hist.map (Ev.check kind a))).Sound (cfg.rateWindow.toNat * 1000) := by
  refine Pool.reach_inv (I := fun s hist => (meterOf kind a s (hist.map (Ev.check kind a))).Sound
    (cfg.rateWindow.toNat * 1000)) h served_throttles (.start hs rfl) ?_ ?_
  · intro w i op cmd k _ ih _ _ hsends
    show (meterOf kind a (exec srv cmd w.st).1
      ((w.hist ++ [(⟨i, op, cmd, (exec srv cmd w.st).2, w.st⟩ : Ev)]).map (Ev.check kind a))).Sound _
    rw [List.map_append, List.map_singleton, Ev.check]
    by_cases hw : .rate kind a ∈ cmd.writes
    · cases hsends with
      | apart _ hwrites => exact absurd hw (hwrites kind a)
      | incr kind' b =>
        obtain ⟨rfl, rfl⟩ : kind = kind' ∧ a = b := by simpa [Cmd.writes] using hw
        exact (meterOf_incr hwindow).symm ▸ ih.hit (by omega)
      | expire kind' b =>
        obtain ⟨rfl, rfl⟩ : kind = kind' ∧ a = b := by simpa [Cmd.writes] using hw
        exact (meterOf_expire hwindow).symm ▸ ih.rearm
      | message => simp [Cmd.writes] at hw
      | announcement => simp [Cmd.writes] at hw
    · exact (meterOf_other hw).symm ▸ ih
  · intro w e ih _
    cases e with
    | tick d => exact ih.wait d
    | evict b n => exact ih

theorem reach_now (h : (service cfg srv).Reach Served s₀ w) : ∀ e ∈ w.hist, s₀.now ≤ e.pre.now := by
  have hall : s₀.now ≤ w.st.now ∧ ∀ e ∈ w.hist, s₀.now ≤ e.pre.now := by
    refine Pool.reach_inv (I := fun (s : Db) (hist : List Ev) => s₀.now ≤ s.now ∧ ∀ e ∈ hist, s₀.now ≤ e.pre.now)
      h served_throttles (And.intro le_rfl (by simp)) ?_ ?_
    · rintro w i op cmd k - ⟨hnow, hall⟩ - - -
      refine ⟨(exec_now srv cmd w.st).symm ▸ hnow, fun e he => ?_⟩
      rcases List.mem_append.1 he with he | he
      · exact hall e he
      · rw [List.mem_singleton.1 he]
        exact hnow
    · rintro w e ⟨hnow, hall⟩ -
      refine ⟨?_, hall⟩
      cases e with
      | tick d => exact hnow.trans (Nat.le_add_right _ _)
      | evict b n => exact hnow
  exact hall.2

/-- Who speaks has been accepted. -/
theorem speaks_accepted (h : (service cfg srv).Reach Served s₀ w) :
    ∀ e ∈ w.hist, e.cmd.speaks kind a = true →
      ∃ x ∈ w.hist, x.pid = e.pid ∧ accepts kind a (cfg.rate kind) (Ev.check kind a x) = true := by
  refine Pool.reach_inv (I := fun (_ : Db) (hist : List Ev) => ∀ e ∈ hist, e.cmd.speaks kind a = true →
    ∃ x ∈ hist, x.pid = e.pid ∧ accepts kind a (cfg.rate kind) (Ev.check kind a x) = true)
    h served_throttles (by simp) ?_ fun _ _ ih _ => ih
  intro w i op cmd k hw ih _ _ hsends e he hspeaks
  rcases List.mem_append.1 he with he | he
  · obtain ⟨x, hx, hrest⟩ := ih e he hspeaks
    exact ⟨x, List.mem_append_left _ hx, hrest⟩
  · rw [List.mem_singleton.1 he] at hspeaks ⊢
    have hasked : Asked cfg kind a (w.log i) := by
      cases hsends with
      | apart hspeaks' _ =>
        rw [hspeaks' kind a] at hspeaks
        cases hspeaks
      | incr => cases hspeaks
      | expire => cases hspeaks
      | message dest frm body subject important ts expiresAt maxlen hasked _ =>
        obtain ⟨rfl, rfl⟩ : kind = .chat ∧ frm = a := by
          simpa [Cmd.speaks, chatFields, Fields.get, List.lookup] using hspeaks
        exact hasked
      | announcement dest frm body subject hasked =>
        obtain ⟨rfl, rfl⟩ : kind = .announce ∧ frm = a := by
          simp +decide only [Cmd.speaks, Json.says, announceEvent, Json.fields, get_dict_cons, if_false,
            if_true, Bool.and_eq_true, decide_eq_true_eq] at hspeaks
          exact ⟨hspeaks.1.1, hspeaks.2⟩
        exact hasked
    obtain ⟨n, hn, hle⟩ := hasked
    obtain ⟨x, hx, hpid, heq⟩ := Event.mem_logOf_iff.1 hn
    exact ⟨x, List.mem_append_left _ hx, hpid, accepts_iff.2 ⟨cfg.rateWindow, n, heq, hle⟩⟩

/-- A call appends one message at most. -/
theorem appends_once (h : (service cfg srv).Reach Served s₀ w) :
    w.hist.Pairwise fun e e' => e.cmd.appends = true → e'.cmd.appends = true → e.pid ≠ e'.pid := by
  refine Pool.reach_inv (I := fun (_ : Db) (hist : List Ev) => hist.Pairwise fun e e' : Ev =>
    e.cmd.appends = true → e'.cmd.appends = true → e.pid ≠ e'.pid) h served_throttles .nil ?_
    fun _ _ ih _ => ih
  intro w i op cmd k _ ih _ _ hsends
  refine List.pairwise_append.2 ⟨ih, List.pairwise_singleton _ _, ?_⟩
  intro e he e' he' happends happends' hpid
  rw [List.mem_singleton.1 he'] at happends' hpid
  cases hsends with
  | apart hspeaks _ =>
    cases cmd with
    | xadd dest fields ts expiresAt maxlen =>
      have := hspeaks .chat (fields.get "from" [])
      simp [Cmd.speaks] at this
    | _ => cases happends'
  | message dest frm body subject important ts expiresAt maxlen _ hl =>
    have hno := hl _ (Event.mem_logOf_iff.2 ⟨e, he, hpid, rfl⟩)
    rw [happends] at hno
    cases hno
  | _ => cases happends'

/-- The INCRs that are accepted stay within the limit for each window. -/
theorem accepted_le (hwindow : 1 ≤ cfg.rateWindow) (hs : Armed kind a cfg.rateWindow s₀)
    (h : (service cfg srv).Reach Served s₀ w) :
    (w.hist.filter fun e => accepts kind a (cfg.rate kind) (Ev.check kind a e)).length ≤
      (cfg.rate kind).toNat * ((w.st.now - s₀.now) / (cfg.rateWindow.toNat * 1000) + 2) := by
  have hmeter := reach_meter hwindow hs h
  have htimes : ∀ x ∈ (meterOf kind a w.st (w.hist.map (Ev.check kind a))).hits, s₀.now ≤ x.time := by
    intro x hx
    obtain ⟨c, hc, hhit⟩ := List.mem_filterMap.1 hx
    obtain ⟨e, he, rfl⟩ := List.mem_map.1 hc
    rw [hitOf_time hhit]
    exact reach_now h e he
  have htotal := hmeter.count_total (by omega) (cfg.rate kind).toNat htimes
  have hhits : (meterOf kind a w.st (w.hist.map (Ev.check kind a))).hits =
      (w.hist.map (Ev.check kind a)).filterMap (hitOf kind a) := rfl
  rw [hhits, List.countP_filterMap, List.countP_map] at htotal
  rw [← List.countP_eq_length_filter]
  refine le_trans (List.countP_mono_left fun e _ haccepts => ?_) htotal
  obtain ⟨_, n, heq, hle⟩ := accepts_iff.1 haccepts
  obtain ⟨pid, op, cmd, reply, pre⟩ := e
  have hsent : sent cmd reply = sent (.incr kind a _) n := heq
  cases hsent
  simp only [Function.comp, Ev.check, hitOf, and_self, if_true, Option.map_some, Option.getD_some,
    decide_eq_true_eq]
  omega

/-- The calls of `a` that speak stay within them too. -/
theorem speakers_le (hwindow : 1 ≤ cfg.rateWindow) (hs : Armed kind a cfg.rateWindow s₀)
    (h : (service cfg srv).Reach Served s₀ w) {calls : List Nat} (hcalls : calls.Nodup)
    (hspeak : ∀ i ∈ calls, ∃ e ∈ w.hist, e.pid = i ∧ e.cmd.speaks kind a = true) :
    calls.length ≤
      (cfg.rate kind).toNat * ((w.st.now - s₀.now) / (cfg.rateWindow.toNat * 1000) + 2) := by
  have hsubset : calls ⊆
      (w.hist.filter fun e => accepts kind a (cfg.rate kind) (Ev.check kind a e)).map (·.pid) := by
    intro i hi
    obtain ⟨e, he, rfl, hspeaks⟩ := hspeak i hi
    obtain ⟨x, hx, hpid, haccepts⟩ := speaks_accepted h e he hspeaks
    exact List.mem_map.2 ⟨x, List.mem_filter.2 ⟨hx, haccepts⟩, hpid⟩
  have hlength := (hcalls.subperm hsubset).length_le
  rw [List.length_map] at hlength
  exact hlength.trans (accepted_le hwindow hs h)

end

/-- The messages and the announcements of `a` stay within the limits for so many windows. -/
structure WithinLimits (cfg : Config) (a : PyStr) (windows : Nat) (hist : List Ev) : Prop where
  messages : (hist.filter fun e => e.cmd.speaks .chat a).length ≤ cfg.chatRate.toNat * windows
  /-- counted once, however many receive it -/
  announcements : ((hist.filter fun e => e.cmd.speaks .announce a).map (·.pid)).dedup.length ≤
    cfg.announceRate.toNat * windows

/-- **A sender is held to the limits**: to one for each window that a run lasts, and two more. -/
theorem senders_throttled [Python] {cfg : Config} {srv : Server} {s₀ : Db} {w : Moment}
    (hwindow : 1 ≤ cfg.rateWindow) {a : PyStr} (hs : ∀ kind, Armed kind a cfg.rateWindow s₀)
    (h : (service cfg srv).Reach Served s₀ w) :
    WithinLimits cfg a ((w.st.now - s₀.now) / (cfg.rateWindow.toNat * 1000) + 2) w.hist where
  messages := by
    have hpids : ((w.hist.filter fun e => e.cmd.speaks .chat a).map (·.pid)).Nodup := by
      refine List.pairwise_map.2 (List.pairwise_filter.2 ((appends_once h).imp ?_))
      intro e e' hne hspeaks hspeaks'
      exact hne (appends_of_speaks hspeaks) (appends_of_speaks hspeaks')
    have hle := speakers_le hwindow (hs .chat) h hpids ?_
    · rw [List.length_map] at hle
      exact hle
    · intro i hi
      obtain ⟨e, he, rfl⟩ := List.mem_map.1 hi
      exact ⟨e, (List.mem_filter.1 he).1, rfl, (List.mem_filter.1 he).2⟩
  announcements := by
    refine speakers_le hwindow (hs .announce) h (List.nodup_dedup _) fun i hi => ?_
    obtain ⟨e, he, rfl⟩ := List.mem_map.1 (List.mem_dedup.1 hi)
    exact ⟨e, (List.mem_filter.1 he).1, rfl, (List.mem_filter.1 he).2⟩

/-- Two chats of one agent. -/
theorem senders_throttled_overlap :
    WithinLimits Config.defaults (lit "u/h/r/p/y") (((overlap []).st.now - 5000) / (60 * 1000) + 2)
      (overlap []).hist := by
  refine @senders_throttled Python.plain Config.defaults Server.plain (.empty 5000) (overlap []) (by decide)
    (lit "u/h/r/p/y") ?_ (overlap_reach [] (by simp))
  intro kind slot hslot
  cases hslot

end Muster
