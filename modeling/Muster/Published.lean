import Muster.Lib.PyRepr
import Muster.FetchRace
import Muster.Reconnect
import Muster.Rpc
import Muster.Sse

/-!
# What is published on a channel

Announcements and the deliver events of chats, whatever the interleaving.  A chat publishes
once, after it has appended its message, and under the id it was given for it; the ids of an
inbox only grow.  So no two deliver events on a channel have the same id (`chat_ids_differ`).
-/

namespace Muster

def Cmd.publishes : Cmd → Bool
  | .publish _ _ => true
  | _ => false

/-- Nothing of the log was published. -/
def Unpublished (l : Log) : Prop := ∀ y ∈ l, y.1.publishes = false

/-- What a call publishes: announcements, or once the deliver event of the message it has appended. -/
inductive Publishes (l : Log) : Cmd → Prop
  | nothing {c : Cmd} (hc : c.publishes = false) : Publishes l c
  | announce (dest frm body subject : PyStr) : Publishes l (.publish dest (announceEvent frm body subject))
  | chat (dest frm body subject : PyStr) (important : Bool) {fields : Fields} {ts expiresAt : Int}
    {maxlen : Nat} {id : StreamId} (hxadd : sent (.xadd dest fields ts expiresAt maxlen) id ∈ l)
    (hl : Unpublished l) : Publishes l (.publish dest (chatEvent id frm body subject important))

/-! ## Calls -/

theorem Cmd.ReadsDirectory.publishes {c : Cmd} (h : c.ReadsDirectory) : c.publishes = false := by
  cases c with
  | publish => cases h
  | _ => rfl

theorem RateSends.publishes {kind : RateKind} {a : PyStr} {c : Cmd} (h : RateSends kind a c) :
    c.publishes = false := by
  cases c with
  | publish => cases h
  | _ => rfl

theorem unpublished_nil : Unpublished [] := by
  intro y hy
  cases hy

theorem Unpublished.concat {l : Log} {y : (c : Cmd) × c.Reply} (h : Unpublished l)
    (hy : y.1.publishes = false) : Unpublished (l ++ [y]) := by
  intro z hz
  rcases List.mem_append.1 hz with hz | hz
  · exact h z hz
  · rw [List.mem_singleton.1 hz]
    exact hy

section
variable {α : Type} {p : M α} {l : Log} {Φ : Log → Cmd → Prop} {Q : Except PyExn α → Log → Prop}

theorem Unpublished.logged (h : Unpublished l) (hp : p.Ensures Φ Q l)
    (hΦ : ∀ l c, Φ l c → c.publishes = false) :
    p.Ensures Publishes (fun _ l => Unpublished l) l := by
  refine hp.logged.mono (fun l c hc => .nothing (hΦ l c hc)) ?_
  rintro out l' ⟨-, hl'⟩ y hy
  obtain hy | ⟨l'', hy⟩ := hl' y hy
  · exact h y hy
  · exact hΦ l'' _ hy

theorem publishes_nothing (hp : p.Ensures Φ Q l) (hΦ : ∀ l c, Φ l c → c.publishes = false) :
    p.Ensures Publishes (fun _ _ => True) l :=
  hp.mono (fun l c hc => .nothing (hΦ l c hc)) fun _ _ _ => trivial

end

section
variable (cfg : Config) (ident : Identity Member) (sender : Address) (args : Args)

theorem opChat_publishes [Python] :
    (opChat cfg ident sender args).Ensures Publishes (fun _ _ => True) [] := by
  refine lift_ensures ?_ (fun _ _ => trivial)
  intro r _
  obtain ⟨body, subject⟩ := r
  have hlist := unpublished_nil.logged (visibleAgents_ensures ident []) fun _ _ h => h.publishes
  refine hlist.bind ?_ (fun _ _ _ => trivial)
  intro rows l hl
  refine lift_ensures ?_ (fun _ _ => trivial)
  intro row _
  split
  · trivial
  · have hrate := hl.logged (checkRate_ensures .chat sender.text cfg.chatRate cfg.rateWindow l)
      fun _ _ h => h.publishes
    refine hrate.bind ?_ (fun _ _ _ => trivial)
    intro _ l hl
    refine ⟨.nothing rfl, ?_⟩
    intro now
    have htime : Unpublished (l ++ [sent .time now]) := hl.concat rfl
    dsimp only [appendMessage]
    split
    · trivial
    · refine ⟨.nothing rfl, fun id => ⟨?_, fun _ => trivial⟩⟩
      exact .chat _ _ _ _ _ (List.mem_append_right _ (List.mem_singleton_self _)) (htime.concat rfl)

theorem publishAll_publishes (frm body subject : PyStr) (rows : List Row) (l : Log) :
    (publishAll (announceEvent frm body subject) rows).Ensures Publishes (fun _ _ => True) l := by
  induction rows generalizing l with
  | nil => trivial
  | cons a rows ih => exact ⟨.announce _ _ _ _, fun _ => ih _⟩

theorem opAnnounce_publishes :
    (opAnnounce cfg ident sender args).Ensures Publishes (fun _ _ => True) [] := by
  unfold opAnnounce
  dsimp only
  split
  · refine lift_ensures ?_ (fun _ _ => trivial)
    intro r _
    obtain ⟨body, subject⟩ := r
    refine lift_ensures ?_ (fun _ _ => trivial)
    intro inScope _
    have hrate := publishes_nothing (checkRate_ensures .announce sender.text cfg.announceRate
      cfg.rateWindow []) fun _ _ h => h.publishes
    refine hrate.bind ?_ (fun _ _ _ => trivial)
    intro _ l _
    refine (publishes_nothing (visibleAgents_ensures ident l) fun _ _ h => h.publishes).bind ?_
      (fun _ _ _ => trivial)
    intro rows l _
    exact (publishAll_publishes sender.text body subject _ l).bind (fun _ _ _ => trivial)
      (fun _ _ _ => trivial)
  · trivial

theorem dispatch_publishes [Python] (op : PyStr) :
    (dispatch cfg ident sender args op).Ensures Publishes (fun _ _ => True) [] := by
  unfold dispatch
  split
  · exact opChat_publishes cfg ident sender args
  · split
    · refine publishes_nothing (opFetch_ensures sender args (fun _ c => c.publishes = false) ?_)
        fun _ _ => id
      intro limit l c h
      cases h <;> rfl
    · split
      · exact publishes_nothing (opRoster_ensures ident sender args) fun _ _ h => h.publishes
      · split
        · exact opAnnounce_publishes cfg ident sender args
        · trivial

end

theorem Call.body_publishes [Python] (cfg : Config) (call : Call) (h : call.served) :
    (call.body cfg).Ensures Publishes (fun _ _ => True) [] := by
  cases call with
  | rpc ident header op args =>
    refine (Prog.ensures_map _ _ _).2 ?_
    unfold Muster.rpc
    split
    · trivial
    · exact dispatch_publishes cfg ident _ args op
  | registerAgent addr groups metadata retention =>
    refine publishes_nothing (Call.body_ensures cfg _) ?_
    rintro l c (rfl | ⟨v, rfl⟩) <;> rfl
  | touchPresence b cid ttl =>
    refine publishes_nothing (Call.body_ensures cfg _) ?_
    rintro l c (rfl | ⟨t, rfl⟩) <;> rfl
  | clearPresence b cid =>
    refine publishes_nothing (Call.body_ensures cfg _) ?_
    rintro l c rfl
    rfl
  | unreadCount b =>
    refine publishes_nothing (Call.body_ensures cfg _) ?_
    intro l c hc
    cases hc <;> rfl
  | appendMessage | fetchUnread | reapOnce => exact absurd h id

/-! ## Ids -/

theorem split_at_dash {x x' y y' : PyStr} (hx : ∀ c ∈ x, c ≠ 45) (hx' : ∀ c ∈ x', c ≠ 45)
    (h : x ++ 45 :: y = x' ++ 45 :: y') : x = x' ∧ y = y' := by
  induction x generalizing x' with
  | nil =>
    cases x' with
    | nil => exact ⟨rfl, (List.cons.inj h).2⟩
    | cons c x' => exact absurd (List.cons.inj h).1.symm (hx' c List.mem_cons_self)
  | cons c x ih =>
    cases x' with
    | nil => exact absurd (List.cons.inj h).1 (hx c List.mem_cons_self)
    | cons c' x' =>
      obtain ⟨rfl, htail⟩ := List.cons.inj h
      obtain ⟨rfl, rfl⟩ := ih (fun d hd => hx d (List.mem_cons_of_mem _ hd))
        (fun d hd => hx' d (List.mem_cons_of_mem _ hd)) htail
      exact ⟨rfl, rfl⟩

theorem StreamId.text_injective : Function.Injective StreamId.text := by
  intro id id' h
  have hdash : ∀ n, ∀ c ∈ PyStr.strNat n, c ≠ 45 := by
    rintro n c hc rfl
    have hdigit := PyStr.isDigit_of_mem_strNat hc
    revert hdigit
    decide
  have hnat : ∀ m n, PyStr.strNat m = PyStr.strNat n → m = n := by
    intro m n h
    rw [← PyStr.digits_strNat m, h, PyStr.digits_strNat n]
  unfold StreamId.text at h
  rw [List.append_assoc, List.append_assoc] at h
  obtain ⟨hms, hseq⟩ := split_at_dash (hdash _) (hdash _) h
  refine ofLex.injective (Prod.ext (hnat _ _ hms) (hnat _ _ hseq))

/-- The id that an event carries. -/
def Carries (t : PyStr) (event : Json) : Prop := Json.get event.fields "msg_id" = .str t

theorem carries_chatEvent {t : PyStr} {id : StreamId} {frm body subject : PyStr} {important : Bool}
    (h : Carries t (chatEvent id frm body subject important)) : t = id.text := by
  unfold Carries chatEvent Json.fields at h
  simp +decide only [get_dict_cons, if_false, if_true] at h
  exact (Json.str.inj h).symm

theorem not_carries_announceEvent {t frm body subject : PyStr} :
    ¬ Carries t (announceEvent frm body subject) := by
  unfold Carries announceEvent Json.fields
  simp +decide only [get_dict_cons, if_false]
  rintro ⟨⟩

/-! ## Runs -/

def Cmd.published : Cmd → Option (PyStr × Json)
  | .publish dest event => some (notifyChannel dest, event)
  | _ => none

theorem pubs_exec_eq (srv : Server) (c : Cmd) (s : Db) :
    (exec srv c s).1.pubs = s.pubs ++ c.published.toList := by
  cases c with
  | publish dest event => rfl
  | clearIfOwner a cid =>
    simp only [exec]
    split <;> exact (List.append_nil _).symm
  | _ => exact (List.append_nil _).symm

section
variable [Python] {cfg : Config} {srv : Server} {a : PyStr} {s₀ : Db} {w : Moment}

theorem reach_pubs {ok : Moment → Label Call Env → Prop} (h : (service cfg srv).Reach ok s₀ w) :
    w.st.pubs = s₀.pubs ++ w.hist.filterMap fun e => e.cmd.published := by
  refine Pool.reach_inv (I := fun st hist => st.pubs = s₀.pubs ++ hist.filterMap fun e => e.cmd.published)
    h (fun _ op _ => Call.body_ensures cfg op) (by simp) ?_ ?_
  · intro w i op cmd k _ ih _ _ _
    show (exec srv cmd w.st).1.pubs = _
    rw [pubs_exec_eq, ih, List.append_assoc, List.filterMap_append, List.filterMap_cons,
      List.filterMap_nil]
    cases cmd.published <;> rfl
  · intro w e ih _
    cases e <;> exact ih

theorem served_publishes (w : Moment) (op : Call) (h : Served w (.spawn op)) :
    ((service cfg srv).body op).Ensures Publishes (fun _ _ => True) [] := Call.body_publishes cfg op h

theorem reach_permanent {k : Key} (hk : k.lasting = true) {ok : Moment → Label Call Env → Prop}
    (h : (service cfg srv).Reach ok s₀ w) (hs : s₀.Permanent k) : w.st.Permanent k := by
  refine Pool.reach_inv (I := fun st _ => st.Permanent k) h (fun _ op _ => Call.body_ensures cfg op) hs ?_ ?_
  · intro w i op cmd _ _ ih _ _ hc
    exact ih.exec hk srv fun secs he => by
      obtain ⟨kind, b, rfl⟩ := Call.Sends.expire (he ▸ hc)
      cases hk
  · intro w e ih _
    exact ih.env e

/-- **The ids of an inbox only grow.** -/
theorem reach_ids (h : (service cfg srv).Reach Served s₀ w) (hin : s₀.Permanent (.inbox a)) :
    w.hist.Pairwise fun e e' =>
      ((exec srv e.cmd e.pre).1.stream a).last ≤ (e'.pre.stream a).last := by
  refine (h.forward (T := fun s t => (s.stream a).last ≤ (t.stream a).last) (service_sends cfg srv)
    (fun _ => le_rfl) (fun _ _ _ => le_trans) ?_ ?_).1
  · intro w i op cmd k hw _ hp hc
    obtain ⟨w', hspawn⟩ := hw.admitted i _ hp
    show (w.st.stream a).last ≤ ((exec srv cmd w.st).1.stream a).last
    by_cases hwrites : .inbox a ∈ cmd.writes
    · cases cmd with
      | xadd b fields ts expiresAt maxlen =>
        obtain rfl : a = b := by simpa [Cmd.writes] using hwrites
        rw [stream_exec_xadd]
        exact (srv.lt_nextId _ _).le
      | del ks => exact absurd hc.del.1 (served_ne_reapOnce hspawn)
      | expire k secs =>
        obtain ⟨kind, b, rfl⟩ := hc.expire
        simp [Cmd.writes] at hwrites
      | _ => simp [Cmd.writes] at hwrites
    · rw [stream_exec_other srv hwrites]
  · intro w e hw _
    have hperm := reach_permanent (k := .inbox a) rfl hw hin
    exact (stream_env hperm e).1.ge

/-- The id that an append hands out. -/
def Ev.appended (srv : Server) (a : PyStr) (e : Ev) : Option StreamId :=
  match e.cmd with
  | .xadd b _ _ _ _ => if b = a then some (srv.nextId e.pre.now (e.pre.stream a).last) else none
  | _ => none

omit [Python] in
theorem appended_xadd {b : PyStr} {fields : Fields} {ts expiresAt : Int} {maxlen : Nat} {e : Ev}
    (h : e.cmd = .xadd b fields ts expiresAt maxlen) :
    Ev.appended srv b e = some (srv.nextId e.pre.now (e.pre.stream b).last) := by
  unfold Ev.appended
  rw [h]
  exact if_pos rfl

/-- Two appends hand out different ids. -/
theorem appended_ne (h : (service cfg srv).Reach Served s₀ w) (hin : s₀.Permanent (.inbox a)) {x x' : Ev}
    (hx : x ∈ w.hist) (hx' : x' ∈ w.hist) (hne : x ≠ x') {id id' : StreamId}
    (hid : Ev.appended srv a x = some id) (hid' : Ev.appended srv a x' = some id') : id ≠ id' := by
  have hlast : ∀ {x : Ev} {id : StreamId}, Ev.appended srv a x = some id →
      (x.pre.stream a).last < id ∧ ((exec srv x.cmd x.pre).1.stream a).last = id := by
    intro x id hid
    unfold Ev.appended at hid
    split at hid
    · next b fields ts expiresAt maxlen hcmd =>
      split at hid
      · next hb =>
        subst hb
        cases hid
        rw [hcmd, stream_exec_xadd]
        exact ⟨srv.lt_nextId _ _, rfl⟩
      · cases hid
    · cases hid
  have hpair := (reach_ids h hin).imp fun {e e' : Ev} => Or.inl
    (b := ((exec srv e'.cmd e'.pre).1.stream a).last ≤ (e.pre.stream a).last)
  have hsymm : Std.Symm fun e e' : Ev => ((exec srv e.cmd e.pre).1.stream a).last ≤ (e'.pre.stream a).last ∨
      ((exec srv e'.cmd e'.pre).1.stream a).last ≤ (e.pre.stream a).last := ⟨fun _ _ => Or.symm⟩
  obtain ⟨hlt, heq⟩ := hlast hid
  obtain ⟨hlt', heq'⟩ := hlast hid'
  rcases hpair.forall hx hx' hne with hle | hle
  · rw [heq] at hle
    exact (hle.trans_lt hlt').ne
  · rw [heq'] at hle
    exact (hle.trans_lt hlt).ne'

/-- Behind a deliver event is an append of the same call. -/
theorem append_of_carries (h : (service cfg srv).Reach Served s₀ w) :
    ∀ e ∈ w.hist, ∀ event t, e.cmd = .publish a event → Carries t event →
      ∃ x ∈ w.hist, x.pid = e.pid ∧ ∃ id, Ev.appended srv a x = some id ∧ t = id.text := by
  refine Pool.reach_inv (I := fun (_ : Db) (hist : List Ev) => ∀ e ∈ hist, ∀ event t, e.cmd = .publish a event →
    Carries t event → ∃ x ∈ hist, x.pid = e.pid ∧ ∃ id, Ev.appended srv a x = some id ∧ t = id.text)
    h served_publishes (by simp) ?_ fun _ _ ih _ => ih
  intro w i op cmd k hw ih _ _ hpub e he event t hcmd hcarries
  rcases List.mem_append.1 he with he | he
  · obtain ⟨x, hx, hrest⟩ := ih e he event t hcmd hcarries
    exact ⟨x, List.mem_append_left _ hx, hrest⟩
  · rw [List.mem_singleton.1 he] at hcmd ⊢
    dsimp only at hcmd
    subst hcmd
    cases hpub with
    | nothing hc => cases hc
    | announce => exact absurd hcarries not_carries_announceEvent
    | chat _ frm body subject important hxadd hl =>
      obtain ⟨x, hx, hpid, hxcmd, hxr⟩ := hw.event_of_mem_log hxadd
      refine ⟨x, List.mem_append_left _ hx, hpid, _, appended_xadd hxcmd, ?_⟩
      rw [carries_chatEvent hcarries, ← hxr]
      rfl

/-- A call publishes one deliver event at most. -/
theorem carries_once (h : (service cfg srv).Reach Served s₀ w) :
    w.hist.Pairwise fun e e' => e.cmd.publishes = true → ∀ dest event t,
      e'.cmd = .publish dest event → Carries t event → e.pid ≠ e'.pid := by
  refine Pool.reach_inv (I := fun (_ : Db) (hist : List Ev) => hist.Pairwise fun e e' : Ev => e.cmd.publishes = true →
    ∀ dest event t, e'.cmd = .publish dest event → Carries t event → e.pid ≠ e'.pid)
    h served_publishes .nil ?_ fun _ _ ih _ => ih
  intro w i op cmd k hw ih _ _ hpub
  refine List.pairwise_append.2 ⟨ih, List.pairwise_singleton _ _, ?_⟩
  intro e he e' he' hpublishes dest event t hcmd hcarries hpid
  rw [List.mem_singleton.1 he'] at hcmd hpid
  dsimp only at hcmd hpid
  subst hcmd
  cases hpub with
  | nothing hc => cases hc
  | announce => exact absurd hcarries not_carries_announceEvent
  | chat _ frm body subject important hxadd hl =>
    have hno := hl _ (Event.mem_logOf_iff.2 ⟨e, he, hpid, rfl⟩)
    rw [hpublishes] at hno
    cases hno

/-- **No two events on a channel carry the same id.** -/
theorem chat_ids_differ (h : (service cfg srv).Reach Served s₀ w) (hin : s₀.Permanent (.inbox a)) :
    (w.st.received a s₀.pubs.length).Pairwise fun event event' =>
      ∀ t, Carries t event → ¬ Carries t event' := by
  have hreceived : w.st.received a s₀.pubs.length =
      ((w.hist.filterMap fun e => e.cmd.published).filter fun p => p.1 = notifyChannel a).map (·.2) := by
    unfold Db.received
    rw [reach_pubs h, List.drop_left]
  have hchannel : ∀ {e : Ev} {p : PyStr × Json}, e.cmd.published = some p → p.1 = notifyChannel a →
      e.cmd = .publish a p.2 := by
    intro e p hp hp1
    unfold Cmd.published at hp
    split at hp
    · next dest event hcmd =>
      cases hp
      obtain rfl : dest = a := List.append_cancel_left hp1
      exact hcmd
    · cases hp
  rw [hreceived, List.pairwise_map, List.pairwise_filter, List.pairwise_filterMap]
  refine (carries_once h).imp_of_mem ?_
  intro e e' he he' hpid p hp p' hp' hp1 hp1' t hcarries hcarries'
  have hcmd := hchannel hp (by simpa using hp1)
  have hcmd' := hchannel hp' (by simpa using hp1')
  obtain ⟨x, hx, hxpid, id, hid, rfl⟩ := append_of_carries h e he _ t hcmd hcarries
  obtain ⟨x', hx', hxpid', id', hid', ht⟩ := append_of_carries h e' he' _ _ hcmd' hcarries'
  have hpids := hpid (by rw [hcmd]; rfl) a _ _ hcmd' hcarries'
  have hne : x ≠ x' := by
    rintro rfl
    exact hpids (hxpid.symm.trans hxpid')
  exact appended_ne h hin hx hx' hne hid hid' (StreamId.text_injective ht)

end

end Muster
