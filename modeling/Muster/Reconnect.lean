import Muster.Lib.Machine
import Muster.CursorCoverage
import Muster.StoreRuns

/-!
# No notification is lost around a reconnect

The streams of `stream_endpoint` connect and disconnect beside chats and fetches, one
command at a time.  `Pod` is the service together with the generators: a generator
registers, touches its presence, subscribes, and only then counts the unread messages.
A subscription gets every event published after it.

A chat appends and then publishes.  So an entry that was not there when the count read
the cursor was appended after the subscription, and published after it as well; one that
was there is counted: it is past that cursor, because some fetch has read what is not, and
at most a thousand entries are (`reconnect_loses_nothing`).
-/

namespace Muster

/-- Where the generator of a connection is, with the calls it has started. -/
inductive Stage where
  | registering (call : Nat)
  | touching (call : Nat)
  /-- `since`: how many events had been published when SUBSCRIBE took effect -/
  | subscribed (since : Nat)
  | checking (since call : Nat)
  /-- in the loop; `nudge` is what the unread event carried, if there was one -/
  | opened (since call : Nat) (nudge : Option (Nat × PyStr))
  | closed
  deriving DecidableEq

structure Conn where
  addr : Address
  connectionId : PyStr
  stage : Stage
  deriving DecidableEq

structure Pod where
  w : Moment
  conns : List Conn

inductive PodStep where
  /-- a request or a call of a ping starts, a call sends its next command, the clock moves on -/
  | service (l : Label Call Env)
  | connect (addr : Address) (connectionId : PyStr) (groups : List Member) (metadata : Json)
  /-- the generator of a connection goes on, what it has been waiting for having ended -/
  | resume (i : Nat)
  | disconnect (i : Nat)

/-- `if count`: what the unread event carries. -/
def nudge (count : Nat) (oldestTs : PyStr) : Option (Nat × PyStr) :=
  if count = 0 then none else some (count, oldestTs)

/-- What a subscription to `a`'s channel has received that took effect after `since` events. -/
def Db.received (s : Db) (a : PyStr) (since : Nat) : List Json :=
  ((s.pubs.drop since).filter fun p => p.1 = notifyChannel a).map (·.2)

section
variable [Python] (cfg : Config) (srv : Server)

def Pod.turn (s : Pod) (i : Nat) (conn : Conn) (stage : Stage) : Pod :=
  { s with conns := s.conns.set i { conn with stage := stage } }

/-- The generator starts a call. -/
def Pod.spawn (s : Pod) (c : Call) : Pod := { s with w := (service cfg srv).next s.w (.spawn c) }

def Pod.step (s : Pod) : PodStep → Option Pod
  | .service l => some { s with w := (service cfg srv).next s.w l }
  | .connect addr connectionId groups metadata =>
    let call := s.w.procs.length
    let s := s.spawn cfg srv (.registerAgent addr groups metadata cfg.agentRetention)
    some { s with conns := s.conns ++ [⟨addr, connectionId, .registering call⟩] }
  | .resume i => do
    let conn ← s.conns[i]?
    let next := s.w.procs.length
    match conn.stage with
    | .registering call =>
      if (s.w.result call).isSome then
        let s := s.spawn cfg srv (.touchPresence conn.addr.text conn.connectionId cfg.presenceTtl)
        return s.turn i conn (.touching next)
      else none
    | .touching call =>
      if (s.w.result call).isSome then return s.turn i conn (.subscribed s.w.st.pubs.length)
      else none
    | .subscribed since =>
      let s := s.spawn cfg srv (.unreadCount conn.addr.text)
      return s.turn i conn (.checking since next)
    | .checking since call =>
      match s.w.result call with
      | some (.ok (.unread count oldestTs)) =>
        return s.turn i conn (.opened since call (nudge count oldestTs))
      | _ => none
    | _ => none
  | .disconnect i => do
    let conn ← s.conns[i]?
    match conn.stage with
    | .closed => none
    -- before the `try` there is no `finally`
    | .registering _ => return s.turn i conn .closed
    | .touching _ => return s.turn i conn .closed
    | _ =>
      let s := s.spawn cfg srv (.clearPresence conn.addr.text conn.connectionId)
      return s.turn i conn .closed

def pod : Machine Pod PodStep := ⟨Pod.step cfg srv⟩

/-- Nobody has connected. -/
def Pod.start (s₀ : Db) : Pod := ⟨.start s₀, []⟩

end

/-- Requests and streams, no reaper and no trimming. -/
def Untrimmed : Label Call Env → Prop
  | .spawn c => c.served
  | .env (.evict _ _) => False
  | _ => True

/-- And at most a thousand entries of `a`'s are past its cursor. -/
def Calm (a : PyStr) (w : Moment) (l : Label Call Env) : Prop :=
  Untrimmed l ∧ (w.st.unread a).length ≤ 1000

def CalmRun (a : PyStr) (s : Pod) : PodStep → Prop
  | .service l => Calm a s.w l
  | _ => (s.w.st.unread a).length ≤ 1000

/-- `e` is among the entries that the call `check` has counted, whose number the unread event
carried. -/
def Counted (w : Moment) (a : PyStr) (check : Nat) (nudge : Option (Nat × PyStr)) (e : Entry) : Prop :=
  ∃ cur es now oldestTs,
    w.log check = [sent (.get a) cur, sent (.xrange a cur 1000) es, sent .time now] ∧
      e ∈ unexpired (now / 1000 : Nat) es ∧
      nudge = some ((unexpired (now / 1000 : Nat) es).length, oldestTs)

/-- The deliver event of the chat that appended `e`. -/
def DeliverOf (e : Entry) (event : Json) : Prop :=
  ∃ frm body subject important, e.fields = chatFields frm body subject important ∧
    event = chatEvent e.id frm body subject important

/-! ## What only grows -/

/-- `t` is later than `s`: inbox and published events have been added to, and time has passed. -/
structure Grows (a : PyStr) (s t : Db) : Prop where
  inbox : s.inbox a <+: t.inbox a
  pubs : s.pubs <+: t.pubs
  now : s.now ≤ t.now

section
variable {a : PyStr} {s t u : Db}

theorem Grows.refl (a : PyStr) (s : Db) : Grows a s s :=
  ⟨List.prefix_refl _, List.prefix_refl _, le_rfl⟩

theorem Grows.trans (h : Grows a s t) (h' : Grows a t u) : Grows a s u :=
  ⟨h.inbox.trans h'.inbox, h.pubs.trans h'.pubs, h.now.trans h'.now⟩

theorem pubs_exec (srv : Server) (c : Cmd) (s : Db) : s.pubs <+: (exec srv c s).1.pubs := by
  cases c with
  | publish b event => exact List.prefix_append _ _
  | clearIfOwner b cid =>
    simp only [exec]
    split <;> exact List.prefix_refl _
  | _ => exact List.prefix_refl _

theorem inbox_exec (srv : Server) {cfg : Config} {op : Call} {l : Log} {c : Cmd}
    (hop : op ≠ .reapOnce) (hc : op.Sends cfg l c) : s.inbox a <+: (exec srv c s).1.inbox a := by
  have hother : .inbox a ∉ c.writes → s.inbox a <+: (exec srv c s).1.inbox a := by
    intro h
    rw [Db.inbox, Db.inbox, stream_exec_other srv h]
  cases c with
  | xadd b fields ts expiresAt maxlen =>
    by_cases hb : a = b
    · subst hb
      rw [Db.inbox, Db.inbox, stream_exec_xadd]
      exact List.prefix_append _ _
    · exact hother (by simpa [Cmd.writes] using hb)
  | del ks => exact absurd hc.del.1 hop
  | expire k secs =>
    obtain ⟨kind, b, rfl⟩ := hc.expire
    exact hother (by simp [Cmd.writes])
  | _ => exact hother (by simp [Cmd.writes])

theorem inbox_tick (h : s.Permanent (.inbox a)) (d : Nat) :
    ((Env.tick d).apply s).inbox a = s.inbox a := by
  simp only [Db.inbox, Db.stream, (h.env (.tick d)).get, h.get]
  rfl

theorem Calm.ne_reapOnce (w : Moment) (op : Call) (h : Calm a w (.spawn op)) : op ≠ .reapOnce := by
  rintro rfl
  exact h.1

end

section
variable [Python] {cfg : Config} {srv : Server} {a : PyStr} {s₀ : Db} {w : Moment}

/-- **From each command of a calm run to the next, the state only grows.** -/
theorem calm_grows (h : (service cfg srv).Reach (Calm a) s₀ w) (hin : s₀.Permanent (.inbox a))
    (hcur : s₀.keys (.cursor a) = none) :
    w.hist.Pairwise (fun e e' => Grows a (exec srv e.cmd e.pre).1 e'.pre) ∧
      ∀ e ∈ w.hist, Grows a (exec srv e.cmd e.pre).1 w.st := by
  refine h.forward (service_sends cfg srv) (Grows.refl a) (fun _ _ _ => Grows.trans) ?_ ?_
  · intro w i op cmd k hw _ hp hc
    obtain ⟨w', hspawn⟩ := hw.admitted i _ hp
    exact ⟨inbox_exec srv (hspawn.ne_reapOnce w' op) hc, pubs_exec srv cmd w.st,
      (exec_now srv cmd w.st).ge⟩
  · intro w e hw hl
    cases e with
    | tick d =>
      have hperm := (reach_covers_of cfg srv hw Calm.ne_reapOnce hin hcur).inbox
      refine ⟨?_, List.prefix_refl _, Nat.le_add_right _ _⟩
      show _ <+: ((Env.tick d).apply w.st).inbox a
      rw [inbox_tick hperm]
    | evict b n => exact absurd hl.1 id

/-- Of two commands of a run, one came first. -/
theorem calm_order (h : (service cfg srv).Reach (Calm a) s₀ w) (hin : s₀.Permanent (.inbox a))
    (hcur : s₀.keys (.cursor a) = none) {x g : Ev} (hx : x ∈ w.hist) (hg : g ∈ w.hist)
    (hne : x ≠ g) :
    Grows a (exec srv x.cmd x.pre).1 g.pre ∨ Grows a (exec srv g.cmd g.pre).1 x.pre := by
  have hpair := (calm_grows h hin hcur).1.imp fun {e e' : Ev} => Or.inl
    (b := Grows a (exec srv e'.cmd e'.pre).1 e.pre)
  have hsymm : Std.Symm fun e e' : Ev => Grows a (exec srv e.cmd e.pre).1 e'.pre ∨
      Grows a (exec srv e'.cmd e'.pre).1 e.pre := ⟨fun _ _ => Or.symm⟩
  exact hpair.forall hx hg hne

/-- No command is executed with more than a thousand entries past the cursor. -/
theorem calm_unread (h : (service cfg srv).Reach (Calm a) s₀ w) :
    ∀ e ∈ w.hist, (e.pre.unread a).length ≤ 1000 :=
  h.forall_hist (service_sends cfg srv) fun _ _ _ _ hl _ => hl.2

end

/-! ## What the count finds, and what it misses -/

section
variable {a : PyStr} {s t : Db} {e : Entry}

/-- What was past `after` is on the page, however the stream has grown. -/
theorem mem_range_of_prefix {x y : Stream} {after : Option StreamId} {n : Nat}
    (h : x.entries <+: y.entries) (he : e ∈ x.entries) (hpast : Stream.past after e.id = true)
    (hlen : (x.entries.filter fun z => Stream.past after z.id).length ≤ n) :
    e ∈ y.range after n := by
  obtain ⟨rest, hrest⟩ := h
  unfold Stream.range
  rw [← hrest, List.filter_append, List.take_append, List.take_of_length_le hlen]
  exact List.mem_append_left _ (List.mem_filter.2 ⟨he, hpast⟩)

theorem answer_eq (srv : Server) {c c' : Cmd} {r : c'.Reply}
    (h : sent c' r = sent c (exec srv c s).2) : c = c' ∧ (exec srv c' s).2 = r := by
  cases h
  exact ⟨rfl, rfl⟩

/-- An event published after the subscription is received. -/
theorem mem_received {since : Nat} {pubs : List (PyStr × Json)} {event : Json}
    (hsince : since ≤ pubs.length) (h : pubs ++ [(notifyChannel a, event)] <+: s.pubs) :
    event ∈ s.received a since := by
  obtain ⟨rest, hrest⟩ := h
  unfold Db.received
  rw [← hrest, List.append_assoc, List.drop_append_of_le_length hsince, List.filter_append,
    List.map_append]
  refine List.mem_append_right _ ?_
  rw [List.singleton_append, List.filter_cons_of_pos (by simp), List.map_cons]
  exact List.mem_cons_self

end

section
variable [Python] {cfg : Config} {srv : Server} {a : PyStr} {s₀ : Db} {w : Moment} {e : Entry}

/-- **The count finds what was there when it read the cursor**, if no fetch has read it. -/
theorem exists_get_of_check (h : (service cfg srv).Reach (Calm a) s₀ w)
    (hin : s₀.Permanent (.inbox a)) (hcur : s₀.keys (.cursor a) = none) {check : Nat}
    {cur : Option StreamId} {es : List Entry} {now : Nat}
    (hlog : w.log check = [sent (.get a) cur, sent (.xrange a cur 1000) es, sent .time now])
    (he : e ∈ w.st.inbox a) (hlive : w.st.sec < e.expiresAt)
    (hunread : ∀ i, ¬ ReadBy a (w.log i) e) :
    ∃ g ∈ w.hist, g.pid = check ∧ g.cmd = .get a ∧
      (e ∈ g.pre.inbox a → e ∈ unexpired (now / 1000 : Nat) es) := by
  obtain ⟨evs, hsub, hpid, hmap⟩ := h.events_of_log check
  rw [hlog] at hmap
  obtain ⟨g, x, t, rfl⟩ := List.length_eq_three.1 (by simpa using (congrArg List.length hmap).symm)
  simp only [List.map_cons, List.map_nil, List.cons.injEq, and_true] at hmap
  obtain ⟨hg, hx, ht⟩ := hmap
  obtain ⟨hgcmd, hgr⟩ := answer_eq srv hg
  obtain ⟨-, hxr⟩ := answer_eq srv hx
  obtain ⟨htcmd, htr⟩ := answer_eq srv ht
  have hgm : g ∈ w.hist := hsub.subset (by simp)
  have htm : t ∈ w.hist := hsub.subset (by simp)
  obtain ⟨hpair, hlast⟩ := calm_grows h hin hcur
  have hgx : Grows a g.pre x.pre := by
    have hpairs := hpair.sublist hsub
    rw [List.pairwise_cons] at hpairs
    have hgx := hpairs.1 x (by simp)
    rwa [hgcmd] at hgx
  refine ⟨g, hgm, hpid g (by simp), hgcmd, ?_⟩
  intro hmem
  have hget : sent (.get a) cur ∈ w.log check := by
    rw [hlog]
    exact List.mem_cons_self
  have hpast := (reach_covers_of cfg srv h Calm.ne_reapOnce hin hcur).past hget he hunread
  have hlen := calm_unread h g hgm
  have hcursor : g.pre.cursor a = cur := hgr
  rw [Db.unread, hcursor] at hlen
  refine List.mem_filter.2 ⟨?_, ?_⟩
  · rw [← hxr]
    exact mem_range_of_prefix hgx.inbox hmem hpast hlen
  · have hnow : now ≤ w.st.now := by
      have hle := (hlast t htm).now
      rw [htcmd] at hle
      rw [← htr]
      exact hle
    have hsec : ((now / 1000 : Nat) : Int) ≤ w.st.sec := by
      have := Nat.div_le_div_right (c := 1000) hnow
      exact Int.ofNat_le.2 this
    exact decide_eq_true (lt_of_le_of_lt hsec hlive)

/-- **A chat that has ended has published what it appended**, after it appended it. -/
theorem exists_publish_of_append (h : (service cfg srv).Reach (Calm a) s₀ w)
    (hin : s₀.Permanent (.inbox a)) (hcur : s₀.keys (.cursor a) = none) {j : Nat}
    {y : (c : Cmd) × c.Reply} (hy : y ∈ w.log j) (happ : Appends a e y)
    (hdone : w.result j ≠ none) :
    ∃ x ∈ w.hist, x.cmd.appends = true ∧ e ∈ (exec srv x.cmd x.pre).1.inbox a ∧
      ∃ pubs event, DeliverOf e event ∧ x.pre.pubs <+: pubs ∧
        pubs ++ [(notifyChannel a, event)] <+: w.st.pubs := by
  obtain ⟨out, hout⟩ := Option.ne_none_iff_exists'.1 hdone
  obtain ⟨p, -, hends⟩ := Pool.reach_result (Q := fun _ _ l => ChatEnds l) h
    (fun _ op hspawn => op.body_ends cfg hspawn.1) hout
  obtain ⟨evs, hsub, -, hmap⟩ := h.events_of_log j
  obtain ⟨hpair, hlast⟩ := calm_grows h hin hcur
  obtain ⟨maxlen, rfl⟩ := happ
  obtain ⟨eid, fields, ts, expiresAt⟩ := e
  generalize w.log j = l at hends hmap hy
  cases hends with
  | nothing hl => cases hl _ hy
  | @delivered l dest frm body subject important ts' exp' maxlen' id hl =>
    obtain ⟨before, after, rfl, -, hafter⟩ := List.map_eq_append_iff.1 hmap.symm
    obtain ⟨x, p, rfl⟩ := List.length_eq_two.1 (by simpa using congrArg List.length hafter)
    simp only [List.map_cons, List.map_nil, List.cons.injEq, and_true] at hafter
    obtain ⟨hx, hp⟩ := hafter
    obtain ⟨hxcmd, hxr⟩ := answer_eq srv hx.symm
    obtain ⟨hpcmd, -⟩ := answer_eq srv hp.symm
    have hxm : x ∈ w.hist := hsub.subset (by simp)
    have hpm : p ∈ w.hist := hsub.subset (by simp)
    have hxp : Grows a (exec srv x.cmd x.pre).1 p.pre := by
      have hpairs := (List.pairwise_append.1 (hpair.sublist hsub)).2.1
      rw [List.pairwise_cons] at hpairs
      exact hpairs.1 p (by simp)
    -- the append of this entry is the one at the end
    simp only [List.mem_append, List.mem_cons, List.not_mem_nil, or_false] at hy
    obtain hy | hy | hy := hy
    · cases hl _ hy
    · cases hy
      refine ⟨x, hxm, by rw [hxcmd]; rfl, ?_, p.pre.pubs, _, ⟨frm, body, subject, important, rfl, rfl⟩,
        (pubs_exec srv x.cmd x.pre).trans hxp.pubs, ?_⟩
      · rw [hxcmd, Db.inbox, stream_exec_xadd, Stream.mem_add]
        refine .inr ?_
        rw [Entry.mk.injEq]
        exact ⟨hxr.symm, rfl, rfl, rfl⟩
      · have hpubs := (hlast p hpm).pubs
        rwa [hpcmd] at hpubs
    · cases hy

/-- Once the check is known to be later than the subscription: counted, or received. -/
theorem counted_or_received (h : (service cfg srv).Reach (Calm a) s₀ w)
    (hin : s₀.Permanent (.inbox a)) (hcur : s₀.keys (.cursor a) = none) {since check : Nat}
    {cur : Option StreamId} {es : List Entry} {now : Nat}
    (hlog : w.log check = [sent (.get a) cur, sent (.xrange a cur 1000) es, sent .time now])
    (hsince : ∀ ev ∈ w.hist, ev.pid = check → since ≤ ev.pre.pubs.length)
    (he : e ∈ w.st.inbox a) (hlive : w.st.sec < e.expiresAt)
    (hunread : ∀ i, ¬ ReadBy a (w.log i) e) {j : Nat} {y : (c : Cmd) × c.Reply}
    (hy : y ∈ w.log j) (happ : Appends a e y) (hdone : w.result j ≠ none) :
    e ∈ unexpired (now / 1000 : Nat) es ∨ ∃ event ∈ w.st.received a since, DeliverOf e event := by
  obtain ⟨g, hg, hpid, hgcmd, hcount⟩ := exists_get_of_check h hin hcur hlog he hlive hunread
  obtain ⟨x, hx, hxcmd, hmem, pubs, event, hdeliver, hpubs, hpublish⟩ :=
    exists_publish_of_append h hin hcur hy happ hdone
  have hne : x ≠ g := by
    rintro rfl
    rw [hgcmd] at hxcmd
    cases hxcmd
  -- the append was before the cursor was read, or after
  rcases calm_order h hin hcur hx hg hne with hxg | hgx
  · exact .inl (hcount (hxg.inbox.subset hmem))
  · refine .inr ⟨event, mem_received ?_ hpublish, hdeliver⟩
    rw [hgcmd] at hgx
    calc since ≤ g.pre.pubs.length := hsince g hg hpid
      _ ≤ x.pre.pubs.length := hgx.pubs.length_le
      _ ≤ pubs.length := hpubs.length_le

end

/-! ## The generators -/

/-- The count `call` of a connection to `a` was started after a subscription at `since`. -/
structure ChecksAfter (w : Moment) (a : PyStr) (since call : Nat) : Prop where
  subscribed : since ≤ w.st.pubs.length
  op : ∃ p, w.procs[call]? = some p ∧ p.op = .unreadCount a
  after : ∀ ev ∈ w.hist, ev.pid = call → since ≤ ev.pre.pubs.length

def Conn.Sound (w : Moment) (conn : Conn) : Prop :=
  match conn.stage with
  | .subscribed since => since ≤ w.st.pubs.length
  | .checking since call => ChecksAfter w conn.addr.text since call
  | .opened since call nudge => ChecksAfter w conn.addr.text since call ∧
    ∃ count oldestTs, w.result call = some (.ok (.unread count oldestTs)) ∧
      nudge = Muster.nudge count oldestTs
  | _ => True

section
variable [Python] {cfg : Config} {srv : Server} {w : Moment}

theorem pubs_next (w : Moment) (l : Label Call Env) :
    w.st.pubs <+: ((service cfg srv).next w l).st.pubs := by
  cases l with
  | spawn c => exact List.prefix_refl _
  | env e => cases e <;> exact List.prefix_refl _
  | step i =>
    rcases (service cfg srv).next_step_cases w i with hn | ⟨op, cmd, k, -, hn⟩
    · rw [hn]
    · rw [hn]
      exact pubs_exec srv cmd w.st

theorem ChecksAfter.next {a : PyStr} {since call : Nat} (h : ChecksAfter w a since call)
    (l : Label Call Env) : ChecksAfter ((service cfg srv).next w l) a since call := by
  obtain ⟨p, hp, hop⟩ := h.op
  obtain ⟨p', hp', hop'⟩ := Pool.op_next (P := service cfg srv) hp l
  refine ⟨h.subscribed.trans (pubs_next w l).length_le, ⟨p', hp', hop'.trans hop⟩, ?_⟩
  cases l with
  | spawn c => exact h.after
  | env e => exact h.after
  | step i =>
    rcases (service cfg srv).next_step_cases w i with hn | ⟨op, cmd, k, -, hn⟩
    · rw [hn]
      exact h.after
    · rw [hn]
      intro ev hev hpid
      rcases List.mem_append.1 hev with hev | hev
      · exact h.after ev hev hpid
      · rw [List.mem_singleton.1 hev]
        exact h.subscribed

theorem Conn.Sound.next {conn : Conn} (h : conn.Sound w) (l : Label Call Env) :
    conn.Sound ((service cfg srv).next w l) := by
  obtain ⟨addr, connectionId, stage⟩ := conn
  cases stage with
  | subscribed since => exact Nat.le_trans h (pubs_next w l).length_le
  | checking since call => exact ChecksAfter.next h l
  | opened since call nudge =>
    obtain ⟨hc, count, oldestTs, hr, hn⟩ := h
    exact ⟨hc.next l, count, oldestTs, Pool.result_next hr l, hn⟩
  | _ => trivial

variable (cfg srv) in
/-- What holds of a pod in a calm run. -/
structure Pod.Sound (a : PyStr) (s₀ : Db) (s : Pod) : Prop where
  calls : (service cfg srv).Reach (Calm a) s₀ s.w
  conns : ∀ conn ∈ s.conns, conn.Sound s.w

section
variable {a : PyStr} {s₀ : Db} {s s' : Pod} {i : Nat} {conn : Conn}

theorem Pod.Sound.next (h : s.Sound cfg srv a s₀) {l : Label Call Env} (hl : Calm a s.w l) :
    Pod.Sound cfg srv a s₀ { s with w := (service cfg srv).next s.w l } where
  calls := .next h.calls hl
  conns conn hconn := (h.conns conn hconn).next l

theorem Pod.Sound.spawn (h : s.Sound cfg srv a s₀) {c : Call} (hc : c.served)
    (hlen : (s.w.st.unread a).length ≤ 1000) : (s.spawn cfg srv c).Sound cfg srv a s₀ :=
  h.next ⟨hc, hlen⟩

theorem Pod.Sound.turn (h : s.Sound cfg srv a s₀) {stage : Stage}
    (hn : Conn.Sound s.w { conn with stage := stage }) : (s.turn i conn stage).Sound cfg srv a s₀ where
  calls := h.calls
  conns conn' hconn := by
    rcases List.mem_or_eq_of_mem_set hconn with hconn | rfl
    · exact h.conns conn' hconn
    · exact hn

/-- A count that has just been started. -/
theorem ChecksAfter.spawn (h : (service cfg srv).Reach (Calm a) s₀ w) {b : PyStr} {since : Nat}
    (hsince : since ≤ w.st.pubs.length) :
    ChecksAfter ((service cfg srv).next w (.spawn (.unreadCount b))) b since w.procs.length where
  subscribed := hsince
  op := ⟨_, List.getElem?_concat_length, rfl⟩
  after ev hev hpid := by
    obtain ⟨p, hp, -⟩ := h.proc_of_mem_hist ev hev
    rw [hpid] at hp
    exact absurd (List.getElem?_eq_some_iff.1 hp).1 (lt_irrefl _)

theorem Pod.Sound.step (h : s.Sound cfg srv a s₀) {l : PodStep} (hl : CalmRun a s l)
    (hs : (pod cfg srv).step s l = some s') : s'.Sound cfg srv a s₀ := by
  cases l with
  | service l =>
    cases hs
    exact h.next hl
  | connect addr connectionId groups metadata =>
    cases hs
    have hn := h.spawn (c := .registerAgent addr groups metadata cfg.agentRetention) trivial hl
    refine ⟨hn.calls, ?_⟩
    intro conn hconn
    rcases List.mem_append.1 hconn with hconn | hconn
    · exact hn.conns conn hconn
    · rw [List.mem_singleton.1 hconn]
      trivial
  | resume i =>
    obtain ⟨conn, hconn, hs⟩ := Option.bind_eq_some_iff.1 hs
    have hsound := h.conns conn (List.mem_of_getElem? hconn)
    obtain ⟨addr, connectionId, stage⟩ := conn
    cases stage with
    | registering call =>
      simp only [Option.pure_def, Option.ite_none_right_eq_some, Option.some.injEq] at hs
      obtain ⟨-, rfl⟩ := hs
      exact (h.spawn (c := .touchPresence _ _ _) trivial hl).turn trivial
    | touching call =>
      simp only [Option.pure_def, Option.ite_none_right_eq_some, Option.some.injEq] at hs
      obtain ⟨-, rfl⟩ := hs
      exact h.turn (le_refl s.w.st.pubs.length)
    | subscribed since =>
      cases hs
      exact (h.spawn (c := .unreadCount _) trivial hl).turn (ChecksAfter.spawn h.calls hsound)
    | checking since call =>
      dsimp only at hs
      split at hs
      · next count oldestTs hr =>
        cases hs
        exact h.turn ⟨hsound, count, oldestTs, hr, rfl⟩
      · cases hs
    | opened since call nudge => cases hs
    | closed => cases hs
  | disconnect i =>
    obtain ⟨conn, -, hs⟩ := Option.bind_eq_some_iff.1 hs
    dsimp only at hs
    split at hs
    · cases hs
    · cases hs
      exact h.turn trivial
    · cases hs
      exact h.turn trivial
    · cases hs
      exact (h.spawn (c := .clearPresence _ _) trivial hl).turn trivial

theorem Pod.sound (h : (pod cfg srv).Run (CalmRun a) (.start s₀) s) : s.Sound cfg srv a s₀ := by
  refine h.inv (Pod.Sound cfg srv a s₀) ⟨.start, ?_⟩ fun _ _ _ hI hl hs => hI.step hl hs
  intro conn hconn
  cases hconn

/-- **No notification is lost around a reconnect.**  Where a stream of `a`'s has done its
unread check and is open, an unexpired entry whose chat has ended has been counted in the
unread event of the stream, or its deliver event has been received by the subscription,
unless a fetch has read it and moved the cursor. -/
theorem reconnect_loses_nothing (h : (pod cfg srv).Run (CalmRun a) (.start s₀) s)
    (hin : s₀.Permanent (.inbox a)) (hcur : s₀.keys (.cursor a) = none)
    (hconn : conn ∈ s.conns) (haddr : conn.addr.text = a) {since check : Nat}
    {nudge : Option (Nat × PyStr)} (hstage : conn.stage = .opened since check nudge) {e : Entry}
    (he : e ∈ s.w.st.inbox a) (hlive : s.w.st.sec < e.expiresAt)
    (hunread : ∀ i, ¬ ReadBy a (s.w.log i) e) {j : Nat} {y : (c : Cmd) × c.Reply}
    (hy : y ∈ s.w.log j) (happ : Appends a e y) (hdone : s.w.result j ≠ none) :
    Counted s.w a check nudge e ∨ ∃ event ∈ s.w.st.received a since, DeliverOf e event := by
  have hsound := Pod.sound h
  have hopened := hsound.conns conn hconn
  unfold Conn.Sound at hopened
  rw [hstage, haddr] at hopened
  obtain ⟨hcheck, count, oldestTs, hresult, hnudge⟩ := hopened
  -- what the check has read
  obtain ⟨p, hp, hop⟩ := hcheck.op
  obtain ⟨p', hp', hends⟩ := Pool.reach_result (Q := fun op out l => ∀ b, op = .unreadCount b →
      ∃ cur es now oldestTs,
        l = [sent (.get b) cur, sent (.xrange b cur 1000) es, sent .time now] ∧
        out = .ok (.unread (unexpired (now / 1000 : Nat) es).length oldestTs)) hsound.calls
    (fun _ op _ => Call.counts cfg op) hresult
  rw [hp] at hp'
  cases hp'
  obtain ⟨cur, es, now, ts, hlog, hout⟩ := hends a hop
  cases hout
  refine (counted_or_received hsound.calls hin hcur hlog hcheck.after he hlive hunread hy happ
    hdone).imp ?_ id
  intro hmem
  refine ⟨cur, es, now, oldestTs, hlog, hmem, ?_⟩
  rw [hnudge, Muster.nudge, if_neg (List.length_pos_of_mem hmem).ne']

end

end

/-- `CalmRun`, computed, for requests without the clock. -/
def calmRun (a : PyStr) (s : Pod) (l : PodStep) : Bool :=
  (match l with
    | .service (.spawn (.rpc _ _ _ _)) => true
    | .service (.step _) => true
    | .service _ => false
    | _ => true) && decide ((s.w.st.unread a).length ≤ 1000)

theorem calmRun_sound (a : PyStr) (s : Pod) (l : PodStep) (h : calmRun a s l = true) :
    CalmRun a s l := by
  obtain ⟨hl, hlen⟩ := (Bool.and_eq_true_iff).1 h
  have hlen := of_decide_eq_true hlen
  cases l with
  | service l =>
    refine ⟨?_, hlen⟩
    cases l with
    | spawn c =>
      cases c with
      | rpc => trivial
      | _ => cases hl
    | step i => trivial
    | env e => cases hl
  | _ => exact hlen

/-- `u`'s agent connects, and is chatted to by another of `u`'s when the count is done. -/
def lateChat : List PodStep :=
  let chat : Call := .rpc ⟨lit "u", []⟩ (lit "h/r/p/y") (lit "chat")
    [(lit "to", .str (lit "x")), (lit "body", .str (lit "hi"))]
  let steps (n i : Nat) : List PodStep := List.replicate n (.service (.step i))
  .connect ⟨lit "u", lit "h", lit "r", lit "p", lit "x"⟩ (lit "c") [] (.obj []) :: steps 2 0 ++
    .resume 0 :: steps 2 1 ++ .resume 0 :: .resume 0 :: steps 3 2 ++
    .service (.spawn chat) :: steps 7 3 ++ [.resume 0]

theorem lateChat_isSome : ((@pod Python.plain Config.defaults Server.plain).trace
    (calmRun (lit "u/h/r/p/x")) (.start (.empty 5000)) lateChat).isSome = true := by decide +kernel

def lateChatPod : Pod := Option.get _ lateChat_isSome

theorem lateChatPod_run : (@pod Python.plain Config.defaults Server.plain).Run
    (CalmRun (lit "u/h/r/p/x")) (.start (.empty 5000)) lateChatPod :=
  Machine.Run.trace (calmRun_sound _) .start (Option.some_get lateChat_isSome).symm

theorem reconnect_loses_nothing_lateChat :
    let e : Entry := ⟨toLex (5000, 0), chatFields (lit "u/h/r/p/y") (lit "hi") [] false, 5, 259205⟩
    lateChatPod.w.st.inbox (lit "u/h/r/p/x") = [e] ∧
      (Counted lateChatPod.w (lit "u/h/r/p/x") 2 none e ∨
        ∃ event ∈ lateChatPod.w.st.received (lit "u/h/r/p/x") 0, DeliverOf e event) := by
  intro e
  have hconns : lateChatPod.conns =
      [⟨⟨lit "u", lit "h", lit "r", lit "p", lit "x"⟩, lit "c", .opened 0 2 none⟩] := by decide +kernel
  have hsets : (lateChatPod.w.hist.all fun ev => match ev.cmd with
    | .set _ _ => false
    | _ => true) = true := by decide +kernel
  have hunread : ∀ i, ¬ ReadBy (lit "u/h/r/p/x") (lateChatPod.w.log i) e := by
    rintro i ⟨_, _, _, id, -, -, hset⟩
    obtain ⟨ev, hev, -, heq⟩ := Event.mem_logOf_iff.1 hset
    have hcmd := List.all_eq_true.1 hsets ev hev
    rw [show ev.cmd = .set (lit "u/h/r/p/x") id from congrArg Sigma.fst heq] at hcmd
    cases hcmd
  have hinbox : lateChatPod.w.st.inbox (lit "u/h/r/p/x") = [e] := by decide +kernel
  have happend : (lateChatPod.w.log 3)[5]? =
      some (sent (.xadd (lit "u/h/r/p/x") e.fields e.ts e.expiresAt 1000) e.id) := by rfl
  refine ⟨hinbox, ?_⟩
  exact @reconnect_loses_nothing Python.plain Config.defaults Server.plain (lit "u/h/r/p/x") (.empty 5000)
    lateChatPod _ lateChatPod_run (fun _ hv => by cases hv) rfl (hconns ▸ List.mem_cons_self) rfl 0 2
    none rfl e (hinbox ▸ List.mem_cons_self) (by decide +kernel) hunread 3 _
    (List.mem_of_getElem? happend) ⟨1000, rfl⟩ (by decide +kernel)

end Muster
