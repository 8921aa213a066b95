import Muster.OpsRuns

/-!
# The chat log equals the fetch log

Whole operations, one after the other.  For an agent `a`, `accepted` is the abstract
log: the chats to `a` that were answered ok, in order.  `returned` is what `a`'s
fetches have answered, in order.  Then, at every moment,

  `returned ++ (unexpired entries past the cursor)
     = accepted`, less the messages whose `sent + message_ttl ≤ passedAt`,

where `passedAt` is the clock of the fetch that moved the cursor past the message,
and the present clock if none has (`chat_log_eq_fetch_log`).

The inbox is the log as the store keeps it (`Ledger.accepted`): `readPart` and
`unread` are its two halves at the cursor.
-/

namespace Muster

/-! ## Runs of whole operations -/

inductive MailStep where
  | call (c : Call)
  | tick (d : Nat)

def MailStep.served : MailStep → Prop
  | .call c => c.served
  | .tick _ => True

def MailStep.run [Python] (cfg : Config) (srv : Server) : MailStep → Db → Except PyExn Outcome × Db
  | .call c, s => (c.body cfg).run (exec srv) s
  | .tick d, s => (.ok .done, (Env.tick d).apply s)

structure MailEvent where
  step : MailStep
  result : Except PyExn Outcome
  pre : Db
  post : Db

def MailStep.event [Python] (cfg : Config) (srv : Server) (x : MailStep) (s : Db) : MailEvent :=
  ⟨x, (x.run cfg srv s).1, s, (x.run cfg srv s).2⟩

/-- The stores and histories reached from `s₀`. -/
inductive MailHistory [Python] (cfg : Config) (srv : Server) (s₀ : Db) : Db → List MailEvent → Prop
  | start : MailHistory cfg srv s₀ s₀ []
  | step {s : Db} {h : List MailEvent} (x : MailStep) : MailHistory cfg srv s₀ s h → x.served →
    MailHistory cfg srv s₀ (x.run cfg srv s).2 (h ++ [x.event cfg srv s])

/-! ## The two logs -/

/-- A chat as it was accepted. -/
structure Sent where
  msgId : StreamId
  sender : PyStr
  body : PyStr
  subject : PyStr
  important : Bool
  sentAt : Int
  deriving DecidableEq

/-- The message the recipient is to get. -/
def Sent.message (m : Sent) : Message where
  msgId := m.msgId
  sender := m.sender
  kind := lit "chat"
  subject := m.subject
  body := m.body
  ts := PyStr.strInt m.sentAt
  important := m.important

/-- The address a request comes from. -/
def Call.sender : Call → Option PyStr
  | .rpc ident header _ _ => (parseAgentHeader ident.userId header).toOption.map Address.text
  | _ => none

namespace MailEvent

variable (a : PyStr) (ev : MailEvent)

/-- The chat to `a` that was answered ok, if this is one. -/
def accepted : List Sent :=
  match ev.step, ev.result with
  | .call (.rpc ident header op args), .ok (.response (.chat msgId dest _)) =>
    if dest = a then
      [{ msgId := msgId
         sender := ((Call.rpc ident header op args).sender).getD []
         body := (Json.get args "body").asStr
         subject := (Json.get args "subject").asStr
         important := (Json.get args "important").truthy
         sentAt := ev.pre.sec }]
    else []
  | _, _ => []

/-- The messages this event returned to `a`. -/
def returned : List Message :=
  match ev.step, ev.result with
  | .call c, .ok (.response (.fetch ms)) => if c.sender = some a then ms else []
  | _, _ => []

/-- The event moved `a`'s cursor past `id`. -/
def passes (id : StreamId) : Bool :=
  Stream.past (ev.pre.cursor a) id && !Stream.past (ev.post.cursor a) id

end MailEvent

def accepted (a : PyStr) (h : List MailEvent) : List Sent := h.flatMap (·.accepted a)

def returned (a : PyStr) (h : List MailEvent) : List Message := h.flatMap (·.returned a)

/-- The clock when the cursor moved past `id`; `now` if it has not. -/
def passedAt (a : PyStr) (h : List MailEvent) (now : Int) (id : StreamId) : Int :=
  match h.find? (·.passes a id) with
  | some ev => ev.pre.sec
  | none => now

/-! ## What one operation does to one inbox -/

/-- The entry of an accepted chat, read back. -/
def Sent.of (e : Entry) : Sent where
  msgId := e.id
  sender := e.fields.get "from" []
  body := e.fields.get "body" []
  subject := e.fields.get "subject" []
  important := e.fields.get "important" [] == lit "1"
  sentAt := e.ts

theorem sent_of_chatFields (id : StreamId) (frm body subject : PyStr) (important : Bool)
    (ts expiresAt : Int) :
    Sent.of ⟨id, chatFields frm body subject important, ts, expiresAt⟩ =
        ⟨id, frm, body, subject, important, ts⟩ ∧
      (Sent.of ⟨id, chatFields frm body subject important, ts, expiresAt⟩).message =
        Message.of ⟨id, chatFields frm body subject important, ts, expiresAt⟩ := by
  have hzero : (lit "0" == lit "1") = false := by decide
  by_cases hs : subject = [] <;> cases important <;>
    simp [Sent.of, Sent.message, Message.of, chatFields, Fields.get, List.lookup, hs, hzero]

/-- Nothing, a chat to `a`, or a fetch of `a`'s. -/
inductive Effect (cfg : Config) (srv : Server) (a : PyStr) (ev : MailEvent) : Prop
  | none : ev.accepted a = [] → ev.returned a = [] →
    ev.post.stream a = ev.pre.stream a → ev.post.cursor a = ev.pre.cursor a → Effect cfg srv a ev
  | chat (fields : Fields) (m : Sent) : ev.accepted a = [m] → ev.returned a = [] →
    Sent.of ⟨m.msgId, fields, ev.pre.sec, ev.pre.sec + cfg.messageTtl⟩ = m →
    m.message = Message.of ⟨m.msgId, fields, ev.pre.sec, ev.pre.sec + cfg.messageTtl⟩ →
    m.msgId = srv.nextId ev.pre.now (ev.pre.stream a).last →
    ev.post.stream a = (ev.pre.stream a).add srv ev.pre.now fields ev.pre.sec
      (ev.pre.sec + cfg.messageTtl) →
    ev.post.cursor a = ev.pre.cursor a → Effect cfg srv a ev
  | fetch (n : Nat) : ev.accepted a = [] →
    ev.returned a = (unexpired ev.pre.sec ((ev.pre.unread a).take n)).map Message.of →
    ev.post.stream a = ev.pre.stream a → ev.post.unread a = (ev.pre.unread a).drop n →
    (∀ c, ev.post.cursor a = some c → ev.pre.cursor a = some c ∨ c ≤ (ev.pre.stream a).last) →
    Effect cfg srv a ev

section
variable {cfg : Config} {srv : Server} {a : PyStr} {s t : Db}

theorem stream_congr (hnow : t.now = s.now) (h : t.keys (.inbox a) = s.keys (.inbox a)) :
    t.stream a = s.stream a := by
  unfold Db.stream
  rw [hnow, Keyspace.get_congr h]

theorem cursor_congr (hnow : t.now = s.now) (h : t.keys (.cursor a) = s.keys (.cursor a)) :
    t.cursor a = s.cursor a := by
  unfold Db.cursor
  rw [hnow, Keyspace.get_congr h]

theorem Effect.of_error {x : MailStep} {e : PyExn} (hs : t.stream a = s.stream a)
    (hc : t.cursor a = s.cursor a) : Effect cfg srv a ⟨x, .error e, s, t⟩ := by
  refine .none ?_ ?_ hs hc
  · cases x with
    | tick d => rfl
    | call c => cases c <;> rfl
  · cases x <;> rfl

variable (srv a s) in
/-- A rate check touches no inbox and no cursor. -/
theorem incr_mail (kind : RateKind) (b : PyStr) (window : Int) :
    (exec srv (.incr kind b window) s).1.stream a = s.stream a ∧
    (exec srv (.incr kind b window) s).1.cursor a = s.cursor a :=
  ⟨stream_exec_other srv (by simp [Cmd.writes]), cursor_exec_other srv (by simp [Cmd.writes])⟩

theorem sender_rpc {ident : Identity Member} {header op : PyStr} {sender : Address} {args : Args}
    (hs : parseAgentHeader ident.userId header = .ok sender) :
    (Call.rpc ident header op args).sender = some sender.text := by
  simp [Call.sender, hs, Except.toOption]

/-- An answer that carries neither messages nor the id of one. -/
def Outcome.quiet : Outcome → Bool
  | .response (.fetch _) => false
  | .response (.chat ..) => false
  | _ => true

/-- Requests that touch no inbox and no cursor, and answer quietly. -/
theorem quiet_effect {x : MailStep} {r : Except PyExn Outcome}
    (hr : ∀ o, r = .ok o → o.quiet)
    (hst : t.stream a = s.stream a) (hcu : t.cursor a = s.cursor a) :
    Effect cfg srv a ⟨x, r, s, t⟩ := by
  refine .none ?_ ?_ hst hcu
  · unfold MailEvent.accepted
    split
    · exact absurd (hr _ (by assumption)) (by simp [Outcome.quiet])
    · rfl
  · unfold MailEvent.returned
    split
    · exact absurd (hr _ (by assumption)) (by simp [Outcome.quiet])
    · rfl

theorem rosterOf_quiet {ident : Identity Member} {sender : Address} {args : Args} {rows : List Row}
    {r : Response} (h : rosterOf ident sender args rows = .ok r) :
    ∃ agents hidden, r = .roster agents hidden := by
  unfold rosterOf at h
  dsimp only at h
  cases hg : filterGroup ident args (filterField args "runtime" Row.runtime (filterField args "project"
      Row.project (filterField args "user" Row.user rows))) with
  | error e => rw [hg] at h; cases h
  | ok agents =>
    rw [hg] at h
    dsimp only [bind, Except.bind] at h
    split at h
    · cases h
    · cases h; exact ⟨_, _, rfl⟩
    · cases h; exact ⟨_, _, rfl⟩

theorem announce_effect {ident : Identity Member} {sender : Address} {args : Args} (header op : PyStr) :
    Effect cfg srv a ⟨.call (.rpc ident header op args),
      ((opAnnounce cfg ident sender args).run (exec srv) s).1.map .response, s,
      ((opAnnounce cfg ident sender args).run (exec srv) s).2⟩ := by
  rcases hrun : (opAnnounce cfg ident sender args).run (exec srv) s with ⟨out, t⟩
  obtain ⟨hst, hcu⟩ := incr_mail srv a s .announce sender.text cfg.rateWindow
  cases opAnnounce_cases srv s cfg ident sender args hrun with
  | unnamed => exact .of_error rfl rfl
  | refused => exact .of_error rfl rfl
  | unscoped => exact .of_error rfl rfl
  | limited => exact .of_error hst hcu
  | unlisted _ _ _ _ hcounted =>
    rw [← hcounted] at hst hcu
    exact .of_error hst hcu
  | passed _ _ _ _ hcounted =>
    rw [← hcounted] at hst hcu
    exact quiet_effect (fun o ho => by cases ho; rfl) hst hcu

section
variable [Python] {ident : Identity Member} {header : PyStr} {sender : Address} {args : Args}

omit [Python] in
/-- The last part of a chat, after a rate check that left `t`. -/
theorem deliver_effect (hs : parseAgentHeader ident.userId header = .ok sender) (op : PyStr)
    (target : Row) {body subject : PyStr} (hbody : (Json.get args "body").asStr = body)
    (hsubject : (Json.get args "subject").asStr = subject) (hst : t.stream a = s.stream a)
    (hcu : t.cursor a = s.cursor a) (hnow : t.now = s.now) :
    Effect cfg srv a ⟨.call (.rpc ident header op args),
      (deliver srv t cfg sender args target body subject).1.map .response, s,
      (deliver srv t cfg sender args target body subject).2⟩ := by
  have hsec : t.sec = s.sec := by unfold Db.sec; rw [hnow]
  unfold deliver
  split
  · exact .of_error hst hcu
  · by_cases ha : target.addr = a
    · subst ha
      obtain ⟨hsent, hmsg⟩ := sent_of_chatFields
        (srv.nextId s.now (s.stream target.addr).last) sender.text body subject
        (Json.get args "important").truthy s.sec (s.sec + cfg.messageTtl)
      refine .chat _ _ ?_ rfl hsent (hsent ▸ hmsg) rfl ?_ ?_
      · simp only [MailEvent.accepted, Except.map, if_true, sender_rpc hs, Option.getD_some,
          hbody, hsubject, exec, hnow, hst]
      · show Db.stream (exec srv (.xadd target.addr _ _ _ cfg.inboxMaxlen.toNat) t).1 target.addr = _
        rw [stream_exec_xadd, hst, hsec, hnow]
      · show Db.cursor (exec srv (.xadd target.addr _ _ _ cfg.inboxMaxlen.toNat) t).1 target.addr = _
        rw [cursor_exec_other srv (by simp [Cmd.writes]), hcu]
    · refine .none ?_ rfl ?_ ?_
      · simp only [MailEvent.accepted, Except.map, if_neg ha]
      · show Db.stream (exec srv (.xadd target.addr _ _ _ cfg.inboxMaxlen.toNat) t).1 a = _
        rw [stream_exec_other srv (by simp [Cmd.writes, Ne.symm ha]), hst]
      · show Db.cursor (exec srv (.xadd target.addr _ _ _ cfg.inboxMaxlen.toNat) t).1 a = _
        rw [cursor_exec_other srv (by simp [Cmd.writes]), hcu]

theorem chat_effect (hs : parseAgentHeader ident.userId header = .ok sender) (op : PyStr) :
    Effect cfg srv a ⟨.call (.rpc ident header op args),
      ((opChat cfg ident sender args).run (exec srv) s).1.map .response, s,
      ((opChat cfg ident sender args).run (exec srv) s).2⟩ := by
  rcases hrun : (opChat cfg ident sender args).run (exec srv) s with ⟨out, t⟩
  obtain ⟨hst, hcu⟩ := incr_mail srv a s .chat sender.text cfg.rateWindow
  cases opChat_cases srv s cfg ident sender args hrun with
  | refused => exact .of_error rfl rfl
  | unlisted => exact .of_error rfl rfl
  | unresolved => exact .of_error rfl rfl
  | toSelf => exact .of_error rfl rfl
  | limited => exact .of_error hst hcu
  | @passed body subject target _ _ hsize _ _ _ _ hsent =>
    obtain ⟨hbody, hsubject⟩ := checkSize_ok hsize
    rw [← hsent]
    exact deliver_effect hs op target hbody hsubject hst hcu (exec_now srv _ s)

theorem fetch_effect (hs : parseAgentHeader ident.userId header = .ok sender) (op : PyStr) :
    Effect cfg srv a ⟨.call (.rpc ident header op args),
      ((opFetch sender args).run (exec srv) s).1.map .response, s,
      ((opFetch sender args).run (exec srv) s).2⟩ := by
  rw [opFetch_run_eq]
  cases pyInt ((Json.get args "limit").or (.int 20)) with
  | error e => exact .of_error rfl rfl
  | ok n =>
    dsimp only
    by_cases hn : min n 100 < 1
    · rw [fetchUnread_refused srv s _ hn]
      exact .of_error rfl rfl
    · have hlimit : 1 ≤ min n 100 := by omega
      obtain ⟨hres, hunread⟩ := fetchUnread_spec srv s sender.text hlimit
      have hstate := fetchUnread_state srv s sender.text (min n 100)
      generalize hr : (fetchUnread sender.text (min n 100)).run (exec srv) s = r
        at hres hunread hstate
      obtain ⟨res, t⟩ := r
      dsimp only at hres hunread hstate ⊢
      subst hres
      have hst : t.stream a = s.stream a := by
        rcases hstate with rfl | ⟨last, -, rfl⟩
        · rfl
        · exact stream_exec_other srv (by simp [Cmd.writes])
      by_cases ha : sender.text = a
      · subst ha
        refine .fetch (min n 100).toNat rfl ?_ hst hunread ?_
        · simp [MailEvent.returned, Except.map, sender_rpc hs, Db.page]
        · intro c hc
          rcases hstate with rfl | ⟨last, hlast, rfl⟩
          · exact .inl hc
          · right
            rw [cursor_exec_set] at hc
            cases hc
            exact (s.stream sender.text).le_last last hlast
      · refine .none rfl ?_ hst ?_
        · simp [MailEvent.returned, Except.map, sender_rpc hs, ha]
        · rcases hstate with rfl | ⟨last, -, rfl⟩
          · rfl
          · exact cursor_exec_other srv (by simp [Cmd.writes, Ne.symm ha])

theorem rpc_effect (op : PyStr) :
    Effect cfg srv a (MailStep.event cfg srv (.call (.rpc ident header op args)) s) := by
  have hev : MailStep.event cfg srv (.call (.rpc ident header op args)) s =
      ⟨.call (.rpc ident header op args),
        ((rpc cfg ident header op args).run (exec srv) s).1.map .response, s,
        ((rpc cfg ident header op args).run (exec srv) s).2⟩ := by
    simp only [MailStep.event, MailStep.run, Call.body, Prog.run_map]
  rw [hev]
  unfold rpc
  cases hs : parseAgentHeader ident.userId header with
  | error e => exact .of_error rfl rfl
  | ok sender =>
    dsimp only
    unfold dispatch
    split
    · exact chat_effect hs op
    · split
      · exact fetch_effect hs op
      · split
        · rw [opRoster_run]
          refine quiet_effect ?_ rfl rfl
          intro o ho
          dsimp only at ho
          split at ho
          · cases hr : rosterOf ident sender args (s.visibleRows ident) with
            | error e => rw [hr] at ho; cases ho
            | ok r =>
              rw [hr] at ho
              obtain ⟨agents, hidden, rfl⟩ := rosterOf_quiet hr
              cases ho
              rfl
          · cases ho
        · split
          · exact announce_effect header op
          · exact .of_error rfl rfl

/-- A call that answers quietly and writes neither of the two keys. -/
theorem quiet_call {c : Call} (hr : ∀ o, ((c.body cfg).run (exec srv) s).1 = .ok o → o.quiet)
    (hw : ∀ l cmd, c.Sends cfg l cmd → .inbox a ∉ cmd.writes ∧ .cursor a ∉ cmd.writes) :
    Effect cfg srv a ((MailStep.call c).event cfg srv s) := by
  have hnow : ((c.body cfg).run (exec srv) s).2.now = s.now := run_now srv _ s
  refine quiet_effect hr (stream_congr hnow ?_) (cursor_congr hnow ?_)
  · exact body_run_keys srv s cfg c fun l cmd h => (hw l cmd h).1
  · exact body_run_keys srv s cfg c fun l cmd h => (hw l cmd h).2

/-- **Every served operation has one of the three effects** on an inbox. -/
theorem step_effect (x : MailStep) (hx : x.served) (hin : s.Permanent (.inbox a))
    (hcur : s.Permanent (.cursor a)) : Effect cfg srv a (x.event cfg srv s) := by
  cases x with
  | tick d =>
    refine .none rfl rfl ?_ (cursor_env hcur (.tick d))
    show ((Env.tick d).apply s).stream a = s.stream a
    unfold Db.stream
    rw [(hin.env (.tick d)).get, hin.get]
    rfl
  | call c =>
    cases c with
    | rpc ident header op args => exact rpc_effect op
    | registerAgent addr groups metadata retention =>
      apply quiet_call
      · intro o ho
        cases ho
        rfl
      · intro l cmd h
        obtain rfl | ⟨v, rfl⟩ := h <;> simp [Cmd.writes]
    | touchPresence b cid ttl =>
      apply quiet_call
      · intro o ho
        cases ho
        rfl
      · intro l cmd h
        obtain rfl | ⟨v, rfl⟩ := h <;> simp [Cmd.writes]
    | clearPresence b cid =>
      apply quiet_call
      · intro o ho
        cases ho
        rfl
      · rintro l cmd rfl
        simp [Cmd.writes]
    | unreadCount b =>
      apply quiet_call
      · intro o ho
        change ((_ <$> unreadCount b : M Outcome).run (exec srv) s).1 = .ok o at ho
        rw [Prog.run_map] at ho
        cases hu : ((unreadCount b).run (exec srv) s).1 with
        | error e => rw [hu] at ho; cases ho
        | ok r => rw [hu] at ho; cases ho; rfl
      · intro l cmd h
        cases h <;> simp [Cmd.writes]
    | _ => cases hx

end

/-! ## The invariant -/

/-- The entries at or below the cursor. -/
def Db.readPart (s : Db) (a : PyStr) : List Entry :=
  (s.inbox a).filter fun e => !Stream.past (s.cursor a) e.id

/-- A predicate that is kept along an order cuts a list in that order in two. -/
theorem filter_not_append_filter {α : Type} {r : α → α → Prop} {p : α → Bool}
    (hp : ∀ x y, r x y → p x = true → p y = true) {l : List α} (hl : l.Pairwise r) :
    (l.filter fun x => !p x) ++ l.filter p = l := by
  induction l with
  | nil => rfl
  | cons x l ih =>
    obtain ⟨hx, hl⟩ := List.pairwise_cons.1 hl
    by_cases hpx : p x = true
    · have hall : ∀ y ∈ l, p y = true := fun y hy => hp x y (hx y hy) hpx
      rw [List.filter_cons_of_neg (by simp [hpx]), List.filter_cons_of_pos hpx,
        List.filter_eq_nil_iff.2 fun y hy => by simp [hall y hy], List.filter_eq_self.2 hall]
      rfl
    · rw [List.filter_cons_of_pos (by simp [hpx]), List.filter_cons_of_neg hpx, List.cons_append, ih hl]

/-- The cursor cuts the inbox in two. -/
theorem readPart_append_unread (s : Db) (a : PyStr) : s.readPart a ++ s.unread a = s.inbox a := by
  refine filter_not_append_filter (p := fun e => Stream.past (s.cursor a) e.id) ?_
    (s.stream a).sorted
  intro x y hxy hx
  cases hc : s.cursor a with
  | none => rfl
  | some c =>
    rw [hc] at hx
    exact decide_eq_true ((of_decide_eq_true hx).trans hxy)

structure Ledger (cfg : Config) (a : PyStr) (s : Db) (h : List MailEvent) : Prop where
  inbox : s.Permanent (.inbox a)
  cursor : s.Permanent (.cursor a)
  bound : ∀ c, s.cursor a = some c → c ≤ (s.stream a).last
  ahead : ∀ id, (s.stream a).last < id → h.find? (·.passes a id) = none
  accepted : accepted a h = (s.inbox a).map Sent.of
  stamped : ∀ e ∈ s.inbox a, e.expiresAt = e.ts + cfg.messageTtl ∧
    (Sent.of e).message = Message.of e
  read : ∀ e ∈ s.readPart a, (h.find? (·.passes a e.id)).isSome = true
  unread : ∀ e ∈ s.unread a, h.find? (·.passes a e.id) = none
  returned : returned a h = ((s.readPart a).filter fun e =>
    decide (passedAt a h s.sec e.id < e.expiresAt)).map Message.of

section
variable {cfg : Config} {srv : Server} {a : PyStr} {s : Db} {h : List MailEvent} {ev : MailEvent}

theorem passedAt_append_of_isSome {now now' : Int} {id : StreamId}
    (hf : (h.find? (·.passes a id)).isSome = true) :
    passedAt a (h ++ [ev]) now id = passedAt a h now' id := by
  unfold passedAt
  obtain ⟨ev', hev⟩ := Option.isSome_iff_exists.1 hf
  rw [List.find?_append, hev]
  rfl

theorem find_append_eq_none {id : StreamId} (hf : h.find? (·.passes a id) = none)
    (hev : ev.passes a id = false) : (h ++ [ev]).find? (·.passes a id) = none := by
  rw [List.find?_append, hf]
  simp [hev]

theorem passes_of_cursor_eq (hc : ev.post.cursor a = ev.pre.cursor a) (id : StreamId) :
    ev.passes a id = false := by
  unfold MailEvent.passes
  rw [hc]
  cases Stream.past (ev.pre.cursor a) id <;> rfl

/-- What was returned so far stays what it is. -/
theorem Ledger.returned_append (hI : Ledger cfg a s h) (now : Int) :
    ((s.readPart a).filter fun e => decide (passedAt a (h ++ [ev]) now e.id < e.expiresAt)).map
      Message.of = Muster.returned a h := by
  rw [hI.returned]
  congr 1
  exact List.filter_congr fun e he => by rw [passedAt_append_of_isSome (hI.read e he)]

theorem accepted_append : Muster.accepted a (h ++ [ev]) = Muster.accepted a h ++ ev.accepted a := by
  simp [Muster.accepted]

theorem returned_append : Muster.returned a (h ++ [ev]) = Muster.returned a h ++ ev.returned a := by
  simp [Muster.returned]

/-! ### The three effects -/

theorem Ledger.none (hI : Ledger cfg a ev.pre h) (hin : ev.post.Permanent (.inbox a))
    (hcur : ev.post.Permanent (.cursor a)) (hacc : ev.accepted a = []) (hret : ev.returned a = [])
    (hst : ev.post.stream a = ev.pre.stream a) (hcu : ev.post.cursor a = ev.pre.cursor a) :
    Ledger cfg a ev.post (h ++ [ev]) := by
  have hinbox : ev.post.inbox a = ev.pre.inbox a := by unfold Db.inbox; rw [hst]
  have hread : ev.post.readPart a = ev.pre.readPart a := by unfold Db.readPart; rw [hinbox, hcu]
  have hunread : ev.post.unread a = ev.pre.unread a := by unfold Db.unread; rw [hinbox, hcu]
  have hpass := passes_of_cursor_eq hcu
  refine ⟨hin, hcur, ?_, ?_, ?_, ?_, ?_, ?_, ?_⟩
  · rw [hst, hcu]; exact hI.bound
  · rw [hst]
    intro id hid
    exact find_append_eq_none (hI.ahead id hid) (hpass id)
  · rw [accepted_append, hacc, List.append_nil, hinbox, hI.accepted]
  · rw [hinbox]; exact hI.stamped
  · rw [hread]
    intro e he
    rw [List.find?_append, Option.isSome_or, hI.read e he, Bool.true_or]
  · rw [hunread]
    intro e he
    exact find_append_eq_none (hI.unread e he) (hpass e.id)
  · rw [Muster.returned_append, hret, List.append_nil, hread, hI.returned_append]

theorem Ledger.chat (hI : Ledger cfg a ev.pre h) (hin : ev.post.Permanent (.inbox a))
    (hcur : ev.post.Permanent (.cursor a)) {fields : Fields} {m : Sent}
    (hacc : ev.accepted a = [m]) (hret : ev.returned a = [])
    (hm : Sent.of ⟨m.msgId, fields, ev.pre.sec, ev.pre.sec + cfg.messageTtl⟩ = m)
    (hmsg : m.message = Message.of ⟨m.msgId, fields, ev.pre.sec, ev.pre.sec + cfg.messageTtl⟩)
    (hid : m.msgId = srv.nextId ev.pre.now (ev.pre.stream a).last)
    (hst : ev.post.stream a = (ev.pre.stream a).add srv ev.pre.now fields ev.pre.sec
      (ev.pre.sec + cfg.messageTtl))
    (hcu : ev.post.cursor a = ev.pre.cursor a) : Ledger cfg a ev.post (h ++ [ev]) := by
  have hlt : (ev.pre.stream a).last < m.msgId := hid ▸ srv.lt_nextId _ _
  have hlast : (ev.post.stream a).last = m.msgId := by rw [hst, hid]; rfl
  have hinbox : ev.post.inbox a =
      ev.pre.inbox a ++ [⟨m.msgId, fields, ev.pre.sec, ev.pre.sec + cfg.messageTtl⟩] := by
    unfold Db.inbox
    rw [hst, hid]
    rfl
  -- the new entry is past the cursor
  have hpast : Stream.past (ev.pre.cursor a) m.msgId = true := by
    cases hc : ev.pre.cursor a with
    | none => rfl
    | some c => exact decide_eq_true ((hI.bound c hc).trans_lt hlt)
  have hread : ev.post.readPart a = ev.pre.readPart a := by
    unfold Db.readPart
    rw [hinbox, hcu, List.filter_append]
    simp [hpast]
  have hunread : ev.post.unread a = ev.pre.unread a ++
      [⟨m.msgId, fields, ev.pre.sec, ev.pre.sec + cfg.messageTtl⟩] := by
    unfold Db.unread
    rw [hinbox, hcu, List.filter_append]
    simp [hpast]
  have hpass := passes_of_cursor_eq hcu
  refine ⟨hin, hcur, ?_, ?_, ?_, ?_, ?_, ?_, ?_⟩
  · rw [hlast, hcu]
    intro c hc
    exact (hI.bound c hc).trans hlt.le
  · rw [hlast]
    intro id hid
    exact find_append_eq_none (hI.ahead id (hlt.trans hid)) (hpass id)
  · rw [accepted_append, hacc, hinbox, hI.accepted, List.map_append, List.map_singleton, hm]
  · rw [hinbox]
    intro e he
    rcases List.mem_append.1 he with he | he
    · exact hI.stamped e he
    · rw [List.mem_singleton.1 he]
      exact ⟨rfl, by rw [hm, hmsg]⟩
  · rw [hread]
    intro e he
    rw [List.find?_append, Option.isSome_or, hI.read e he, Bool.true_or]
  · rw [hunread]
    intro e he
    refine find_append_eq_none ?_ (hpass e.id)
    rcases List.mem_append.1 he with he | he
    · exact hI.unread e he
    · rw [List.mem_singleton.1 he]
      exact hI.ahead _ hlt
  · rw [Muster.returned_append, hret, List.append_nil, hread, hI.returned_append]

theorem Ledger.fetch (hI : Ledger cfg a ev.pre h) (hin : ev.post.Permanent (.inbox a))
    (hcur : ev.post.Permanent (.cursor a)) {n : Nat} (hacc : ev.accepted a = [])
    (hret : ev.returned a = (unexpired ev.pre.sec ((ev.pre.unread a).take n)).map Message.of)
    (hst : ev.post.stream a = ev.pre.stream a)
    (hun : ev.post.unread a = (ev.pre.unread a).drop n)
    (hcu : ∀ c, ev.post.cursor a = some c → ev.pre.cursor a = some c ∨ c ≤ (ev.pre.stream a).last) :
    Ledger cfg a ev.post (h ++ [ev]) := by
  have hinbox : ev.post.inbox a = ev.pre.inbox a := by unfold Db.inbox; rw [hst]
  have hread : ev.post.readPart a = ev.pre.readPart a ++ (ev.pre.unread a).take n := by
    have hpost := readPart_append_unread ev.post a
    rw [hinbox, ← readPart_append_unread ev.pre a, hun] at hpost
    conv_rhs at hpost => rw [← List.take_append_drop n (ev.pre.unread a), ← List.append_assoc]
    exact List.append_cancel_right hpost
  have hbound : ∀ c, ev.post.cursor a = some c → c ≤ (ev.pre.stream a).last := by
    intro c hc
    rcases hcu c hc with h | h
    · exact hI.bound c h
    · exact h
  -- the page is passed by this fetch, and what is beyond it is not
  have hpage : ∀ e ∈ (ev.pre.unread a).take n, ev.passes a e.id = true := by
    intro e he
    have hpre := (List.mem_filter.1 (List.mem_of_mem_take he)).2
    have hpost : e ∈ ev.post.readPart a := hread ▸ List.mem_append_right _ he
    have hpost := (List.mem_filter.1 hpost).2
    simp only [MailEvent.passes, hpre, hpost, Bool.and_self]
  have hbeyond : ∀ id, Stream.past (ev.post.cursor a) id = true → ev.passes a id = false := by
    intro id hp
    simp [MailEvent.passes, hp]
  refine ⟨hin, hcur, ?_, ?_, ?_, ?_, ?_, ?_, ?_⟩
  · rw [hst]; exact hbound
  · rw [hst]
    intro id hid
    refine find_append_eq_none (hI.ahead id hid) (hbeyond id ?_)
    cases hc : ev.post.cursor a with
    | none => rfl
    | some c => exact decide_eq_true ((hbound c hc).trans_lt hid)
  · rw [accepted_append, hacc, List.append_nil, hinbox, hI.accepted]
  · rw [hinbox]; exact hI.stamped
  · rw [hread]
    intro e he
    rw [List.find?_append, Option.isSome_or]
    rcases List.mem_append.1 he with he | he
    · rw [hI.read e he, Bool.true_or]
    · simp [hpage e he]
  · intro e he
    have hp := (List.mem_filter.1 he).2
    rw [hun] at he
    exact find_append_eq_none (hI.unread e (List.mem_of_mem_drop he)) (hbeyond e.id hp)
  · rw [Muster.returned_append, hret, hread, List.filter_append, List.map_append, hI.returned_append]
    congr 2
    refine List.filter_congr ?_
    intro e he
    have hnone := hI.unread e (List.mem_of_mem_take he)
    have hpass : passedAt a (h ++ [ev]) ev.post.sec e.id = ev.pre.sec := by
      unfold passedAt
      rw [List.find?_append, hnone]
      simp [hpage e he]
    rw [hpass]

/-! ## Runs -/

theorem ledger_step [Python] (x : MailStep) (hx : x.served) (hI : Ledger cfg a s h) :
    Ledger cfg a (x.run cfg srv s).2 (h ++ [x.event cfg srv s]) := by
  have hkeep : ∀ k : Key, k.lasting = true → s.Permanent k → (x.run cfg srv s).2.Permanent k := by
    intro k hk hp
    cases x with
    | tick d => exact hp.env (.tick d)
    | call c =>
      refine body_run_keeps srv s cfg c (I := fun t => t.Permanent k) ?_ hp
      intro l cmd t hc ht
      refine ht.exec hk srv ?_
      intro secs he
      obtain ⟨kind, b, rfl⟩ := Call.Sends.expire (he ▸ hc)
      cases hk
  have hin := hkeep _ rfl hI.inbox
  have hcur := hkeep _ rfl hI.cursor
  have heffect : Effect cfg srv a (x.event cfg srv s) := step_effect x hx hI.inbox hI.cursor
  cases heffect with
  | none hacc hret hst hcu => exact Ledger.none hI hin hcur hacc hret hst hcu
  | chat fields m hacc hret hm hmsg hid hst hcu =>
    exact Ledger.chat hI hin hcur hacc hret hm hmsg hid hst hcu
  | fetch n hacc hret hst hun hcu => exact Ledger.fetch hI hin hcur hacc hret hst hun hcu

theorem history_ledger [Python] {s₀ : Db} (hin : s₀.keys (.inbox a) = none)
    (hcur : s₀.keys (.cursor a) = none) (hh : MailHistory cfg srv s₀ s h) : Ledger cfg a s h := by
  induction hh with
  | start =>
    have hempty : s₀.inbox a = [] := by
      simp [Db.inbox, Db.stream, Stream.empty, Keyspace.get, Keyspace.look, hin]
    have hnone : s₀.cursor a = none := by simp [Db.cursor, Keyspace.get, Keyspace.look, hcur]
    refine ⟨?_, ?_, ?_, ?_, ?_, ?_, ?_, ?_, ?_⟩
    · exact fun v hv => by rw [hin] at hv; cases hv
    · exact fun v hv => by rw [hcur] at hv; cases hv
    all_goals simp [hempty, hnone, Db.readPart, Db.unread, Muster.accepted, Muster.returned]
  | step x _ hx ih => exact ledger_step x hx ih

/-- **The chat log equals the fetch log**: what an agent's fetches returned, and then
what is unread and has not expired, are the chats it was sent, in the order they were
accepted, less those that had expired when the cursor passed them. -/
theorem chat_log_eq_fetch_log [Python] {s₀ : Db} (hin : s₀.keys (.inbox a) = none)
    (hcur : s₀.keys (.cursor a) = none) (hh : MailHistory cfg srv s₀ s h) :
    returned a h ++ (unexpired s.sec (s.unread a)).map Message.of =
      ((accepted a h).filter fun m =>
        decide (passedAt a h s.sec m.msgId < m.sentAt + cfg.messageTtl)).map Sent.message := by
  have hI := history_ledger hin hcur hh
  -- the filter, said of the entries of the inbox
  have hlog : ((accepted a h).filter fun m =>
      decide (passedAt a h s.sec m.msgId < m.sentAt + cfg.messageTtl)).map Sent.message =
      ((s.inbox a).filter fun e => decide (passedAt a h s.sec e.id < e.expiresAt)).map Message.of := by
    rw [hI.accepted, List.filter_map, List.map_map]
    have hfilter : (s.inbox a).filter ((fun m : Sent =>
          decide (passedAt a h s.sec m.msgId < m.sentAt + cfg.messageTtl)) ∘ Sent.of) =
        (s.inbox a).filter fun e => decide (passedAt a h s.sec e.id < e.expiresAt) :=
      List.filter_congr fun e he => by rw [(hI.stamped e he).1]; rfl
    rw [hfilter]
    exact List.map_congr_left fun e he => (hI.stamped e (List.mem_of_mem_filter he)).2
  have hunread : unexpired s.sec (s.unread a) =
      (s.unread a).filter fun e => decide (passedAt a h s.sec e.id < e.expiresAt) := by
    refine List.filter_congr ?_
    intro e he
    unfold passedAt
    rw [hI.unread e he]
  rw [hlog, hI.returned, hunread, ← List.map_append, ← List.filter_append, readPart_append_unread]

end

end

def mailSteps : List MailStep :=
  let u : Identity Member := ⟨lit "u", []⟩
  [.call (.registerAgent ⟨lit "u", lit "h", lit "r", lit "p", lit "x"⟩ [] (.obj []) 600),
    .call (.rpc u (lit "h/r/p/y") (lit "chat") [(lit "to", .str (lit "x")), (lit "body", .str (lit "hi"))]),
    .tick 2000,
    .call (.rpc u (lit "h/r/p/x") (lit "fetch") [])]

/-- The store and the history after the steps. -/
def mailRun : Db × List MailEvent :=
  mailSteps.foldl (fun r x => ((@MailStep.run Python.plain Config.defaults Server.plain x r.1).2,
    r.2 ++ [@MailStep.event Python.plain Config.defaults Server.plain x r.1])) (.empty 5000, [])

theorem mailRun_history :
    @MailHistory Python.plain Config.defaults Server.plain (.empty 5000) mailRun.1 mailRun.2 :=
  letI := Python.plain
  .step _ (.step _ (.step _ (.step _ .start trivial) trivial) trivial) trivial

theorem chat_log_eq_fetch_log_mailRun :
    let a := lit "u/h/r/p/x"
    (returned a mailRun.2).length = 1 ∧
    returned a mailRun.2 ++ (unexpired mailRun.1.sec (mailRun.1.unread a)).map Message.of =
      ((accepted a mailRun.2).filter fun m => decide (passedAt a mailRun.2 mailRun.1.sec m.msgId <
        m.sentAt + Config.defaults.messageTtl)).map Sent.message :=
  ⟨rfl, @chat_log_eq_fetch_log Config.defaults Server.plain (lit "u/h/r/p/x") mailRun.1 mailRun.2
    Python.plain (.empty 5000) rfl rfl mailRun_history⟩

end Muster
