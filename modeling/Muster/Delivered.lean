import Muster.MailLog
import Muster.Wording

/-!
# What the chat tool reports

The tool says `Delivered to …` iff the message is in the inbox of the agent it names, under
the id it names.  Everything else it can say begins otherwise, and means that no inbox has
changed; but for a call whose answer is lost, which says that the bus is offline and may
have stored the message (`chat_report`).
-/

namespace Muster

def SameInboxes (s t : Db) : Prop := ∀ b, t.keys (.inbox b) = s.keys (.inbox b)

/-- One message more than in `s`: the chat of `args`, in the inbox of `target`. -/
structure Stored (sender : Address) (args : Args) (s t : Db) (target : Row) (e : Entry) : Prop where
  others : ∀ b, b ≠ target.addr → t.keys (.inbox b) = s.keys (.inbox b)
  appended : t.inbox target.addr = s.inbox target.addr ++ [e]
  fresh : (s.stream target.addr).last < e.id
  message : Sent.of e = ⟨e.id, sender.text, (Json.get args "body").asStr,
    (Json.get args "subject").asStr, (Json.get args "important").truthy, s.sec⟩

/-- No message more than in `s`, or one. -/
def AtMostStored (ident : Identity Member) (sender : Address) (args : Args) (s t : Db) : Prop :=
  SameInboxes s t ∨ ∃ target e, target ∈ s.visibleRows ident ∧ Stored sender args s t target e

section
variable {s t u : Db} {sender : Address} {args : Args} {target : Row} {e : Entry}

theorem SameInboxes.exec (h : SameInboxes s t) (srv : Server) {c : Cmd} (hc : ∀ b, .inbox b ∉ c.writes) :
    SameInboxes s (exec srv c t).1 := fun b => (exec_other srv c t (hc b)).trans (h b)

theorem Stored.publish (h : Stored sender args s t target e) (srv : Server) (a : PyStr) (event : Json) :
    Stored sender args s (exec srv (.publish a event) t).1 target e :=
  ⟨h.others, h.appended, h.fresh, h.message⟩

variable (sender args) in
/-- The XADD of a chat. -/
theorem stored_xadd (srv : Server) (hsame : SameInboxes s u) (hnow : u.now = s.now) (target : Row)
    {body subject : PyStr} (hbody : (Json.get args "body").asStr = body)
    (hsubject : (Json.get args "subject").asStr = subject) (expiresAt : Int) (maxlen : Nat) :
    ∃ e, e.id = (exec srv (.xadd target.addr
        (chatFields sender.text body subject (Json.get args "important").truthy) s.sec expiresAt maxlen) u).2 ∧
      Stored sender args s (exec srv (.xadd target.addr
        (chatFields sender.text body subject (Json.get args "important").truthy) s.sec expiresAt maxlen) u).1
        target e := by
  refine ⟨⟨srv.nextId u.now (u.stream target.addr).last, chatFields sender.text body subject
    (Json.get args "important").truthy, s.sec, expiresAt⟩, rfl, ?_, ?_, ?_, ?_⟩
  · intro b hb
    rw [exec_other srv _ u (by simpa [Cmd.writes] using hb)]
    exact hsame b
  · unfold Db.inbox
    rw [stream_exec_xadd, ← stream_congr hnow (hsame target.addr)]
    rfl
  · rw [← stream_congr hnow (hsame target.addr)]
    exact srv.lt_nextId _ _
  · rw [hbody, hsubject]
    exact (sent_of_chatFields _ _ _ _ _ _ _).1

end

/-! ## The handler -/

section
variable [Python] {cfg : Config} {srv : Server} {ident : Identity Member} {sender : Address} {args : Args}
  {s t : Db}

/-- A chat is refused and changes no inbox, or stores its message. -/
theorem opChat_outcome {out : Except PyExn Response}
    (hrun : (opChat cfg ident sender args).run (exec srv) s = (out, t)) :
    (∃ e, out = .error e ∧ SameInboxes s t) ∨
    ∃ target e, target ∈ s.visibleRows ident ∧ out = .ok (.chat e.id target.addr target.status) ∧
      Stored sender args s t target e := by
  have hincr : SameInboxes s (exec srv (.incr .chat sender.text cfg.rateWindow) s).1 := fun b =>
    exec_other srv _ s (by simp [Cmd.writes])
  cases opChat_cases srv s cfg ident sender args hrun with
  | refused _ => exact .inl ⟨_, rfl, fun _ => rfl⟩
  | unlisted _ _ => exact .inl ⟨_, rfl, fun _ => rfl⟩
  | unresolved _ _ _ => exact .inl ⟨_, rfl, fun _ => rfl⟩
  | toSelf _ _ _ _ => exact .inl ⟨_, rfl, fun _ => rfl⟩
  | limited _ _ _ _ _ => exact .inl ⟨_, rfl, hincr⟩
  | @passed body subject target _ _ hsize _ hto _ _ hsent =>
    unfold deliver at hsent
    split at hsent
    · cases hsent
      exact .inl ⟨_, rfl, hincr⟩
    · cases hsent
      obtain ⟨hbody, hsubject⟩ := checkSize_ok hsize
      obtain ⟨e, hid, hstored⟩ := stored_xadd sender args srv hincr (exec_now srv _ s) target
        hbody hsubject (s.sec + cfg.messageTtl) cfg.inboxMaxlen.toNat
      refine .inr ⟨target, e, mem_of_resolveReference hto, ?_, hstored.publish srv _ _⟩
      rw [hid]
      rfl

omit [Python] in
/-- From the append on. -/
theorem append_cut {α : Type} {u : Db} (hsame : SameInboxes s u) (hnow : u.now = s.now) (target : Row)
    {body subject : PyStr} (hbody : (Json.get args "body").asStr = body)
    (hsubject : (Json.get args "subject").asStr = subject) (event : StreamId → Json) (r : StreamId → α)
    (n : Nat) : ∀ v, v = (do
        let msgId ← appendMessage target.addr
          (chatFields sender.text body subject (Json.get args "important").truthy) cfg.inboxMaxlen
          cfg.messageTtl
        publishDeliver target.addr (event msgId)
        return r msgId : M α).cut (exec srv) n u →
      SameInboxes s v ∨ ∃ e, Stored sender args s v target e := by
  intro v hv
  have hsec : u.sec = s.sec := by rw [Db.sec, Db.sec, hnow]
  obtain ⟨e, -, hstored⟩ := stored_xadd sender args srv hsame hnow target hbody hsubject
    (s.sec + cfg.messageTtl) cfg.inboxMaxlen.toNat
  cases n with
  | zero => exact .inl (hv ▸ hsame)
  | succ n =>
    replace hv : v = (((if cfg.inboxMaxlen < 0 then .throw .dataError
        else send (.xadd target.addr
          (chatFields sender.text body subject (Json.get args "important").truthy) u.sec
          (u.sec + cfg.messageTtl) cfg.inboxMaxlen.toNat) : M StreamId) >>= fun msgId =>
        (publishDeliver target.addr (event msgId) >>= fun _ => pure (r msgId) : M α)).cut (exec srv) n u) :=
      hv
    rw [hsec] at hv
    split at hv
    · rw [Prog.throw_bind, Prog.cut_throw] at hv
      exact .inl (hv ▸ hsame)
    · cases n with
      | zero => exact .inl (hv ▸ hsame)
      | succ n =>
        cases n with
        | zero => exact .inr ⟨e, hv ▸ hstored⟩
        | succ n =>
          replace hv : v = (Prog.ret (r _) : M α).cut (exec srv) n
            (exec srv (.publish target.addr _) (exec srv (.xadd target.addr _ _ _ _) u).1).1 := hv
          rw [Prog.cut_ret] at hv
          exact .inr ⟨e, hv ▸ hstored.publish srv _ _⟩

variable (cfg srv ident sender args s) in
/-- A chat that is cut off has changed no inbox, or has stored its message. -/
theorem opChat_cut (n : Nat) :
    AtMostStored ident sender args s ((opChat cfg ident sender args).cut (exec srv) n s) := by
  have hsame : SameInboxes s s := fun _ => rfl
  refine Prog.cut_lift_of (exec srv) (J := AtMostStored ident sender args s) (.inl hsame) ?_ n
  intro sized hsize n
  obtain ⟨body, subject⟩ := sized
  obtain ⟨hbody, hsubject⟩ := checkSize_ok hsize
  refine Prog.cut_bind_of (exec srv) (J := AtMostStored ident sender args s) (fun m => .inl ?_) ?_ n
  · refine Prog.cut_keeps (exec srv) (I := SameInboxes s) (fun l c u hc hu => ?_)
      (((visibleAgents_ensures ident []).mono (fun _ _ => id) fun _ _ _ => trivial)) hsame m
    exact hu.exec srv fun b => by cases c <;> simp_all [Cmd.ReadsDirectory, Cmd.writes]
  intro agents hagents n
  rw [visibleAgents_run] at hagents ⊢
  obtain rfl : s.visibleRows ident = agents := by
    dsimp only at hagents
    split at hagents <;> cases hagents
    rfl
  refine Prog.cut_lift_of (exec srv) (J := AtMostStored ident sender args s) (.inl hsame) ?_ n
  intro target hto n
  split
  · rw [Prog.cut_throw]
    exact .inl hsame
  have hrate := (checkRate_ensures .chat sender.text cfg.chatRate cfg.rateWindow []).mono
    (fun _ _ => id) fun _ _ _ => trivial
  have hrates : ∀ (l : Log) (c : Cmd) (u : Db), RateSends .chat sender.text c → SameInboxes s u →
      SameInboxes s (exec srv c u).1 := fun l c u hc hu =>
    hu.exec srv fun b => by cases c <;> simp_all [RateSends, Cmd.writes]
  refine Prog.cut_bind_of (exec srv) (J := AtMostStored ident sender args s)
    (fun m => .inl (Prog.cut_keeps (exec srv) hrates hrate hsame m)) ?_ n
  intro _ _ n
  have hcounted := Prog.run_keeps (exec srv) hrates hrate hsame
  rcases append_cut hcounted (run_now srv _ s) target hbody hsubject _ _ n _ rfl with h | ⟨e, h⟩
  · exact .inl h
  · exact .inr ⟨target, e, mem_of_resolveReference hto, h⟩

end

/-! ## The tool -/

def deliveryReport (dest : PyStr) (status : Status) (msgId : StreamId) : PyStr :=
  lit "Delivered to " ++ dest ++ lit " (" ++ status.text ++ lit ", msg " ++ msgId.text ++ lit ")."

/-- What the tool says a chat came to, and what that means. -/
inductive ChatReport (resolved : Except AuthExn (Identity Member)) (header : PyStr) (args : Args)
    (s t : Db) : Fate → PyStr → Prop
  | delivered {ident : Identity Member} {sender : Address} {target : Row} {e : Entry}
    (hident : resolved = .ok ident) (hsender : parseAgentHeader ident.userId header = .ok sender)
    (hvisible : target ∈ s.visibleRows ident) (hstored : Stored sender args s t target e) :
    ChatReport resolved header args s t .answered (deliveryReport target.addr target.status e.id)
  | refused {fate : Fate} {text : PyStr} (htext : refusing text = true) (hsame : SameInboxes s t) :
    ChatReport resolved header args s t fate text
  | unheard {ident : Identity Member} {sender : Address} {target : Row} {e : Entry} {name text : PyStr}
    {n : Nat} (hident : resolved = .ok ident)
    (hsender : parseAgentHeader ident.userId header = .ok sender) (hvisible : target ∈ s.visibleRows ident)
    (hstored : Stored sender args s t target e) (htext : refusing text = true) :
    ChatReport resolved header args s t (.lost name n) text

section
variable [Python] {cfg : Config} {srv : Server} {args request : Args} {s t : Db}

omit [Python] in
theorem item_ok {key : String} {v : Json} (h : (Json.obj args).item key = .ok v) : Json.get args key = v := by
  unfold Json.item at h
  dsimp only at h
  split at h
  · next w hw =>
    cases h
    rw [Json.get, hw]
    rfl
  · cases h

omit [Python] in
theorem item_dict {kvs : List (PyStr × Json)} {key : String} {v : Json} (h : kvs.lookup (lit key) = some v) :
    (Json.obj kvs).item key = .ok v := by
  unfold Json.item
  dsimp only
  rw [h]

omit [Python] in
/-- The server is sent the arguments of the tool. -/
theorem Stored.of_request {sender : Address} {target : Row} {e : Entry}
    (hrequest : chatRequest args = .ok request) (h : Stored sender request s t target e) :
    Stored sender args s t target e := by
  refine ⟨h.others, h.appended, h.fresh, ?_⟩
  rw [h.message]
  unfold chatRequest at hrequest
  cases hto : (Json.obj args).item "to" with
  | error e =>
    rw [hto] at hrequest
    cases hrequest
  | ok dest =>
    cases hbody : (Json.obj args).item "body" with
    | error e =>
      rw [hto, hbody] at hrequest
      cases hrequest
    | ok body =>
      rw [hto, hbody] at hrequest
      cases hrequest
      rw [item_ok hbody]
      have h1 : Json.get (dict [("to", dest), ("body", body), ("subject", Json.get args "subject"),
          ("important", .bool (Json.get args "important").truthy)]) "body" = body := by
        rw [get_dict_cons, if_neg (by decide), get_dict_cons, if_pos rfl]
      have h2 : Json.get (dict [("to", dest), ("body", body), ("subject", Json.get args "subject"),
          ("important", .bool (Json.get args "important").truthy)]) "subject" =
            Json.get args "subject" := by
        rw [get_dict_cons, if_neg (by decide), get_dict_cons, if_neg (by decide), get_dict_cons,
          if_pos rfl]
      have h3 : Json.get (dict [("to", dest), ("body", body), ("subject", Json.get args "subject"),
          ("important", .bool (Json.get args "important").truthy)]) "important" =
            .bool (Json.get args "important").truthy := by
        rw [get_dict_cons, if_neg (by decide), get_dict_cons, if_neg (by decide), get_dict_cons,
          if_neg (by decide), get_dict_cons, if_pos rfl]
      rw [h1, h2, h3]
      rfl

theorem chatText_chat (id : StreamId) (dest : PyStr) (status : Status) :
    chatText (Response.chat id dest status).json = .ok (deliveryReport dest status id) := by
  unfold chatText Response.json
  have hto : (dict [("ok", .bool true), ("msg_id", .str id.text), ("to", .str dest),
      ("status", .str status.text)]).lookup (lit "to") = some (.str dest) := by
    rw [lookup_dict_cons, if_neg (by decide), lookup_dict_cons, if_neg (by decide), lookup_dict_cons,
      if_pos rfl]
  have hstatus : (dict [("ok", .bool true), ("msg_id", .str id.text), ("to", .str dest),
      ("status", .str status.text)]).lookup (lit "status") = some (.str status.text) := by
    rw [lookup_dict_cons, if_neg (by decide), lookup_dict_cons, if_neg (by decide), lookup_dict_cons,
      if_neg (by decide), lookup_dict_cons, if_pos rfl]
  have hid : (dict [("ok", .bool true), ("msg_id", .str id.text), ("to", .str dest),
      ("status", .str status.text)]).lookup (lit "msg_id") = some (.str id.text) := by
    rw [lookup_dict_cons, if_neg (by decide), lookup_dict_cons, if_pos rfl]
  dsimp only
  rw [item_dict hto, item_dict hstatus, item_dict hid]
  rfl

omit [Python] in
theorem chatTextJs_chat [JsNumbers] (id : StreamId) (dest : PyStr) (status : Status) :
    chatTextJs (Response.chat id dest status).json = some (deliveryReport dest status id) := by
  unfold chatTextJs Response.json Json.template
  simp +decide only [lookup_dict_cons, if_false, if_true, Json.jsString]
  rfl

def announceReport (recipients : Int) : PyStr :=
  lit "Announced to " ++ PyStr.strInt recipients ++ lit " online agent(s)."

/-- **Both clients report what has succeeded alike**, where the engine prints the number of recipients
as Python does. -/
theorem reports_alike [JsNumbers] : (∀ id dest status, ∃ text,
      chatText (Response.chat id dest status).json = .ok text ∧
      chatTextJs (Response.chat id dest status).json = some text) ∧
    ∀ n : Nat, JsNumbers.int n = PyStr.strInt n → ∃ text,
      announceText (Response.announce n).json = .ok text ∧
      announceTextJs (Response.announce n).json = some text := by
  refine ⟨fun id dest status => ⟨_, chatText_chat id dest status, chatTextJs_chat id dest status⟩, ?_⟩
  intro n hprinted
  have hfield : (dict [("ok", .bool true), ("recipients", .int n)]).lookup (lit "recipients") =
      some (.int n) := by
    rw [lookup_dict_cons, if_neg (by decide), lookup_dict_cons, if_pos rfl]
  refine ⟨announceReport n, ?_, ?_⟩
  · unfold announceText Response.json
    rw [item_dict hfield]
    rfl
  · unfold announceTextJs Response.json Json.template
    dsimp only
    rw [hfield]
    dsimp only
    rw [Json.jsString, hprinted]
    rfl

/-- A refusal reads as none of the tool's reports. -/
theorem shimText_refuses {a : HttpAnswer} (h : Refuses a) (url : PyStr)
    (render : Json → Except BusExn PyStr) :
    ∃ text, shimText url (clientRpc a >>= render) = some text ∧ refusing text = true := by
  cases h with
  | stopped => exact ⟨_, shimText_stopped url render, by simp [lit, refusing]⟩
  | worded hstatus hworded =>
    next status payload =>
    let _ : JsNumbers := JsNumbers.plain
    obtain ⟨hshim, -⟩ := reports_of_worded hstatus hworded url render fun _ => none
    obtain ⟨m, hm, hrefusing⟩ := hworded.message
    obtain ⟨v, -, hv, -⟩ := visible_texts hworded
    obtain ⟨c, hc, -⟩ := candidates_texts hworded
    have hmtruthy : (Json.str m).truthy = true := by
      simpa [Json.truthy] using ne_nil_of_refusing hrefusing
    refine ⟨m ++ v ++ c ++ addRetry payload, ?_, ?_⟩
    · rw [hshim]
      unfold fmtError
      rw [hm, Json.or_of_truthy hmtruthy, Json.or_of_truthy hmtruthy, hv, hc]
      rfl
    · cases m with
      | nil => cases hrefusing
      | cons x m => exact hrefusing

theorem offline_refusing (url name : PyStr) : ∃ text,
    shimText url (.error (.other name)) = some text ∧ refusing text = true :=
  ⟨_, rfl, by simp [lit, refusing]⟩

/-- **What the chat tool says is what has happened.** -/
theorem chat_report (cfg : Config) (srv : Server) {resolved : Except AuthExn (Identity Member)}
    (hres : Resolves cfg resolved) (url header : PyStr) (args : Args) (fate : Fate) (s : Db) :
    ∃ text, (callChat cfg srv resolved url header args fate s).1 = some text ∧
      ChatReport resolved header args s (callChat cfg srv resolved url header args fate s).2 fate text := by
  have hsame : SameInboxes s s := fun _ => rfl
  unfold callChat callTool
  cases hrequest : chatRequest args with
  | error e =>
    cases e with
    | busError status payload =>
      exfalso
      unfold chatRequest Json.item at hrequest
      dsimp only at hrequest
      split at hrequest <;> [split at hrequest; skip] <;> cases hrequest
    | other name =>
      obtain ⟨text, htext, hrefusing⟩ := offline_refusing url name
      exact ⟨text, htext, .refused hrefusing hsame⟩
  | ok request =>
    dsimp only
    cases fate with
    | lost name n =>
      obtain ⟨text, htext, hrefusing⟩ := offline_refusing url name
      refine ⟨text, htext, ?_⟩
      show ChatReport resolved header args s (serveCut cfg srv resolved header _ n s) _ text
      unfold serveCut
      cases resolved with
      | error e => exact .refused hrefusing hsame
      | ok ident =>
        dsimp only
        rw [rpcRoute_client, rpc]
        cases hsender : parseAgentHeader ident.userId header with
        | error e => exact .refused hrefusing (by rw [Prog.cut_throw]; exact hsame)
        | ok sender =>
          rcases opChat_cut cfg srv ident sender request s n with h | ⟨target, e, hvisible, hstored⟩
          · exact .refused hrefusing h
          · exact .unheard rfl hsender hvisible (hstored.of_request hrequest) hrefusing
    | answered =>
      cases resolved with
      | error e =>
        obtain ⟨text, htext, hrefusing⟩ := shimText_refuses hres.refuses url chatText
        exact ⟨text, htext, .refused hrefusing hsame⟩
      | ok ident =>
        unfold callBus serve
        dsimp only
        rw [rpcRoute_client, rpc]
        cases hsender : parseAgentHeader ident.userId header with
        | error e =>
          obtain ⟨text, htext, hrefusing⟩ :=
            shimText_refuses (.of_spoken (parseAgentHeader_spoken hsender)) url chatText
          exact ⟨text, htext, .refused hrefusing hsame⟩
        | ok sender =>
          have hdispatch : dispatch cfg ident sender request (lit "chat") =
              opChat cfg ident sender request := if_pos rfl
          dsimp only
          rw [hdispatch]
          obtain ⟨out, t, hrun⟩ : ∃ out t, (opChat cfg ident sender request).run (exec srv) s = (out, t) :=
            ⟨_, _, rfl⟩
          rw [hrun]
          rcases opChat_outcome hrun with ⟨e, rfl, hsame⟩ | ⟨target, e, hvisible, rfl, hstored⟩
          · have hspoken := (opChat_spoken cfg ident sender request).of_run (congrArg Prod.fst hrun)
            obtain ⟨text, htext, hrefusing⟩ := shimText_refuses (.of_spoken hspoken) url chatText
            exact ⟨text, htext, .refused hrefusing hsame⟩
          · refine ⟨_, ?_, .delivered rfl hsender hvisible (hstored.of_request hrequest)⟩
            show shimText url (chatText (Response.chat e.id target.addr target.status).json) = _
            rw [chatText_chat]
            rfl

end

end Muster
