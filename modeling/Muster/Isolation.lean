import Muster.Api

/-!
# Sender stamping and inbox isolation

Over any run of requests with the reaper beside them:

* every entry of an inbox was appended by a chat, stamped with the address of the
  request that sent it, to an agent which that request found live and visible
  (`Stamped`);
* key strings of different families or addresses differ (`Key.name_injective`), and
  address strings of different users or headers differ (`parseAgentHeader_text_inj`),
  so a request reads no inbox and moves no cursor but its own.
-/

namespace Muster

abbrev ApiWorld := World Cmd Cmd.Reply PyExn Unit Request Db

abbrev ApiEvent := Event Cmd Cmd.Reply Request Db

/-- Where an entry of `x`'s inbox comes from: process `i` is a chat of `ident` under
`header`; it saw `x` in the directory, live and visible to `ident`, and appended the entry. -/
structure Stamped (hist : List ApiEvent) (x : PyStr) (e : Entry) (i : Nat) (ident : Identity Member)
    (header : PyStr) : Prop where
  parsed : ∃ addr, parseAgentHeader ident.userId header = .ok addr
  sender : e.fields.get "from" [] = ident.userId ++ PyStr.slash :: header
  ne : ident.userId ++ PyStr.slash :: header ≠ x
  appended : ∃ ev ∈ hist, ev.pid = i ∧ (∃ args, ev.op = .rpc ident header (lit "chat") args) ∧
    Appends x e (sent ev.cmd ev.reply)
  listed : ∃ ev ∈ hist, ev.pid = i ∧ ev.cmd = .smembers ∧ x ∈ ev.pre.members
  live : ∃ ev ∈ hist, ev.pid = i ∧ ev.cmd = .hgetall x ∧ ∃ h, ev.pre.agent x = some h ∧
    visible ident.userId ident.groups h.user h.groups = some true

section
variable {srv : Server} {s : Db} {x : PyStr} {e : Entry}

/-! ## Where entries come from -/

theorem mem_inbox_of_look_expire {k : Key} {secs : Int}
    (h : e ∈ (exec srv (.expire k secs) s).1.inbox x) : e ∈ s.inbox x := by
  by_cases hk : .inbox x = k
  · subst hk
    simp only [Db.inbox, Db.stream, exec, Keyspace.get, Keyspace.look_expire_same] at h ⊢
    split at h
    · cases h
    · rw [Option.map_map] at h
      exact h
  · rwa [Db.inbox, stream_exec_other srv (by simpa [Cmd.writes] using hk)] at h

/-- Only XADD puts an entry into an inbox. -/
theorem mem_inbox_exec {c : Cmd} (h : e ∈ (exec srv c s).1.inbox x) :
    e ∈ s.inbox x ∨ Appends x e (sent c (exec srv c s).2) := by
  by_cases hw : .inbox x ∈ c.writes
  · cases c with
    | xadd a fields ts expiresAt maxlen =>
      obtain rfl : x = a := by simpa [Cmd.writes] using hw
      rw [Db.inbox, stream_exec_xadd] at h
      rcases Stream.mem_add.1 h with h | rfl
      · exact .inl h
      · exact .inr ⟨maxlen, rfl⟩
    | del ks =>
      have hnone : (exec srv (.del ks) s).1.keys (.inbox x) = none := foldl_del_of_mem hw
      rw [Db.inbox, Db.stream, Keyspace.get, Keyspace.look, hnone] at h
      cases h
    | expire k secs => exact .inl (mem_inbox_of_look_expire h)
    | _ => simp [Cmd.writes] at hw
  · rw [Db.inbox, stream_exec_other srv hw] at h
    exact .inl h

theorem mem_inbox_env {ev : Env} (h : e ∈ (ev.apply s).inbox x) : e ∈ s.inbox x := by
  unfold Db.inbox Db.stream at h ⊢
  cases hg : (ev.apply s).keys.get (ev.apply s).now (.inbox x) with
  | none => rw [hg] at h; cases h
  | some v =>
    rw [hg] at h
    obtain ⟨d, hd⟩ := Keyspace.get_eq_some_iff.1 hg
    cases ev with
    | tick n =>
      have hget : s.keys.get s.now (.inbox x) = some v :=
        Keyspace.get_eq_some_iff.2 ⟨d, Keyspace.look_of_le (Nat.le_add_right _ _) hd⟩
      rw [hget]
      exact h
    | evict a n =>
      obtain ⟨hk, hlive⟩ := Keyspace.look_eq_some_iff.1 hd
      by_cases ha : x = a
      · subst ha
        simp only [Env.apply, if_true, Option.map_eq_some_iff] at hk
        obtain ⟨w, hw, heq⟩ := hk
        cases heq
        have hget : s.keys.get s.now (.inbox x) = some w.val :=
          Keyspace.get_eq_some_iff.2 ⟨w.deadline, Keyspace.look_eq_some_iff.2 ⟨hw, hlive⟩⟩
        rw [hget]
        exact List.mem_of_mem_drop h
      · simp only [Env.apply, ha, if_false] at hk
        have hget : s.keys.get s.now (.inbox x) = some v :=
          Keyspace.get_eq_some_iff.2 ⟨d, Keyspace.look_eq_some_iff.2 ⟨hk, hlive⟩⟩
        rw [hget]
        exact h

/-- What an XADD of a request says about the request. -/
theorem Request.Sends.xadd {cfg : Config} {req : Request} {l : Log} {fields : Fields}
    {ts expiresAt : Int} {maxlen : Nat} (h : req.Sends cfg l (.xadd x fields ts expiresAt maxlen)) :
    ∃ ident header args sender body subject important rows row,
      req = .rpc ident header (lit "chat") args ∧
      parseAgentHeader ident.userId header = .ok sender ∧
      fields = chatFields sender.text body subject important ∧
      Listed rows l ∧ row ∈ rows ∧ row.visibleTo ident = true ∧ row.addr = x ∧ x ≠ sender.text := by
  generalize hc : Cmd.xadd x fields ts expiresAt maxlen = c at h
  cases req with
  | rpc ident header op args =>
    obtain ⟨sender, hs, h⟩ := h
    cases h with
    | chat hop h =>
      subst hop
      cases h with
      | directory h => subst hc; cases h
      | rate h => subst hc; cases h
      | xadd body subject important hl hrow hv hne ht =>
        cases hc
        exact ⟨ident, header, args, sender, body, subject, important, _, _, rfl, hs, rfl, hl, hrow,
          hv, rfl, hne⟩
      | _ => cases hc
    | fetch limit _ h => cases h <;> cases hc
    | roster _ h => subst hc; cases h
    | announce _ h =>
      cases h with
      | directory h => subst hc; cases h
      | rate h => subst hc; cases h
      | publish => cases hc
  | streamOpen | streamPing | streamClose =>
    obtain ⟨sender, -, h⟩ := h
    cases h <;> cases hc
  | reap => cases h <;> cases hc

end

/-! ## Whose mail a request opens -/

/-- The command reads `x`'s inbox, or reads or writes `x`'s cursor: by key string. -/
def Cmd.OpensMail (c : Cmd) (x : PyStr) : Prop :=
  (Key.inbox x).name ∈ c.reads.map Key.name ∨ (Key.cursor x).name ∈ (c.reads ++ c.writes).map Key.name

theorem opensMail_iff {c : Cmd} {x : PyStr} :
    c.OpensMail x ↔ .inbox x ∈ c.reads ∨ .cursor x ∈ c.reads ++ c.writes := by
  unfold Cmd.OpensMail
  rw [List.mem_map_of_injective Key.name_injective, List.mem_map_of_injective Key.name_injective]

theorem DispatchSends.own {cfg : Config} {ident : Identity Member} {sender : Address} {op : PyStr}
    {l : Log} {c : Cmd} {x : PyStr} (h : DispatchSends cfg ident sender op l c) (hc : c.OpensMail x) :
    x = sender.text := by
  rw [opensMail_iff] at hc
  obtain ⟨limit, -, h⟩ | h | ⟨kind, h⟩ | rfl | ⟨dest, fields, ts, exp, maxlen, rfl⟩ | ⟨dest, event, rfl⟩ :=
    h.cases_fetch
  · cases h with
    | time => simp [Cmd.reads, Cmd.writes] at hc
    | _ => simpa [Cmd.reads, Cmd.writes] using hc
  · cases c with
    | «exists» k =>
      cases k with
      | presence a => simp [Cmd.reads, Cmd.writes] at hc
      | _ => cases h
    | smembers | hgetall => simp [Cmd.reads, Cmd.writes] at hc
    | _ => cases h
  · cases c with
    | ttl k =>
      obtain rfl : k = .rate kind sender.text := h
      simp [Cmd.reads, Cmd.writes] at hc
    | expire k secs =>
      obtain rfl : k = .rate kind sender.text := h
      simp [Cmd.reads, Cmd.writes] at hc
    | incr => simp [Cmd.reads, Cmd.writes] at hc
    | _ => cases h
  all_goals simp [Cmd.reads, Cmd.writes] at hc

/-- **A request opens its own mail only.** -/
theorem Request.Sends.own {cfg : Config} {req : Request} {l : Log} {c : Cmd} {x : PyStr}
    {ident : Identity Member} {header : PyStr} (h : req.Sends cfg l c)
    (hreq : req.headers = some (ident, header)) (hc : c.OpensMail x) :
    ∃ addr, parseAgentHeader ident.userId header = .ok addr ∧ x = addr.text := by
  have hstream : ∀ a, StreamSends a c → x = a := by
    intro a h
    rw [opensMail_iff] at hc
    cases h with
    | get | xrange => simpa [Cmd.reads, Cmd.writes] using hc
    | _ => simp [Cmd.reads, Cmd.writes] at hc
  cases req with
  | rpc =>
    cases hreq
    obtain ⟨sender, hs, h⟩ := h
    exact ⟨sender, hs, h.own hc⟩
  | streamOpen | streamPing | streamClose =>
    cases hreq
    obtain ⟨sender, hs, h⟩ := h
    exact ⟨sender, hs, hstream _ h⟩
  | reap => cases hreq

/-! ## Runs -/

section
variable [Python] {cfg : Config} {srv : Server} {s₀ : Db} {w : ApiWorld}
  {ok : ApiWorld → Label Request Env → Prop}

theorem api_sends (w : ApiWorld) (req : Request) (_ : ok w (.spawn req)) :
    ((api cfg srv).body req).Ensures (req.Sends cfg) (fun _ _ => True) [] :=
  Request.body_ensures cfg req

/-- Every entry of every inbox has been appended by an XADD of the run, which its request
sent after the replies it had had. -/
def Appended (cfg : Config) (st : Db) (hist : List ApiEvent) : Prop :=
  ∀ x, ∀ e ∈ st.inbox x, ∃ ev ∈ hist, Appends x e (sent ev.cmd ev.reply) ∧
    ∃ l, ev.op.Sends cfg l ev.cmd ∧ ∀ y ∈ l, y ∈ Event.logOf hist ev.pid

theorem reach_appended (h : (api cfg srv).Reach ok s₀ w) (h0 : ∀ x, s₀.inbox x = []) :
    Appended cfg w.st w.hist := by
  refine Pool.reach_inv (Appended cfg) h api_sends ?_ ?_
    fun w ev ih _ x e he => ih x e (mem_inbox_env he)
  · intro x e he
    rw [h0] at he
    cases he
  · intro w i op c k _ ih _ _ hsends x e he
    rcases mem_inbox_exec he with he | he
    · obtain ⟨ev, hev, happ, l, hl, hsub⟩ := ih x e he
      exact ⟨ev, List.mem_append_left _ hev, happ, l, hl, fun y hy =>
        Event.mem_logOf_append.2 (.inl (hsub y hy))⟩
    · exact ⟨_, List.mem_append_right _ (List.mem_singleton_self _), he, _, hsends, fun y hy =>
        Event.mem_logOf_append.2 (.inl hy)⟩

theorem reach_stamped (h : (api cfg srv).Reach ok s₀ w) (h0 : ∀ x, s₀.inbox x = []) {x : PyStr}
    {e : Entry} (he : e ∈ w.st.inbox x) : ∃ i ident header, Stamped w.hist x e i ident header := by
  obtain ⟨ev, hev, ⟨maxlen, happ⟩, l, hsends, hsub⟩ := reach_appended h h0 x e he
  have hcmd : ev.cmd = .xadd x e.fields e.ts e.expiresAt maxlen := congrArg Sigma.fst happ
  rw [hcmd] at hsends
  obtain ⟨ident, header, args, sender, body, subject, important, rows, row, hop, hs, hfields,
    ⟨addrs, haddrs, hlisted⟩, hrow, hvis, rfl, hne⟩ := hsends.xadd
  obtain ⟨hmem, hash, online, hhash, -, heq⟩ := hlisted row hrow
  refine ⟨ev.pid, ident, header, ⟨sender, hs⟩, ?_, ?_, ⟨ev, hev, rfl, ⟨args, hop⟩, maxlen, happ⟩, ?_,
    ?_⟩
  · rw [hfields, ← text_of_parseAgentHeader hs]
    rfl
  · rw [← text_of_parseAgentHeader hs]
    exact Ne.symm hne
  · obtain ⟨ev', hev', hpid, hc, hr⟩ := h.event_of_mem_log (hsub _ haddrs)
    refine ⟨ev', hev', hpid, hc, ?_⟩
    have hset : row.addr ∈ srv.members ev'.pre.members := by
      rw [← hr] at hmem
      exact hmem
    exact srv.mem_members.1 hset
  · obtain ⟨ev', hev', hpid, hc, hr⟩ := h.event_of_mem_log (hsub _ hhash)
    refine ⟨ev', hev', hpid, hc, hash, hr, ?_⟩
    rw [heq] at hvis
    exact visibleTo_iff.1 hvis

/-- **Stamped senders, isolated inboxes.**  Every inbox entry is a stamped chat; keys are
the same string only if they are of one family and one address, addresses only if user
and header are the same; so no request opens the mail of another user, or of another
header of its own. -/
theorem senders_stamped_and_inboxes_isolated (h : (api cfg srv).Reach ok s₀ w)
    (h0 : ∀ x, s₀.inbox x = []) :
    (∀ x, ∀ e ∈ w.st.inbox x, ∃ i ident header, Stamped w.hist x e i ident header) ∧
    (∀ ev ∈ w.hist, ∀ ev' ∈ w.hist, ∀ k ∈ ev.cmd.reads ++ ev.cmd.writes,
      ∀ k' ∈ ev'.cmd.reads ++ ev'.cmd.writes, k.name = k'.name → k = k') ∧
    (∀ u v g g' a b, parseAgentHeader u g = .ok a → parseAgentHeader v g' = .ok b →
      a.text = b.text → u = v ∧ g = g') ∧
    ∀ ev ∈ w.hist, ∀ ident header, ev.op.headers = some (ident, header) →
      ∀ v g b, parseAgentHeader v g = .ok b → ev.cmd.OpensMail b.text →
        v = ident.userId ∧ g = header := by
  refine ⟨?_, ?_, ?_, ?_⟩
  · intro x e he
    exact reach_stamped h h0 he
  · intro ev _ ev' _ k _ k' _ hk
    exact Key.name_injective hk
  · intro u v g g' a b ha hb heq
    exact parseAgentHeader_text_inj ha hb heq
  · intro ev hev ident header hreq v g b hb hmail
    obtain ⟨l, hsends⟩ := h.sends api_sends ev hev
    obtain ⟨addr, haddr, heq⟩ := hsends.own hreq hmail
    exact parseAgentHeader_text_inj hb haddr heq

end

/-- A stream of `u`'s opens, then another agent of `u`'s chats to it. -/
def chatDemo : ApiWorld :=
  let u : Identity Member := ⟨lit "u", []⟩
  (@api Python.plain Config.defaults Server.plain).follow (.start (.empty 5000))
    (.spawn (.streamOpen u (lit "h/r/p/x") (lit "c") (.obj [])) :: List.replicate 7 (.step 0) ++
      .spawn (.rpc u (lit "h/r/p/y") (lit "chat") [(lit "to", .str (lit "x")), (lit "body", .str (lit "hi"))]) ::
      List.replicate 7 (.step 1))

theorem chatDemo_reach : (@api Python.plain Config.defaults Server.plain).Reach (fun _ _ => True)
    (.empty 5000) chatDemo :=
  Pool.Reach.follow .start fun _ _ _ => trivial

theorem senders_stamped_and_inboxes_isolated_chatDemo :
    (chatDemo.st.inbox (lit "u/h/r/p/x")).length = 1 ∧
      ∀ e ∈ chatDemo.st.inbox (lit "u/h/r/p/x"), ∃ i ident header,
        Stamped chatDemo.hist (lit "u/h/r/p/x") e i ident header :=
  ⟨rfl, (@senders_stamped_and_inboxes_isolated Python.plain Config.defaults Server.plain (.empty 5000)
    chatDemo (fun _ _ => True) chatDemo_reach fun _ => rfl).1 (lit "u/h/r/p/x")⟩

end Muster
