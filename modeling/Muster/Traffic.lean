import Muster.Service

/-!
# What each call sends

For every call, the commands it can send, each after the replies that lead to it,
whatever these replies are.  This is all the interleaved results know about the
code: `Pool.reach_ensures` carries it to any run.

`FetchSends` and `FetchEnds` give a fetch command by command.  The other calls
are described by the commands they send and by what `list_agents` had answered
before (`Listed`).
-/

namespace Muster

/-- A command with its reply, as a log has it. -/
abbrev sent (c : Cmd) (r : c.Reply) : (c : Cmd) × c.Reply := ⟨c, r⟩

abbrev Log := Prog.Log Cmd Cmd.Reply

/-! ## A fetch, command by command -/

inductive FetchSends (a : PyStr) (limit : Int) : Log → Cmd → Prop
  | get : FetchSends a limit [] (.get a)
  | xrange (cur : Option StreamId) : 1 ≤ limit →
    FetchSends a limit [sent (.get a) cur] (.xrange a cur limit.toNat)
  | set (cur : Option StreamId) (es : List Entry) (last : Entry) : es.getLast? = some last →
    FetchSends a limit [sent (.get a) cur, sent (.xrange a cur limit.toNat) es] (.set a last.id)
  | time (cur : Option StreamId) (es : List Entry) (last : Entry) : es.getLast? = some last →
    FetchSends a limit
      [sent (.get a) cur, sent (.xrange a cur limit.toNat) es, sent (.set a last.id) ()] .time

inductive FetchEnds (a : PyStr) (limit : Int) : Except PyExn (List Entry) → Log → Prop
  | refused (cur : Option StreamId) : limit < 1 →
    FetchEnds a limit (.error .dataError) [sent (.get a) cur]
  | empty (cur : Option StreamId) : 1 ≤ limit →
    FetchEnds a limit (.ok []) [sent (.get a) cur, sent (.xrange a cur limit.toNat) []]
  | page (cur : Option StreamId) (es : List Entry) (last : Entry) (now : Nat) :
    1 ≤ limit → es.getLast? = some last →
    FetchEnds a limit (.ok (unexpired (now / 1000 : Nat) es))
      [sent (.get a) cur, sent (.xrange a cur limit.toNat) es, sent (.set a last.id) (),
        sent .time now]

theorem fetchUnread_ensures (a : PyStr) (limit : Int) :
    (fetchUnread a limit).Ensures (FetchSends a limit) (FetchEnds a limit) [] := by
  simp only [fetchUnread, entriesPastCursor, nowSec]
  rw [Prog.ensures_bind]
  refine ⟨.get, ?_⟩
  intro cur
  by_cases h : limit < 1
  · simp only [h, if_true]
    exact .refused cur h
  · simp only [h, if_false]
    refine ⟨.xrange cur (by omega), ?_⟩
    intro es
    cases hl : es.getLast? with
    | none =>
      simp only [Prog.ensures_ret, hl]
      obtain rfl := List.getLast?_eq_none_iff.1 hl
      exact .empty cur (by omega)
    | some last =>
      simp only [Prog.ensures_ret, hl]
      exact ⟨.set cur es last hl, fun _ => ⟨.time cur es last hl, fun now =>
        .page cur es last now (by omega) hl⟩⟩

/-! ## Pages that were acknowledged -/

/-- `e` is on a page of `a`'s inbox read by process `i`, which has done its SET. -/
def ReadBy (a : PyStr) (l : Log) (e : Entry) : Prop :=
  ∃ after n es id, sent (.xrange a after n) es ∈ l ∧ e ∈ es ∧ sent (.set a id) () ∈ l

section
variable {a : PyStr} {hist : List Ev} {i j : Nat}

theorem ReadBy.mono {l l' : Log} {e : Entry} (h : ReadBy a l e) (hl : ∀ x ∈ l, x ∈ l') :
    ReadBy a l' e := by
  obtain ⟨after, n, es, id, hp, he, hs⟩ := h
  exact ⟨after, n, es, id, hl _ hp, he, hl _ hs⟩

theorem ReadBy.append {e : Entry} {i : Nat} (h : ReadBy a (Event.logOf hist i) e) (ev : Ev) :
    ReadBy a (Event.logOf (hist ++ [ev]) i) e :=
  h.mono fun _ hx => Event.mem_logOf_append.2 (.inl hx)

/-- Only a page and a SET make a difference. -/
theorem ReadBy.of_append {op : Call} {c : Cmd} {r : c.Reply} {s : Db} {e : Entry}
    (h : ReadBy a (Event.logOf (hist ++ [⟨i, op, c, r, s⟩]) j) e)
    (hpage : ∀ after n, c ≠ .xrange a after n) (hset : ∀ id, c ≠ .set a id) :
    ReadBy a (Event.logOf hist j) e := by
  obtain ⟨after, n, es, id, hp, he, hs⟩ := h
  refine ⟨after, n, es, id, ?_, he, ?_⟩
  · rcases Event.mem_logOf_append.1 hp with hp | ⟨-, hp⟩
    · exact hp
    · exact absurd (congrArg Sigma.fst hp).symm (hpage after n)
  · rcases Event.mem_logOf_append.1 hs with hs | ⟨-, hs⟩
    · exact hs
    · exact absurd (congrArg Sigma.fst hs).symm (hset id)

end

/-! ## Entries that were appended -/

/-- The XADD of entry `e` to `x`'s inbox, answered with its id. -/
def Appends (x : PyStr) (e : Entry) (ev : (c : Cmd) × c.Reply) : Prop :=
  ∃ maxlen, ev = sent (.xadd x e.fields e.ts e.expiresAt maxlen) e.id

/-! ## Reads of the directory -/

def Cmd.ReadsDirectory : Cmd → Prop
  | .smembers => True
  | .hgetall _ => True
  | .exists (.presence _) => True
  | _ => False

/-- The rows are what `list_agents` read: a member of the set, its hash, its presence. -/
def Listed (rows : List Row) (l : Log) : Prop :=
  ∃ addrs, sent .smembers addrs ∈ l ∧ ∀ r ∈ rows, r.addr ∈ addrs ∧
    ∃ h online, sent (.hgetall r.addr) (some h) ∈ l ∧
      sent (.exists (.presence r.addr)) online ∈ l ∧ r = Row.of r.addr h online

theorem Listed.mono {rows rows' : List Row} {l l' : Log} (h : Listed rows l)
    (hrows : ∀ r ∈ rows', r ∈ rows) (hl : ∀ x ∈ l, x ∈ l') : Listed rows' l' := by
  obtain ⟨addrs, ha, hr⟩ := h
  refine ⟨addrs, hl _ ha, ?_⟩
  intro r hr'
  obtain ⟨hm, h, online, hh, ho, he⟩ := hr r (hrows r hr')
  exact ⟨hm, h, online, hl _ hh, hl _ ho, he⟩

theorem listRows_ensures (addrs : List PyStr) (l : Log) :
    (listRows addrs).Ensures (fun _ c => c.ReadsDirectory)
      (fun out l' => l <+: l' ∧ ∃ rows, out = .ok rows ∧ ∀ r ∈ rows, r.addr ∈ addrs ∧
        ∃ h online, sent (.hgetall r.addr) (some h) ∈ l' ∧
          sent (.exists (.presence r.addr)) online ∈ l' ∧ r = Row.of r.addr h online) l := by
  induction addrs generalizing l with
  | nil => exact ⟨List.prefix_refl l, [], rfl, by simp⟩
  | cons a addrs ih =>
    refine ⟨trivial, fun h => ⟨trivial, ?_⟩⟩
    intro online
    refine (ih _).bind ?_ ?_
    · intro rows l' hrows
      obtain ⟨hl, rows', hout, hrows⟩ := hrows
      cases hout
      have hll : l <+: l' := ((List.prefix_append l _).trans (List.prefix_append _ _)).trans hl
      have hread : ∀ x ∈ [sent (.hgetall a) h, sent (.exists (.presence a)) online], x ∈ l' :=
        fun x hx => hl.subset (by
          simp only [List.mem_cons, List.not_mem_nil, or_false] at hx
          rcases hx with rfl | rfl <;> simp)
      cases h with
      | none =>
        exact ⟨hll, rows, rfl, fun r hr => ⟨List.mem_cons_of_mem _ (hrows r hr).1, (hrows r hr).2⟩⟩
      | some h =>
        refine ⟨hll, Row.of a h online :: rows, rfl, ?_⟩
        intro r hr
        rcases List.mem_cons.1 hr with rfl | hr
        · exact ⟨List.mem_cons_self, h, online, hread _ (by simp [Row.of]),
            hread _ (by simp [Row.of]), rfl⟩
        · exact ⟨List.mem_cons_of_mem _ (hrows r hr).1, (hrows r hr).2⟩
    · intro e l' he
      obtain ⟨-, rows', hout, -⟩ := he
      cases hout

theorem listAgents_ensures (l : Log) :
    listAgents.Ensures (fun _ c => c.ReadsDirectory)
      (fun out l' => ∃ rows, out = .ok rows ∧ Listed rows l') l := by
  refine ⟨trivial, fun addrs => (listRows_ensures _ _).mono (fun _ _ => id) ?_⟩
  rintro out l' ⟨hl, rows, rfl, hrows⟩
  refine ⟨rows, rfl, addrs, hl.subset (by simp), fun r hr => ⟨?_, (hrows r hr).2⟩⟩
  exact (List.perm_insertionSort _ _).mem_iff.1 (hrows r hr).1

theorem visibleAgents_ensures (ident : Identity Member) (l : Log) :
    (visibleAgents ident).Ensures (fun _ c => c.ReadsDirectory)
      (fun out l' => ∀ rows, out = .ok rows → Listed rows l' ∧
        ∀ r ∈ rows, r.visibleTo ident = true) l := by
  refine (listAgents_ensures l).bind ?_ ?_
  · intro rows l' h
    obtain ⟨rows', hout, hl⟩ := h
    cases hout
    refine (Prog.ensures_ofExcept _ _).2 fun kept hkept => ?_
    rw [(keepVisible_ok ident hkept).2]
    exact ⟨hl.mono (fun r hr => (List.mem_filter.1 hr).1) fun _ => id,
      fun r hr => (List.mem_filter.1 hr).2⟩
  · intro e l' h
    obtain ⟨_, hout, -⟩ := h
    cases hout

/-! ## The handlers -/

def RateSends (kind : RateKind) (a : PyStr) : Cmd → Prop
  | .incr k b _ => k = kind ∧ b = a
  | .ttl k => k = .rate kind a
  | .expire k _ => k = .rate kind a
  | _ => False

inductive ChatSends (cfg : Config) (ident : Identity Member) (frm : PyStr) : Log → Cmd → Prop
  | directory {l : Log} {c : Cmd} : c.ReadsDirectory → ChatSends cfg ident frm l c
  | rate {l : Log} {c : Cmd} : RateSends .chat frm c → ChatSends cfg ident frm l c
  | time {l : Log} : ChatSends cfg ident frm l .time
  | xadd {l : Log} {rows : List Row} {row : Row} {now : Nat} (body subject : PyStr)
      (important : Bool) : Listed rows l → row ∈ rows → row.visibleTo ident = true →
      row.addr ≠ frm → sent .time now ∈ l →
      ChatSends cfg ident frm l (.xadd row.addr (chatFields frm body subject important)
        (now / 1000 : Nat) ((now / 1000 : Nat) + cfg.messageTtl) cfg.inboxMaxlen.toNat)
  | publish {l : Log} (dest : PyStr) (event : Json) : ChatSends cfg ident frm l (.publish dest event)

inductive AnnounceSends (frm : PyStr) : Cmd → Prop
  | directory {c : Cmd} : c.ReadsDirectory → AnnounceSends frm c
  | rate {c : Cmd} : RateSends .announce frm c → AnnounceSends frm c
  | publish (dest : PyStr) (event : Json) : AnnounceSends frm (.publish dest event)

section
variable {Φ : Log → Cmd → Prop}

theorem mem_of_resolveReference [Python] {ref : Json} {agents : List Row} {row : Row}
    (h : resolveReference ref agents = .ok row) : row ∈ agents := by
  unfold resolveReference at h
  split at h
  · split at h <;> cases h
  · next hit heq =>
    cases h
    have : row ∈ agents.filter fun a => ref.matchesRef a.addr := heq ▸ List.mem_singleton_self row
    exact List.mem_of_mem_filter this
  · cases h

/-- After a computation that issues nothing the log is as it was. -/
theorem lift_ensures {α β : Type} {x : Except PyExn α} {f : α → M β} {l : Log}
    {Q : Except PyExn β → Log → Prop} (hok : ∀ a, x = .ok a → (f a).Ensures Φ Q l)
    (herr : ∀ e, x = .error e → Q (.error e) l) :
    ((liftM x : M α) >>= f).Ensures Φ Q l := by
  cases x with
  | ok a => exact hok a rfl
  | error e => exact herr e rfl

theorem rateCheck_ensures (kind : RateKind) (a : PyStr) (limit window : Int) (l : Log) :
    (rateCheck kind a limit window).Ensures (fun _ c => RateSends kind a c)
      (fun _ l' => l <+: l') l := by
  refine Prog.Ensures.mono (Prog.Ensures.extends (Q := fun _ _ => True) ?_) (fun _ _ h => h.1)
    fun _ _ h => h.2
  simp only [rateCheck, send, Prog.cmd_bind, Prog.ensures_call]
  refine ⟨⟨rfl, rfl⟩, ?_⟩
  intro n
  split
  · simp only [Prog.ensures_call]
    refine ⟨rfl, ?_⟩
    intro ttl
    split
    · exact ⟨rfl, fun _ => trivial⟩
    · trivial
  · trivial

theorem checkRate_ensures (kind : RateKind) (a : PyStr) (limit window : Int) (l : Log) :
    (checkRate kind a limit window).Ensures (fun _ c => RateSends kind a c)
      (fun _ l' => l <+: l') l := by
  refine (rateCheck_ensures kind a limit window l).bind ?_ (fun _ _ h => h)
  intro r l' h
  obtain ⟨ok, retry⟩ := r
  cases ok <;> exact h

end

section
variable (cfg : Config) (ident : Identity Member) (sender : Address) (args : Args)

theorem opChat_ensures [Python] :
    (opChat cfg ident sender args).Ensures (ChatSends cfg ident sender.text) (fun _ _ => True) [] := by
  refine lift_ensures ?_ (fun _ _ => trivial)
  intro r _
  obtain ⟨body, subject⟩ := r
  refine Prog.Ensures.bind ((visibleAgents_ensures ident []).mono (fun _ _ => .directory)
    fun _ _ => id) ?_ (fun _ _ _ => trivial)
  intro rows l h
  obtain ⟨hlisted, hvis⟩ := h rows rfl
  refine lift_ensures ?_ (fun _ _ => trivial)
  intro row hrow
  have hmem := mem_of_resolveReference hrow
  split
  · trivial
  · next hne =>
    refine Prog.Ensures.bind ((checkRate_ensures .chat _ _ _ _).mono (fun _ _ => .rate)
      fun _ _ => id) ?_ (fun _ _ _ => trivial)
    intro _ l hl
    refine ⟨.time, ?_⟩
    intro now
    dsimp only [appendMessage]
    split
    · trivial
    · refine ⟨?_, fun msgId => ⟨.publish _ _, fun _ => trivial⟩⟩
      refine .xadd body subject _ (hlisted.mono (fun _ => id) ?_) hmem (hvis row hmem)
        hne (List.mem_append_right _ (List.mem_singleton_self _))
      intro x hx
      exact List.mem_append_left _ (hl.subset hx)

/-- `op_fetch` is one fetch of the caller's own inbox. -/
theorem opFetch_ensures [Python] (Φ : Log → Cmd → Prop)
    (hΦ : ∀ limit l c, FetchSends sender.text limit l c → Φ l c) :
    (opFetch sender args).Ensures Φ (fun out l => ∀ r, out = .ok r → ∃ limit es,
      FetchEnds sender.text limit (.ok es) l ∧ r = .fetch (es.map Message.of)) [] := by
  refine lift_ensures ?_ (fun _ _ _ h => by cases h)
  intro n _
  refine Prog.Ensures.bind ((fetchUnread_ensures sender.text (min n 100)).mono (hΦ _)
    fun _ _ => id) ?_ (fun _ _ _ _ h => by cases h)
  intro es l h r hr
  cases hr
  exact ⟨_, es, h, rfl⟩

theorem opRoster_ensures :
    (opRoster ident sender args).Ensures (fun _ c => c.ReadsDirectory) (fun _ _ => True) [] := by
  refine (visibleAgents_ensures ident []).bind ?_ (fun _ _ _ => trivial)
  intro rows l h
  refine lift_ensures ?_ (fun _ _ => trivial)
  intro rows _
  split <;> trivial

theorem publishAll_ensures (event : Json) (rows : List Row) (l : Log) :
    (publishAll event rows).Ensures (fun _ c => AnnounceSends sender.text c) (fun _ _ => True) l := by
  induction rows generalizing l with
  | nil => trivial
  | cons a rows ih => exact ⟨.publish _ _, fun _ => ih _⟩

theorem opAnnounce_ensures :
    (opAnnounce cfg ident sender args).Ensures (fun _ c => AnnounceSends sender.text c)
      (fun _ _ => True) [] := by
  unfold opAnnounce
  dsimp only
  split
  · refine lift_ensures ?_ (fun _ _ => trivial)
    intro r _
    obtain ⟨body, subject⟩ := r
    refine lift_ensures ?_ (fun _ _ => trivial)
    intro inScope _
    refine Prog.Ensures.bind ((checkRate_ensures .announce _ _ _ _).mono (fun _ _ => .rate)
      fun _ _ => id) ?_ (fun _ _ _ => trivial)
    intro _ l _
    refine Prog.Ensures.bind ((visibleAgents_ensures ident l).mono (fun _ _ => .directory)
      fun _ _ => id) ?_ (fun _ _ _ => trivial)
    intro rows l _
    refine (publishAll_ensures sender _ _ _).bind (fun _ _ _ => trivial) (fun _ _ _ => trivial)
  · trivial

/-- What a request sends, by its operation. -/
inductive DispatchSends (op : PyStr) : Log → Cmd → Prop
  | chat {l : Log} {c : Cmd} : op = lit "chat" → ChatSends cfg ident sender.text l c →
    DispatchSends op l c
  | fetch {l : Log} {c : Cmd} (limit : Int) : op = lit "fetch" →
    FetchSends sender.text limit l c → DispatchSends op l c
  | roster {l : Log} {c : Cmd} : op = lit "roster" → c.ReadsDirectory → DispatchSends op l c
  | announce {l : Log} {c : Cmd} : op = lit "announce" → AnnounceSends sender.text c →
    DispatchSends op l c

theorem dispatch_ensures [Python] (op : PyStr) :
    (dispatch cfg ident sender args op).Ensures (DispatchSends cfg ident sender op)
      (fun _ _ => True) [] := by
  unfold dispatch
  split
  · next h => exact (opChat_ensures cfg ident sender args).mono (fun _ _ => .chat h) fun _ _ => id
  · split
    · next h =>
      exact (opFetch_ensures sender args _ fun limit _ _ => .fetch limit h).mono (fun _ _ => id)
        fun _ _ _ => trivial
    · split
      · next h => exact (opRoster_ensures ident sender args).mono (fun _ _ => .roster h) fun _ _ => id
      · split
        · next h =>
          exact (opAnnounce_ensures cfg ident sender args).mono (fun _ _ => .announce h) fun _ _ => id
        · trivial

end

/-- A request that gets past its header sends what its operation does. -/
theorem rpc_ensures [Python] (cfg : Config) (ident : Identity Member) (header op : PyStr) (args : Args) :
    (rpc cfg ident header op args).Ensures
      (fun l c => ∃ sender, parseAgentHeader ident.userId header = .ok sender ∧
        DispatchSends cfg ident sender op l c) (fun _ _ => True) [] := by
  unfold rpc
  split
  · trivial
  · next sender hs =>
    exact (dispatch_ensures cfg ident sender args op).mono (fun _ _ h => ⟨sender, hs, h⟩)
      fun _ _ => id

/-- A `fetch` request is one fetch of the caller's own inbox. -/
theorem rpc_fetch_ensures [Python] (cfg : Config) {ident : Identity Member} {header : PyStr}
    {sender : Address} (args : Args) (hs : parseAgentHeader ident.userId header = .ok sender) :
    (rpc cfg ident header (lit "fetch") args).Ensures (fun _ _ => True)
      (fun out l => ∀ r, out = .ok r → ∃ limit es,
        FetchEnds sender.text limit (.ok es) l ∧ r = .fetch (es.map Message.of)) [] := by
  have hop : dispatch cfg ident sender args (lit "fetch") = opFetch sender args := by
    unfold dispatch
    rw [if_neg (by decide), if_pos rfl]
  unfold rpc
  rw [hs]
  simp only [hop]
  exact opFetch_ensures sender args _ fun _ _ _ _ => trivial

/-! ## Every call -/

/-- A reaper pass: DEL only right after EXISTS has answered no, SREM only after DEL. -/
inductive ReapSends : Log → Cmd → Prop
  | smembers : ReapSends [] .smembers
  | exists (l : Log) (a : PyStr) : ReapSends l (.exists (.agent a))
  | del (l : Log) (a : PyStr) : ReapSends (l ++ [sent (.exists (.agent a)) false])
    (.del [.inbox a, .cursor a, .presence a])
  | srem (l : Log) (a : PyStr) :
    ReapSends (l ++ [sent (.exists (.agent a)) false] ++
      [sent (.del [.inbox a, .cursor a, .presence a]) ()]) (.srem a)

theorem reapAll_ensures (addrs : List PyStr) (n : Nat) (l : Log) :
    (reapAll addrs n).Ensures ReapSends (fun _ _ => True) l := by
  induction addrs generalizing n l with
  | nil => trivial
  | cons a addrs ih =>
    refine ⟨.exists l a, ?_⟩
    intro live
    cases live with
    | true => exact ih _ _
    | false => exact ⟨.del l a, fun _ => ⟨.srem l a, fun _ => ih _ _⟩⟩

theorem reapOnce_ensures : reapOnce.Ensures ReapSends (fun _ _ => True) [] :=
  ⟨.smembers, fun _ => reapAll_ensures _ _ _⟩

inductive AppendSends (dest : PyStr) (messageTtl : Int) : Log → Cmd → Prop
  | time : AppendSends dest messageTtl [] .time
  | xadd (fields : Fields) (now maxlen : Nat) : AppendSends dest messageTtl [sent .time now]
    (.xadd dest fields (now / 1000 : Nat) ((now / 1000 : Nat) + messageTtl) maxlen)

inductive UnreadSends (a : PyStr) : Log → Cmd → Prop
  | get : UnreadSends a [] (.get a)
  | xrange (cur : Option StreamId) : UnreadSends a [sent (.get a) cur] (.xrange a cur 1000)
  | time (cur : Option StreamId) (es : List Entry) :
    UnreadSends a [sent (.get a) cur, sent (.xrange a cur 1000) es] .time

/-- What each call sends, after which replies. -/
def Call.Sends (cfg : Config) : Call → Log → Cmd → Prop
  | .rpc ident header op _, l, c => ∃ sender, parseAgentHeader ident.userId header = .ok sender ∧
    DispatchSends cfg ident sender op l c
  | .registerAgent addr _ _ retention, _, c => c = .time ∨ ∃ h, c = .register addr.text h retention
  | .touchPresence a connectionId ttl, _, c => c = .time ∨ ∃ t, c = .touch a ⟨connectionId, t⟩ ttl
  | .clearPresence a connectionId, _, c => c = .clearIfOwner a connectionId
  | .appendMessage dest _ _ messageTtl, l, c => AppendSends dest messageTtl l c
  | .fetchUnread a limit, l, c => FetchSends a limit l c
  | .unreadCount a, l, c => UnreadSends a l c
  | .reapOnce, l, c => ReapSends l c

section
variable {cfg : Config} {call : Call} {l : Log} {a : PyStr}

/-- What a request sends is a fetch's, or has nothing to do with inbox or cursor reads. -/
theorem DispatchSends.cases_fetch {ident : Identity Member} {sender : Address} {op : PyStr} {c : Cmd}
    (h : DispatchSends cfg ident sender op l c) :
    (∃ limit, op = lit "fetch" ∧ FetchSends sender.text limit l c) ∨
    c.ReadsDirectory ∨ (∃ kind, RateSends kind sender.text c) ∨ c = .time ∨
    (∃ dest fields ts exp maxlen, c = .xadd dest fields ts exp maxlen) ∨
    ∃ dest event, c = .publish dest event := by
  cases h with
  | chat _ h =>
    cases h with
    | directory h => exact .inr (.inl h)
    | rate h => exact .inr (.inr (.inl ⟨_, h⟩))
    | time => exact .inr (.inr (.inr (.inl rfl)))
    | xadd => exact .inr (.inr (.inr (.inr (.inl ⟨_, _, _, _, _, rfl⟩))))
    | publish dest event => exact .inr (.inr (.inr (.inr (.inr ⟨_, _, rfl⟩))))
  | fetch limit hop h => exact .inl ⟨limit, hop, h⟩
  | roster _ h => exact .inr (.inl h)
  | announce _ h =>
    cases h with
    | directory h => exact .inr (.inl h)
    | rate h => exact .inr (.inr (.inl ⟨_, h⟩))
    | publish dest event => exact .inr (.inr (.inr (.inr (.inr ⟨_, _, rfl⟩))))

/-- The cursor is set by fetches only. -/
theorem Call.Sends.set {id : StreamId} (h : call.Sends cfg l (.set a id)) :
    ∃ limit, FetchSends a limit l (.set a id) := by
  have key : ∀ b limit, FetchSends b limit l (.set a id) → ∃ limit, FetchSends a limit l (.set a id) := by
    intro b limit h
    generalize hc : Cmd.set a id = c at h
    cases h with
    | set cur es last hl =>
      cases hc
      exact ⟨limit, .set cur es last hl⟩
    | _ => cases hc
  cases call with
  | rpc ident header op args =>
    obtain ⟨sender, -, h⟩ := h
    obtain ⟨limit, -, h⟩ | h | ⟨_, h⟩ | h | ⟨_, _, _, _, _, h⟩ | ⟨_, _, h⟩ := h.cases_fetch
    · exact key _ _ h
    all_goals cases h
  | fetchUnread b limit => exact key _ _ h
  | registerAgent | touchPresence => obtain h | ⟨_, h⟩ := h <;> cases h
  | _ => cases h

/-- A page of an inbox is read right after its cursor. -/
theorem Call.Sends.xrange {after : Option StreamId} {n : Nat}
    (h : call.Sends cfg l (.xrange a after n)) : l = [sent (.get a) after] := by
  have key : ∀ b limit, FetchSends b limit l (.xrange a after n) → l = [sent (.get a) after] := by
    intro b limit h
    generalize hc : Cmd.xrange a after n = c at h
    cases h with
    | xrange cur => cases hc; rfl
    | _ => cases hc
  cases call with
  | rpc ident header op args =>
    obtain ⟨sender, -, h⟩ := h
    obtain ⟨limit, -, h⟩ | h | ⟨_, h⟩ | h | ⟨_, _, _, _, _, h⟩ | ⟨_, _, h⟩ := h.cases_fetch
    · exact key _ _ h
    all_goals cases h
  | fetchUnread b limit => exact key _ _ h
  | unreadCount b =>
    generalize hc : Cmd.xrange a after n = c at h
    cases h with
    | xrange cur => cases hc; rfl
    | _ => cases hc
  | registerAgent | touchPresence => obtain h | ⟨_, h⟩ := h <;> cases h
  | _ => cases h

/-- Only the rate keys are ever given a deadline by EXPIRE alone. -/
theorem Call.Sends.expire {k : Key} {secs : Int} (h : call.Sends cfg l (.expire k secs)) :
    ∃ kind b, k = .rate kind b := by
  cases call with
  | rpc ident header op args =>
    obtain ⟨sender, -, h⟩ := h
    obtain ⟨limit, -, h⟩ | h | ⟨kind, h⟩ | h | ⟨_, _, _, _, _, h⟩ | ⟨_, _, h⟩ := h.cases_fetch
    case inr.inr.inl => exact ⟨kind, _, h⟩
    all_goals cases h
  | registerAgent | touchPresence => obtain h | ⟨_, h⟩ := h <;> cases h
  | _ => cases h

/-- Commands of the registry, of presence and of the reaper. -/
def Cmd.Upkeep : Cmd → Prop
  | .register .. => True
  | .touch .. => True
  | .clearIfOwner .. => True
  | .srem _ => True
  | .del _ => True
  | _ => False

theorem DispatchSends.not_upkeep {ident : Identity Member} {sender : Address} {op : PyStr} {c : Cmd}
    (h : DispatchSends cfg ident sender op l c) : ¬ c.Upkeep := by
  intro hc
  obtain ⟨limit, -, h⟩ | h | ⟨_, h⟩ | h | ⟨_, _, _, _, _, h⟩ | ⟨_, _, h⟩ := h.cases_fetch
  · cases h <;> exact hc
  · cases c <;> first | exact hc | exact h
  · cases c <;> first | exact hc | exact h
  all_goals subst h; exact hc

/-- **Who sends the commands of the registry, of presence and of the reaper.** -/
theorem Call.Sends.upkeep {c : Cmd} (h : call.Sends cfg l c) (hc : c.Upkeep) :
    (∃ addr groups metadata retention v, call = .registerAgent addr groups metadata retention ∧
      c = .register addr.text v retention) ∨
    (∃ b cid ttl p, call = .touchPresence b cid ttl ∧ c = .touch b p ttl) ∨
    (∃ b cid, call = .clearPresence b cid ∧ c = .clearIfOwner b cid) ∨
    (call = .reapOnce ∧ ReapSends l c) := by
  cases call with
  | rpc ident header op args =>
    obtain ⟨sender, -, h⟩ := h
    exact absurd hc h.not_upkeep
  | registerAgent addr groups metadata retention =>
    obtain rfl | ⟨v, rfl⟩ := h
    · exact absurd hc id
    · exact .inl ⟨addr, groups, metadata, retention, v, rfl, rfl⟩
  | touchPresence b cid ttl =>
    obtain rfl | ⟨now, rfl⟩ := h
    · exact absurd hc id
    · exact .inr (.inl ⟨b, cid, ttl, _, rfl, rfl⟩)
  | clearPresence b cid => exact .inr (.inr (.inl ⟨b, cid, rfl, h⟩))
  | reapOnce => exact .inr (.inr (.inr ⟨rfl, h⟩))
  | appendMessage | fetchUnread | unreadCount => cases h <;> exact absurd hc id

theorem Call.Sends.register {v : AgentHash} {retention : Int}
    (h : call.Sends cfg l (.register a v retention)) :
    ∃ addr groups metadata, call = .registerAgent addr groups metadata retention ∧ addr.text = a := by
  obtain ⟨addr, groups, metadata, _, _, rfl, hc⟩ | ⟨_, _, _, _, -, hc⟩ | ⟨_, _, -, hc⟩ | ⟨-, hc⟩ :=
    h.upkeep trivial
  · cases hc
    exact ⟨addr, groups, metadata, rfl, rfl⟩
  all_goals cases hc

theorem Call.Sends.touch {p : PresenceHash} {ttl : Int} (h : call.Sends cfg l (.touch a p ttl)) :
    ∃ cid, call = .touchPresence a cid ttl := by
  obtain ⟨_, _, _, _, _, -, hc⟩ | ⟨_, cid, _, _, rfl, hc⟩ | ⟨_, _, -, hc⟩ | ⟨-, hc⟩ :=
    h.upkeep trivial
  case inr.inl =>
    cases hc
    exact ⟨cid, rfl⟩
  all_goals cases hc

theorem Call.Sends.clearIfOwner {cid : PyStr} (h : call.Sends cfg l (.clearIfOwner a cid)) :
    call = .clearPresence a cid := by
  obtain ⟨_, _, _, _, _, -, hc⟩ | ⟨_, _, _, _, -, hc⟩ | ⟨_, _, rfl, hc⟩ | ⟨-, hc⟩ :=
    h.upkeep trivial
  case inr.inr.inl =>
    cases hc
    rfl
  all_goals cases hc

/-- Only the reaper takes an address out of the directory. -/
theorem Call.Sends.srem (h : call.Sends cfg l (.srem a)) :
    call = .reapOnce ∧ ReapSends l (.srem a) := by
  obtain ⟨_, _, _, _, _, -, hc⟩ | ⟨_, _, _, _, -, hc⟩ | ⟨_, _, -, hc⟩ | hc := h.upkeep trivial
  case inr.inr.inr => exact hc
  all_goals cases hc

/-- Only the reaper deletes keys. -/
theorem Call.Sends.del {ks : List Key} (h : call.Sends cfg l (.del ks)) :
    call = .reapOnce ∧ ReapSends l (.del ks) := by
  obtain ⟨_, _, _, _, _, -, hc⟩ | ⟨_, _, _, _, -, hc⟩ | ⟨_, _, -, hc⟩ | hc := h.upkeep trivial
  case inr.inr.inr => exact hc
  all_goals cases hc

theorem ReapSends.del_eq {ks : List Key} (h : ReapSends l (.del ks)) :
    ∃ l' b, l = l' ++ [sent (.exists (.agent b)) false] ∧ ks = [.inbox b, .cursor b, .presence b] := by
  cases h with
  | del l' b => exact ⟨l', b, rfl, rfl⟩

theorem Call.Sends.writes_agent {c : Cmd} (h : call.Sends cfg l c) (hw : .agent a ∈ c.writes) :
    ∃ v retention, c = .register a v retention := by
  cases c with
  | register b v retention =>
    obtain rfl : a = b := by simpa [Cmd.writes] using hw
    exact ⟨v, retention, rfl⟩
  | del ks =>
    obtain ⟨_, b, -, rfl⟩ := h.del.2.del_eq
    simp [Cmd.writes] at hw
  | expire k secs =>
    obtain ⟨kind, b, rfl⟩ := h.expire
    simp [Cmd.writes] at hw
  | _ => simp [Cmd.writes] at hw

theorem Call.Sends.writes_agents {c : Cmd} (h : call.Sends cfg l c) (hw : .agents ∈ c.writes) :
    (∃ b, c = .srem b) ∨ ∃ b v retention, c = .register b v retention := by
  cases c with
  | srem b => exact .inl ⟨b, rfl⟩
  | register b v retention => exact .inr ⟨b, v, retention, rfl⟩
  | del ks =>
    obtain ⟨_, b, -, rfl⟩ := h.del.2.del_eq
    simp [Cmd.writes] at hw
  | expire k secs =>
    obtain ⟨kind, b, rfl⟩ := h.expire
    simp [Cmd.writes] at hw
  | _ => simp [Cmd.writes] at hw

theorem Call.Sends.writes_presence {c : Cmd} (h : call.Sends cfg l c) (hw : .presence a ∈ c.writes) :
    (∃ cid ttl, call = .touchPresence a cid ttl) ∨ (∃ cid, call = .clearPresence a cid) ∨
      call = .reapOnce := by
  cases c with
  | touch b p ttl =>
    obtain rfl : a = b := by simpa [Cmd.writes] using hw
    obtain ⟨cid, hc⟩ := h.touch
    exact .inl ⟨cid, ttl, hc⟩
  | clearIfOwner b cid =>
    obtain rfl : a = b := by simpa [Cmd.writes] using hw
    exact .inr (.inl ⟨cid, h.clearIfOwner⟩)
  | del ks => exact .inr (.inr h.del.1)
  | expire k secs =>
    obtain ⟨kind, b, rfl⟩ := h.expire
    simp [Cmd.writes] at hw
  | _ => simp [Cmd.writes] at hw

theorem Call.Sends.writes_cursor {c : Cmd} (h : call.Sends cfg l c) (hcall : call ≠ .reapOnce)
    (hw : .cursor a ∈ c.writes) : ∃ id, c = .set a id := by
  cases c with
  | set b id =>
    simp only [Cmd.writes, List.mem_singleton, Key.cursor.injEq] at hw
    exact ⟨id, by rw [hw]⟩
  | del ks => exact absurd h.del.1 hcall
  | expire k secs =>
    obtain ⟨kind, b, rfl⟩ := h.expire
    simp [Cmd.writes] at hw
  | _ => simp [Cmd.writes] at hw

end

/-- **Every call keeps to what it sends**, whatever the server answers. -/
theorem Call.body_ensures [Python] (cfg : Config) (call : Call) :
    (call.body cfg).Ensures (call.Sends cfg) (fun _ _ => True) [] := by
  cases call with
  | rpc ident header op args =>
    exact (Prog.ensures_map _ _ _).2 (rpc_ensures cfg ident header op args)
  | registerAgent addr groups metadata retention =>
    exact ⟨.inl rfl, fun _ => ⟨.inr ⟨_, rfl⟩, fun _ => trivial⟩⟩
  | touchPresence a connectionId ttl =>
    exact ⟨.inl rfl, fun _ => ⟨.inr ⟨_, rfl⟩, fun _ => trivial⟩⟩
  | clearPresence a connectionId => exact ⟨rfl, fun _ => trivial⟩
  | appendMessage dest fields maxlen messageTtl =>
    refine ⟨.time, ?_⟩
    intro now
    show Prog.Ensures _ _ (Prog.bind (if maxlen < 0 then _ else _) _) _
    split
    · trivial
    · exact ⟨.xadd _ _ _, fun _ => trivial⟩
  | fetchUnread a limit =>
    exact (Prog.ensures_map _ _ _).2 ((fetchUnread_ensures a limit).mono (fun _ _ => id)
      fun _ _ _ => trivial)
  | unreadCount a =>
    exact ⟨UnreadSends.get, fun cur => ⟨UnreadSends.xrange cur, fun es => ⟨UnreadSends.time cur es,
      fun _ => trivial⟩⟩⟩
  | reapOnce => exact (Prog.ensures_map _ _ _).2 (reapOnce_ensures.mono (fun _ _ => id) fun _ _ => id)

theorem service_sends [Python] (cfg : Config) (srv : Server) {ok : Moment → Label Call Env → Prop}
    (w : Moment) (op : Call) (_ : ok w (.spawn op)) :
    ((service cfg srv).body op).Ensures (op.Sends cfg) (fun _ _ => True) [] :=
  Call.body_ensures cfg op

/-! ## What a call has done when it has ended -/

/-- A count has read its page and the clock, and has counted what had not expired. -/
theorem Call.counts [Python] (cfg : Config) (call : Call) : (call.body cfg).Ensures (fun _ _ => True)
    (fun out l => ∀ a, call = .unreadCount a → ∃ cur es now oldestTs,
      l = [sent (.get a) cur, sent (.xrange a cur 1000) es, sent .time now] ∧
        out = .ok (.unread (unexpired (now / 1000 : Nat) es).length oldestTs)) [] := by
  cases call with
  | unreadCount b =>
    refine ⟨trivial, fun cur => ⟨trivial, fun es => ⟨trivial, fun now => ?_⟩⟩⟩
    intro a h
    cases h
    exact ⟨cur, es, now, _, rfl, rfl⟩
  | _ => exact (Prog.ensures_true _ _).mono (fun _ _ => id) fun _ _ _ _ h => nomatch h

def Cmd.appends : Cmd → Bool
  | .xadd _ _ _ _ _ => true
  | _ => false

/-- Nothing of the log was an append. -/
def Unappended (l : Log) : Prop := ∀ y ∈ l, y.1.appends = false

/-- Nothing was appended, or at the very end one message was, and then its deliver event
published. -/
inductive ChatEnds : Log → Prop
  | nothing {l : Log} : Unappended l → ChatEnds l
  | delivered {l : Log} (dest frm body subject : PyStr) (important : Bool) (ts expiresAt : Int)
      (maxlen : Nat) (id : StreamId) : Unappended l →
    ChatEnds (l ++ [sent (.xadd dest (chatFields frm body subject important) ts expiresAt maxlen) id,
      sent (.publish dest (chatEvent id frm body subject important)) ()])

theorem Cmd.ReadsDirectory.appends {c : Cmd} (h : c.ReadsDirectory) : c.appends = false := by
  cases c with
  | xadd => cases h
  | _ => rfl

theorem RateSends.appends {kind : RateKind} {a : PyStr} {c : Cmd} (h : RateSends kind a c) :
    c.appends = false := by
  cases c with
  | xadd => cases h
  | _ => rfl

theorem DispatchSends.appends {cfg : Config} {ident : Identity Member} {sender : Address} {op : PyStr}
    {l : Log} {c : Cmd} (h : DispatchSends cfg ident sender op l c) (hop : op ≠ lit "chat") :
    c.appends = false := by
  cases h with
  | chat h _ => exact absurd h hop
  | fetch limit _ h => cases h <;> rfl
  | roster _ h => exact h.appends
  | announce _ h =>
    cases h with
    | directory h => exact h.appends
    | rate h => exact h.appends
    | publish dest event => rfl

theorem unappended_nil : Unappended [] := by
  intro y hy
  cases hy

theorem Unappended.logged {α : Type} {p : M α} {l : Log} {Φ : Log → Cmd → Prop}
    {Q : Except PyExn α → Log → Prop} (h : Unappended l) (hp : p.Ensures Φ Q l)
    (hΦ : ∀ l c, Φ l c → c.appends = false) :
    p.Ensures (fun _ _ => True) (fun _ l => Unappended l) l := by
  refine hp.logged.mono (fun _ _ _ => trivial) ?_
  rintro out l' ⟨-, hl'⟩ y hy
  obtain hy | ⟨l'', hy⟩ := hl' y hy
  · exact h y hy
  · exact hΦ l'' _ hy

theorem opChat_ends [Python] (cfg : Config) (ident : Identity Member) (sender : Address) (args : Args) :
    (opChat cfg ident sender args).Ensures (fun _ _ => True) (fun _ l => ChatEnds l) [] := by
  refine lift_ensures ?_ (fun _ _ => .nothing unappended_nil)
  intro r _
  obtain ⟨body, subject⟩ := r
  have hlist := unappended_nil.logged (visibleAgents_ensures ident []) fun _ _ h => h.appends
  refine hlist.bind ?_ (fun _ _ h => .nothing h)
  intro rows l hl
  refine lift_ensures ?_ (fun _ _ => .nothing hl)
  intro row _
  split
  · exact .nothing hl
  · have hrate := hl.logged (checkRate_ensures .chat sender.text cfg.chatRate cfg.rateWindow l)
      fun _ _ h => h.appends
    refine hrate.bind ?_ (fun _ _ h => .nothing h)
    intro _ l hl
    refine ⟨trivial, ?_⟩
    intro now
    have htime : Unappended (l ++ [sent .time now]) := by
      intro y hy
      rcases List.mem_append.1 hy with hy | hy
      · exact hl y hy
      · rw [List.mem_singleton.1 hy]
        rfl
    dsimp only [appendMessage]
    split
    · exact .nothing htime
    · refine ⟨trivial, fun id => ⟨trivial, fun _ => ?_⟩⟩
      rw [List.append_assoc _ [_] [_]]
      exact .delivered _ _ body subject _ _ _ _ id htime

theorem rpc_ends [Python] (cfg : Config) (ident : Identity Member) (header op : PyStr) (args : Args) :
    (rpc cfg ident header op args).Ensures (fun _ _ => True) (fun _ l => ChatEnds l) [] := by
  by_cases hop : op = lit "chat"
  · subst hop
    unfold rpc
    split
    · exact .nothing unappended_nil
    · exact opChat_ends cfg ident _ args
  · refine (unappended_nil.logged (rpc_ensures cfg ident header op args) ?_).mono (fun _ _ => id)
      fun _ _ h => .nothing h
    rintro l c ⟨_, _, hc⟩
    exact hc.appends hop

theorem Call.body_ends [Python] (cfg : Config) (call : Call) (h : call.served) :
    (call.body cfg).Ensures (fun _ _ => True) (fun _ l => ChatEnds l) [] := by
  have hnone : (∀ l c, call.Sends cfg l c → c.appends = false) →
      (call.body cfg).Ensures (fun _ _ => True) (fun _ l => ChatEnds l) [] := by
    intro hsends
    exact (unappended_nil.logged (Call.body_ensures cfg call) hsends).mono (fun _ _ => id)
      fun _ _ h => .nothing h
  cases call with
  | rpc ident header op args => exact (Prog.ensures_map _ _ _).2 (rpc_ends cfg ident header op args)
  | registerAgent addr groups metadata retention =>
    refine hnone ?_
    rintro l c (rfl | ⟨v, rfl⟩) <;> rfl
  | touchPresence b cid ttl =>
    refine hnone ?_
    rintro l c (rfl | ⟨t, rfl⟩) <;> rfl
  | clearPresence b cid =>
    refine hnone ?_
    rintro l c rfl
    rfl
  | unreadCount b =>
    refine hnone ?_
    intro l c hc
    cases hc <;> rfl
  | appendMessage | fetchUnread | reapOnce => exact absurd h id

end Muster
