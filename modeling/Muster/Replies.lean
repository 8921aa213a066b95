import Muster.Delivered
import Muster.Isolation
import Muster.References
import Muster.Sessions

/-!
# Answering mail

A message carries the full address of its sender, which is a reference to answer to.  While
user ids have no slash and a user's groups stay as they are, visibility is mutual and an address
is no part of another: in every run of requests, the sender of a message in an inbox is whose
inbox an answer goes to, for as long as its identity lives, and afterwards nobody's is
(`senders_can_be_answered`).  An agent whose groups cannot be hashed keeps all others from
writing while it is in the directory.
-/

namespace Muster

/-- The identities of a request: no slash in the user id, and the groups that user always has. -/
structure Request.Settled (groupsOf : PyStr → List Member) (req : Request) : Prop where
  own : ∀ ident header, req.headers = some (ident, header) →
    PyStr.slash ∉ ident.userId ∧ ident.groups = groupsOf ident.userId
  ping : ∀ ident header connectionId metadata groups2,
    req = .streamPing ident header connectionId metadata groups2 → groups2 = groupsOf ident.userId

/-- A record of such a request, at the address `a`. -/
structure AgentHash.Settled (groupsOf : PyStr → List Member) (a : PyStr) (h : AgentHash) : Prop where
  parsed : ∃ header addr, parseAgentHeader h.user header = .ok addr ∧ addr.text = a
  plain : PyStr.slash ∉ h.user
  groups : h.groups = groupsOf h.user

def Db.Settled (groupsOf : PyStr → List Member) (s : Db) : Prop :=
  ∀ a h, s.agent a = some h → h.Settled groupsOf a

/-- Only settled requests are made. -/
def SettledOnly (groupsOf : PyStr → List Member) (_ : ApiWorld) (l : Label Request Env) : Prop :=
  ∀ req, l = .spawn req → req.Settled groupsOf

/-- Listed, with a live identity. -/
def Db.Lists (s : Db) (a : PyStr) : Prop := a ∈ s.members ∧ s.agent a ≠ none

/-! ## What a request registers -/

/-- A record is written by a stream of its own address, with the groups of its key. -/
def Request.Registers (req : Request) (c : Cmd) : Prop :=
  ∀ a, .agent a ∈ c.writes → ∃ ident header addr groups metadata now retention,
    req.headers = some (ident, header) ∧ parseAgentHeader ident.userId header = .ok addr ∧
    (groups = ident.groups ∨
      ∃ connectionId metadata, req = .streamPing ident header connectionId metadata groups) ∧
    c = .register addr.text (.of addr groups metadata now) retention

section
variable {req : Request} {c : Cmd}

theorem Request.Registers.of_other (h : ∀ a, .agent a ∉ c.writes) : req.Registers c :=
  fun a ha => absurd ha (h a)

theorem touchPresence_registers (a connectionId : PyStr) (ttl : Int) (l : Log) :
    (touchPresence a connectionId ttl).Ensures (fun _ c => req.Registers c) (fun _ _ => True) l :=
  ⟨.of_other (by simp [Cmd.writes]), fun _ => ⟨.of_other (by simp [Cmd.writes]), fun _ => trivial⟩⟩

theorem registerAgent_registers {ident : Identity Member} {header : PyStr} {addr : Address}
    (hreq : req.headers = some (ident, header)) (haddr : parseAgentHeader ident.userId header = .ok addr)
    {groups : List Member} (hgroups : groups = ident.groups ∨
      ∃ connectionId metadata, req = .streamPing ident header connectionId metadata groups)
    (metadata : Json) (retention : Int) (l : Log) :
    (registerAgent addr groups metadata retention).Ensures (fun _ c => req.Registers c)
      (fun _ _ => True) l :=
  ⟨.of_other (by simp [Cmd.writes]), fun _ => ⟨fun _ _ => ⟨ident, header, addr, groups, metadata, _,
    retention, hreq, haddr, hgroups, rfl⟩, fun _ => trivial⟩⟩

theorem unreadCount_registers (a : PyStr) (l : Log) :
    (unreadCount a).Ensures (fun _ c => req.Registers c) (fun _ _ => True) l :=
  ⟨.of_other (by simp [Cmd.writes]), fun _ => ⟨.of_other (by simp [Cmd.writes]), fun _ =>
    ⟨.of_other (by simp [Cmd.writes]), fun _ => trivial⟩⟩⟩

theorem Request.body_registers [Python] (cfg : Config) (req : Request) :
    (req.body cfg).Ensures (fun _ c => req.Registers c) (fun _ _ => True) [] := by
  cases req with
  | rpc ident header op args =>
    refine ((Prog.ensures_map _ _ _).2 (rpc_ensures cfg ident header op args)).mono ?_ fun _ _ => id
    rintro l c ⟨sender, hsender, h⟩
    refine .of_other fun a ha => ?_
    have hsends : (Call.rpc ident header op args).Sends cfg l c := ⟨sender, hsender, h⟩
    obtain ⟨v, retention, rfl⟩ := hsends.writes_agent ha
    exact h.not_upkeep trivial
  | streamOpen ident header connectionId metadata =>
    refine caller_ensures fun addr haddr => ?_
    have hopen : (Muster.streamOpen cfg addr connectionId metadata ident.groups).Ensures
        (fun _ c => (Request.streamOpen ident header connectionId metadata).Registers c)
        (fun _ _ => True) [] := by
      refine (registerAgent_registers rfl haddr (.inl rfl) metadata _ _).bind ?_ fun _ _ _ => trivial
      intro _ l _
      exact (touchPresence_registers _ _ _ l).bind (fun _ l _ => unreadCount_registers _ l)
        fun _ _ _ => trivial
    exact hopen.bind (fun _ _ _ => trivial) fun _ _ _ => trivial
  | streamPing ident header connectionId metadata groups2 =>
    refine caller_ensures fun addr haddr => ?_
    unfold Muster.streamPing
    dsimp only
    split
    · exact (registerAgent_registers rfl haddr (.inr ⟨connectionId, metadata, rfl⟩) metadata _ _).bind
        (fun _ l _ => touchPresence_registers _ _ _ l) fun _ _ _ => trivial
    · exact touchPresence_registers _ _ _ _
  | streamClose ident header connectionId =>
    exact caller_ensures fun addr _ => ⟨.of_other (by simp [Cmd.writes]), fun _ => trivial⟩
  | reap =>
    refine ((Prog.ensures_map _ _ _).2 reapOnce_ensures).mono ?_ fun _ _ => id
    intro l c h
    refine .of_other fun a ha => ?_
    cases h <;> simp [Cmd.writes] at ha

end

/-! ## Settled records -/

section
variable (srv : Server) {groupsOf : PyStr → List Member} {s : Db} {req : Request} {c : Cmd}

/-- One command of a settled request. -/
theorem Db.Settled.exec (h : s.Settled groupsOf) (hreq : req.Settled groupsOf) (hc : req.Registers c) :
    (exec srv c s).1.Settled groupsOf := by
  intro a v hv
  by_cases hw : .agent a ∈ c.writes
  · obtain ⟨ident, header, addr, groups, metadata, now, retention, hheaders, haddr, hgroups, rfl⟩ := hc a hw
    rcases agent_of_register srv hv with ⟨rfl, rfl⟩ | hv
    · obtain ⟨hplain, hown⟩ := hreq.own ident header hheaders
      have huser := (parseAgentHeader_ok haddr).1
      refine ⟨⟨header, addr, ?_, rfl⟩, ?_, ?_⟩
      · rw [AgentHash.of, huser]
        exact haddr
      · rw [AgentHash.of, huser]
        exact hplain
      · show groups = groupsOf addr.user
        rw [huser]
        rcases hgroups with rfl | ⟨connectionId, metadata, rfl⟩
        · exact hown
        · exact hreq.ping _ _ _ _ _ rfl
    · exact h a v hv
  · rw [agent_exec_other srv hw] at hv
    exact h a v hv

end

section
variable [Python] {cfg : Config} {srv : Server} {groupsOf : PyStr → List Member} {ms : Nat} {w : ApiWorld}

/-- In every state of a run of settled requests, the records are settled. -/
theorem reach_settled (h : (api cfg srv).Reach (SettledOnly groupsOf) (.empty ms) w) :
    w.st.Settled groupsOf ∧ ∀ ev ∈ w.hist, ev.pre.Settled groupsOf := by
  refine Pool.reach_inv (fun (s : Db) (hist : List ApiEvent) => s.Settled groupsOf ∧
    ∀ ev ∈ hist, ev.pre.Settled groupsOf) h (fun _ req _ => Request.body_registers cfg req)
    ⟨fun a v hv => (by cases hv), by simp⟩ ?_ ?_
  · rintro w i req c k hw ⟨hst, hhist⟩ - hp hc
    obtain ⟨w', hspawn⟩ := hw.admitted i _ hp
    refine ⟨hst.exec srv (hspawn req rfl) hc, fun ev hev => ?_⟩
    rcases List.mem_append.1 hev with hev | hev
    · exact hhist ev hev
    · rw [List.mem_singleton.1 hev]
      exact hst
  · rintro w e ⟨hst, hhist⟩ -
    exact ⟨fun a v hv => hst a v (agent_env hv), hhist⟩

end

/-! ## Addresses of settled records -/

section
variable {groupsOf : PyStr → List Member} {s : Db} {ident : Identity Member}

theorem Db.Settled.parsed (h : s.Settled groupsOf) {r : Row} (hr : r ∈ s.directory) :
    r.Parsed ∧ PyStr.slash ∉ r.user := by
  obtain ⟨-, hrow⟩ := (mem_directory s).1 hr
  obtain ⟨v, hv, hof⟩ := Option.map_eq_some_iff.1 hrow
  have hsettled := h r.addr v hv
  rw [← hof]
  exact ⟨hsettled.parsed, hsettled.plain⟩

/-- Where no group is a list or a dict, the directory can be listed. -/
theorem Db.Settled.listable (h : s.Settled groupsOf) (hgroups : ∀ user, hashable (groupsOf user) = true)
    (hident : ident.groups = groupsOf ident.userId) : s.Listable ident := by
  refine (listable_iff s).2 fun a _ v hv hnone => ?_
  obtain ⟨-, hno⟩ := visible_eq_none.1 hnone
  rw [hident, (h a v hv).groups] at hno
  exact hno ⟨hgroups _, hgroups _⟩

/-- The address of a user without a slash is a run of the segments of that address only. -/
theorem addr_eq_of_matches (hs : s.Settled groupsOf) {user header : PyStr} {a : Address}
    (ha : parseAgentHeader user header = .ok a) (hplain : PyStr.slash ∉ user) {r : Row}
    (hr : r ∈ s.directory) (hm : matchesRef a.text r.addr = true) : r.addr = a.text := by
  obtain ⟨hparsed, hruser⟩ := hs.parsed hr
  have hsplit : (PyStr.split a.text).length = 5 := by
    have hheader := (parseAgentHeader_ok ha).2.1
    have huser := PyStr.split_of_noSlash hplain
    unfold PyStr.split at hheader huser ⊢
    rw [text_of_parseAgentHeader ha, List.splitOn_append_cons_self, List.length_append, hheader, huser]
    rfl
  have hinfix := ((matchesRef_iff _ _).1 hm).2
  have heq := hinfix.eq_of_length (by
    rw [hsplit, hparsed.length_split, PyStr.split_of_noSlash hruser]
    rfl)
  rw [← PyStr.join_split r.addr, ← heq, PyStr.join_split]

/-- **An address finds its own agent, or nobody**, for whoever its user's groups let see it. -/
theorem matched_address (hs : s.Settled groupsOf) {user header : PyStr} {a : Address}
    (ha : parseAgentHeader user header = .ok a) (hplain : PyStr.slash ∉ user)
    (hvisible : visible ident.userId ident.groups user (groupsOf user) = some true) :
    (s.Lists a.text → ∃ row, row.addr = a.text ∧ matched a.text (s.visibleRows ident) = [row]) ∧
    (¬ s.Lists a.text → matched a.text (s.visibleRows ident) = []) := by
  have hdirectory : ∀ r ∈ s.visibleRows ident, r ∈ s.directory := fun r hr => List.mem_of_mem_filter hr
  constructor
  · rintro ⟨hmember, hagent⟩
    obtain ⟨v, hv⟩ := Option.ne_none_iff_exists'.1 hagent
    have hsettled := hs a.text v hv
    obtain ⟨header', addr', haddr', htext⟩ := hsettled.parsed
    obtain ⟨huser, -⟩ := parseAgentHeader_text_inj haddr' ha htext
    have hrow : Row.of a.text v (s.online a.text) ∈ s.visibleRows ident := by
      refine List.mem_filter.2 ⟨(mem_directory s).2 ⟨hmember, ?_⟩, ?_⟩
      · show s.row a.text = _
        rw [Db.row, hv]
        rfl
      · refine visibleTo_iff.2 ?_
        show visible ident.userId ident.groups v.user v.groups = some true
        rw [hsettled.groups, huser]
        exact hvisible
    refine ⟨_, rfl, (matched_addr_iff ((directory_nodup s).filter _) ?_ ?_ hrow).2 ?_⟩
    · exact fun r hr r' hr' => directory_inj s (hdirectory r hr) (hdirectory r' hr')
    · exact fun r hr => (hs.parsed (hdirectory r hr)).1
    · intro b hb hlt
      rw [PyStr.split_of_noSlash (hs.parsed (hdirectory b hb)).2] at hlt
      have := List.length_pos_of_ne_nil (PyStr.split_ne_nil (Row.of a.text v (s.online a.text)).user)
      simp only [List.length_singleton] at hlt
      omega
  · intro hlists
    refine List.filter_eq_nil_iff.2 fun r hr hm => hlists ?_
    have haddr := addr_eq_of_matches hs ha hplain (hdirectory r hr) hm
    obtain ⟨hmember, hrow⟩ := (mem_directory s).1 (hdirectory r hr)
    obtain ⟨v, hv, -⟩ := Option.map_eq_some_iff.1 hrow
    rw [← haddr]
    exact ⟨hmember, by simp [hv]⟩

end

/-! ## Answers -/

/-- What comes of an answer that resolves to its sender, or to nobody. -/
structure Replied (cfg : Config) (s t : Db) (ident : Identity Member) (own : Address) (args : Args)
    (dest : PyStr) (out : Except PyExn Response) : Prop where
  delivered_iff : (∃ id status, out = .ok (.chat id dest status)) ↔ s.Listable ident ∧ s.Lists dest ∧
    (∃ sized, checkSize cfg.bodyMax ((Json.get args "body").or (.str [])) (Json.get args "subject") =
      .ok sized) ∧ (s.counter .chat own.text : Int) + 1 ≤ cfg.chatRate ∧ 0 ≤ cfg.inboxMaxlen
  stored : ∀ id status, out = .ok (.chat id dest status) →
    ∃ target e, target.addr = dest ∧ e.id = id ∧ Stored own args s t target e
  unstored : (¬ ∃ id status, out = .ok (.chat id dest status)) → SameInboxes s t
  nobody : s.Listable ident → ¬ s.Lists dest → (∃ sized, checkSize cfg.bodyMax
    ((Json.get args "body").or (.str [])) (Json.get args "subject") = .ok sized) →
      ∃ payload, out = .error (.opError 404 payload)

section
variable [Python] {cfg : Config} {srv : Server} {groupsOf : PyStr → List Member}

/-- The address is found, or nobody is. -/
theorem replied_of_matched {s : Db} {ident : Identity Member} {own : Address} {args : Args} {dest : PyStr}
    (hne : dest ≠ []) (hother : dest ≠ own.text) (hto : Json.get args "to" = .str dest)
    (hlisted : s.Lists dest → ∃ row : Row, row.addr = dest ∧ matched dest (s.visibleRows ident) = [row])
    (hnobody : ¬ s.Lists dest → matched dest (s.visibleRows ident) = []) :
    Replied cfg s ((opChat cfg ident own args).run (exec srv) s).2 ident own args dest
      ((opChat cfg ident own args).run (exec srv) s).1 := by
  have hor : (Json.get args "to").or (.str []) = .str dest := by
    rw [hto]
    exact Json.or_of_truthy (bne_iff_ne.2 hne)
  have hresolved : ∀ {target : Row},
      resolveReference ((Json.get args "to").or (.str [])) (s.visibleRows ident) = .ok target →
        s.Lists dest ∧ target.addr = dest := by
    intro target h
    rw [hor, resolveReference_ok_iff] at h
    by_cases hlists : s.Lists dest
    · obtain ⟨row, haddr, hrow⟩ := hlisted hlists
      rw [hrow] at h
      cases h
      exact ⟨hlists, haddr⟩
    · rw [hnobody hlists] at h
      cases h
  rcases hrun : (opChat cfg ident own args).run (exec srv) s with ⟨out, t⟩
  have houtcome := opChat_outcome hrun
  -- whatever goes through went to the one who resolves
  have hdest : ∀ {id : StreamId} {a : PyStr} {status : Status}, out = .ok (.chat id a status) → a = dest := by
    rintro id a status rfl
    cases opChat_cases srv s cfg ident own args hrun with
    | passed _ _ hto _ _ hsent =>
      unfold deliver at hsent
      split at hsent
      · cases hsent
      · cases hsent
        exact (hresolved hto).2
  refine ⟨?_, ?_, ?_, ?_⟩
  · cases opChat_cases srv s cfg ident own args hrun with
    | refused hsize =>
      refine iff_of_false ?_ (by simp [hsize])
      rintro ⟨id, status, ⟨⟩⟩
    | unlisted _ hlist =>
      refine iff_of_false ?_ fun h => hlist h.1
      rintro ⟨id, status, ⟨⟩⟩
    | unresolved _ _ hto =>
      refine iff_of_false ?_ fun h => ?_
      · rintro ⟨id, status, ⟨⟩⟩
      · obtain ⟨row, -, hrow⟩ := hlisted h.2.1
        rw [hor, resolveReference_ok_iff.2 hrow] at hto
        cases hto
    | toSelf _ _ hto hself => exact absurd ((hresolved hto).2.symm.trans hself) hother
    | limited _ _ _ _ hlimit =>
      refine iff_of_false ?_ fun h => ?_
      · rintro ⟨id, status, ⟨⟩⟩
      · have := h.2.2.2.1
        omega
    | passed hsize hlist hto _ hlimit hsent =>
      obtain ⟨hlists, haddr⟩ := hresolved hto
      unfold deliver at hsent
      split at hsent
      · next hmaxlen =>
        cases hsent
        refine iff_of_false ?_ fun h => absurd h.2.2.2.2 (by omega)
        rintro ⟨id, status, ⟨⟩⟩
      · next hmaxlen =>
        cases hsent
        exact iff_of_true ⟨_, _, by rw [haddr]⟩ ⟨hlist, hlists, ⟨_, hsize⟩, hlimit, by omega⟩
  · rintro id status rfl
    rcases houtcome with ⟨e, ⟨⟩, -⟩ | ⟨target, e, -, heq, hstored⟩
    cases heq
    exact ⟨target, e, hdest rfl, rfl, hstored⟩
  · intro hnone
    rcases houtcome with ⟨-, -, hsame⟩ | ⟨target, e, -, rfl, -⟩
    · exact hsame
    · have haddr : target.addr = dest := hdest rfl
      exact absurd ⟨e.id, target.status, by rw [haddr]⟩ hnone
  · rintro hlist hgone ⟨sized, hsize⟩
    obtain ⟨payload, hnotfound⟩ := resolveReference_notFound_iff.2 (hnobody hgone)
    refine ⟨payload, ?_⟩
    replace hrun := congrArg Prod.fst hrun
    rw [opChat_run, hsize] at hrun
    dsimp only at hrun
    rw [if_pos hlist, hor, hnotfound] at hrun
    exact hrun.symm

/-- **Whoever has written can be answered.**  At any point of a run of settled requests, an answer to
the sender of a message in an inbox is put into that sender's inbox as long as the directory can be
listed and the sender is in it, if its size and the rate allow; else no inbox changes. -/
theorem senders_can_be_answered {ms : Nat} {w : ApiWorld}
    (h : (api cfg srv).Reach (SettledOnly groupsOf) (.empty ms) w) {user header : PyStr} {own : Address}
    (hown : parseAgentHeader user header = .ok own) {e : Entry} (he : e ∈ w.st.inbox own.text)
    {args : Args} (hto : Json.get args "to" = .str (e.fields.get "from" [])) :
    Replied cfg w.st ((opChat cfg ⟨user, groupsOf user⟩ own args).run (exec srv) w.st).2
      ⟨user, groupsOf user⟩ own args
      (e.fields.get "from" []) ((opChat cfg ⟨user, groupsOf user⟩ own args).run (exec srv) w.st).1 := by
  obtain ⟨hst, hhist⟩ := reach_settled h
  obtain ⟨i, ident, from_, hstamped⟩ := reach_stamped h (fun _ => rfl) he
  obtain ⟨a, ha⟩ := hstamped.parsed
  have hfrom : e.fields.get "from" [] = a.text := by
    rw [hstamped.sender, text_of_parseAgentHeader ha]
  -- the sender's identity
  obtain ⟨ev, hev, -, ⟨cargs, hop⟩, -⟩ := hstamped.appended
  obtain ⟨p, hp, hpop⟩ := h.proc_of_mem_hist ev hev
  obtain ⟨w', hspawn⟩ := h.admitted _ p hp
  obtain ⟨hplain, hgroups⟩ := (hspawn p.op rfl).own ident from_ (by rw [hpop, hop]; rfl)
  -- what it saw of the reader
  obtain ⟨ev', hev', -, -, v, hv, hvisible⟩ := hstamped.live
  have hsettled := hhist ev' hev' own.text v hv
  obtain ⟨header', addr', haddr', htext⟩ := hsettled.parsed
  obtain ⟨rfl, -⟩ := parseAgentHeader_text_inj haddr' hown htext
  rw [hgroups, hsettled.groups, visible_comm] at hvisible
  obtain ⟨hlisted, hnobody⟩ := @matched_address groupsOf w.st ⟨v.user, groupsOf v.user⟩ hst _ _ a ha hplain hvisible
  have hne : a.text ≠ [] := by
    rw [text_of_parseAgentHeader ha]
    simp
  have hother : a.text ≠ own.text := by
    rw [text_of_parseAgentHeader ha]
    exact hstamped.ne
  rw [hfrom] at hto ⊢
  exact replied_of_matched hne hother hto hlisted hnobody

end

/-! ## Two users of one group -/

def amyAddr : Address := ⟨lit "amy", lit "h", lit "r", lit "p", lit "x"⟩

def benAddr : Address := ⟨lit "ben", lit "h", lit "r", lit "p", lit "y"⟩

def oneTeam (_ : PyStr) : List Member := [.str (lit "team")]

/-- Both connect, and the second writes to the first. -/
def wroteRun : List (Label Request Env) :=
  .spawn (.streamOpen ⟨lit "amy", [.str (lit "team")]⟩ (lit "h/r/p/x") (lit "A") .null) :: List.replicate 7 (.step 0) ++
  .spawn (.streamOpen ⟨lit "ben", [.str (lit "team")]⟩ (lit "h/r/p/y") (lit "B") .null) :: List.replicate 7 (.step 1) ++
  .spawn (.rpc ⟨lit "ben", [.str (lit "team")]⟩ (lit "h/r/p/y") (lit "chat")
    [(lit "to", .str (lit "x")), (lit "body", .str (lit "hi"))]) :: List.replicate 9 (.step 2)

def wrote : ApiWorld :=
  (@api Python.plain Config.defaults Server.plain).follow (.start (.empty 5000)) wroteRun

theorem wrote_reach : (@api Python.plain Config.defaults Server.plain).Reach (SettledOnly oneTeam)
    (.empty 5000) wrote := by
  refine Pool.Reach.follow .start ?_
  rintro w l hl req rfl
  simp only [wroteRun, List.mem_append, List.mem_cons, List.mem_replicate, Label.spawn.injEq, reduceCtorEq,
    and_false, or_false] at hl
  rcases hl with (rfl | rfl) | rfl <;>
    exact ⟨by rintro _ _ ⟨⟩; exact ⟨by decide, rfl⟩, nofun⟩

theorem senders_can_be_answered_amy : ∃ id status,
    ((@opChat Config.defaults ⟨lit "amy", [.str (lit "team")]⟩ amyAddr
      [(lit "to", .str benAddr.text), (lit "body", .str (lit "yes"))] Python.plain).run (exec .plain) wrote.st).1 =
      .ok (.chat id benAddr.text status) := by
  have hanswered := @senders_can_be_answered Python.plain Config.defaults Server.plain oneTeam 5000 wrote
    wrote_reach (lit "amy") (lit "h/r/p/x") amyAddr rfl _ List.mem_cons_self
    [(lit "to", .str benAddr.text), (lit "body", .str (lit "yes"))] rfl
  have hlist : wrote.st.Listable ⟨lit "amy", [.str (lit "team")]⟩ :=
    (@reach_settled Python.plain Config.defaults Server.plain oneTeam 5000 wrote wrote_reach).1.listable
      (fun _ => rfl) rfl
  refine hanswered.delivered_iff.2 ⟨hlist, ⟨?_, nofun⟩, ⟨_, rfl⟩, by decide, by decide⟩
  show benAddr.text ∈ ({benAddr.text, amyAddr.text} : Finset PyStr)
  simp

end Muster
