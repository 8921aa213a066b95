import Muster.Traffic

/-!
# Operations run alone

What each operation of the store returns and leaves when nothing runs beside it.
`Db.directory` is what `list_agents` answers: the live identities of the set, in
order of address, whatever order SMEMBERS has.
-/

namespace Muster

/-- The slot a write with EXPIRE leaves. -/
def stamped {α : Type} (v : α) (now : Nat) (secs : Int) : Option (Slot α) :=
  if secs ≤ 0 then none else some ⟨v, some (now + secs.toNat * 1000)⟩

theorem stamped_live {α : Type} {v : α} {t now : Nat} {secs : Int} :
    ((stamped v t secs).filter (·.live now)).isSome = true ↔
      0 < secs ∧ (now : Int) < t + secs * 1000 := by
  unfold stamped
  by_cases h : secs ≤ 0
  · simp only [h, if_true, Option.filter_none, Option.isSome_none, Bool.false_eq_true, false_iff]
    omega
  · simp only [h, if_false, Option.isSome_filter, Option.any_some, Slot.live, decide_eq_true_eq]
    omega

section
variable (srv : Server) {s : Db}

theorem agent_slot_register (v : AgentHash) (retention : Int) (a : PyStr) :
    (exec srv (.register a v retention) s).1.keys (.agent a) = stamped v s.now retention :=
  Keyspace.expire_edit_same _ _

theorem presence_slot_touch (p : PresenceHash) (ttl : Int) (a : PyStr) :
    (exec srv (.touch a p ttl) s).1.keys (.presence a) = stamped p s.now ttl :=
  Keyspace.expire_edit_same _ _

end

section
variable (srv : Server) (s : Db)

/-! ## Registry and presence -/

def Db.row (a : PyStr) : Option Row := (s.agent a).map fun h => Row.of a h (s.online a)

def Db.directory : List Row := (s.members.sort (· ≤ ·)).filterMap s.row

theorem touchPresence_run (a connectionId : PyStr) (ttl : Int) :
    (touchPresence a connectionId ttl).run (exec srv) s =
      (.ok (), (exec srv (.touch a ⟨connectionId, s.sec⟩ ttl) s).1) := rfl

theorem clearPresence_run (a connectionId : PyStr) :
    (clearPresence a connectionId).run (exec srv) s =
      (.ok (exec srv (.clearIfOwner a connectionId) s).2,
        (exec srv (.clearIfOwner a connectionId) s).1) := rfl

/-- The hash `register_agent` writes. -/
def AgentHash.of (addr : Address) (groups : List Member) (metadata : Json) (now : Int) : AgentHash where
  user := addr.user
  host := addr.host
  runtime := addr.runtime
  project := addr.project
  session := addr.session
  groups := groups
  metadata := metadata.or (.obj [])
  lastConnect := now

theorem registerAgent_run (addr : Address) (groups : List Member) (metadata : Json) (retention : Int) :
    (registerAgent addr groups metadata retention).run (exec srv) s =
      (.ok (), (exec srv (.register addr.text (.of addr groups metadata s.sec) retention) s).1) := rfl

theorem listRows_run (addrs : List PyStr) :
    (listRows addrs).run (exec srv) s = (.ok (addrs.filterMap s.row), s) := by
  induction addrs with
  | nil => rfl
  | cons a addrs ih =>
    have hrest : ∀ f : List Row → M (List Row),
        (listRows addrs >>= f).run (exec srv) s = (f (addrs.filterMap s.row)).run (exec srv) s :=
      fun f => Prog.run_bind_of_ok _ ih f
    show (listRows addrs >>= _).run (exec srv) s = _
    rw [hrest]
    simp only [exec, List.filterMap_cons, Db.row]
    cases s.agent a <;> rfl

theorem members_sorted (S : Finset PyStr) :
    (srv.members S).insertionSort (· ≤ ·) = S.sort (· ≤ ·) := by
  refine List.Perm.eq_of_pairwise' (List.pairwise_insertionSort _ _) (Finset.pairwise_sort _ _) ?_
  refine (List.perm_insertionSort _ _).trans ?_
  rw [← Multiset.coe_eq_coe, srv.coe_members, Finset.sort_eq]

theorem listAgents_run : listAgents.run (exec srv) s = (.ok s.directory, s) := by
  show (listRows ((srv.members s.members).insertionSort (· ≤ ·))).run (exec srv) s = _
  rw [listRows_run, members_sorted]
  rfl

theorem mem_directory {r : Row} :
    r ∈ s.directory ↔ r.addr ∈ s.members ∧ s.row r.addr = some r := by
  unfold Db.directory
  rw [List.mem_filterMap]
  constructor
  · rintro ⟨a, ha, hr⟩
    obtain ⟨h, hh, rfl⟩ := Option.map_eq_some_iff.1 hr
    exact ⟨(Finset.mem_sort _).1 ha, hr⟩
  · rintro ⟨ha, hr⟩
    exact ⟨r.addr, (Finset.mem_sort _).2 ha, hr⟩

def Db.visibleRows (s : Db) (ident : Identity Member) : List Row :=
  s.directory.filter (·.visibleTo ident)

/-- Every agent's groups can be compared with the caller's, where they have to be. -/
def Db.Listable (s : Db) (ident : Identity Member) : Prop :=
  ∀ a ∈ s.directory, a.comparable ident = true

instance (s : Db) (ident : Identity Member) : Decidable (s.Listable ident) :=
  inferInstanceAs (Decidable (∀ a ∈ s.directory, a.comparable ident = true))

/-- Whether the directory can be listed is a matter of the records of its agents. -/
theorem listable_iff {ident : Identity Member} : s.Listable ident ↔
    ∀ a ∈ s.members, ∀ h, s.agent a = some h →
      visible ident.userId ident.groups h.user h.groups ≠ none := by
  constructor
  · intro hall a ha h hh
    have hrow : s.row a = some (Row.of a h (s.online a)) := congrArg (Option.map _) hh
    have hmem : Row.of a h (s.online a) ∈ s.directory := (mem_directory s).2 ⟨ha, hrow⟩
    exact Option.isSome_iff_ne_none.1 (hall _ hmem)
  · intro hall r hr
    obtain ⟨ha, hrow⟩ := (mem_directory s).1 hr
    obtain ⟨h, hh, heq⟩ := Option.map_eq_some_iff.1 hrow
    rw [← heq]
    exact Option.isSome_iff_ne_none.2 (hall _ ha h hh)

theorem visibleAgents_run (ident : Identity Member) :
    (visibleAgents ident).run (exec srv) s =
      (if s.Listable ident then .ok (s.visibleRows ident) else .error .typeError, s) := by
  unfold visibleAgents
  rw [Prog.run_bind_of_ok _ (listAgents_run srv s)]
  show Prog.run (exec srv) (Prog.ofExcept (keepVisible ident s.directory)) s = _
  rw [keepVisible_eq]
  show Prog.run (exec srv) (Prog.ofExcept (if s.Listable ident then .ok (s.visibleRows ident)
    else .error PyExn.typeError)) s = _
  split <;> rfl

/-- A listing goes through only where it can be made. -/
theorem visibleAgents_bind_run {α : Type} (ident : Identity Member) (f : List Row → M α) :
    (visibleAgents ident >>= f).run (exec srv) s =
      if s.Listable ident then (f (s.visibleRows ident)).run (exec srv) s else (.error .typeError, s) := by
  rw [Prog.run_bind, visibleAgents_run]
  by_cases h : s.Listable ident
  · rw [if_pos h, if_pos h]
  · rw [if_neg h, if_neg h]

/-! ## What a listing depends on -/

/-- The keys `list_agents` reads. -/
def Key.Listing : Key → Prop
  | .agents => True
  | .agent _ => True
  | .presence _ => True
  | _ => False

theorem directory_congr {s t : Db} (hnow : t.now = s.now)
    (hkeys : ∀ k : Key, k.Listing → t.keys k = s.keys k) : t.directory = s.directory := by
  have hmembers : t.members = s.members := by
    unfold Db.members
    rw [hnow, Keyspace.get_congr (hkeys .agents trivial)]
  have hrow : t.row = s.row := by
    funext a
    unfold Db.row Db.agent Db.online Keyspace.has
    rw [hnow, Keyspace.get_congr (hkeys (.agent a) trivial),
      Keyspace.look_congr (hkeys (.presence a) trivial)]
  unfold Db.directory
  rw [hmembers, hrow]

/-! ## A fetch -/

/-- The entries past the cursor. -/
def Db.unread (a : PyStr) : List Entry :=
  (s.inbox a).filter fun e => Stream.past (s.cursor a) e.id

/-- The next page of an inbox. -/
def Db.page (a : PyStr) (limit : Int) : List Entry := (s.unread a).take limit.toNat

theorem entriesPastCursor_run (a : PyStr) {limit : Int} (h : 1 ≤ limit) :
    (entriesPastCursor a limit).run (exec srv) s = (.ok (s.page a limit), s) := by
  show (if limit < 1 then _ else _ : M (List Entry)).run (exec srv) s = _
  rw [if_neg (by omega)]
  rfl

/-- An empty page leaves everything; otherwise the cursor is at the page's end. -/
theorem fetchUnread_run (a : PyStr) {limit : Int} (h : 1 ≤ limit) :
    (fetchUnread a limit).run (exec srv) s =
      match (s.page a limit).getLast? with
      | none => (.ok [], s)
      | some last => (.ok (unexpired s.sec (s.page a limit)), (exec srv (.set a last.id) s).1) := by
  unfold fetchUnread
  rw [Prog.run_bind_of_ok _ (entriesPastCursor_run srv s a h)]
  cases (s.page a limit).getLast? <;> rfl

theorem fetchUnread_refused (a : PyStr) {limit : Int} (h : limit < 1) :
    (fetchUnread a limit).run (exec srv) s = (.error .dataError, s) := by
  have hpage : (entriesPastCursor a limit).run (exec srv) s = (.error .dataError, s) := by
    show (if limit < 1 then _ else _ : M (List Entry)).run (exec srv) s = _
    rw [if_pos h]
    rfl
  exact Prog.run_bind_of_error _ hpage _

/-- A fetch at most sets the cursor, to an entry of the inbox. -/
theorem fetchUnread_state (a : PyStr) (limit : Int) :
    ((fetchUnread a limit).run (exec srv) s).2 = s ∨
    ∃ last ∈ s.inbox a, ((fetchUnread a limit).run (exec srv) s).2 = (exec srv (.set a last.id) s).1 := by
  by_cases h : limit < 1
  · exact .inl (by rw [fetchUnread_refused srv s a h])
  · rw [fetchUnread_run srv s a (by omega)]
    cases hl : (s.page a limit).getLast? with
    | none => exact .inl rfl
    | some last =>
      have hm := List.mem_of_mem_take (List.mem_of_getLast? hl)
      exact .inr ⟨last, List.mem_of_mem_filter hm, rfl⟩

theorem unread_sorted (a : PyStr) : (s.unread a).Pairwise fun x y => x.id < y.id :=
  (s.stream a).sorted.filter _

/-- Moving the cursor to the end of a page takes the page off the unread. -/
theorem unread_set (a : PyStr) (n : Nat) {last : Entry}
    (h : ((s.unread a).take n).getLast? = some last) :
    (exec srv (.set a last.id) s).1.unread a = (s.unread a).drop n := by
  have hlast : last ∈ (s.unread a).take n := List.mem_of_getLast? h
  have hsplit := unread_sorted s a
  rw [← List.take_append_drop n (s.unread a)] at hsplit
  obtain ⟨htake, -, hlt⟩ := List.pairwise_append.1 hsplit
  have hsub : ∀ e : Entry, last.id < e.id → Stream.past (s.cursor a) e.id = true := by
    intro e he
    have hp := (List.mem_filter.1 (List.mem_of_mem_take hlast)).2
    cases hc : s.cursor a with
    | none => rfl
    | some c =>
      rw [hc] at hp
      exact decide_eq_true ((of_decide_eq_true hp).trans he)
  have hnew : (exec srv (.set a last.id) s).1.unread a =
      (s.unread a).filter fun e => decide (last.id < e.id) := by
    have hin : (exec srv (.set a last.id) s).1.inbox a = s.inbox a := by
      unfold Db.inbox
      rw [stream_exec_other srv (by simp [Cmd.writes])]
    unfold Db.unread
    rw [hin, cursor_exec_set, List.filter_filter]
    refine List.filter_congr ?_
    intro e _
    rw [show Stream.past (some last.id) e.id = decide (last.id < e.id) from rfl]
    by_cases he : last.id < e.id
    · rw [hsub e he, Bool.and_true]
    · rw [decide_eq_false he, Bool.false_and]
  rw [hnew]
  conv_lhs => rw [← List.take_append_drop n (s.unread a)]
  rw [List.filter_append, List.filter_eq_nil_iff.2, List.filter_eq_self.2, List.nil_append]
  · intro e he
    exact decide_eq_true (hlt last hlast e he)
  · intro e he
    simpa using Stream.le_getLast htake h he

/-- **A fetch takes the next `limit` entries off the unread**, and returns those of them
that have not expired. -/
theorem fetchUnread_spec (a : PyStr) {limit : Int} (h : 1 ≤ limit) :
    ((fetchUnread a limit).run (exec srv) s).1 = .ok (unexpired s.sec (s.page a limit)) ∧
    ((fetchUnread a limit).run (exec srv) s).2.unread a = (s.unread a).drop limit.toNat := by
  rw [fetchUnread_run srv s a h]
  unfold Db.page
  cases hl : ((s.unread a).take limit.toNat).getLast? with
  | none =>
    have hnil := List.getLast?_eq_none_iff.1 hl
    have hunread : s.unread a = [] := by
      rcases List.take_eq_nil_iff.1 hnil with h0 | h0
      · omega
      · exact h0
    exact ⟨by rw [hnil]; rfl, by rw [hunread, List.drop_nil]⟩
  | some last => exact ⟨rfl, unread_set srv s a _ hl⟩

theorem unreadCount_run (a : PyStr) : ((unreadCount a).run (exec srv) s).2 = s := by
  unfold unreadCount
  rw [Prog.run_bind_of_ok _ (entriesPastCursor_run srv s a (by decide))]
  rfl

/-! ## Whole calls -/

theorem run_now {α : Type} (p : M α) (s : Db) : (p.run (exec srv) s).2.now = s.now := by
  induction p generalizing s with
  | ret a => rfl
  | throw e => rfl
  | call c k ih => exact (ih _ _).trans (exec_now srv c s)

/-- An identity whose hash is left alone is as live as before. -/
theorem agent_run {α : Type} {p : M α} {s : Db} {a : PyStr}
    (h : (p.run (exec srv) s).2.keys (.agent a) = s.keys (.agent a)) :
    (p.run (exec srv) s).2.agent a = s.agent a := by
  unfold Db.agent
  rw [run_now, Keyspace.get_congr h]

/-- What every command of a call keeps, the call keeps. -/
theorem body_run_keeps [Python] (cfg : Config) (call : Call) {I : Db → Prop}
    (h : ∀ l c s, call.Sends cfg l c → I s → I (exec srv c s).1) (hs : I s) :
    I ((call.body cfg).run (exec srv) s).2 :=
  Prog.run_keeps (exec srv) h (Call.body_ensures cfg call) hs

/-- A call leaves a key that none of its commands writes. -/
theorem body_run_keys [Python] (cfg : Config) (call : Call) {k : Key}
    (h : ∀ l c, call.Sends cfg l c → k ∉ c.writes) :
    ((call.body cfg).run (exec srv) s).2.keys k = s.keys k :=
  body_run_keeps srv s cfg call (I := fun s' => s'.keys k = s.keys k)
    (fun l c s' hc hs => (exec_other srv c s' (h l c hc)).trans hs) rfl

/-- What a reaper pass may not change for an address with a live identity. -/
structure Spared (a : PyStr) (s s' : Db) : Prop where
  agent : s'.keys (.agent a) = s.keys (.agent a)
  inbox : s'.keys (.inbox a) = s.keys (.inbox a)
  cursor : s'.keys (.cursor a) = s.keys (.cursor a)
  presence : s'.keys (.presence a) = s.keys (.presence a)
  member : a ∈ s'.members ↔ a ∈ s.members

theorem Spared.trans {a : PyStr} {s s' s'' : Db} (h : Spared a s s') (h' : Spared a s' s'') :
    Spared a s s'' where
  agent := h'.agent.trans h.agent
  inbox := h'.inbox.trans h.inbox
  cursor := h'.cursor.trans h.cursor
  presence := h'.presence.trans h.presence
  member := h'.member.trans h.member

/-- Collecting another address. -/
theorem Spared.collect {a b : PyStr} (h : a ≠ b) :
    Spared a s (exec srv (.srem b) (exec srv (.del [.inbox b, .cursor b, .presence b]) s).1).1 := by
  have hkeys : ∀ k, k ≠ .agents → k ∉ [Key.inbox b, .cursor b, .presence b] →
      (exec srv (.srem b) (exec srv (.del [.inbox b, .cursor b, .presence b]) s).1).1.keys k =
        s.keys k := by
    intro k hk hks
    rw [exec_other srv _ _ (by simpa [Cmd.writes] using hk), exec_other srv _ _ hks]
  refine ⟨hkeys _ (by simp) (by simp), hkeys _ (by simp) (by simp [h]), hkeys _ (by simp) (by simp [h]),
    hkeys _ (by simp) (by simp [h]), ?_⟩
  rw [members_exec_srem, members_exec_other srv (by simp [Cmd.writes]), Finset.mem_erase]
  exact and_iff_right h

theorem reapAll_run (a : PyStr) (addrs : List PyStr) (n : Nat) (h : a ∈ addrs → s.agent a ≠ none) :
    Spared a s ((reapAll addrs n).run (exec srv) s).2 := by
  induction addrs generalizing s n with
  | nil => exact ⟨rfl, rfl, rfl, rfl, Iff.rfl⟩
  | cons b addrs ih =>
    show Spared a s ((if (s.keys.has s.now (.agent b)) = true then reapAll addrs n else _ : M Nat).run
      (exec srv) s).2
    split
    · exact ih s n fun ha => h (List.mem_cons_of_mem _ ha)
    · next hb =>
      have hne : a ≠ b := by
        rintro rfl
        exact h List.mem_cons_self (Keyspace.get_eq_none_iff.2 (by simpa using hb))
      have hc := Spared.collect srv s hne
      refine hc.trans (ih _ _ ?_)
      intro ha
      rw [agent_exec_other srv (by simp [Cmd.writes]), agent_exec_other srv (by simp [Cmd.writes])]
      exact h (List.mem_cons_of_mem _ ha)

/-- **A pass run alone spares every live identity**, and whatever is not in the directory. -/
theorem reapOnce_run (a : PyStr) (h : a ∈ s.members → s.agent a ≠ none) :
    Spared a s (reapOnce.run (exec srv) s).2 :=
  reapAll_run srv s a _ 0 fun ha => h (srv.mem_members.1 ha)

/-- A pass leaves every identity hash as it is. -/
theorem reapOnce_agent (a : PyStr) :
    (reapOnce.run (exec srv) s).2.keys (.agent a) = s.keys (.agent a) :=
  Prog.run_keeps (exec srv) (I := fun s' => s'.keys (.agent a) = s.keys (.agent a))
    (fun l c s' hc hs => by
      rw [exec_other srv c s' ?_, hs]
      cases hc <;> simp [Cmd.writes])
    reapOnce_ensures rfl

theorem reapOnce_permanent (h : s.Permanent .agents) :
    (reapOnce.run (exec srv) s).2.Permanent .agents :=
  Prog.run_keeps (exec srv) (I := fun s' => s'.Permanent .agents)
    (fun l c s' hc hs => hs.exec rfl srv fun secs e => by subst e; cases hc) reapOnce_ensures h

/-- What a reaper pass leaves of an address it collects. -/
structure Reaped (a : PyStr) (s : Db) : Prop where
  inbox : s.keys (.inbox a) = none
  cursor : s.keys (.cursor a) = none
  presence : s.keys (.presence a) = none
  member : a ∉ s.members

theorem reaped_collect (a : PyStr) : Reaped a
    (exec srv (.srem a) (exec srv (.del [.inbox a, .cursor a, .presence a]) s).1).1 := by
  have hkeys : ∀ k, k ≠ .agents → k ∈ [Key.inbox a, .cursor a, .presence a] →
      (exec srv (.srem a) (exec srv (.del [.inbox a, .cursor a, .presence a]) s).1).1.keys k =
        none := by
    intro k hk hks
    rw [exec_other srv _ _ (by simpa [Cmd.writes] using hk)]
    exact foldl_del_of_mem hks
  refine ⟨hkeys _ (by simp) (by simp), hkeys _ (by simp) (by simp), hkeys _ (by simp) (by simp), ?_⟩
  rw [members_exec_srem]
  exact Finset.notMem_erase a _

/-- Collecting another address. -/
theorem Reaped.collect {a b : PyStr} {s : Db} (hs : Reaped a s) : Reaped a
    (exec srv (.srem b) (exec srv (.del [.inbox b, .cursor b, .presence b]) s).1).1 := by
  by_cases h : a = b
  · subst h
    exact reaped_collect srv s a
  · have hc := Spared.collect srv s h
    exact ⟨hc.inbox.trans hs.inbox, hc.cursor.trans hs.cursor, hc.presence.trans hs.presence,
      fun hm => hs.member (hc.member.1 hm)⟩

theorem Reaped.reapAll {a : PyStr} {s : Db} (hs : Reaped a s) (addrs : List PyStr) (n : Nat) :
    Reaped a ((reapAll addrs n).run (exec srv) s).2 := by
  induction addrs generalizing s n with
  | nil => exact hs
  | cons b addrs ih =>
    show Reaped a ((if (s.keys.has s.now (.agent b)) = true then Muster.reapAll addrs n else _ : M Nat).run
      (exec srv) s).2
    split
    · exact ih hs n
    · exact ih (hs.collect srv) _

theorem reapAll_collects (a : PyStr) (addrs : List PyStr) (n : Nat) (ha : a ∈ addrs)
    (h : s.agent a = none) : Reaped a ((reapAll addrs n).run (exec srv) s).2 := by
  induction addrs generalizing s n with
  | nil => cases ha
  | cons b addrs ih =>
    show Reaped a ((if (s.keys.has s.now (.agent b)) = true then reapAll addrs n else _ : M Nat).run
      (exec srv) s).2
    by_cases hab : a = b
    · subst hab
      rw [if_neg (by rw [Keyspace.get_eq_none_iff.1 h]; simp)]
      exact (reaped_collect srv s a).reapAll srv addrs _
    · have ha' := (List.mem_cons.1 ha).resolve_left hab
      split
      · exact ih s n ha' h
      · refine ih _ _ ha' ?_
        rw [agent_exec_other srv (by simp [Cmd.writes]), agent_exec_other srv (by simp [Cmd.writes])]
        exact h

/-- **A pass run alone collects every member without an identity.** -/
theorem reapOnce_collects (a : PyStr) (ha : a ∈ s.members) (h : s.agent a = none) :
    Reaped a (reapOnce.run (exec srv) s).2 := reapAll_collects srv s a _ 0 (srv.mem_members.2 ha) h

/-- Where every identity is live a pass finds nothing and changes nothing. -/
theorem reapAll_idle (addrs : List PyStr) (n : Nat) (h : ∀ a ∈ addrs, s.agent a ≠ none) :
    (reapAll addrs n).run (exec srv) s = (.ok n, s) := by
  induction addrs with
  | nil => rfl
  | cons b addrs ih =>
    have hb : s.keys.has s.now (.agent b) = true := by
      by_contra hb
      exact h b List.mem_cons_self (Keyspace.get_eq_none_iff.2 (by simpa using hb))
    show (if (s.keys.has s.now (.agent b)) = true then reapAll addrs n else _ : M Nat).run
      (exec srv) s = _
    rw [if_pos hb]
    exact ih fun a ha => h a (List.mem_cons_of_mem _ ha)

theorem reapOnce_idle (h : ∀ a ∈ s.members, s.agent a ≠ none) :
    reapOnce.run (exec srv) s = (.ok 0, s) :=
  reapAll_idle srv s _ 0 fun a ha => h a (srv.mem_members.1 ha)

/-- **A pass leaves nothing for the next one.** -/
theorem reapOnce_again : reapOnce.run (exec srv) (reapOnce.run (exec srv) s).2 =
    (.ok 0, (reapOnce.run (exec srv) s).2) := by
  refine reapOnce_idle srv _ ?_
  intro a ha hn
  have hs : s.agent a = none := (agent_run srv (reapOnce_agent srv s a)).symm.trans hn
  by_cases hm : a ∈ s.members
  · exact (reapOnce_collects srv s a hm hs).member ha
  · exact hm ((reapOnce_run srv s a fun h => absurd h hm).member.1 ha)

theorem reapOnce_row (a : PyStr) (h : s.agent a ≠ none) :
    (reapOnce.run (exec srv) s).2.row a = s.row a := by
  have hs := reapOnce_run srv s a fun _ => h
  unfold Db.row Db.agent Db.online Keyspace.has
  rw [run_now, Keyspace.get_congr hs.agent, Keyspace.look_congr hs.presence]

/-- The directory is in strict order of address. -/
theorem directory_sorted : s.directory.Pairwise fun r r' => r.addr < r'.addr := by
  unfold Db.directory
  rw [List.pairwise_filterMap]
  refine (Finset.sortedLT_sort s.members).pairwise.imp ?_
  intro a b hab r hr r' hr'
  obtain ⟨_, -, rfl⟩ := Option.map_eq_some_iff.1 hr
  obtain ⟨_, -, rfl⟩ := Option.map_eq_some_iff.1 hr'
  exact hab

theorem directory_nodup : s.directory.Nodup := by
  refine (directory_sorted s).imp ?_
  rintro r _ hr rfl
  exact lt_irrefl _ hr

/-- An address has one row. -/
theorem directory_inj {r r' : Row} (h : r ∈ s.directory) (h' : r' ∈ s.directory)
    (ha : r.addr = r'.addr) : r = r' := by
  have hr := ((mem_directory s).1 h).2
  rw [ha, ((mem_directory s).1 h').2] at hr
  exact (Option.some.inj hr).symm

theorem directory_ext {s' : Db} (h : ∀ r, r ∈ s'.directory ↔ r ∈ s.directory) :
    s'.directory = s.directory := by
  refine List.Perm.eq_of_pairwise ?_ (directory_sorted s') (directory_sorted s)
    ((List.perm_ext_iff_of_nodup (directory_nodup s') (directory_nodup s)).2 h)
  intro r r' _ _ hr hr'
  exact absurd (hr.trans hr') (lt_irrefl _)

/-- **A pass never changes what is listed.** -/
theorem reapOnce_directory : (reapOnce.run (exec srv) s).2.directory = s.directory := by
  refine directory_ext s ?_
  intro r
  rw [mem_directory, mem_directory]
  by_cases ha : s.agent r.addr = none
  · have ha' : (reapOnce.run (exec srv) s).2.agent r.addr = none :=
      (agent_run srv (reapOnce_agent srv s r.addr)).trans ha
    simp [Db.row, ha, ha']
  · rw [reapOnce_row srv s r.addr ha, (reapOnce_run srv s r.addr fun _ => ha).member]

end

end Muster
