import Muster.StoreRuns

/-!
# Storage that no reaper pass can reach

Inbox and cursor keys have no deadline; a reaper pass finds them by way of the
directory only.  A chat writes to an address it has read from the directory several
commands before, a fetch sets a cursor after it has read the inbox, and neither looks
again: a pass in between leaves an inbox and a cursor that nothing ever deletes
(`late_writes_orphan`).

Nothing is orphaned as long as every such write finds its address in the directory,
and no pass halfway through collecting it (`StoreClear`, `storage_collectable`).
-/

namespace Muster

/-- The key holds mail or the read position of `a`. -/
def Key.MailOf (a : PyStr) (k : Key) : Prop := k = .inbox a ∨ k = .cursor a

/-- Every inbox and every cursor belongs to an address of the directory. -/
def Db.NoOrphans (s : Db) : Prop :=
  ∀ a k, k.MailOf a → s.keys.has s.now k = true → a ∈ s.members

/-- Every call has ended. -/
def Quiet (w : Moment) : Prop := ∀ i < w.procs.length, (w.result i).isSome = true

instance Quiet.instDecidable (w : Moment) : Decidable (Quiet w) :=
  inferInstanceAs (Decidable (∀ i < w.procs.length, (w.result i).isSome = true))

/-- A pass with this log has deleted what `a` had stored, and not yet its directory entry. -/
def Clearing (a : PyStr) (l : Log) : Prop :=
  ∃ l', l = l' ++ [sent (.exists (.agent a)) false] ++
    [sent (.del [.inbox a, .cursor a, .presence a]) ()]

/-- Whose mail or read position a command writes. -/
def Cmd.stores : Cmd → Option PyStr
  | .xadd a _ _ _ _ => some a
  | .set a _ => some a
  | _ => none

/-- Mail and cursors are written for addresses of the directory only, and not while a pass is
between its two deletions of that address. -/
def StoreClear (w : Moment) (l : Label Call Env) : Prop :=
  ∀ i op c k a, l = .step i → w.procs[i]? = some ⟨op, .call c k⟩ → c.stores = some a →
    a ∈ w.st.members ∧ ∀ j, ¬ Clearing a (w.log j)

structure Collectable (st : Db) (hist : List Ev) : Prop where
  agents : st.Permanent .agents
  listed : st.NoOrphans
  cleared : ∀ i a k, Clearing a (Event.logOf hist i) → k.MailOf a → st.keys.has st.now k = false

/-! ## One command -/

section
variable {a : PyStr} {k : Key} {cfg : Config} {call : Call} {l : Log} {c : Cmd}

/-- Who writes a mail key: an append, a fetch's SET, or a pass that deletes it. -/
theorem Call.Sends.writes_mail (h : call.Sends cfg l c) (hk : k.MailOf a) (hw : k ∈ c.writes) :
    c.stores = some a ∨ c = .del [.inbox a, .cursor a, .presence a] := by
  rcases hk with rfl | rfl
  all_goals
    cases c with
    | xadd b fields ts exp maxlen =>
      first
        | exact .inl (congrArg some (Key.inbox.inj (List.mem_singleton.1 hw)).symm)
        | cases List.mem_singleton.1 hw
    | set b id =>
      first
        | exact .inl (congrArg some (Key.cursor.inj (List.mem_singleton.1 hw)).symm)
        | cases List.mem_singleton.1 hw
    | del ks =>
      obtain ⟨_, b, -, rfl⟩ := h.del.2.del_eq
      obtain rfl : a = b := by simpa [Cmd.writes] using hw
      exact .inr rfl
    | expire k secs =>
      obtain ⟨kind, b, rfl⟩ := h.expire
      simp [Cmd.writes] at hw
    | _ => simp [Cmd.writes] at hw

theorem has_exec_other (srv : Server) {s : Db} (h : k ∉ c.writes) :
    (exec srv c s).1.keys.has (exec srv c s).1.now k = s.keys.has s.now k := by
  unfold Keyspace.has
  rw [exec_now, Keyspace.look_congr (exec_other srv c s h)]

theorem has_env {s : Db} {e : Env} (h : (e.apply s).keys.has (e.apply s).now k = true) :
    s.keys.has s.now k = true := by
  obtain ⟨v, hv⟩ := Option.isSome_iff_exists.1 h
  cases e with
  | tick d => exact Option.isSome_iff_exists.2 ⟨v, Keyspace.look_of_le (Nat.le_add_right _ _) hv⟩
  | evict b n =>
    obtain ⟨hk, hl⟩ := Keyspace.look_eq_some_iff.1 hv
    cases k with
    | inbox d =>
      by_cases hb : d = b
      · subst hb
        simp only [Env.apply, if_true, Option.map_eq_some_iff] at hk
        obtain ⟨w, hw, rfl⟩ := hk
        exact Option.isSome_iff_exists.2 ⟨w, Keyspace.look_eq_some_iff.2 ⟨hw, hl⟩⟩
      · simp only [Env.apply, hb, if_false] at hk
        exact Option.isSome_iff_exists.2 ⟨v, Keyspace.look_eq_some_iff.2 ⟨hk, hl⟩⟩
    | _ => exact h

/-- What was being cleared, and what it takes to be. -/
theorem clearing_append {hist : List Ev} {i j : Nat} {op : Call} {r : c.Reply} {s : Db}
    (h : Clearing a (Event.logOf (hist ++ [⟨i, op, c, r, s⟩]) j)) :
    Clearing a (Event.logOf hist j) ∨ c = .del [.inbox a, .cursor a, .presence a] := by
  by_cases hij : i = j
  · subst hij
    rw [Event.logOf_append_self] at h
    obtain ⟨l', h⟩ := h
    exact .inr (congrArg Sigma.fst (List.head_eq_of_cons_eq (List.append_inj' h rfl).2))
  · rw [Event.logOf_append_other _ hij] at h
    exact .inl h

theorem ReapSends.clearing_of_srem (h : ReapSends l (.srem a)) : Clearing a l := by
  cases h with
  | srem l' => exact ⟨l', rfl⟩

end

section
variable (srv : Server) {cfg : Config} {st : Db} {hist : List Ev} {i : Nat} {op : Call} {c : Cmd}

/-- A mail key that exists after a command was there before, unless the command stores it. -/
theorem has_of_has_exec {a : PyStr} {k : Key} {l : Log} (hs : op.Sends cfg l c) (hk : k.MailOf a)
    (hc : c.stores ≠ some a) (h : (exec srv c st).1.keys.has (exec srv c st).1.now k = true) :
    st.keys.has st.now k = true := by
  by_cases hw : k ∈ c.writes
  · rcases hs.writes_mail hk hw with hst | rfl
    · exact absurd hst hc
    · -- the pass has just deleted it
      have hn : (exec srv (.del [.inbox a, .cursor a, .presence a]) st).1.keys k = none :=
        foldl_del_of_mem hw
      simp [Keyspace.has, Keyspace.look, hn] at h
  · rwa [has_exec_other srv hw] at h

theorem Collectable.step (hI : Collectable st hist) (hs : op.Sends cfg (Event.logOf hist i) c)
    (hok : ∀ a, c.stores = some a → a ∈ st.members ∧ ∀ j, ¬ Clearing a (Event.logOf hist j)) :
    Collectable (exec srv c st).1 (hist ++ [⟨i, op, c, (exec srv c st).2, st⟩]) where
  agents := hI.agents.exec rfl srv fun secs e => by
    subst e
    obtain ⟨kind, b, hk⟩ := hs.expire
    cases hk
  listed a k hk h := by
    by_cases hc : c.stores = some a
    · -- a write finds the address in the directory, and leaves the directory alone
      have hw : Key.agents ∉ c.writes := by
        cases c with
        | xadd | set => simp [Cmd.writes]
        | _ => cases hc
      rw [members_exec_other srv hw]
      exact (hok a hc).1
    · have hm := hI.listed a k hk (has_of_has_exec srv hs hk hc h)
      by_cases hd : .agents ∈ c.writes
      · rcases hs.writes_agents hd with ⟨b, rfl⟩ | ⟨b, v, retention, rfl⟩
        · -- what is taken out has no mail left
          rw [members_exec_srem]
          refine Finset.mem_erase.2 ⟨?_, hm⟩
          rintro rfl
          have hnone := hI.cleared i a k hs.srem.2.clearing_of_srem hk
          rw [has_of_has_exec srv hs hk hc h] at hnone
          cases hnone
        · rw [members_exec_register]
          exact Finset.mem_insert_of_mem hm
      · rwa [members_exec_other srv hd]
  cleared j a k hc hk := by
    rw [← Bool.not_eq_true]
    intro h
    rcases clearing_append hc with hold | rfl
    · by_cases hst : c.stores = some a
      · exact (hok a hst).2 j hold
      · have hb := has_of_has_exec srv hs hk hst h
        rw [hI.cleared j a k hold hk] at hb
        cases hb
    · have hn : (exec srv (.del [.inbox a, .cursor a, .presence a]) st).1.keys k = none :=
        foldl_del_of_mem (by rcases hk with rfl | rfl <;> simp)
      simp [Keyspace.has, Keyspace.look, hn] at h

theorem Collectable.env (hI : Collectable st hist) (e : Env) : Collectable (e.apply st) hist where
  agents := hI.agents.env e
  listed a k hk h := by
    rw [members_env hI.agents]
    exact hI.listed a k hk (has_env h)
  cleared i a k hc hk := by
    rw [← Bool.not_eq_true]
    intro h
    have hb := has_env h
    rw [hI.cleared i a k hc hk] at hb
    cases hb

end

/-! ## Every run -/

section
variable [Python] (cfg : Config) (srv : Server) {s₀ : Db} {w : Moment}

theorem reach_collectable (h : (service cfg srv).Reach StoreClear s₀ w)
    (hperm : s₀.Permanent .agents) (hs₀ : s₀.NoOrphans) : Collectable w.st w.hist := by
  refine Pool.reach_inv Collectable h (service_sends cfg srv) ⟨hperm, hs₀, ?_⟩ ?_
    fun w e hI _ => hI.env e
  · intro i a k hc
    obtain ⟨l', h⟩ := hc
    simp [Event.logOf] at h
  · intro w i op c k _ hI hok hp hc
    refine hI.step srv hc ?_
    intro a ha
    exact hok i op c k a rfl hp ha

/-- **No orphaned storage**, while mail and cursors are written for addresses of the directory
only: every inbox and every cursor belongs to an address of the directory, and once that
address has no identity a reaper pass collects them. -/
theorem storage_collectable (h : (service cfg srv).Reach StoreClear s₀ w)
    (hperm : s₀.Permanent .agents) (hs₀ : s₀.NoOrphans) :
    w.st.NoOrphans ∧ ∀ a k, k.MailOf a → w.st.keys.has w.st.now k = true → w.st.agent a = none →
      (reapOnce.run (exec srv) w.st).2.keys k = none := by
  have hI := reach_collectable cfg srv h hperm hs₀
  refine ⟨hI.listed, ?_⟩
  intro a k hk hhas ha
  have hr := reapOnce_collects srv w.st a (hI.listed a k hk hhas) ha
  rcases hk with rfl | rfl
  · exact hr.inbox
  · exact hr.cursor

end

/-! ## A pass between the reads and the write -/

def chatToX (body : String) : Call :=
  .rpc ⟨lit "u", []⟩ (lit "h/r/p/y") (lit "chat")
    [(lit "to", .str (lit "x")), (lit "body", .str (lit body))]

def fetchByX : Call := .rpc ⟨lit "u", []⟩ (lit "h/r/p/x") (lit "fetch") []

def registerX (retention : Int) : Call :=
  .registerAgent ⟨lit "u", lit "h", lit "r", lit "p", lit "x"⟩ [] .null retention

/-- `y` sends `x` a message; `x` fetches and `y` sends again, and before the SET and the
XADD the identity of `x` expires and a pass collects it. -/
def orphanedRun : List (Label Call Env) :=
  [.spawn (registerX 1), .step 0, .step 0, .spawn (chatToX "hi"),
    .step 1, .step 1, .step 1, .step 1, .step 1, .step 1, .step 1,
    .spawn fetchByX, .step 2, .step 2, .spawn (chatToX "ho"), .step 3, .step 3, .step 3,
    .env (.tick 2000), .spawn .reapOnce, .step 4, .step 4, .step 4, .step 4,
    .step 2, .step 2, .step 3, .step 3, .step 3, .step 3]

def orphaned : Moment :=
  (@service Python.plain Config.defaults Server.plain).follow (.start (.empty 5000)) orphanedRun

theorem not_noOrphans {s : Db} {a : PyStr} (h : s.members = ∅)
    (hin : s.keys.has s.now (.inbox a) = true) : ¬ s.NoOrphans := by
  intro hs
  have hm := hs a _ (.inl rfl) hin
  rw [h] at hm
  exact Finset.notMem_empty a hm

/-- With nothing in the directory a pass does nothing. -/
theorem reapOnce_of_empty (srv : Server) {s : Db} (h : s.members = ∅) :
    reapOnce.run (exec srv) s = (.ok 0, s) := by
  refine reapOnce_idle srv s ?_
  intro a ha
  rw [h] at ha
  exact absurd ha (Finset.notMem_empty a)

/-- The inbox and the cursor of `x` stay behind, out of reach of any pass. -/
theorem late_writes_orphan :
    (@service Python.plain Config.defaults Server.plain).Reach (fun _ _ => True) (.empty 5000) orphaned ∧
    Quiet orphaned ∧ ¬ orphaned.st.NoOrphans ∧
    orphaned.st.keys.has orphaned.st.now (.inbox (lit "u/h/r/p/x")) = true ∧
    orphaned.st.keys.has orphaned.st.now (.cursor (lit "u/h/r/p/x")) = true ∧
    reapOnce.run (exec Server.plain) orphaned.st = (.ok 0, orphaned.st) := by
  have hnone : orphaned.st.members = ∅ := by decide +kernel
  have hin : orphaned.st.keys.has orphaned.st.now (.inbox (lit "u/h/r/p/x")) = true := by
    decide +kernel
  have hcur : orphaned.st.keys.has orphaned.st.now (.cursor (lit "u/h/r/p/x")) = true := by
    decide +kernel
  have hquiet : Quiet orphaned := by decide +kernel
  exact ⟨Pool.Reach.follow .start fun _ _ _ => trivial, hquiet, not_noOrphans hnone hin, hin, hcur,
    reapOnce_of_empty Server.plain hnone⟩

/-! ## In turn -/

def Cmd.isDel : Cmd → Bool
  | .del _ => true
  | _ => false

/-- `StoreClear`, of a run in which no pass has deleted anything yet. -/
def storeClear (w : Moment) : Label Call Env → Bool
  | .step i =>
    match w.procs[i]? with
    | some ⟨_, .call c _⟩ =>
      match c.stores with
      | some a => decide (a ∈ w.st.members) && w.hist.all fun ev => !ev.cmd.isDel
      | none => true
    | _ => true
  | _ => true

theorem storeClear_sound (w : Moment) (l : Label Call Env) (h : storeClear w l = true) :
    StoreClear w l := by
  rintro i op c k a rfl hp hc
  simp only [storeClear, hp, hc, Bool.and_eq_true, decide_eq_true_eq, List.all_eq_true] at h
  refine ⟨h.1, ?_⟩
  rintro j ⟨l', hl⟩
  have hdel : sent (.del [.inbox a, .cursor a, .presence a]) () ∈ w.log j := by simp [hl]
  obtain ⟨ev, hev, -, he⟩ := Event.mem_logOf_iff.1 hdel
  have hno := h.2 ev hev
  rw [show ev.cmd = .del [.inbox a, .cursor a, .presence a] from congrArg Sigma.fst he] at hno
  cases hno

/-- A registration, a chat, a fetch, and a pass. -/
def collectableRun : List (Label Call Env) :=
  [.spawn (registerX 604800), .step 0, .step 0, .spawn (chatToX "hi"),
    .step 1, .step 1, .step 1, .step 1, .step 1, .step 1, .step 1,
    .spawn fetchByX, .step 2, .step 2, .step 2, .step 2, .spawn .reapOnce, .step 3, .step 3]

theorem storage_collectable_inTurn :
    let w := (@service Python.plain Config.defaults Server.plain).follow (.start (.empty 5000))
      collectableRun
    w.st.NoOrphans ∧ ∀ a k, k.MailOf a → w.st.keys.has w.st.now k = true → w.st.agent a = none →
      (reapOnce.run (exec Server.plain) w.st).2.keys k = none := by
  refine @storage_collectable Python.plain Config.defaults Server.plain (.empty 5000) _ ?_
    (fun _ hv => by cases hv) ?_
  · exact Pool.Reach.follow_of_admits storeClear_sound .start (by decide +kernel)
  · rintro a k - h
    cases h

end Muster
