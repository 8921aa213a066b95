import Muster.Traffic

/-!
# A reaper pass beside everything else

The reaper asks whether an identity hash exists (EXISTS), deletes the inbox (DEL)
and then the directory entry (SREM), in three commands.  An agent that connects
again in between loses what was queued for it since, and its place in the
directory while its identity is live (`reaper_harms_live_identity`).

The pass is harmless as long as no registration falls into that window
(`RegisterClear`): an address that a pass is collecting then has no identity hash
until the pass is done with it (`Sound.window`).
-/

namespace Muster

/-- A pass with this log has found `a` without an identity, and is not done with it. -/
def Collecting (a : PyStr) (l : Log) : Prop :=
  ∃ l', l = l' ++ [sent (.exists (.agent a)) false] ∨
    l = l' ++ [sent (.exists (.agent a)) false] ++
      [sent (.del [.inbox a, .cursor a, .presence a]) ()]

/-- Nobody registers an address that a reaper pass is collecting. -/
def RegisterClear (w : Moment) (l : Label Call Env) : Prop :=
  ∀ i op a h retention k, l = .step i → w.procs[i]? = some ⟨op, .call (.register a h retention) k⟩ →
    ∀ j, ¬ Collecting a (w.log j)

/-- An entry appended to `a`'s inbox after a registration of `a` was deleted by the reaper
while the identity hash of that registration still existed. -/
def MailLost (a : PyStr) (hist : List Ev) : Prop :=
  ∃ (i j k : Nat) (reg add del : Ev) (h : AgentHash) (retention : Int) (e : Entry),
    i < j ∧ j < k ∧ hist[i]? = some reg ∧ hist[j]? = some add ∧ hist[k]? = some del ∧
    reg.cmd = .register a h retention ∧
    (∃ fields ts exp maxlen, sent add.cmd add.reply = sent (.xadd a fields ts exp maxlen) e.id) ∧
    del.op = .reapOnce ∧ (∃ ks, del.cmd = .del ks ∧ .inbox a ∈ ks) ∧ e ∈ del.pre.inbox a ∧
    del.pre.agent a = some h

structure Sound (st : Db) (hist : List Ev) : Prop where
  agents : st.Permanent .agents
  listed : ∀ a h, st.agent a = some h → a ∈ st.members
  window : ∀ i a, Collecting a (Event.logOf hist i) → st.agent a = none
  deleted : ∀ ev ∈ hist, ∀ ks a, ev.cmd = .del ks → .inbox a ∈ ks → ev.pre.agent a = none

section
variable {a : PyStr} {l : Log}

theorem ReapSends.collecting_of_srem (h : ReapSends l (.srem a)) : Collecting a l := by
  cases h with
  | srem l' => exact ⟨l', .inr rfl⟩

end

/-! ## One command -/

section
variable (srv : Server) {cfg : Config} {st : Db} {hist : List Ev} {i : Nat} {op : Call} {c : Cmd}

/-- What an address under collection was, and what it takes to come under collection. -/
theorem collecting_append {j : Nat} {a : PyStr} {r : c.Reply} {s : Db}
    (h : Collecting a (Event.logOf (hist ++ [⟨i, op, c, r, s⟩]) j)) :
    Collecting a (Event.logOf hist j) ∨ (sent c r = sent (.exists (.agent a)) false) := by
  by_cases hij : i = j
  · subst hij
    rw [Event.logOf_append_self] at h
    obtain ⟨l', h | h⟩ := h
    · exact .inr (List.head_eq_of_cons_eq (List.append_inj' h rfl).2)
    · obtain ⟨hl, hc⟩ := List.append_inj' h rfl
      exact .inl ⟨l', .inl hl⟩
  · rw [Event.logOf_append_other _ hij] at h
    exact .inl h

/-- One command of a call, registrations kept out of the window. -/
theorem Sound.step (hI : Sound st hist) (hs : op.Sends cfg (Event.logOf hist i) c)
    (hreg : ∀ a h retention, c = .register a h retention → ∀ j, ¬ Collecting a (Event.logOf hist j)) :
    Sound (exec srv c st).1 (hist ++ [⟨i, op, c, (exec srv c st).2, st⟩]) where
  agents := hI.agents.exec rfl srv fun secs e => by
    subst e
    obtain ⟨kind, b, hk⟩ := hs.expire
    cases hk
  listed a h ha := by
    by_cases hw : .agent a ∈ c.writes
    · obtain ⟨v, retention, rfl⟩ := hs.writes_agent hw
      rw [members_exec_register]
      exact Finset.mem_insert_self _ _
    · rw [agent_exec_other srv hw] at ha
      have hm := hI.listed a h ha
      by_cases hd : .agents ∈ c.writes
      · rcases hs.writes_agents hd with ⟨b, rfl⟩ | ⟨b, v, retention, rfl⟩
        · -- the address taken out has no identity, so it is another one
          have hb : st.agent b = none := hI.window i b hs.srem.2.collecting_of_srem
          rw [members_exec_srem]
          refine Finset.mem_erase.2 ⟨?_, hm⟩
          rintro rfl
          rw [hb] at ha
          cases ha
        · rw [members_exec_register]
          exact Finset.mem_insert_of_mem hm
      · rwa [members_exec_other srv hd]
  window j a hc := by
    rcases collecting_append hc with hold | hnew
    · by_cases hw : .agent a ∈ c.writes
      · obtain ⟨v, retention, rfl⟩ := hs.writes_agent hw
        exact absurd hold (hreg a v retention rfl j)
      · rw [agent_exec_other srv hw]
        exact hI.window j a hold
    · -- EXISTS has just answered no
      obtain rfl : c = .exists (.agent a) := congrArg Sigma.fst hnew
      simp only [sent, Sigma.mk.injEq, heq_eq_eq, true_and] at hnew
      exact Keyspace.get_eq_none_iff.2 hnew
  deleted ev hev ks a hcmd hks := by
    rcases List.mem_append.1 hev with hev | hev
    · exact hI.deleted ev hev ks a hcmd hks
    · rw [List.mem_singleton] at hev
      subst hev
      obtain rfl : c = .del ks := hcmd
      obtain ⟨l', b, hl, rfl⟩ := hs.del.2.del_eq
      obtain rfl : a = b := by simpa using hks
      exact hI.window i a ⟨l', .inl hl⟩

theorem Sound.env (hI : Sound st hist) (e : Env) : Sound (e.apply st) hist where
  agents := hI.agents.env e
  listed a h ha := by
    rw [members_env hI.agents]
    exact hI.listed a h (agent_env ha)
  window i a hc := by
    cases ha : (e.apply st).agent a with
    | none => rfl
    | some h =>
      have := hI.window i a hc
      rw [agent_env ha] at this
      cases this
  deleted := hI.deleted

end

/-! ## Every run -/

section
variable [Python] (cfg : Config) (srv : Server) {s₀ : Db} {w : Moment}

theorem reach_sound (h : (service cfg srv).Reach RegisterClear s₀ w)
    (hperm : s₀.Permanent .agents) (hlisted : ∀ a h, s₀.agent a = some h → a ∈ s₀.members) :
    Sound w.st w.hist := by
  refine Pool.reach_inv Sound h (service_sends cfg srv) ⟨hperm, hlisted, ?_, by simp⟩ ?_
    fun w e hI _ => hI.env e
  · intro i a hc
    obtain ⟨l', h | h⟩ := hc <;> simp [Event.logOf] at h
  · intro w i op cmd k _ hI hok hp hc
    refine hI.step srv hc ?_
    rintro a h retention rfl j
    exact hok i op a h retention k rfl hp j

/-- **A reaper pass harms no live identity**, while nobody registers an address that a
pass is collecting: a live identity stays in the directory, and nothing queued since its
registration is deleted. -/
theorem reaper_harmless (h : (service cfg srv).Reach RegisterClear s₀ w)
    (hperm : s₀.Permanent .agents) (hlisted : ∀ a h, s₀.agent a = some h → a ∈ s₀.members) :
    (∀ a h, w.st.agent a = some h → a ∈ w.st.members) ∧ ∀ a, ¬ MailLost a w.hist := by
  have hI := reach_sound cfg srv h hperm hlisted
  refine ⟨hI.listed, ?_⟩
  rintro a ⟨i, j, k, reg, add, del, h, retention, e, -, -, -, -, hk, -, -, -, ⟨ks, hcmd, hks⟩, -, ha⟩
  rw [hI.deleted del (List.mem_of_getElem? hk) ks a hcmd hks] at ha
  cases ha

end

/-! ## A registration in the window -/

def reapedUser : Identity Member := ⟨lit "u", []⟩

/-- `x` registers for a second and expires; a pass finds it expired, `x` registers again
and `y` sends it a message, and the pass goes on. -/
def reapedRun : List (Label Call Env) :=
  [.spawn (.registerAgent ⟨lit "u", lit "h", lit "r", lit "p", lit "x"⟩ [] .null 1),
    .step 0, .step 0, .env (.tick 2000), .spawn .reapOnce, .step 1, .step 1,
    .spawn (.registerAgent ⟨lit "u", lit "h", lit "r", lit "p", lit "x"⟩ [] .null 604800),
    .step 2, .step 2,
    .spawn (.rpc reapedUser (lit "h/r/p/y") (lit "chat")
      [(lit "to", .str (lit "x")), (lit "body", .str (lit "hi"))])] ++
  List.replicate 7 (.step 3) ++ [.step 1, .step 1]

def reaped : Moment :=
  (@service Python.plain Config.defaults Server.plain).follow (.start (.empty 5000)) reapedRun

theorem reaper_harms_live_identity :
    (@service Python.plain Config.defaults Server.plain).Reach (fun _ _ => True) (.empty 5000) reaped ∧
    (∃ h, reaped.st.agent (lit "u/h/r/p/x") = some h ∧ lit "u/h/r/p/x" ∉ reaped.st.members) ∧
    MailLost (lit "u/h/r/p/x") reaped.hist := by
  refine ⟨Pool.Reach.follow .start fun _ _ _ => trivial, ⟨_, rfl, ?_⟩, 5, 11, 13, _, _, _, _, 604800,
    _, by decide, by decide, rfl, rfl, rfl, rfl, ⟨_, _, _, _, rfl⟩, rfl, ⟨_, rfl, List.mem_cons_self⟩,
    List.mem_cons_self, rfl⟩
  rw [show reaped.st.members = ∅ from rfl]
  exact Finset.notMem_empty _

theorem not_collecting {a : PyStr} {hist : List Ev} (h : ∀ ev ∈ hist, ∀ k, ev.cmd ≠ .exists k)
    (j : Nat) : ¬ Collecting a (Event.logOf hist j) := by
  have hno : sent (.exists (.agent a)) false ∉ Event.logOf hist j := by
    intro hm
    obtain ⟨ev, hev, -, he⟩ := Event.mem_logOf_iff.1 hm
    exact h ev hev _ (congrArg Sigma.fst he)
  rintro ⟨l', hl | hl⟩ <;> exact hno (by rw [hl]; simp)

theorem clear_step {w : Moment} {i : Nat} {op : Call} {c : Cmd} {k : c.Reply → M Outcome}
    (hp : w.procs[i]? = some ⟨op, .call c k⟩)
    (h : ∀ a v retention, c = .register a v retention → ∀ ev ∈ w.hist, ∀ k, ev.cmd ≠ .exists k) :
    RegisterClear w (.step i) := by
  rintro j op' a v retention k' hj hp'
  cases hj
  rw [hp] at hp'
  cases hp'
  exact not_collecting (h a v retention rfl)

theorem clear_spawn {w : Moment} {op : Call} : RegisterClear w (.spawn op) :=
  fun _ _ _ _ _ _ hl => by cases hl

/-- A registration, then a pass. -/
theorem reaper_harmless_inTurn :
    let svc := @service Python.plain Config.defaults Server.plain
    let w := svc.follow (.start (.empty 5000))
      [.spawn (.registerAgent ⟨lit "u", lit "h", lit "r", lit "p", lit "x"⟩ [] .null 604800), .step 0,
        .step 0, .spawn .reapOnce, .step 1, .step 1]
    (∀ a h, w.st.agent a = some h → a ∈ w.st.members) ∧ ∀ a, ¬ MailLost a w.hist := by
  refine @reaper_harmless Python.plain Config.defaults Server.plain (.empty 5000) _ ?_
    (fun _ hv => by cases hv) (fun _ _ hv => by cases hv)
  have h0 : (@service Python.plain Config.defaults Server.plain).Reach RegisterClear (.empty 5000) _ :=
    .next (l := .spawn (.registerAgent ⟨lit "u", lit "h", lit "r", lit "p", lit "x"⟩ [] .null 604800))
      .start clear_spawn
  have h1 := h0.next (clear_step (i := 0) rfl nofun)
  have h2 := h1.next (clear_step (i := 0) rfl fun _ _ _ _ ev hev k hk => by
    rw [List.mem_singleton.1 hev] at hk
    cases hk)
  have h3 := h2.next (l := .spawn .reapOnce) clear_spawn
  exact (h3.next (clear_step (i := 1) rfl nofun)).next (clear_step (i := 1) rfl nofun)

end Muster
