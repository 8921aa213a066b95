import Muster.Lib.Cut
import Muster.Failures
import Muster.RetryAfter

/-!
# Reaper passes that are cut off (`reaper.py`)

`run_forever` makes a pass, logs what it raises, and sleeps.  A pass that fails has sent
some of its commands: an address may have lost its inbox and still be in the directory.
That costs nothing.  Live identities are spared wherever a pass is cut, and the next pass
that comes to its end leaves what it would have left alone (`passes_resume`).
-/

namespace Muster

/-- What a pass deletes of an address. -/
def collected (a : PyStr) : List Key := [.inbox a, .cursor a, .presence a]

/-- In the directory, and its identity gone. -/
def Db.Dead (s : Db) (a : PyStr) : Prop := a ∈ s.members ∧ s.agent a = none

/-- A pass, which is cut off after some commands unless it comes to its end, and the sleep. -/
structure Round where
  cutAt : Option Nat
  /-- beyond the interval, in milliseconds -/
  late : Nat

def Round.pass (srv : Server) (r : Round) (s : Db) : Db :=
  match r.cutAt with
  | none => (reapOnce.run (exec srv) s).2
  | some n => reapOnce.cut (exec srv) n s

/-- `run_forever`, with nothing else running. -/
def runForever (srv : Server) : List Round → Db → Db
  | [], s => s
  | r :: rounds, s => runForever srv rounds ((r.pass srv s).later (600 * 1000 + r.late))

/-- The time that rounds take. -/
def elapsed (rounds : List Round) : Nat := (rounds.map fun r => 600 * 1000 + r.late).sum

/-- `t` is `s` with some of the dead collected, or collected in part. -/
structure Partly (s t : Db) : Prop where
  now : t.now = s.now
  pubs : t.pubs = s.pubs
  permanent : t.Permanent .agents
  listed : (t.keys .agents).isSome = (s.keys .agents).isSome
  kept : ∀ k, k ≠ .agents → (∀ a, s.Dead a → k ∉ collected a) → t.keys k = s.keys k
  deleted : ∀ k, k ≠ .agents → t.keys k = s.keys k ∨ t.keys k = none
  members : t.members ⊆ s.members
  gone : ∀ a ∈ s.members, a ∉ t.members → s.agent a = none ∧ ∀ k ∈ collected a, t.keys k = none

namespace Partly

variable {s t u : Db}

theorem refl (h : s.Permanent .agents) : Partly s s :=
  ⟨rfl, rfl, h, rfl, fun _ _ _ => rfl, fun _ _ => .inl rfl, Finset.Subset.refl _, fun _ hm hn => absurd hm hn⟩

/-- A pass deletes no identity. -/
theorem agent (h : Partly s t) (a : PyStr) : t.agent a = s.agent a := by
  have hkey : t.keys (.agent a) = s.keys (.agent a) :=
    h.kept (.agent a) (by simp) fun _ _ => by simp [collected]
  unfold Db.agent
  rw [h.now, Keyspace.get_congr hkey]

theorem dead (h : Partly s t) {a : PyStr} (ha : t.Dead a) : s.Dead a :=
  ⟨h.members ha.1, (h.agent a).symm.trans ha.2⟩

theorem trans (h : Partly s t) (h' : Partly t u) : Partly s u where
  now := h'.now.trans h.now
  pubs := h'.pubs.trans h.pubs
  permanent := h'.permanent
  listed := h'.listed.trans h.listed
  kept k hk hd := (h'.kept k hk fun a ha => hd a (h.dead ha)).trans (h.kept k hk hd)
  deleted k hk := by
    rcases h'.deleted k hk with hu | hu
    · rw [hu]
      exact h.deleted k hk
    · exact .inr hu
  members := h'.members.trans h.members
  gone a ha hn := by
    by_cases ht : a ∈ t.members
    · obtain ⟨hagent, hkeys⟩ := h'.gone a ht hn
      exact ⟨(h.agent a).symm.trans hagent, hkeys⟩
    · obtain ⟨hagent, hkeys⟩ := h.gone a ha ht
      refine ⟨hagent, fun k hk => ?_⟩
      have hne : k ≠ .agents := by
        rintro rfl
        simp [collected] at hk
      rcases h'.deleted k hne with hu | hu
      · exact hu.trans (hkeys k hk)
      · exact hu

/-- Who is dead stays so. -/
theorem later (h : Partly s t) (hs : s.Permanent .agents) (d : Nat) : Partly (s.later d) (t.later d) := by
  have hmembers : ∀ {x : Db}, x.Permanent .agents → (x.later d).members = x.members := fun hx =>
    members_env hx (.tick d)
  have hagent : ∀ a, s.agent a = none → (s.later d).agent a = none := by
    intro a ha
    cases hlater : (s.later d).agent a with
    | none => rfl
    | some v => exact absurd (agent_env hlater) (by rw [ha]; simp)
  constructor
  · show t.now + d = s.now + d
    rw [h.now]
  · exact h.pubs
  · exact h.permanent
  · exact h.listed
  · intro k hk hd
    refine h.kept k hk fun a ha => hd a ⟨?_, hagent a ha.2⟩
    rw [hmembers hs]
    exact ha.1
  · exact h.deleted
  · rw [hmembers hs, hmembers h.permanent]
    exact h.members
  · rw [hmembers hs, hmembers h.permanent]
    intro a ha hn
    exact ⟨hagent a (h.gone a ha hn).1, (h.gone a ha hn).2⟩

/-- Only the dead lose anything. -/
theorem spared (h : Partly s t) {a : PyStr} (ha : a ∈ s.members → s.agent a ≠ none) : Spared a s t := by
  have hkeys : ∀ k ∈ collected a, t.keys k = s.keys k := by
    intro k hk
    refine h.kept k (by rintro rfl; simp [collected] at hk) fun b hb hkb => ?_
    have hab : a = b := by
      simp only [collected, List.mem_cons, List.not_mem_nil, or_false] at hk hkb
      rcases hk with rfl | rfl | rfl <;> simpa using hkb
    exact ha (hab ▸ hb.1) (hab ▸ hb.2)
  refine ⟨?_, hkeys _ (by simp [collected]), hkeys _ (by simp [collected]), hkeys _ (by simp [collected]), ?_⟩
  · exact h.kept (.agent a) (by simp) fun _ _ => by simp [collected]
  · refine ⟨fun hm => h.members hm, fun hm => ?_⟩
    by_contra hn
    exact ha hm (h.gone a hm hn).1

/-- Where none is left there is only one outcome. -/
theorem unique {v : Db} (hu : Partly s u) (hv : Partly s v) (hudone : ∀ a, ¬ u.Dead a)
    (hvdone : ∀ a, ¬ v.Dead a) : u = v := by
  have hmem : ∀ {x : Db}, Partly s x → (∀ a, ¬ x.Dead a) →
      ∀ a, a ∈ x.members ↔ a ∈ s.members ∧ s.agent a ≠ none := by
    intro x hx hdone a
    constructor
    · intro ha
      exact ⟨hx.members ha, fun hagent => hdone a ⟨ha, (hx.agent a).trans hagent⟩⟩
    · rintro ⟨ha, hagent⟩
      by_contra hn
      exact hagent (hx.gone a ha hn).1
  have hslot : ∀ {x : Db}, Partly s x → ∀ slot, x.keys .agents = some slot → slot = ⟨x.members, none⟩ := by
    intro x hx slot hk
    have hval : x.members = slot.val := by
      unfold Db.members
      rw [hx.permanent.get, hk]
      rfl
    rw [hval, ← hx.permanent slot hk]
  have hkeys : u.keys = v.keys := by
    funext k
    by_cases hk : k = .agents
    · subst hk
      have hmembers : u.members = v.members := by
        ext a
        rw [hmem hu hudone, hmem hv hvdone]
      have hsome := hu.listed.trans hv.listed.symm
      cases hku : u.keys .agents with
      | none =>
        rw [hku] at hsome
        exact (Option.isNone_iff_eq_none.1 (by simpa using hsome.symm)).symm
      | some slot =>
        rw [hku] at hsome
        obtain ⟨slot', hkv⟩ := Option.isSome_iff_exists.1 hsome.symm
        rw [hkv, hslot hu slot hku, hslot hv slot' hkv, hmembers]
    · by_cases hd : ∃ a, s.Dead a ∧ k ∈ collected a
      · obtain ⟨a, ha, hka⟩ := hd
        have hnone : ∀ {x : Db}, Partly s x → (∀ a, ¬ x.Dead a) → x.keys k = none := by
          intro x hx hdone
          refine (hx.gone a ha.1 fun hmember => ?_).2 k hka
          exact hdone a ⟨hmember, (hx.agent a).trans ha.2⟩
        rw [hnone hu hudone, hnone hv hvdone]
      · have hkept : ∀ a, s.Dead a → k ∉ collected a := fun a ha hka => hd ⟨a, ha, hka⟩
        rw [hu.kept k hk hkept, hv.kept k hk hkept]
  have hnow := hu.now.trans hv.now.symm
  have hpubs := hu.pubs.trans hv.pubs.symm
  cases u
  cases v
  simp only [Db.mk.injEq]
  exact ⟨hnow, hkeys, hpubs⟩

end Partly

/-! ## One pass -/

section
variable (srv : Server) {s : Db}

/-- The first of the two commands. -/
theorem partly_del (hs : s.Permanent .agents) {a : PyStr} (ha : s.Dead a) :
    Partly s (exec srv (.del (collected a)) s).1 := by
  have hagents : (exec srv (.del (collected a)) s).1.keys .agents = s.keys .agents :=
    exec_other srv _ s (by simp [Cmd.writes, collected])
  have hmembers : (exec srv (.del (collected a)) s).1.members = s.members :=
    members_exec_other srv (by simp [Cmd.writes, collected])
  constructor
  · rfl
  · rfl
  · exact hs.exec rfl srv (by simp)
  · rw [hagents]
  · intro k _ hd
    exact exec_other srv _ s (hd a ha)
  · intro k _
    by_cases hk : k ∈ collected a
    · exact .inr (foldl_del_of_mem hk)
    · exact .inl (exec_other srv _ s hk)
  · rw [hmembers]
  · intro b hb hn
    rw [hmembers] at hn
    exact absurd hb hn

theorem partly_collect (hs : s.Permanent .agents) {a : PyStr} (ha : s.Dead a) :
    Partly s (exec srv (.srem a) (exec srv (.del (collected a)) s).1).1 := by
  have hdel := partly_del srv hs ha
  have hsrem : ∀ k, k ≠ .agents → (exec srv (.srem a) (exec srv (.del (collected a)) s).1).1.keys k =
      (exec srv (.del (collected a)) s).1.keys k := fun k hk =>
    exec_other srv _ _ (by simpa [Cmd.writes] using hk)
  have hmembers : (exec srv (.srem a) (exec srv (.del (collected a)) s).1).1.members =
      (exec srv (.del (collected a)) s).1.members.erase a := members_exec_srem srv
  constructor
  · rfl
  · rfl
  · exact hdel.permanent.exec rfl srv (by simp)
  · -- the set is there, as `a` is in it
    have hsome : (s.keys .agents).isSome = true := by
      cases hk : s.keys .agents with
      | none =>
        have hin := ha.1
        unfold Db.members at hin
        rw [hs.get, hk] at hin
        simp at hin
      | some slot => rfl
    rw [hsome]
    simp [exec]
  · intro k hk hd
    rw [hsrem k hk]
    exact hdel.kept k hk hd
  · intro k hk
    rw [hsrem k hk]
    exact hdel.deleted k hk
  · rw [hmembers]
    exact (Finset.erase_subset _ _).trans hdel.members
  · intro b hb hn
    have hmem : (exec srv (.del (collected a)) s).1.members = s.members :=
      members_exec_other srv (by simp [Cmd.writes, collected])
    rw [hmembers, hmem, Finset.mem_erase, not_and'] at hn
    obtain rfl : b = a := not_not.1 (hn hb)
    refine ⟨ha.2, fun k hk => ?_⟩
    rw [hsrem k (by rintro rfl; simp [collected] at hk)]
    exact foldl_del_of_mem hk

/-- A pass over addresses of the directory, wherever it is cut. -/
theorem reapAll_cut (hs : s.Permanent .agents) {addrs : List PyStr} (hnodup : addrs.Nodup)
    (hmem : ∀ a ∈ addrs, a ∈ s.members) (reaped n : Nat) :
    Partly s ((reapAll addrs reaped).cut (exec srv) n s) := by
  induction addrs generalizing s reaped n with
  | nil =>
    rw [reapAll, Prog.pure_eq, Prog.cut_ret]
    exact .refl hs
  | cons a addrs ih =>
    obtain ⟨ha, haddrs⟩ := List.nodup_cons.1 hnodup
    obtain ⟨hin, hrest⟩ := List.forall_mem_cons.1 hmem
    cases n with
    | zero => exact .refl hs
    | succ n =>
      show Partly s ((if s.keys.has s.now (.agent a) = true then reapAll addrs reaped else _ : M Nat).cut
        (exec srv) n s)
      split
      · exact ih hs haddrs hrest reaped n
      · next hlive =>
        have hdead : s.Dead a := ⟨hin, Keyspace.get_eq_none_iff.2 (by simpa using hlive)⟩
        cases n with
        | zero => exact .refl hs
        | succ n =>
          cases n with
          | zero => exact partly_del srv hs hdead
          | succ n =>
            have hstep := partly_collect srv hs hdead
            refine hstep.trans (ih hstep.permanent haddrs (fun b hb => ?_) _ n)
            rw [members_exec_srem, members_exec_other srv (by simp [Cmd.writes, collected]),
              Finset.mem_erase]
            exact ⟨fun hab => ha (hab ▸ hb), hrest b hb⟩

theorem reapOnce_cut (hs : s.Permanent .agents) (n : Nat) : Partly s (reapOnce.cut (exec srv) n s) := by
  cases n with
  | zero => exact .refl hs
  | succ n =>
    have hnodup : (srv.members s.members).Nodup := by
      rw [← Multiset.coe_nodup, srv.coe_members]
      exact s.members.nodup
    exact reapAll_cut srv hs hnodup (fun a ha => srv.mem_members.1 ha) 0 n

theorem reapOnce_partly (hs : s.Permanent .agents) : Partly s (reapOnce.run (exec srv) s).2 := by
  rw [← Prog.cut_length (exec srv) reapOnce s (Nat.le_refl _)]
  exact reapOnce_cut srv hs _

/-- A pass that comes to its end leaves no one dead. -/
theorem reapOnce_done (hs : s.Permanent .agents) (a : PyStr) : ¬ (reapOnce.run (exec srv) s).2.Dead a := by
  intro ha
  have hdead := (reapOnce_partly srv hs).dead ha
  exact (reapOnce_collects srv s a hdead.1 hdead.2).member ha.1

/-! ## Rounds -/

theorem runForever_partly (hs : s.Permanent .agents) (rounds : List Round) :
    Partly (s.later (elapsed rounds)) (runForever srv rounds s) := by
  induction rounds generalizing s with
  | nil => exact .refl hs
  | cons r rounds ih =>
    have hpass : Partly s (r.pass srv s) := by
      unfold Round.pass
      cases r.cutAt with
      | none => exact reapOnce_partly srv hs
      | some n => exact reapOnce_cut srv hs n
    have hrest := ih (s := (r.pass srv s).later (600 * 1000 + r.late)) hpass.permanent
    have hlater := (hpass.later hs (600 * 1000 + r.late)).later hs (elapsed rounds)
    have helapsed : s.later (elapsed (r :: rounds)) =
        (s.later (600 * 1000 + r.late)).later (elapsed rounds) := by
      show { s with now := s.now + (600 * 1000 + r.late + elapsed rounds) } = _
      rw [← Nat.add_assoc]
      rfl
    rw [helapsed]
    exact hlater.trans hrest

/-- **A pass that is cut off does no harm and is made up for.**  After any rounds, live identities
have what they had, and a pass that comes to its end leaves what it would have left alone. -/
theorem passes_resume (hs : s.Permanent .agents) (rounds : List Round) :
    (∀ a, (a ∈ s.members → (s.later (elapsed rounds)).agent a ≠ none) →
      Spared a s (runForever srv rounds s)) ∧
    (reapOnce.run (exec srv) (runForever srv rounds s)).2 =
      (reapOnce.run (exec srv) (s.later (elapsed rounds))).2 := by
  have hrounds := runForever_partly srv hs rounds
  have hmembers : (s.later (elapsed rounds)).members = s.members := members_env hs (.tick (elapsed rounds))
  constructor
  · intro a ha
    have hspared := hrounds.spared (a := a) (hmembers ▸ ha)
    refine ⟨hspared.agent, hspared.inbox, hspared.cursor, hspared.presence, ?_⟩
    rw [hspared.member, hmembers]
  · refine Partly.unique (s := s.later (elapsed rounds)) ?_ ?_ ?_ ?_
    · exact hrounds.trans (reapOnce_partly srv hrounds.permanent)
    · exact reapOnce_partly srv hs
    · exact reapOnce_done srv hrounds.permanent
    · exact reapOnce_done srv hs

end

/-- Cut off after the inbox of an expired agent is gone, then after nothing. -/
theorem passes_resume_expired :
    (reapOnce.run (exec .plain) (runForever .plain [⟨some 3, 0⟩, ⟨some 0, 5⟩] (busyStore.later 60000))).2 =
      (reapOnce.run (exec .plain) ((busyStore.later 60000).later 1200005)).2 := by
  have hpermanent : (busyStore.later 60000).Permanent .agents := by
    intro slot hslot
    cases hslot
    rfl
  exact (passes_resume .plain hpermanent [⟨some 3, 0⟩, ⟨some 0, 5⟩]).2

end Muster
