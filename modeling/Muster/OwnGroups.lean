import Muster.Sessions

/-!
# Whose groups a record carries

The address of a stream is fixed when it connects, its identity is resolved again at
every ping, and only the groups of the two identities are compared.  So a record
carries the groups of its own user, and no stream outlives the change of its user, as
long as the pings find the user of the address (`own_groups`).  The first ping that
finds another one leaves the stream open, and writes that one's groups under the
address where they differ (`reassigned_key_written`).
-/

namespace Muster

/-- Every record carries groups that the resolver returned for the user of its address, and no
stream is open that has resolved its key to another user. -/
structure Bus.OwnGroups (s : Bus) : Prop where
  records : ∀ {header : PyStr} {addr : Address} {v : AgentHash},
    parseAgentHeader addr.user header = .ok addr → s.db.agent addr.text = some v →
    ∃ t, (t, ⟨addr.user, v.groups⟩) ∈ s.reports
  streams : ∀ session ∈ s.sessions, ∀ user ∈ session.pinged, user = session.addr.user

section
variable [Python] (sha256 : PyStr → PyStr) (cfg : Config)

/-- A ping resolves the key of its stream, if at all, to the user of the stream's address. -/
def OwnPing (s : Bus) (l : BusStep) : Prop :=
  ∀ i session ident, l = .ping i → s.sessions[i]? = some session →
    (s.resolve sha256 cfg session.key).1 = .ok ident → ident.userId = session.addr.user

end

/-- `OwnGroups`, with what makes it last. -/
structure Bus.Owned (cfg : Config) (s : Bus) : Prop where
  known : s.Known cfg
  own : s.OwnGroups
  parsed : ∀ session ∈ s.sessions, ∃ header,
    parseAgentHeader session.addr.user header = .ok session.addr

/-- A record of `s'` is one of `s`, or was written with groups of its own user. -/
def Bus.Rewrites (s s' : Bus) : Prop :=
  ∀ b v, s'.db.agent b = some v → s.db.agent b = some v ∨
    ∃ header addr, parseAgentHeader addr.user header = .ok addr ∧ b = addr.text ∧
      ∃ t, (t, ⟨addr.user, v.groups⟩) ∈ s'.reports

section
variable {cfg : Config} {s s' : Bus}

theorem Bus.OwnGroups.rewrite (h : s.OwnGroups) (hreports : ∀ x ∈ s.reports, x ∈ s'.reports)
    (hrec : s.Rewrites s')
    (hstreams : ∀ session ∈ s'.sessions, ∀ user ∈ session.pinged, user = session.addr.user) :
    s'.OwnGroups where
  records := by
    intro header addr v hp hv
    rcases hrec _ v hv with hv | ⟨header', addr', hp', htext, t, ht⟩
    · obtain ⟨t, ht⟩ := h.records hp hv
      exact ⟨t, hreports _ ht⟩
    · -- the same text is the same user
      obtain ⟨huser, -⟩ := parseAgentHeader_text_inj hp hp' htext
      rw [huser]
      exact ⟨t, ht⟩
  streams := hstreams

theorem Bus.Rewrites.of_agent {s' : Bus} (h : ∀ b v, s'.db.agent b = some v → s.db.agent b = some v) :
    s.Rewrites s' :=
  fun b v hv => .inl (h b v hv)

theorem agent_user {ident : Identity Member} {header : PyStr} {addr : Address}
    (h : parseAgentHeader ident.userId header = .ok addr) :
    parseAgentHeader addr.user header = .ok addr ∧ ident = ⟨addr.user, ident.groups⟩ := by
  have hu := (parseAgentHeader_ok h).1
  constructor
  · rw [hu]
    exact h
  · rw [hu]

/-- A resolution by itself. -/
theorem Bus.Owned.resolve (h : s.Owned cfg) {sha256 : PyStr → PyStr} {key : PyStr}
    {out : Except AuthExn (Identity Member)} {r : Bus} (hr : s.Resolved sha256 cfg key out r) :
    r.Owned cfg := by
  have hdb : r.db = s.db := by rw [hr.frame]
  have hsess : r.sessions = s.sessions := by rw [hr.frame]
  refine ⟨hr.known, ?_, ?_⟩
  · refine h.own.rewrite hr.reports (.of_agent ?_) ?_
    · rw [hdb]
      exact fun _ _ hv => hv
    · rw [hsess]
      exact h.own.streams
  · rw [hsess]
    exact h.parsed

theorem Bus.Owned.close (srv : Server) (h : s.Owned cfg) (i : Nat) (session : Session) :
    (s.close srv i session).Owned cfg where
  known := h.known.mono rfl rfl (run_now srv _ _).ge
  own := by
    refine h.own.rewrite (fun _ hx => hx) ?_ ?_
    · exact .of_agent fun b v hv => agent_of_streamClose srv session.addr session.connectionId hv
    · intro sess hsess
      exact h.own.streams sess (List.mem_of_mem_eraseIdx hsess)
  parsed := fun sess hsess => h.parsed sess (List.mem_of_mem_eraseIdx hsess)

variable [Python] {sha256 : PyStr → PyStr} {srv : Server} {l : BusStep}

/-- **One step.** -/
theorem Bus.Owned.step (h : s.Owned cfg) (hok : OwnPing sha256 cfg s l)
    (hs : (bus sha256 cfg srv).step s l = some s') : s'.Owned cfg := by
  cases Bus.next_of_step sha256 cfg srv hs with
  | turnedAway _ hr => exact h.resolve (h.known.resolve sha256 hr)
  | @connected key header connectionId metadata ident addr r hr hp =>
    have hres := h.known.resolve sha256 hr
    have hr' := h.resolve hres
    obtain ⟨hp', hident⟩ := agent_user hp
    refine ⟨hr'.known.mono rfl rfl (run_now srv _ _).ge, ?_, ?_⟩
    · refine hr'.own.rewrite (fun _ hx => hx) ?_ ?_
      · intro b v hv
        rcases agent_of_streamOpen cfg srv addr connectionId metadata hv with ⟨rfl, rfl⟩ | hv
        · obtain ⟨t, ht, -⟩ := hres.vouched _ rfl
          rw [hident] at ht
          exact .inr ⟨header, addr, hp', rfl, t, ht⟩
        · exact .inl hv
      · intro session hsession
        rcases List.mem_append.1 hsession with hsession | hsession
        · exact hr'.own.streams session hsession
        · rw [List.mem_singleton.1 hsession]
          intro user huser
          cases huser
    · intro session hsession
      rcases List.mem_append.1 hsession with hsession | hsession
      · exact hr'.parsed session hsession
      · rw [List.mem_singleton.1 hsession]
        exact ⟨header, hp'⟩
  | @pinged i session ident2 r hsession hr =>
    have hres := h.known.resolve sha256 hr
    have hr' := h.resolve hres
    have huser : ident2.userId = session.addr.user :=
      hok i session ident2 rfl hsession (by rw [hr])
    have hmem := List.mem_of_getElem? hsession
    obtain ⟨header, hp⟩ := h.parsed session hmem
    refine ⟨hr'.known.mono rfl rfl (run_now srv _ _).ge, ?_, ?_⟩
    · refine hr'.own.rewrite (fun _ hx => hx) ?_ ?_
      · intro b v hv
        rcases agent_of_streamPing cfg srv session.addr session.connectionId session.metadata hv with
          ⟨rfl, rfl⟩ | hv
        · obtain ⟨t, ht, -⟩ := hres.vouched _ rfl
          refine .inr ⟨header, session.addr, hp, rfl, t, ?_⟩
          rw [← huser]
          exact ht
        · exact .inl hv
      · intro sess hsess user hu
        rcases List.mem_or_eq_of_mem_set hsess with hsess | rfl
        · exact hr'.own.streams sess hsess user hu
        · rcases List.mem_append.1 hu with hu | hu
          · exact h.own.streams session hmem user hu
          · rw [List.mem_singleton.1 hu]
            exact huser
    · intro sess hsess
      rcases List.mem_or_eq_of_mem_set hsess with hsess | rfl
      · exact hr'.parsed sess hsess
      · exact ⟨header, hp⟩
  | refused _ hr => exact (h.resolve (h.known.resolve sha256 hr)).close srv _ _
  | disconnected _ => exact h.close srv _ _
  | asked hr =>
    have hr' := h.resolve (h.known.resolve sha256 hr)
    exact ⟨hr'.known, hr'.own.rewrite (fun _ hx => hx) (.of_agent fun _ _ hv => hv) hr'.own.streams,
      hr'.parsed⟩
  | served _ =>
    refine ⟨h.known.mono rfl rfl (run_now srv _ _).ge, ?_, h.parsed⟩
    refine h.own.rewrite (fun _ hx => hx) (.of_agent ?_) h.own.streams
    intro b v hv
    rwa [agent_run srv (rpc_keys srv (k := .agent b) trivial)] at hv
  | resolver key answer =>
    exact ⟨h.known, h.own.rewrite (fun _ hx => hx) (.of_agent fun _ _ hv => hv) h.own.streams, h.parsed⟩
  | reap =>
    refine ⟨h.known.mono rfl rfl (run_now srv _ _).ge, ?_, h.parsed⟩
    refine h.own.rewrite (fun _ hx => hx) (.of_agent ?_) h.own.streams
    intro b v hv
    rwa [agent_run srv (reapOnce_agent srv _ b)] at hv
  | tick d =>
    refine ⟨h.known.mono rfl rfl (Nat.le_add_right _ d), ?_, h.parsed⟩
    refine h.own.rewrite (fun _ hx => hx) (.of_agent ?_) h.own.streams
    exact fun b v hv => agent_env hv

end

/-! ## Exactly when -/

theorem Bus.Owned.start (cfg : Config) (now : Nat) (resolver : PyStr → Answer) :
    (Bus.start now resolver).Owned cfg where
  known := .start cfg now resolver
  own := by
    refine ⟨?_, ?_⟩
    · intro header addr v _ hv
      cases hv
    · intro session hsession
      cases hsession
  parsed := by
    intro session hsession
    cases hsession

section
variable [Python] (sha256 : PyStr → PyStr) (cfg : Config) (srv : Server)

/-- A ping that finds another user leaves its stream open. -/
theorem not_ownGroups_of_ping {s s' : Bus} {l : BusStep} (hok : ¬ OwnPing sha256 cfg s l)
    (hs : (bus sha256 cfg srv).step s l = some s') : ¬ s'.OwnGroups := by
  unfold OwnPing at hok
  push Not at hok
  obtain ⟨i, session, ident, rfl, hsession, hident, hne⟩ := hok
  intro hown
  cases Bus.next_of_step sha256 cfg srv hs with
  | turnedAway hkey _ => cases hkey
  | @pinged i _ ident2 r hsession' hr =>
    rw [hsession] at hsession'
    cases hsession'
    rw [hr] at hident
    cases hident
    have hlt : i < r.sessions.length := by
      have hsess : r.sessions = s.sessions := by rw [← congrArg (·.2.sessions) hr]; rfl
      rw [hsess]
      exact (List.getElem?_eq_some_iff.1 hsession).1
    refine hne (hown.streams _ (List.mem_set hlt _) _ ?_)
    exact List.mem_append_right _ (List.mem_singleton_self _)
  | refused hsession' hr =>
    rw [hsession] at hsession'
    cases hsession'
    rw [hr] at hident
    cases hident

/-- **As long as the pings find the user of the address, and no longer**, records carry their own
user's groups and streams belong to the user their key resolves to. -/
theorem own_groups {now : Nat} {resolver : PyStr → Answer} {s : Bus}
    (h : (bus sha256 cfg srv).Run (OwnPing sha256 cfg) (Bus.start now resolver) s) :
    s.OwnGroups ∧ ∀ l s', (bus sha256 cfg srv).step s l = some s' →
      (s'.OwnGroups ↔ OwnPing sha256 cfg s l) := by
  have hI : s.Owned cfg :=
    h.inv (fun s => s.Owned cfg) (.start cfg now resolver) fun _ _ _ hI hok hs => hI.step hok hs
  refine ⟨hI.own, ?_⟩
  intro l s' hs
  constructor
  · intro hown
    by_contra hok
    exact not_ownGroups_of_ping sha256 cfg srv hok hs hown
  · intro hok
    exact (hI.step hok hs).own

end

/-! ## A key that changes hands -/

section
variable [Python] (sha256 : PyStr → PyStr) (cfg : Config)

/-- `OwnPing`, computed. -/
def ownPing (s : Bus) : BusStep → Bool
  | .ping i =>
    match s.sessions[i]? with
    | none => true
    | some session =>
      match (s.resolve sha256 cfg session.key).1 with
      | .ok ident => decide (ident.userId = session.addr.user)
      | .error _ => true
  | _ => true

theorem ownPing_sound (s : Bus) (l : BusStep) (h : ownPing sha256 cfg s l = true) :
    OwnPing sha256 cfg s l := by
  rintro i session ident rfl hsession hident
  simp only [ownPing, hsession, hident] at h
  exact of_decide_eq_true h

end

def oneKey : Bus := .start 0 fun _ => vouchFor "u" ["a"]

/-- `u` connects, and the ping after the ttl finds what `answer` says of the key. -/
def repinged (answer : Answer) : List BusStep :=
  [.connect (lit "k") (lit "h/r/p/x") (lit "c") (.obj []), .resolver (lit "k") answer,
    .tick 60000, .ping 0]

/-- `u`'s groups change. -/
theorem own_groups_changed : ∃ s : Bus, s.OwnGroups ∧
    ∃ v, s.db.agent (lit "u/h/r/p/x") = some v ∧ v.groups = [.str (lit "b")] := by
  have htrace : (@bus Python.plain id Config.asking .plain).trace (@ownPing Python.plain id Config.asking)
    oneKey (repinged (vouchFor "u" ["b"])) = some _ := rfl
  have hrun := Machine.Run.trace (@ownPing_sound Python.plain id Config.asking) .start htrace
  exact ⟨_, (@own_groups Python.plain id Config.asking .plain 0 (fun _ => vouchFor "u" ["a"]) _ hrun).1,
    _, rfl, rfl⟩

theorem not_ownGroups {s : Bus} {user : PyStr} {pinged : List PyStr} {other : PyStr}
    (hs : (user, pinged) ∈ s.sessions.map fun session => (session.addr.user, session.pinged))
    (ho : other ∈ pinged) (hne : other ≠ user) : ¬ s.OwnGroups := by
  intro hown
  obtain ⟨session, hsession, he⟩ := List.mem_map.1 hs
  cases he
  exact hne (hown.streams session hsession other ho)

/-- The key becomes `v`'s: the record of `u`'s agent has groups that nobody has reported for `u`,
and the stream is open. -/
theorem reassigned_key_written : ∃ s,
    (@bus Python.plain id Config.asking .plain).Run (fun _ _ => True) oneKey s ∧ ¬ s.OwnGroups ∧
    (∃ v, s.db.agent (lit "u/h/r/p/x") = some v ∧ v.user = lit "u" ∧ v.groups = [.str (lit "b")]) ∧
    s.reports = [(0, ⟨lit "u", [.str (lit "a")]⟩), (60000, ⟨lit "v", [.str (lit "b")]⟩)] ∧
    s.sessions.map (fun session => (session.addr.user, session.pinged)) = [(lit "u", [lit "v"])] := by
  have htrace : (@bus Python.plain id Config.asking .plain).trace (fun _ _ => true) oneKey
    (repinged (vouchFor "v" ["b"])) = some _ := rfl
  refine ⟨_, Machine.Run.trace (fun _ _ _ => trivial) .start htrace, ?_, ⟨_, rfl, rfl, rfl⟩, rfl, rfl⟩
  exact not_ownGroups (List.mem_singleton_self (lit "u", [lit "v"])) (List.mem_singleton_self _)
    (by decide)

end Muster
