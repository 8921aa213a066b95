import Muster.OpsRuns

/-!
# Whom an announce reaches

An announce is published to the agents of its scope and project that are online, the
sender apart.  The handler looks for them among the agents visible to the caller; the
scope is one of the caller's own, so nobody it names is out of sight once the directory can
be listed (`visible_of_inScope`), and the recipients are those of the whole directory (`announce_reaches_its_scope`).
-/

namespace Muster

/-- Whom a scope names, from a caller who may name it. -/
inductive InScope (ident : Identity Member) (scope : PyStr) (a : Row) : Prop
  | user : scope = lit "user:" ++ ident.userId → a.user = ident.userId → InScope ident scope a
  | group (g : PyStr) : scope = lit "group:" ++ g → .str g ∈ ident.groups → .str g ∈ a.groups →
    InScope ident scope a

section
variable {ident : Identity Member} {scope : PyStr} {a : Row}

/-- **The scope is within the ACL.** -/
theorem visible_of_inScope (h : InScope ident scope a) (hlist : a.comparable ident = true) :
    a.visibleTo ident = true := by
  refine visibleTo_iff.2 (visible_iff.2 ?_)
  cases h with
  | user _ hu => exact .inl hu.symm
  | group g _ hg ha =>
    refine or_iff_not_imp_left.2 fun huser => ?_
    have hasked := Option.isSome_iff_ne_none.1 hlist
    obtain ⟨hown, hhash⟩ := not_not.1 fun h => hasked (visible_eq_none.2 ⟨huser, h⟩)
    exact ⟨hown, hhash, _, hg, ha⟩

theorem drop_group {s : PyStr} (h : (lit "group:").isPrefixOf s = true) :
    s = lit "group:" ++ s.drop 6 := by
  obtain ⟨g, rfl⟩ := List.isPrefixOf_iff_prefix.1 h
  rfl

/-- A scope that is accepted is a string, and tells the agents it names. -/
theorem resolveScope_ok {v : Json} {inScope : Row → Bool}
    (h : resolveScope ident (v.or (.str [])) = .ok inScope) :
    ∃ scope, v = .str scope ∧ ∀ a, inScope a = true ↔ InScope ident scope a := by
  have hv : ∀ s : PyStr, s ≠ [] → v.or (.str []) = .str s → v = .str s := by
    intro s hs hor
    have htrue : (v.or (.str [])).truthy = true := by simp [hor, Json.truthy, hs]
    rw [← Json.or_eq_left htrue rfl, hor]
  cases hor : v.or (.str []) with
  | str s =>
    rw [hor] at h
    unfold resolveScope at h
    dsimp only at h
    split at h
    · next huser =>
      cases h
      refine ⟨s, hv s (by rw [huser]; simp [lit]) hor, ?_⟩
      intro a
      rw [beq_iff_eq]
      constructor
      · exact .user huser
      · rintro (⟨-, ha⟩ | ⟨g, hg, -, -⟩)
        · exact ha
        · rw [hg] at huser
          simp [lit] at huser
    · next huser =>
      split at h
      · next hgroup =>
        obtain ⟨hpre, hmem⟩ := hgroup
        have hs := drop_group hpre
        cases h
        refine ⟨s, hv s (by rw [hs]; simp [lit]) hor, ?_⟩
        intro a
        rw [List.contains_iff_mem]
        constructor
        · exact .group _ hs hmem
        · rintro (⟨hu, -⟩ | ⟨g, hg, -, ha⟩)
          · exact absurd hu huser
          · rw [hg] at hs
            rw [hg, ← List.append_cancel_left hs]
            exact ha
      · cases h
  | _ =>
    rw [hor] at h
    cases h

end

/-- The rows an announce is published to: those of the directory in its scope and project that
are online, the sender's own apart. -/
structure Recipient (ident : Identity Member) (sender : Address) (args : Args) (scope : PyStr)
    (a : Row) : Prop where
  inScope : InScope ident scope a
  project : Json.get args "project" = .str a.project
  online : a.status = .online
  other : a.addr ≠ sender.text

/-- What an announce to `rows` leaves: one event to each of them, which are the recipients of the
whole directory, in order of address, and all visible to the caller. -/
structure Announced (ident : Identity Member) (sender : Address) (args : Args) (scope : PyStr)
    (rows : List Row) (s t : Db) : Prop where
  named : Json.get args "scope" = .str scope
  recipients : ∀ a, a ∈ rows ↔ a ∈ s.directory ∧ Recipient ident sender args scope a
  once : rows.Pairwise fun a b => a.addr < b.addr
  visible : ∀ a ∈ rows, a.visibleTo ident = true
  published : t.pubs = s.pubs ++ rows.map fun a => (notifyChannel a.addr,
    announceEvent sender.text (Json.get args "body").asStr (Json.get args "subject").asStr)
  frame : ∀ k, k ≠ .rate .announce sender.text → t.keys k = s.keys k

section
variable (srv : Server) {s : Db} {cfg : Config} {ident : Identity Member} {sender : Address}
  {args : Args}

/-- Filtering the visible rows leaves the recipients of the whole directory. -/
theorem mem_eligible {scope : PyStr} {inScope : Row → Bool}
    (hproject : (Json.get args "project").or (.str []) = Json.get args "project")
    (hscope : ∀ a, inScope a = true ↔ InScope ident scope a) (hlist : s.Listable ident) {a : Row} :
    a ∈ eligible sender args inScope (s.visibleRows ident) ↔
      a ∈ s.directory ∧ Recipient ident sender args scope a := by
  unfold eligible Db.visibleRows
  rw [hproject, List.mem_filter, List.mem_filter]
  simp only [Bool.and_eq_true, decide_eq_true_eq, hscope, isStr_iff]
  constructor
  · rintro ⟨⟨ha, -⟩, ⟨⟨hin, hp⟩, ho⟩, hne⟩
    exact ⟨ha, hin, hp, ho, hne⟩
  · rintro ⟨ha, hr⟩
    exact ⟨⟨ha, visible_of_inScope hr.inScope (hlist a ha)⟩, ⟨⟨hr.inScope, hr.project⟩, hr.online⟩, hr.other⟩

theorem eligible_sorted (inScope : Row → Bool) :
    (eligible sender args inScope (s.visibleRows ident)).Pairwise fun r r' => r.addr < r'.addr :=
  ((directory_sorted s).filter _).filter _

/-- **Announce reaches exactly its scope.**  Where it is answered ok, one event with the sender's
address and the full body goes to each agent of the whole directory that is in the scope and the
project, online and not the sender, and to nobody else; these are all visible to the caller,
`recipients` is their number, and no key but the sender's own counter changes.  Where it is
refused, nothing is published. -/
theorem announce_reaches_its_scope {out : Except PyExn Response} {t : Db}
    (hrun : (opAnnounce cfg ident sender args).run (exec srv) s = (out, t)) :
    (∀ r, out = .ok r → ∃ scope rows, r = .announce rows.length ∧
      Announced ident sender args scope rows s t) ∧
    ∀ e, out = .error e → t.pubs = s.pubs := by
  have hcount : ∀ k, k ≠ .rate .announce sender.text →
      (exec srv (.incr .announce sender.text cfg.rateWindow) s).1.keys k = s.keys k :=
    fun k hk => exec_other srv _ s (by simpa [Cmd.writes] using hk)
  cases opAnnounce_cases srv s cfg ident sender args hrun with
  | unnamed => exact ⟨by rintro _ ⟨⟩, fun _ _ => rfl⟩
  | refused => exact ⟨by rintro _ ⟨⟩, fun _ _ => rfl⟩
  | unscoped => exact ⟨by rintro _ ⟨⟩, fun _ _ => rfl⟩
  | limited => exact ⟨by rintro _ ⟨⟩, fun _ _ => rfl⟩
  | unlisted _ _ _ _ hcounted =>
    refine ⟨by rintro _ ⟨⟩, fun _ _ => ?_⟩
    rw [hcounted]
    rfl
  | @passed body subject inScope u hproject hsize hscope _ hcounted hlist =>
    refine ⟨?_, by rintro _ ⟨⟩⟩
    rintro r ⟨⟩
    obtain ⟨hbody, hsubject⟩ := checkSize_ok hsize
    obtain ⟨scope, hval, hin⟩ := resolveScope_ok hscope
    have hor : (Json.get args "project").or (.str []) = Json.get args "project" :=
      Json.or_eq_left hproject rfl
    have hpubs : u.pubs = s.pubs := hcounted ▸ rfl
    have hvis : u.visibleRows ident = s.visibleRows ident := by
      unfold Db.visibleRows
      rw [hcounted, directory_incr]
    rw [hvis]
    refine ⟨scope, eligible sender args inScope (s.visibleRows ident), rfl, hval,
      fun a => mem_eligible hor hin hlist, eligible_sorted inScope, ?_, ?_, ?_⟩
    · intro a ha
      exact (List.mem_filter.1 (List.mem_of_mem_filter ha)).2
    · rw [hbody, hsubject]
      show u.pubs ++ _ = _
      rw [hpubs]
    · intro k hk
      show u.keys k = _
      rw [hcounted, hcount k hk]

end

/-! ## An announce to a group -/

def anaAddr : Address := ⟨lit "ana", lit "h", lit "r", lit "web", lit "a"⟩

def bobAddr : Address := ⟨lit "bob", lit "h", lit "r", lit "web", lit "b"⟩

/-- Two agents of one group and project, both online. -/
def teamStore : Db :=
  [anaAddr, bobAddr].foldl (fun s addr =>
    (exec Server.plain (.touch addr.text ⟨lit "c", 5⟩ 60)
      (exec Server.plain (.register addr.text (.of addr [lit "team"] .null 5) 60) s).1).1) (.empty 5000)

def teamArgs : Args := [(lit "scope", .str (lit "group:team")), (lit "project", .str (lit "web")),
  (lit "body", .str (lit "hi"))]

theorem announce_reaches_its_scope_team :
    ∃ t scope rows, (opAnnounce Config.defaults ⟨lit "ana", [lit "team"]⟩ anaAddr teamArgs).run
        (exec .plain) teamStore = (.ok (.announce 1), t) ∧ Response.announce 1 = .announce rows.length ∧
      Announced ⟨lit "ana", [lit "team"]⟩ anaAddr teamArgs scope rows teamStore t := by
  have hrun : (opAnnounce Config.defaults ⟨lit "ana", [lit "team"]⟩ anaAddr teamArgs).run (exec .plain)
      teamStore = (.ok (.announce 1), _) := rfl
  obtain ⟨scope, rows, h⟩ := (announce_reaches_its_scope .plain hrun).1 _ rfl
  exact ⟨_, scope, rows, hrun, h⟩

end Muster
