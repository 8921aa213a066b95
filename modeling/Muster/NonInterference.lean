import Muster.OpsRuns

/-!
# How far invisible agents interfere

Two stores that agree on what the caller may see give the caller the same answers
and the same effects, unless one of them cannot be listed and the other can: groups
that cannot be hashed make the listing raise, also those of an agent the caller would
not see (`invisible_agents_do_not_interfere_iff`).  `V` is the set of addresses of the
visible agents, `me` the caller's own address; `Shared me V` are the keys that belong
to either, and `Agree` relates two stores with the same values there.

Only the directory is read differently in the two runs, and `visibleAgents_alike`
gives the same rows; every other command is `Own`, so it is answered alike and keeps
the agreement (`exec_inStep`).
-/

namespace Muster

/-- `a` is in the directory, as an agent the caller may see. -/
def Db.VisibleTo (ident : Identity Member) (s : Db) (a : PyStr) : Prop :=
  a ∈ s.members ∧ ∃ h, s.agent a = some h ∧
    visible ident.userId ident.groups h.user h.groups = some true

/-- Registry records, presence and inboxes of the visible agents; the caller's own inbox,
cursor and rate counters. -/
def Shared (me : PyStr) (V : Set PyStr) : Key → Prop
  | .agents => False
  | .agent a => a ∈ V
  | .presence a => a ∈ V
  | .inbox a => a ∈ V ∨ a = me
  | .cursor a => a = me
  | .rate _ a => a = me

/-- The same agents are visible, with the same values; the rate counters agree in their
deadlines too. -/
structure Agree (ident : Identity Member) (me : PyStr) (V : Set PyStr) (s t : Db) : Prop where
  now : s.now = t.now
  left : ∀ a, s.VisibleTo ident a ↔ a ∈ V
  right : ∀ a, t.VisibleTo ident a ↔ a ∈ V
  shared : ∀ k, Shared me V k → s.keys.get s.now k = t.keys.get t.now k
  rate : ∀ kind, s.keys.look s.now (.rate kind me) = t.keys.look t.now (.rate kind me)

/-- Two runs side by side, from `s₀` and `t₀`: they agree, have published the same, and
have changed nothing that is not shared, and nothing of the registry. -/
structure InStep (ident : Identity Member) (me : PyStr) (V : Set PyStr) (s₀ t₀ s t : Db) : Prop where
  agree : Agree ident me V s t
  pubs : ∃ p, s.pubs = s₀.pubs ++ p ∧ t.pubs = t₀.pubs ++ p
  frame : ∀ k, ¬ Shared me V k → s.keys k = s₀.keys k ∧ t.keys k = t₀.keys k
  registry : (s.members = s₀.members ∧ s.agent = s₀.agent) ∧ t.members = t₀.members ∧ t.agent = t₀.agent

/-- The commands of a request, the directory apart. -/
def Own (me : PyStr) (V : Set PyStr) : Cmd → Prop
  | .time => True
  | .get a => a = me
  | .set a _ => a = me
  | .xrange a _ _ => a = me
  | .xadd a _ _ _ _ => a ∈ V
  | .publish _ _ => True
  | .incr _ a _ => a = me
  | .ttl k => ∃ kind, k = .rate kind me
  | .expire k _ => ∃ kind, k = .rate kind me
  | _ => False

section
variable {ident : Identity Member} {me : PyStr} {V : Set PyStr} {s₀ t₀ s t : Db} {srv : Server}

theorem Own.shared {c : Cmd} (hc : Own me V c) : ∀ k ∈ c.writes, Shared me V k := by
  intro k hk
  cases c with
  | set a id => rw [List.mem_singleton.1 hk]; exact hc
  | xadd a fields ts expiresAt maxlen => rw [List.mem_singleton.1 hk]; exact .inl hc
  | incr kind a window => rw [List.mem_singleton.1 hk]; exact hc
  | expire k' secs =>
    obtain ⟨kind, rfl⟩ := hc
    rw [List.mem_singleton.1 hk]
    exact rfl
  | time | get | xrange | publish | ttl => cases hk
  | _ => cases hc

theorem Own.unregistered {c : Cmd} (hc : Own me V c) (a : PyStr) :
    .agents ∉ c.writes ∧ .agent a ∉ c.writes := by
  cases c with
  | expire k secs =>
    obtain ⟨kind, rfl⟩ := hc
    simp [Cmd.writes]
  | register | srem | del => cases hc
  | _ => simp [Cmd.writes]

variable (srv) in
/-- A command of a request registers and removes nobody. -/
theorem registry_exec {c : Cmd} (hc : Own me V c) (s : Db) :
    (exec srv c s).1.members = s.members ∧ (exec srv c s).1.agent = s.agent :=
  ⟨members_exec_other srv (hc.unregistered me).1,
    funext fun a => agent_exec_other srv (hc.unregistered a).2⟩

/-- So it changes nobody's visibility. -/
theorem visibleTo_exec {c : Cmd} (hc : Own me V c) (a : PyStr) :
    (exec srv c s).1.VisibleTo ident a ↔ s.VisibleTo ident a := by
  obtain ⟨hmembers, hagent⟩ := registry_exec srv hc s
  unfold Db.VisibleTo
  rw [hmembers, hagent]

/-! ## One command -/

theorem reply_alike {c : Cmd} (hA : Agree ident me V s t) (hc : Own me V c) :
    (exec srv c s).2 = (exec srv c t).2 := by
  have hstream : ∀ a, a ∈ V ∨ a = me → s.stream a = t.stream a := by
    intro a ha
    unfold Db.stream
    rw [hA.shared (.inbox a) ha]
  cases c with
  | time => exact hA.now
  | get a => exact hA.shared (.cursor a) hc
  | set a id => rfl
  | xrange a after n =>
    show (s.stream a).range after n = (t.stream a).range after n
    rw [hstream a (.inr hc)]
  | xadd a fields ts expiresAt maxlen =>
    show srv.nextId s.now (s.stream a).last = srv.nextId t.now (t.stream a).last
    rw [hstream a (.inl hc), hA.now]
  | publish a event => rfl
  | incr kind a window =>
    show (s.keys.get s.now (.rate kind a)).getD 0 + 1 = (t.keys.get t.now (.rate kind a)).getD 0 + 1
    rw [hA.shared (.rate kind a) hc]
  | ttl k =>
    obtain ⟨kind, rfl⟩ := hc
    show s.keys.ttl s.now _ = t.keys.ttl t.now _
    unfold Keyspace.ttl
    rw [hA.rate kind, hA.now]
  | expire k secs => rfl
  | _ => cases hc

theorem rate_alike {c : Cmd} (hA : Agree ident me V s t) (hc : Own me V c) (kind : RateKind) :
    (exec srv c s).1.keys.look (exec srv c s).1.now (.rate kind me) =
      (exec srv c t).1.keys.look (exec srv c t).1.now (.rate kind me) := by
  rw [exec_now, exec_now]
  by_cases hw : .rate kind me ∈ c.writes
  · have hr := hA.rate kind
    rw [← hA.now] at hr ⊢
    cases c with
    | incr kind' a window =>
      obtain ⟨rfl, rfl⟩ : kind = kind' ∧ me = a := by simpa [Cmd.writes] using hw
      simp only [exec, ← hA.now]
      exact Keyspace.look_expireNx_of_look_eq (Keyspace.look_edit_of_look_eq hr _) _
    | expire k secs =>
      obtain rfl := List.mem_singleton.1 hw
      simp only [exec, ← hA.now]
      exact Keyspace.look_expire_of_look_eq hr _
    | register | srem | del | touch | clearIfOwner => cases hc
    | _ => simp [Cmd.writes] at hw
  · rw [Keyspace.look_congr (exec_other srv c s hw), Keyspace.look_congr (exec_other srv c t hw)]
    exact hA.rate kind

theorem shared_alike {c : Cmd} (hA : Agree ident me V s t) (hc : Own me V c) {k : Key}
    (hk : Shared me V k) :
    (exec srv c s).1.keys.get (exec srv c s).1.now k =
      (exec srv c t).1.keys.get (exec srv c t).1.now k := by
  have hrate : ∀ kind, k = .rate kind me → (exec srv c s).1.keys.get (exec srv c s).1.now k =
      (exec srv c t).1.keys.get (exec srv c t).1.now k := by
    rintro kind rfl
    unfold Keyspace.get
    rw [rate_alike hA hc kind]
  by_cases hw : k ∈ c.writes
  · cases c with
    | set a id =>
      obtain rfl := List.mem_singleton.1 hw
      simp [exec]
    | xadd a fields ts expiresAt maxlen =>
      obtain rfl := List.mem_singleton.1 hw
      simp only [exec, Keyspace.get_edit_same]
      rw [hA.shared _ hk, hA.now]
    | incr kind a window =>
      obtain rfl := List.mem_singleton.1 hw
      obtain rfl : a = me := hc
      exact hrate kind rfl
    | expire k' secs =>
      obtain ⟨kind, rfl⟩ := hc
      exact hrate kind (List.mem_singleton.1 hw)
    | time | get | xrange | publish | ttl => cases hw
    | _ => cases hc
  · rw [exec_get_other srv c s hw, exec_get_other srv c t hw]
    exact hA.shared k hk

theorem pubs_alike {c : Cmd} (hc : Own me V c) :
    ∃ p, ∀ s : Db, (exec srv c s).1.pubs = s.pubs ++ p := by
  cases c with
  | publish a event => exact ⟨[(notifyChannel a, event)], fun _ => rfl⟩
  | smembers | srem | register | hgetall | touch | clearIfOwner | «exists» | del => cases hc
  | _ => exact ⟨[], fun s => (List.append_nil s.pubs).symm⟩

/-- **A command of a request keeps the runs in step**, and is answered alike. -/
theorem exec_inStep {c : Cmd} (hI : InStep ident me V s₀ t₀ s t) (hc : Own me V c) :
    (exec srv c s).2 = (exec srv c t).2 ∧
      InStep ident me V s₀ t₀ (exec srv c s).1 (exec srv c t).1 := by
  refine ⟨reply_alike hI.agree hc, ⟨?_, ?_, ?_, fun k => shared_alike hI.agree hc,
    rate_alike hI.agree hc⟩, ?_, ?_, ?_⟩
  · rw [exec_now, exec_now, hI.agree.now]
  · intro a
    rw [visibleTo_exec hc, hI.agree.left]
  · intro a
    rw [visibleTo_exec hc, hI.agree.right]
  · obtain ⟨p, hs, ht⟩ := hI.pubs
    obtain ⟨q, hq⟩ : ∃ q, ∀ s : Db, (exec srv c s).1.pubs = s.pubs ++ q := pubs_alike hc
    exact ⟨p ++ q, by rw [hq, hs, List.append_assoc], by rw [hq, ht, List.append_assoc]⟩
  · intro k hk
    have hw : k ∉ c.writes := fun h => hk (hc.shared k h)
    rw [exec_other srv c s hw, exec_other srv c t hw]
    exact hI.frame k hk
  · obtain ⟨⟨hsm, hsa⟩, htm, hta⟩ := hI.registry
    obtain ⟨⟨hsm', hsa'⟩, htm', hta'⟩ := And.intro (registry_exec srv hc s) (registry_exec srv hc t)
    exact ⟨⟨hsm'.trans hsm, hsa'.trans hsa⟩, htm'.trans htm, hta'.trans hta⟩

/-! ## The directory -/

/-- A filter of a list in order, by what it keeps. -/
theorem filterMap_congr_of_sorted {α β : Type} [LinearOrder α] {f g : α → Option β} {l m : List α}
    (hl : l.Pairwise (· ≤ ·)) (hm : m.Pairwise (· ≤ ·)) (hln : l.Nodup) (hmn : m.Nodup)
    (hmem : ∀ a, (a ∈ l ∧ (f a).isSome = true) ↔ (a ∈ m ∧ (g a).isSome = true))
    (hfg : ∀ a ∈ l, (f a).isSome = true → f a = g a) : l.filterMap f = m.filterMap g := by
  have hkept : l.filter (fun a => (f a).isSome) = m.filter fun a => (g a).isSome := by
    refine List.Perm.eq_of_pairwise' (hl.filter _) (hm.filter _) ?_
    rw [List.perm_ext_iff_of_nodup (hln.filter _) (hmn.filter _)]
    intro a
    rw [List.mem_filter, List.mem_filter, hmem a]
  have hdrop : ∀ (f : α → Option β) (l : List α),
      l.filterMap f = (l.filter fun a => (f a).isSome).filterMap f := by
    intro f l
    rw [List.filterMap_filter]
    refine List.filterMap_congr ?_
    intro a _
    cases f a <;> rfl
  rw [hdrop f l, hdrop g m, ← hkept]
  refine List.filterMap_congr ?_
  intro a ha
  obtain ⟨ha, hs⟩ := List.mem_filter.1 ha
  exact hfg a ha hs

/-- The row of an agent the caller may see. -/
def Db.visibleRow (ident : Identity Member) (s : Db) (a : PyStr) : Option Row :=
  (s.row a).filter (·.visibleTo ident)

theorem visibleRow_isSome {a : PyStr} : (s.visibleRow ident a).isSome = true ↔
    ∃ h, s.agent a = some h ∧ visible ident.userId ident.groups h.user h.groups = some true := by
  unfold Db.visibleRow Db.row
  cases s.agent a with
  | none => simp
  | some h => simp [Option.isSome_filter, Row.visibleTo, Row.of]

theorem visibleRows_eq :
    s.visibleRows ident = (s.members.sort (· ≤ ·)).filterMap (s.visibleRow ident) :=
  List.filter_filterMap ..

theorem visibleRow_alike (hA : Agree ident me V s t) {a : PyStr} (ha : a ∈ V) :
    s.visibleRow ident a = t.visibleRow ident a := by
  have hagent : s.agent a = t.agent a := hA.shared (.agent a) ha
  have honline : s.online a = t.online a := by
    have hp := hA.shared (.presence a) ha
    rw [Bool.eq_iff_iff]
    unfold Db.online
    rw [Keyspace.has_iff_get, Keyspace.has_iff_get, hp]
  unfold Db.visibleRow Db.row
  rw [hagent, honline]

/-- The caller sees the same directory in both. -/
theorem visibleRows_alike (hA : Agree ident me V s t) : s.visibleRows ident = t.visibleRows ident := by
  have hmem : ∀ (s : Db) a, (a ∈ s.members.sort (· ≤ ·) ∧ (s.visibleRow ident a).isSome = true) ↔
      s.VisibleTo ident a := fun s a => by
    rw [Finset.mem_sort, visibleRow_isSome]
    exact Iff.rfl
  rw [visibleRows_eq, visibleRows_eq]
  refine filterMap_congr_of_sorted (Finset.pairwise_sort _ _) (Finset.pairwise_sort _ _)
    (Finset.sort_nodup _ _) (Finset.sort_nodup _ _) ?_ ?_
  · intro a
    rw [hmem, hmem, hA.left, hA.right]
  · intro a ha hs
    exact visibleRow_alike hA ((hA.left a).1 ((hmem s a).1 ⟨ha, hs⟩))

theorem addr_mem_of_visibleRows (hA : Agree ident me V s t) {r : Row}
    (hr : r ∈ s.visibleRows ident) : r.addr ∈ V := by
  obtain ⟨hr, hv⟩ := List.mem_filter.1 hr
  obtain ⟨hmem, hrow⟩ := (mem_directory s).1 hr
  refine (hA.left _).1 ⟨hmem, visibleRow_isSome.1 ?_⟩
  unfold Db.visibleRow
  rw [hrow, Option.filter_some, if_pos hv]
  rfl

/-! ## The handlers -/

/-- Two runs of a part of a request stay in step. -/
abbrev Together {α : Type} (srv : Server) (ident : Identity Member) (me : PyStr) (V : Set PyStr)
    (s₀ t₀ : Db) (p : M α) (Q : α → Prop) : Prop :=
  p.Alike (exec srv) (InStep ident me V s₀ t₀) Q

theorem listable_congr (hmembers : s.members = s₀.members) (hagent : s.agent = s₀.agent) :
    s.Listable ident ↔ s₀.Listable ident := by
  rw [listable_iff, listable_iff, hmembers, hagent]

theorem visibleAgents_alike (hlist : s₀.Listable ident ↔ t₀.Listable ident) :
    Together srv ident me V s₀ t₀ (visibleAgents ident) fun rows => ∀ r ∈ rows, r.addr ∈ V := by
  intro s t hI
  obtain ⟨⟨hsm, hsa⟩, htm, hta⟩ := hI.registry
  have hsame : s.Listable ident ↔ t.Listable ident :=
    (listable_congr hsm hsa).trans (hlist.trans (listable_congr htm hta).symm)
  rw [visibleAgents_run, visibleAgents_run, visibleRows_alike hI.agree]
  refine ⟨if_congr hsame rfl rfl, hI, ?_⟩
  intro rows hrows r hr
  dsimp only at hrows
  split at hrows
  · cases hrows
    rw [← visibleRows_alike hI.agree] at hr
    exact addr_mem_of_visibleRows hI.agree hr
  · cases hrows

theorem send_alike {c : Cmd} (hc : Own me V c) :
    Together srv ident me V s₀ t₀ (send c) fun _ => True :=
  Prog.alike_cmd fun _ _ hI => exec_inStep hI hc

theorem nowSec_alike : Together srv ident me V s₀ t₀ nowSec fun _ => True :=
  (send_alike (c := .time) trivial).bind fun _ _ => Prog.alike_ret trivial

theorem rateCheck_alike (kind : RateKind) (limit window : Int) :
    Together srv ident me V s₀ t₀ (rateCheck kind me limit window) fun _ => True := by
  refine (send_alike (c := .incr kind me window) rfl).bind ?_
  intro n _
  split
  · refine (send_alike (c := .ttl (.rate kind me)) ⟨kind, rfl⟩).bind ?_
    intro ttl _
    split
    · exact (send_alike (c := .expire (.rate kind me) window) ⟨kind, rfl⟩).bind
        fun _ _ => Prog.alike_ret trivial
    · exact Prog.alike_ret trivial
  · exact Prog.alike_ret trivial

variable (srv) in
theorem checkRate_alike (kind : RateKind) (limit window : Int) :
    Together srv ident me V s₀ t₀ (checkRate kind me limit window) fun _ => True := by
  refine (rateCheck_alike kind limit window).bind ?_
  intro r _
  obtain ⟨ok, retry⟩ := r
  cases ok
  · exact Prog.alike_throw _
  · exact Prog.alike_ret trivial

theorem appendMessage_alike {dest : PyStr} (h : dest ∈ V) (fields : Fields) (maxlen ttl : Int) :
    Together srv ident me V s₀ t₀ (appendMessage dest fields maxlen ttl) fun _ => True := by
  refine nowSec_alike.bind ?_
  intro now _
  split
  · exact Prog.alike_throw _
  · exact send_alike h

theorem fetchUnread_alike (limit : Int) :
    Together srv ident me V s₀ t₀ (fetchUnread me limit) fun _ => True := by
  have hpage : Together srv ident me V s₀ t₀ (entriesPastCursor me limit) fun _ => True := by
    refine (send_alike (c := .get me) rfl).bind ?_
    intro cur _
    split
    · exact Prog.alike_throw _
    · exact send_alike (c := .xrange me cur limit.toNat) rfl
  refine hpage.bind ?_
  intro entries _
  cases entries.getLast? with
  | none => exact Prog.alike_ret trivial
  | some last =>
    exact (send_alike (c := .set me last.id) rfl).bind fun _ _ =>
      nowSec_alike.bind fun _ _ => Prog.alike_ret trivial

theorem publishAll_alike (event : Json) (rows : List Row) :
    Together srv ident me V s₀ t₀ (publishAll event rows) fun _ => True := by
  induction rows with
  | nil => exact Prog.alike_ret trivial
  | cons a rows ih =>
    exact (send_alike (c := .publish a.addr event) trivial).bind fun _ _ => ih

variable (cfg : Config) (sender : Address) (args : Args)

theorem opChat_alike [Python]
    (hlist : ReachesDirectory s₀ cfg ident sender args (lit "chat") →
      (s₀.Listable ident ↔ t₀.Listable ident)) :
    Together srv ident sender.text V s₀ t₀ (opChat cfg ident sender args) fun _ => True := by
  unfold opChat
  refine (Prog.alike_ofExcept _).bind ?_
  intro r hsize
  obtain ⟨body, subject⟩ := r
  refine (visibleAgents_alike (hlist (.chat rfl hsize))).bind ?_
  intro rows hrows
  refine (Prog.alike_ofExcept _).bind ?_
  intro target htarget
  have hvis : target.addr ∈ V := hrows _ (mem_of_resolveReference htarget)
  split
  · exact Prog.alike_throw _
  · refine (checkRate_alike srv _ _ _).bind ?_
    intro _ _
    refine (appendMessage_alike hvis _ _ _).bind ?_
    intro msgId _
    exact (send_alike (c := .publish target.addr _) trivial).bind
      fun _ _ => Prog.alike_ret trivial

theorem opFetch_alike [Python] :
    Together srv ident sender.text V s₀ t₀ (opFetch sender args) fun _ => True := by
  refine (Prog.alike_ofExcept _).bind ?_
  intro n _
  exact (fetchUnread_alike _).bind fun _ _ => Prog.alike_ret trivial

theorem opRoster_alike (hlist : s₀.Listable ident ↔ t₀.Listable ident) :
    Together srv ident me V s₀ t₀ (opRoster ident sender args) fun _ => True := by
  refine (visibleAgents_alike hlist).bind ?_
  intro rows _
  refine (Prog.alike_ofExcept _).bind ?_
  intro agents _
  split
  · exact Prog.alike_throw _
  · exact Prog.alike_ret trivial
  · exact Prog.alike_ret trivial

/-- Within its rate an announce lists the directory, if nothing is wrong with it before. -/
theorem opAnnounce_alike (hlimit : (s₀.counter .announce sender.text : Int) + 1 ≤ cfg.announceRate)
    (hlist : ReachesDirectory s₀ cfg ident sender args (lit "announce") →
      (s₀.Listable ident ↔ t₀.Listable ident)) :
    Together srv ident sender.text V s₀ t₀ (opAnnounce cfg ident sender args) fun _ => True := by
  unfold opAnnounce
  dsimp only
  split
  · next hproject =>
    refine (Prog.alike_ofExcept _).bind ?_
    intro r hsize
    obtain ⟨body, subject⟩ := r
    refine (Prog.alike_ofExcept _).bind ?_
    intro inScope hscope
    refine (checkRate_alike srv _ _ _).bind ?_
    intro _ _
    refine (visibleAgents_alike (hlist (.announce rfl hproject hsize hscope hlimit))).bind ?_
    intro rows _
    exact (publishAll_alike _ _).bind fun _ _ => Prog.alike_ret trivial
  · exact Prog.alike_throw _

/-- Over its rate it is refused before, with the same time to wait. -/
theorem opAnnounce_limited (hI : InStep ident sender.text V s₀ t₀ s t)
    (hlimit : ¬ (s.counter .announce sender.text : Int) + 1 ≤ cfg.announceRate) :
    ((opAnnounce cfg ident sender args).run (exec srv) s).1 =
        ((opAnnounce cfg ident sender args).run (exec srv) t).1 ∧
      InStep ident sender.text V s₀ t₀ ((opAnnounce cfg ident sender args).run (exec srv) s).2
        ((opAnnounce cfg ident sender args).run (exec srv) t).2 := by
  obtain ⟨hres, hstep, -⟩ := checkRate_alike srv .announce cfg.announceRate cfg.rateWindow s t hI
  obtain ⟨retry, hrun⟩ := checkRate_run srv s .announce sender.text cfg.announceRate cfg.rateWindow
  rw [if_neg hlimit] at hrun
  rw [opAnnounce_run, opAnnounce_run]
  rcases hrun' : (checkRate .announce sender.text cfg.announceRate cfg.rateWindow).run (exec srv) t
    with ⟨out, t'⟩
  rw [hrun, hrun'] at hres hstep
  rw [hrun]
  obtain rfl : _ = out := hres
  split
  · cases checkSize cfg.bodyMax ((Json.get args "body").or (.str [])) (Json.get args "subject") with
    | error e => exact ⟨rfl, hI⟩
    | ok sized =>
      cases resolveScope ident ((Json.get args "scope").or (.str [])) with
      | error e => exact ⟨rfl, hI⟩
      | ok inScope => exact ⟨rfl, hstep⟩
  · exact ⟨rfl, hI⟩

theorem dispatch_alike [Python] {op : PyStr} (hI : InStep ident sender.text V s t s t)
    (hlist : ReachesDirectory s cfg ident sender args op → (s.Listable ident ↔ t.Listable ident)) :
    ((dispatch cfg ident sender args op).run (exec srv) s).1 =
        ((dispatch cfg ident sender args op).run (exec srv) t).1 ∧
      InStep ident sender.text V s t ((dispatch cfg ident sender args op).run (exec srv) s).2
        ((dispatch cfg ident sender args op).run (exec srv) t).2 := by
  have halike : ∀ {p : M Response}, (Together srv ident sender.text V s t p fun _ => True) →
      (p.run (exec srv) s).1 = (p.run (exec srv) t).1 ∧
        InStep ident sender.text V s t (p.run (exec srv) s).2 (p.run (exec srv) t).2 := fun h =>
    have hst := h s t hI
    ⟨hst.1, hst.2.1⟩
  unfold dispatch
  split
  · next hop => exact halike (opChat_alike cfg sender args (hop ▸ hlist))
  · split
    · exact halike (opFetch_alike sender args)
    · split
      · next hop => exact halike (opRoster_alike sender args (hlist (.roster hop)))
      · split
        · next hop =>
          by_cases hlimit : (s.counter .announce sender.text : Int) + 1 ≤ cfg.announceRate
          · exact halike (opAnnounce_alike cfg sender args hlimit (hop ▸ hlist))
          · exact opAnnounce_limited cfg sender args hI hlimit
        · exact halike (Prog.alike_throw _)

/-- The request cannot tell the stores apart: the same response or exception, the same
events on the same channels, the same values written to what is shared, and nothing
written to anything else. -/
def Indistinguishable [Python] (srv : Server) (cfg : Config) (ident : Identity Member) (sender : Address)
    (args : Args) (op : PyStr) (V : Set PyStr) (s t : Db) : Prop :=
  let r := (dispatch cfg ident sender args op).run (exec srv) s
  let r' := (dispatch cfg ident sender args op).run (exec srv) t
  r.1 = r'.1 ∧ InStep ident sender.text V s t r.2 r'.2

/-- The store without an agent: no record, presence, inbox, cursor or counter. -/
def Db.forget (srv : Server) (s : Db) (z : PyStr) : Db :=
  (exec srv (.srem z) (exec srv (.del [.agent z, .presence z, .inbox z, .cursor z, .rate .chat z,
    .rate .announce z]) s).1).1

theorem forget_keys {z : PyStr} {k : Key} (hk : k ≠ .agents) (h : k ∉ [.agent z, .presence z,
    .inbox z, .cursor z, .rate .chat z, .rate .announce z]) : (s.forget srv z).keys k = s.keys k := by
  unfold Db.forget
  rw [exec_other srv _ _ (by simpa [Cmd.writes] using hk), exec_other srv _ _ (by exact h)]

theorem forget_now {z : PyStr} : (s.forget srv z).now = s.now := by
  unfold Db.forget
  rw [exec_now, exec_now]

/-- Dropping an agent the caller cannot see keeps what the caller shares. -/
theorem agree_forget {z : PyStr} (hz : ¬ s.VisibleTo ident z) (hme : z ≠ me) :
    Agree ident me {a | s.VisibleTo ident a} s (s.forget srv z) := by
  have hmembers : (s.forget srv z).members = s.members.erase z := by
    unfold Db.forget
    rw [members_exec_srem, members_exec_other srv (by simp [Cmd.writes])]
  have hkeys : ∀ k, Shared me {a | s.VisibleTo ident a} k → (s.forget srv z).keys k = s.keys k := by
    intro k hk
    refine forget_keys (fun h => by rw [h] at hk; exact hk) fun h => ?_
    simp only [List.mem_cons, List.not_mem_nil, or_false] at h
    rcases h with rfl | rfl | rfl | rfl | rfl | rfl
    · exact hz hk
    · exact hz hk
    · exact hk.elim hz hme
    · exact hme hk
    · exact hme hk
    · exact hme hk
  refine ⟨forget_now.symm, fun a => Iff.rfl, ?_, ?_, ?_⟩
  · intro a
    by_cases ha : a = z
    · subst ha
      refine ⟨?_, fun h => absurd h hz⟩
      intro h
      rw [Db.VisibleTo, hmembers] at h
      exact absurd rfl (Finset.ne_of_mem_erase h.1)
    · have hagent : (s.forget srv z).agent a = s.agent a := by
        unfold Db.agent
        rw [forget_now, Keyspace.get_congr (forget_keys (by simp) (by simp [ha]))]
      rw [Db.VisibleTo, hmembers, hagent, Finset.mem_erase]
      exact and_congr_left fun _ => and_iff_right ha
  · intro k hk
    rw [forget_now, Keyspace.get_congr (hkeys k hk)]
  · intro kind
    rw [forget_now, Keyspace.look_congr (hkeys (.rate kind me) rfl)]

/-- What is shared tells how far a request gets. -/
theorem reachesDirectory_alike (hA : Agree ident sender.text V s t) {op : PyStr}
    (h : ReachesDirectory s cfg ident sender args op) : ReachesDirectory t cfg ident sender args op := by
  cases h with
  | chat hop hsize => exact .chat hop hsize
  | roster hop => exact .roster hop
  | announce hop hproject hsize hscope hlimit =>
    refine .announce hop hproject hsize hscope ?_
    unfold Db.counter at hlimit ⊢
    rwa [← hA.shared (.rate .announce sender.text) rfl]

/-- **When invisible agents do not interfere.**  Stores that agree on what the caller shares are
indistinguishable to a request iff, where it gets as far as the directory, both can be listed for
the caller or neither can; and likewise an agent it cannot see is from none. -/
theorem invisible_agents_do_not_interfere_iff [Python] (srv : Server) (cfg : Config)
    (ident : Identity Member) (sender : Address) (args : Args) (op : PyStr) :
    (∀ V s t, Agree ident sender.text V s t →
      (Indistinguishable srv cfg ident sender args op V s t ↔
        (ReachesDirectory s cfg ident sender args op → (s.Listable ident ↔ t.Listable ident)))) ∧
    ∀ s z, ¬ s.VisibleTo ident z → z ≠ sender.text →
      (Indistinguishable srv cfg ident sender args op {a | s.VisibleTo ident a} s (s.forget srv z) ↔
        (ReachesDirectory s cfg ident sender args op →
          (s.Listable ident ↔ (s.forget srv z).Listable ident))) := by
  have hall : ∀ V s t, Agree ident sender.text V s t →
      (Indistinguishable srv cfg ident sender args op V s t ↔
        (ReachesDirectory s cfg ident sender args op → (s.Listable ident ↔ t.Listable ident))) := by
    intro V s t hA
    constructor
    · intro hsame hreaches
      have hs := dispatch_typeError_iff srv s cfg ident sender args hreaches
      have ht := dispatch_typeError_iff srv t cfg ident sender args
        (reachesDirectory_alike cfg sender args hA hreaches)
      rw [← hsame.1] at ht
      exact not_iff_not.1 (hs.symm.trans ht)
    · intro hlist
      have hstart : InStep ident sender.text V s t s t :=
        ⟨hA, ⟨[], (List.append_nil _).symm, (List.append_nil _).symm⟩, fun _ _ => ⟨rfl, rfl⟩,
          ⟨rfl, rfl⟩, rfl, rfl⟩
      exact dispatch_alike cfg sender args hstart hlist
  exact ⟨hall, fun s z hz hme => hall _ _ _ (agree_forget hz hme)⟩

end

/-- An agent of `w`, whose resolver reports these groups. -/
def strangerStore (groups : List Json) : Db :=
  ((registerAgent ⟨lit "w", lit "h", lit "r", lit "p", lit "z"⟩ (groups.map Json.member) (.obj []) 600).run
    (exec Server.plain) (.empty 5000)).2

def strangerCaller : Identity Member := ⟨lit "u", [.str (lit "f")]⟩

def strangerSender : Address := ⟨lit "u", lit "h", lit "r", lit "p", lit "x"⟩

/-- Without a group in common, it is out of sight. -/
theorem stranger_not_visible {groups : List Json} (hf : .str (lit "f") ∉ groups.map Json.member) :
    ¬ (strangerStore groups).VisibleTo strangerCaller (lit "w/h/r/p/z") := by
  rintro ⟨-, h, hh, hv⟩
  cases hh
  obtain huser | ⟨-, -, g, hg, hmem⟩ := visible_iff.1 hv
  · have huser : strangerCaller.userId = lit "w" := huser
    exact absurd huser (by decide)
  · obtain rfl := List.mem_singleton.1 hg
    exact hf hmem

theorem mem_strangerStore {groups : List Json} {a : PyStr} (h : a ∈ (strangerStore groups).members) :
    a = lit "w/h/r/p/z" := by
  have h : a ∈ (insert (lit "w/h/r/p/z") ∅ : Finset PyStr) := h
  simpa using h

theorem stranger_forgotten {groups : List Json} :
    ((strangerStore groups).forget Server.plain (lit "w/h/r/p/z")).Listable strangerCaller := by
  refine (listable_iff _).2 fun a ha => ?_
  have hmembers : ((strangerStore groups).forget Server.plain (lit "w/h/r/p/z")).members =
      (strangerStore groups).members.erase (lit "w/h/r/p/z") := rfl
  rw [hmembers] at ha
  exact absurd (mem_strangerStore (Finset.mem_of_mem_erase ha)) (Finset.ne_of_mem_erase ha)

theorem invisible_agents_do_not_interfere_stranger :
    @Indistinguishable Python.plain Server.plain Config.defaults strangerCaller strangerSender []
        (lit "roster") {a | (strangerStore [.str (lit "g")]).VisibleTo strangerCaller a}
        (strangerStore [.str (lit "g")])
        ((strangerStore [.str (lit "g")]).forget Server.plain (lit "w/h/r/p/z")) ∧
      @Indistinguishable Python.plain Server.plain Config.defaults strangerCaller strangerSender
        [(lit "to", .str (lit "z"))] (lit "chat")
        {a | (strangerStore [.str (lit "g")]).VisibleTo strangerCaller a} (strangerStore [.str (lit "g")])
        ((strangerStore [.str (lit "g")]).forget Server.plain (lit "w/h/r/p/z")) := by
  have hhidden : ¬ (strangerStore [.str (lit "g")]).VisibleTo strangerCaller (lit "w/h/r/p/z") :=
    stranger_not_visible (by decide)
  have hlist : (strangerStore [.str (lit "g")]).Listable strangerCaller := by
    refine (listable_iff _).2 fun a ha h hh => ?_
    obtain rfl := mem_strangerStore ha
    cases hh
    decide
  exact ⟨((@invisible_agents_do_not_interfere_iff Python.plain Server.plain Config.defaults _ _ _ _).1 _ _ _
      (agree_forget hhidden (by decide))).2 fun _ => iff_of_true hlist stranger_forgotten,
    ((@invisible_agents_do_not_interfere_iff Python.plain Server.plain Config.defaults _ _ _ _).2 _ _
      hhidden (by decide)).2 fun _ => iff_of_true hlist stranger_forgotten⟩

/-- A resolver that reports a list for a group: `u` does not see the agent, and sees nobody else for
it either. -/
theorem unhashable_group_interferes :
    let s := strangerStore [.arr [.str (lit "x")]]
    let roster (s : Db) := ((@dispatch Config.defaults strangerCaller strangerSender [] Python.plain
      (lit "roster")).run (exec .plain) s).1
    ¬ s.VisibleTo strangerCaller (lit "w/h/r/p/z") ∧
    roster s = .error .typeError ∧
    roster (s.forget .plain (lit "w/h/r/p/z")) = .ok (.roster [] []) ∧
    Agree strangerCaller strangerSender.text {a | s.VisibleTo strangerCaller a} s
      (s.forget .plain (lit "w/h/r/p/z")) ∧
    ¬ @Indistinguishable Python.plain .plain Config.defaults strangerCaller strangerSender []
      (lit "roster") {a | s.VisibleTo strangerCaller a} s (s.forget .plain (lit "w/h/r/p/z")) := by
  intro s roster
  have hhidden : ¬ s.VisibleTo strangerCaller (lit "w/h/r/p/z") := stranger_not_visible (by decide)
  have hraised : roster s = .error .typeError := rfl
  have hlisted : roster (s.forget .plain (lit "w/h/r/p/z")) = .ok (.roster [] []) := rfl
  refine ⟨hhidden, hraised, hlisted, agree_forget hhidden (by decide), fun h => ?_⟩
  have hsame : roster s = roster (s.forget .plain (lit "w/h/r/p/z")) := h.1
  rw [hraised, hlisted] at hsame
  cases hsame

end Muster
