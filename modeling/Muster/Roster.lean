import Muster.OpsRuns

/-!
# What a roster shows and what it hides

The agents that pass the filters are shown if they have the status asked for, and
counted by project in `hidden` if they have not, the caller's own row apart.  So for
each project nothing is lost between the two (`roster_conserves`).
-/

namespace Muster

/-! ## Counts by project -/

theorem lookup_bump (p q : PyStr) (hidden : List (PyStr × Nat)) :
    ((bump p hidden).lookup q).getD 0 = (hidden.lookup q).getD 0 + if p = q then 1 else 0 := by
  induction hidden with
  | nil =>
    by_cases h : p = q
    · simp [bump, h]
    · have hb : (q == p) = false := by simpa using fun e => h e.symm
      simp [bump, List.lookup, hb, h]
  | cons r hidden ih =>
    obtain ⟨r, n⟩ := r
    unfold bump
    by_cases hr : r = p
    · subst hr
      by_cases hq : q = r
      · subst hq
        simp
      · have hb : (q == r) = false := by simpa using hq
        simp [List.lookup, hb, Ne.symm hq]
    · rw [if_neg hr]
      by_cases hq : q = r
      · subst hq
        simp [Ne.symm hr]
      · have hb : (q == r) = false := by simpa using hq
        simpa [List.lookup, hb] using ih

theorem bump_keys {p : PyStr} {hidden : List (PyStr × Nat)} :
    (bump p hidden).map Prod.fst = if p ∈ hidden.map Prod.fst then hidden.map Prod.fst
      else hidden.map Prod.fst ++ [p] := by
  induction hidden with
  | nil => rfl
  | cons r hidden ih =>
    obtain ⟨r, n⟩ := r
    unfold bump
    by_cases hr : r = p
    · simp [hr]
    · rw [if_neg hr, List.map_cons, ih]
      simp only [List.map_cons, List.mem_cons, Ne.symm hr, false_or]
      split <;> rfl

theorem bump_pos {p : PyStr} {hidden : List (PyStr × Nat)} (h : ∀ e ∈ hidden, 0 < e.2) :
    ∀ e ∈ bump p hidden, 0 < e.2 := by
  induction hidden with
  | nil =>
    intro e he
    rw [List.mem_singleton.1 he]
    exact Nat.one_pos
  | cons r hidden ih =>
    intro e he
    unfold bump at he
    split at he
    · rcases List.mem_cons.1 he with rfl | he
      · exact Nat.succ_pos _
      · exact h e (List.mem_cons_of_mem _ he)
    · rcases List.mem_cons.1 he with rfl | he
      · exact h _ List.mem_cons_self
      · exact ih (fun e he => h e (List.mem_cons_of_mem _ he)) e he

/-- One more count at a time. -/
theorem hiddenCounts_append (projects : List PyStr) (p : PyStr) :
    hiddenCounts (projects ++ [p]) = bump p (hiddenCounts projects) := by
  simp [hiddenCounts, List.foldl_append]

/-- The counts are those of the list, each project once and none of them zero. -/
theorem hiddenCounts_spec (projects : List PyStr) :
    (∀ p, ((hiddenCounts projects).lookup p).getD 0 = projects.count p) ∧
    ((hiddenCounts projects).map Prod.fst).Nodup ∧ ∀ e ∈ hiddenCounts projects, 0 < e.2 := by
  induction projects using List.reverseRecOn with
  | nil => exact ⟨fun _ => rfl, .nil, by simp [hiddenCounts]⟩
  | append_singleton projects p ih =>
    obtain ⟨hcount, hnodup, hpos⟩ := ih
    rw [hiddenCounts_append]
    refine ⟨?_, ?_, bump_pos hpos⟩
    · intro q
      rw [lookup_bump, hcount, List.count_append, List.count_singleton]
      by_cases h : p = q <;> simp [h]
    · rw [bump_keys]
      split
      · exact hnodup
      · next hmem =>
        refine List.nodup_append.2 ⟨hnodup, List.nodup_singleton p, ?_⟩
        intro x hx y hy
        rw [List.mem_singleton.1 hy]
        rintro rfl
        exact hmem hx

/-- An optional argument that has to equal `x`. -/
def Passes (v : Json) (x : PyStr) : Prop := v.truthy = true → v.isStr x = true

instance (v : Json) (x : PyStr) : Decidable (Passes v x) := inferInstanceAs (Decidable (_ → _))

/-- The user, project, runtime and group filters. -/
structure Selected (args : Args) (a : Row) : Prop where
  user : Passes (Json.get args "user") a.user
  project : Passes (Json.get args "project") a.project
  runtime : Passes (Json.get args "runtime") a.runtime
  group : (Json.get args "group").truthy = true → (Json.get args "group").member ∈ a.groups

theorem selected_iff (args : Args) (a : Row) : Selected args a ↔
    (Passes (Json.get args "user") a.user ∧ Passes (Json.get args "project") a.project) ∧
    Passes (Json.get args "runtime") a.runtime ∧
    ((Json.get args "group").truthy = true → a.groups.contains (Json.get args "group").member = true) := by
  rw [List.contains_iff_mem]
  exact ⟨fun h => ⟨⟨h.user, h.project⟩, h.runtime, h.group⟩, fun h => ⟨h.1.1, h.1.2, h.2.1, h.2.2⟩⟩

instance (args : Args) (a : Row) : Decidable (Selected args a) :=
  decidable_of_iff _ (selected_iff args a).symm

/-- The status filter: all of them, or those of one status. -/
def ShownBy (status : PyStr) (a : Row) : Prop := status = lit "all" ∨ a.status.text = status

instance (status : PyStr) (a : Row) : Decidable (ShownBy status a) :=
  inferInstanceAs (Decidable (_ ∨ _))

theorem filterField_eq (args : Args) (field : String) (get : Row → PyStr) (rows : List Row) :
    filterField args field get rows = rows.filter fun a => Passes (Json.get args field) (get a) := by
  unfold filterField
  dsimp only
  split
  · next h => exact List.filter_congr fun a _ => by simp [Passes, h]
  · next h => exact (List.filter_eq_self.2 fun a _ => by simp [Passes, h]).symm

theorem filterGroup_ok {ident : Identity Member} {args : Args} {rows rows' : List Row}
    (h : filterGroup ident args rows = .ok rows') :
    rows' = rows.filter fun a => decide ((Json.get args "group").truthy = true →
      a.groups.contains (Json.get args "group").member = true) := by
  unfold filterGroup at h
  dsimp only at h
  split at h
  · next hv =>
    split at h
    · cases h
      refine List.filter_congr ?_
      intro a _
      rw [Bool.eq_iff_iff, decide_eq_true_eq]
      exact ⟨fun h _ => h, fun h => h hv⟩
    · cases h
  · next hv =>
    cases h
    exact (List.filter_eq_self.2 fun a _ => by simp [hv]).symm

/-- The four filters, one after the other. -/
theorem filters_eq {ident : Identity Member} {args : Args} {rows rows' : List Row}
    (h : filterGroup ident args (filterField args "runtime" Row.runtime (filterField args "project"
      Row.project (filterField args "user" Row.user rows))) = .ok rows') :
    rows' = rows.filter fun a => Selected args a := by
  rw [filterGroup_ok h, filterField_eq, filterField_eq, filterField_eq, List.filter_filter,
    List.filter_filter, List.filter_filter]
  refine List.filter_congr ?_
  intro a _
  rw [Bool.eq_iff_iff]
  simp only [Bool.and_eq_true, decide_eq_true_eq, selected_iff]
  constructor
  · rintro ⟨⟨⟨hgroup, hruntime⟩, hproject⟩, huser⟩
    exact ⟨⟨huser, hproject⟩, hruntime, hgroup⟩
  · rintro ⟨⟨huser, hproject⟩, hruntime, hgroup⟩
    exact ⟨⟨⟨hgroup, hruntime⟩, hproject⟩, huser⟩

theorem shownBy_text {st : Status} {a : Row} : ShownBy st.text a ↔ a.status = st := by
  have hall : st.text ≠ lit "all" := by cases st <;> decide
  unfold ShownBy
  rw [or_iff_right hall]
  cases a.status <;> cases st <;> decide

theorem parseStatus_some {v : Json} {asked : Option Status} (h : parseStatus v = some asked) :
    (∃ st, asked = some st ∧ v = .str st.text) ∨ asked = none ∧ v = .str (lit "all") := by
  unfold parseStatus at h
  split at h
  · next hv =>
    cases h
    exact .inl ⟨.online, rfl, isStr_iff.1 hv⟩
  · split at h
    · next hv =>
      cases h
      exact .inl ⟨.offline, rfl, isStr_iff.1 hv⟩
    · split at h
      · next hv =>
        cases h
        exact .inr ⟨rfl, isStr_iff.1 hv⟩
      · cases h

/-! ## Shown, hidden or the caller -/

/-- Of one address there is at most one row. -/
theorem countP_addr {rows : List Row} (hsorted : rows.Pairwise fun a b => a.addr < b.addr)
    (x : PyStr) (q : Row → Bool) :
    rows.countP (fun a => q a && decide (a.addr = x)) =
      if ∃ a ∈ rows, q a = true ∧ a.addr = x then 1 else 0 := by
  induction hsorted with
  | nil => simp
  | @cons a rows hlt hrows ih =>
    rw [List.countP_cons, ih]
    by_cases ha : q a = true ∧ a.addr = x
    · have hnone : ¬ ∃ b ∈ rows, q b = true ∧ b.addr = x := by
        rintro ⟨b, hb, -, hx⟩
        have := hlt b hb
        rw [ha.2, hx] at this
        exact lt_irrefl _ this
      have hsome : ∃ b ∈ a :: rows, q b = true ∧ b.addr = x := ⟨a, List.mem_cons_self, ha⟩
      rw [if_neg hnone, if_pos hsome]
      simp [ha.1, ha.2]
    · have hiff : (∃ b ∈ a :: rows, q b = true ∧ b.addr = x) ↔ ∃ b ∈ rows, q b = true ∧ b.addr = x := by
        rw [List.exists_mem_cons_iff]
        exact or_iff_right ha
      simp only [hiff]
      have hfalse : (q a && decide (a.addr = x)) = false := by simpa using ha
      rw [hfalse]
      simp

/-- What a status filter leaves, hides and drops for being the caller's adds up. -/
theorem countP_split {rows : List Row} (hsorted : rows.Pairwise fun a b => a.addr < b.addr)
    (x : PyStr) (shown q : Row → Bool) :
    (rows.filter shown).countP q + rows.countP (fun a => q a && (!shown a && !decide (a.addr = x))) +
      (if ∃ a ∈ rows, (q a && !shown a) = true ∧ a.addr = x then 1 else 0) = rows.countP q := by
  rw [← countP_addr hsorted x fun a => q a && !shown a, List.countP_filter]
  induction rows with
  | nil => rfl
  | cons a rows ih =>
    have ih := ih (List.Pairwise.of_cons hsorted)
    simp only [List.countP_cons]
    cases hq : q a <;> cases hs : shown a <;> by_cases hx : a.addr = x <;> simp [hx] <;> omega

/-! ## The roster -/

/-- What a roster answers: the rows shown, and for each project how many are hidden. -/
structure Rostered (ident : Identity Member) (sender : Address) (args : Args) (s : Db)
    (status : PyStr) (shown : List Row) (hidden : List (PyStr × Nat)) : Prop where
  asked : (Json.get args "status").or (.str (lit "online")) = .str status
  filtered : ∀ a ∈ shown, a ∈ s.visibleRows ident ∧ Selected args a ∧ ShownBy status a
  ordered : shown.Pairwise fun a b => a.addr < b.addr
  distinct : (hidden.map Prod.fst).Nodup
  positive : ∀ e ∈ hidden, 0 < e.2
  /-- the caller is never counted -/
  others : ∀ p, (hidden.lookup p).getD 0 = (s.visibleRows ident).countP fun a =>
    Selected args a ∧ a.project = p ∧ ¬ ShownBy status a ∧ a.addr ≠ sender.text
  conserved : ∀ p, shown.countP (fun a => a.project = p) + (hidden.lookup p).getD 0 +
      (if ∃ a ∈ s.visibleRows ident, Selected args a ∧ a.project = p ∧ ¬ ShownBy status a ∧
        a.addr = sender.text then 1 else 0) =
    (s.visibleRows ident).countP fun a => Selected args a ∧ a.project = p

section
variable (srv : Server) {s : Db} {ident : Identity Member} {sender : Address} {args : Args}

theorem visibleRows_sorted : (s.visibleRows ident).Pairwise fun a b => a.addr < b.addr :=
  (directory_sorted s).filter _

/-- From the selected rows, by whether the status filter shows a row. -/
theorem Rostered.of {status : PyStr} {keep : Row → Bool}
    (hasked : (Json.get args "status").or (.str (lit "online")) = .str status)
    (hkeep : ∀ a, keep a = true ↔ ShownBy status a) :
    let selected := (s.visibleRows ident).filter fun a => Selected args a
    Rostered ident sender args s status (selected.filter keep)
      (hiddenCounts ((selected.filter fun a => !keep a && decide (a.addr ≠ sender.text)).map
        Row.project)) := by
  intro selected
  obtain ⟨hcount, hnodup, hpos⟩ := hiddenCounts_spec
    ((selected.filter fun a => !keep a && decide (a.addr ≠ sender.text)).map Row.project)
  have hsorted : selected.Pairwise fun a b => a.addr < b.addr := visibleRows_sorted.filter _
  have hmem : ∀ a, a ∈ selected ↔ a ∈ s.visibleRows ident ∧ Selected args a := by
    intro a
    rw [List.mem_filter, decide_eq_true_eq]
  have hhidden : ∀ p, ((selected.filter fun a => !keep a && decide (a.addr ≠ sender.text)).map
      Row.project).count p = selected.countP fun a => decide (a.project = p) &&
        (!keep a && !decide (a.addr = sender.text)) := by
    intro p
    rw [List.count, List.countP_map, List.countP_filter]
    refine List.countP_congr ?_
    intro a _
    simp
  refine ⟨hasked, ?_, hsorted.filter _, hnodup, hpos, ?_, ?_⟩
  · intro a ha
    obtain ⟨ha, hk⟩ := List.mem_filter.1 ha
    exact ⟨((hmem a).1 ha).1, ((hmem a).1 ha).2, (hkeep a).1 hk⟩
  · intro p
    rw [hcount, hhidden, List.countP_filter]
    refine List.countP_congr ?_
    intro a _
    simp only [Bool.and_eq_true, decide_eq_true_eq, Bool.not_eq_true', decide_eq_false_iff_not,
      ← hkeep, Bool.not_eq_true]
    tauto
  · intro p
    have hown : (∃ a ∈ selected, (decide (a.project = p) && !keep a) = true ∧ a.addr = sender.text) ↔
        ∃ a ∈ s.visibleRows ident, Selected args a ∧ a.project = p ∧ ¬ ShownBy status a ∧
          a.addr = sender.text := by
      refine exists_congr fun a => ?_
      simp only [hmem, Bool.and_eq_true, decide_eq_true_eq, Bool.not_eq_true', ← hkeep,
        Bool.not_eq_true]
      tauto
    have hsplit := countP_split hsorted sender.text keep fun a => decide (a.project = p)
    simp only [hown] at hsplit
    rw [hcount, hhidden, hsplit, List.countP_filter]
    refine List.countP_congr ?_
    intro a _
    simp only [Bool.and_eq_true, decide_eq_true_eq]
    tauto

/-- The answer for the selected rows. -/
def shownAs (sender : Address) (asked : Option Status) (selected : List Row) : Response :=
  match asked with
  | none => .roster (selected.map Row.public) []
  | some st => .roster ((selected.filter (·.status = st)).map Row.public)
      (hiddenCounts ((selected.filter fun a => a.status ≠ st && a.addr ≠ sender.text).map Row.project))

theorem rosterOf_ok {rows : List Row} {r : Response} (h : rosterOf ident sender args rows = .ok r) :
    ∃ asked, parseStatus ((Json.get args "status").or (.str (lit "online"))) = some asked ∧
      r = shownAs sender asked (rows.filter fun a => Selected args a) := by
  unfold rosterOf at h
  dsimp only at h
  cases hgroup : filterGroup ident args (filterField args "runtime" Row.runtime (filterField args
      "project" Row.project (filterField args "user" Row.user rows))) with
  | error e =>
    rw [hgroup] at h
    cases h
  | ok selected =>
    rw [hgroup] at h
    obtain rfl := filters_eq hgroup
    cases hstatus : parseStatus ((Json.get args "status").or (.str (lit "online"))) with
    | none =>
      rw [show (Except.ok _ >>= _ : Except PyExn Response) = _ from rfl, hstatus] at h
      cases h
    | some asked =>
      rw [show (Except.ok _ >>= _ : Except PyExn Response) = _ from rfl, hstatus] at h
      refine ⟨asked, rfl, ?_⟩
      cases asked <;> cases h <;> rfl

theorem opRoster_ok {r : Response} {t : Db}
    (hrun : (opRoster ident sender args).run (exec srv) s = (.ok r, t)) :
    s.Listable ident ∧ rosterOf ident sender args (s.visibleRows ident) = .ok r := by
  rw [opRoster_run] at hrun
  replace hrun := congrArg Prod.fst hrun
  dsimp only at hrun
  split at hrun
  · next hlist => exact ⟨hlist, hrun⟩
  · cases hrun

/-- **Roster drops nobody silently.**  Where it is answered ok, every row shown is visible and
passes all filters, in order of address, and for each project the rows shown, those hidden and
the caller's own, if the status filter has removed it, are the visible agents of that project
that pass the user, project, runtime and group filters. -/
theorem roster_conserves {r : Response} {t : Db}
    (hrun : (opRoster ident sender args).run (exec srv) s = (.ok r, t)) :
    ∃ status shown hidden, r = .roster (shown.map Row.public) hidden ∧
      Rostered ident sender args s status shown hidden := by
  obtain ⟨-, hrun⟩ := opRoster_ok srv hrun
  obtain ⟨asked, hstatus, rfl⟩ := rosterOf_ok hrun
  obtain ⟨st, rfl, hasked⟩ | ⟨rfl, hasked⟩ := parseStatus_some hstatus
  · have hkeep : ∀ a : Row, decide (a.status = st) = true ↔ ShownBy st.text a := by
      intro a
      rw [decide_eq_true_eq, shownBy_text]
    have h := @Rostered.of s ident sender args _ _ hasked hkeep
    simp only [← decide_not] at h
    exact ⟨st.text, _, _, rfl, h⟩
  · have hkeep : ∀ a : Row, true = true ↔ ShownBy (lit "all") a := fun a => iff_of_true rfl (.inl rfl)
    have h := @Rostered.of s ident sender args _ (fun _ => true) hasked hkeep
    simp only [Bool.not_true, Bool.false_and, List.filter_false, List.filter_true] at h
    exact ⟨lit "all", _, [], rfl, h⟩

end

/-! ## A roster with one agent hidden -/

def onAddr : Address := ⟨lit "u", lit "h", lit "r", lit "p", lit "on"⟩

def offAddr : Address := ⟨lit "u", lit "h", lit "r", lit "p", lit "off"⟩

/-- Two agents of one user, the first of them online. -/
def halfStore : Db :=
  (exec Server.plain (.touch onAddr.text ⟨lit "c", 5⟩ 60)
    ([onAddr, offAddr].foldl (fun s addr =>
      (exec Server.plain (.register addr.text (.of addr [] .null 5) 60) s).1) (.empty 5000))).1

theorem roster_conserves_half :
    ∃ r status shown, (opRoster ⟨lit "u", []⟩ onAddr []).run (exec .plain) halfStore =
        (.ok (.roster r [(lit "p", 1)]), halfStore) ∧
      Rostered ⟨lit "u", []⟩ onAddr [] halfStore status shown [(lit "p", 1)] := by
  have hrun : (opRoster ⟨lit "u", []⟩ onAddr []).run (exec .plain) halfStore =
      (.ok (.roster _ [(lit "p", 1)]), halfStore) := rfl
  obtain ⟨status, shown, hidden, heq, h⟩ := roster_conserves .plain hrun
  obtain ⟨-, rfl⟩ := Response.roster.inj heq
  exact ⟨_, status, shown, hrun, h⟩

end Muster
