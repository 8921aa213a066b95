import Muster.Reconnect

/-!
# The unread count against the fetch path

A count reads at most 1000 entries past the cursor and drops the expired ones of them.
Fetches, repeated until nothing is past the cursor, return the unexpired ones of all
(`fetchPages_run`).  So the two agree iff every entry beyond the first 1000 has expired
(`unread_count_agrees_iff`); otherwise mail may wait that the count does not tell of
(`unread_count_misses_mail`).
-/

namespace Muster

/-- Fetches one after the other, and all they return. -/
def fetchPages (a : PyStr) : List Int → M (List Entry)
  | [] => pure []
  | limit :: limits => do
    let page ← fetchUnread a limit
    let rest ← fetchPages a limits
    return page ++ rest

/-- `live[0]["ts"] if live else ""`. -/
def oldestTs : List Entry → PyStr
  | [] => []
  | e :: _ => PyStr.strInt e.ts

theorem nudge_eq_none_iff {count : Nat} {ts : PyStr} : nudge count ts = none ↔ count = 0 := by
  unfold nudge
  split <;> simp_all

section
variable (srv : Server) (s : Db) (a : PyStr)

theorem unreadCount_run_eq : (unreadCount a).run (exec srv) s =
    (.ok ((unexpired s.sec ((s.unread a).take 1000)).length,
      oldestTs (unexpired s.sec ((s.unread a).take 1000))), s) := by
  unfold unreadCount
  rw [Prog.run_bind_of_ok _ (entriesPastCursor_run srv s a (by decide))]
  have hpage : s.page a 1000 = (s.unread a).take 1000 := rfl
  rw [hpage]
  show (Except.ok (_, _), s) = _
  rfl

/-- Pages of `limits` entries are the first entries of the unread, and leave the others. -/
theorem fetchPages_run {limits : List Int} (hlimits : ∀ limit ∈ limits, 1 ≤ limit) :
    ∃ t, (fetchPages a limits).run (exec srv) s =
        (.ok (unexpired s.sec ((s.unread a).take (limits.map Int.toNat).sum)), t) ∧
      t.unread a = (s.unread a).drop (limits.map Int.toNat).sum := by
  induction limits generalizing s with
  | nil => exact ⟨s, rfl, rfl⟩
  | cons limit limits ih =>
    obtain ⟨hres, hunread⟩ := fetchUnread_spec srv s a (hlimits limit List.mem_cons_self)
    have hsec : ((fetchUnread a limit).run (exec srv) s).2.sec = s.sec := by
      unfold Db.sec
      rw [run_now]
    generalize ht : ((fetchUnread a limit).run (exec srv) s).2 = t at hunread hsec
    obtain ⟨u, hrun, hrest⟩ := ih t fun l hl => hlimits l (List.mem_cons_of_mem _ hl)
    refine ⟨u, ?_, ?_⟩
    · unfold fetchPages
      rw [Prog.run_bind_of_ok _ (Prod.ext hres ht), Prog.run_bind_of_ok _ hrun, hunread, hsec]
      show (Except.ok (unexpired s.sec (s.page a limit) ++ _), u) = _
      unfold unexpired Db.page
      rw [← List.filter_append, List.map_cons, List.sum_cons, List.take_add]
    · rw [hrest, hunread, List.drop_drop, List.map_cons, List.sum_cons]

variable {s a}

/-- **When the count agrees with the fetches.**  Fetches that exhaust the inbox at the clock of
the count return as many messages as it says, the first of them with the stamp it says, and the
unread event is sent exactly where an unexpired entry is past the cursor, if and only if every
entry past the cursor but the first 1000 has expired. -/
theorem unread_count_agrees_iff {limits : List Int} (hlimits : ∀ limit ∈ limits, 1 ≤ limit)
    {msgs : List Entry} {t : Db} (hrun : (fetchPages a limits).run (exec srv) s = (.ok msgs, t))
    (hdone : t.unread a = []) :
    ∃ count oldest, (unreadCount a).run (exec srv) s = (.ok (count, oldest), s) ∧
      ((count = msgs.length ∧ oldest = oldestTs msgs ∧
          (nudge count oldest ≠ none ↔ ∃ e ∈ s.unread a, s.sec < e.expiresAt)) ↔
        ∀ e ∈ (s.unread a).drop 1000, e.expiresAt ≤ s.sec) := by
  obtain ⟨t', hrun', hunread⟩ := fetchPages_run srv s a hlimits
  rw [hrun] at hrun'
  cases hrun'
  rw [hdone, eq_comm, List.drop_eq_nil_iff] at hunread
  rw [List.take_of_length_le hunread]
  refine ⟨_, _, unreadCount_run_eq srv s a, ?_⟩
  have hsplit : unexpired s.sec (s.unread a) =
      unexpired s.sec ((s.unread a).take 1000) ++ unexpired s.sec ((s.unread a).drop 1000) := by
    unfold unexpired
    rw [← List.filter_append, List.take_append_drop]
  have hexpired : unexpired s.sec ((s.unread a).drop 1000) = [] ↔
      ∀ e ∈ (s.unread a).drop 1000, e.expiresAt ≤ s.sec := by
    simp [unexpired, List.filter_eq_nil_iff]
  rw [← hexpired]
  constructor
  · rintro ⟨hcount, -⟩
    rw [hsplit, List.length_append] at hcount
    exact List.eq_nil_of_length_eq_zero (by omega)
  · intro hnil
    rw [hnil, List.append_nil] at hsplit
    rw [← hsplit]
    refine ⟨rfl, rfl, ?_⟩
    rw [ne_eq, nudge_eq_none_iff, List.length_eq_zero_iff]
    simp [unexpired, List.filter_eq_nil_iff]

end

/-! ## A message behind a thousand -/

/-- Entries 1, 2, …, the first 1000 of which expire at 2 s and the others at 9 s. -/
def backlogEntry (i : Nat) : Entry := ⟨toLex (i + 1, 0), [], 1, if i < 1000 then 2 else 9⟩

def backlog (n : Nat) : Stream where
  entries := (List.range n).map backlogEntry
  last := toLex (n, 0)
  sorted := by
    refine List.pairwise_map.2 (List.pairwise_lt_range.imp ?_)
    intro i j hij
    exact Prod.Lex.toLex_lt_toLex.2 (.inl (by omega))
  le_last := by
    intro e he
    obtain ⟨i, hi, rfl⟩ := List.mem_map.1 he
    rw [List.mem_range] at hi
    rcases Nat.lt_or_ge (i + 1) n with hlt | hge
    · exact (Prod.Lex.toLex_lt_toLex.2 (.inl hlt)).le
    · have : i + 1 = n := by omega
      unfold backlogEntry
      rw [this]

/-- At 3 s, with the first `n` of them in an inbox. -/
def backlogStore (a : PyStr) (n : Nat) : Db where
  now := 3000
  keys := Keyspace.put (fun _ => none) (.inbox a) (backlog n)
  pubs := []

theorem backlogStore_unread (a : PyStr) (n : Nat) :
    (backlogStore a n).unread a = (List.range n).map backlogEntry := by
  have hget : (backlogStore a n).keys.get (backlogStore a n).now (.inbox a) = some (backlog n) :=
    @Keyspace.get_put_same Key Key.Val _ (fun _ => none) 3000 (.inbox a) (backlog n)
  have hstream : (backlogStore a n).stream a = backlog n := by
    unfold Db.stream
    rw [hget]
    rfl
  have hother : (backlogStore a n).keys (.cursor a) = none :=
    @Keyspace.put_other Key Key.Val _ (fun _ => none) (.inbox a) (.cursor a) (backlog n) (by simp)
  have hcursor : (backlogStore a n).cursor a = none := by
    unfold Db.cursor Keyspace.get Keyspace.look
    rw [hother]
    rfl
  unfold Db.unread Db.inbox
  rw [hstream, hcursor]
  exact List.filter_eq_self.2 fun _ _ => rfl

theorem backlogStore_sec (a : PyStr) (n : Nat) : (backlogStore a n).sec = 3 := by
  show ((3000 / 1000 : Nat) : Int) = 3
  decide

theorem backlog_expired : unexpired 3 (((List.range 1001).map backlogEntry).take 1000) = [] := by
  rw [← List.map_take, List.take_range]
  refine List.filter_eq_nil_iff.2 ?_
  intro e he
  obtain ⟨i, hi, rfl⟩ := List.mem_map.1 he
  have : i < 1000 := by simpa using hi
  simp [backlogEntry, this]

theorem backlog_live : unexpired 3 ((List.range 1001).map backlogEntry) = [backlogEntry 1000] := by
  have hexpired := backlog_expired
  rw [List.range_succ, List.map_append, List.take_left' (by simp)] at hexpired
  rw [List.range_succ, List.map_append]
  unfold unexpired at hexpired ⊢
  rw [List.filter_append, hexpired]
  rfl

theorem backlog_fetch : ∃ t, (fetchPages (lit "u/h/r/p/x") (List.replicate 11 100)).run (exec .plain)
      (backlogStore (lit "u/h/r/p/x") 1001) = (.ok [backlogEntry 1000], t) ∧
    t.unread (lit "u/h/r/p/x") = [] := by
  obtain ⟨t, hrun, hunread⟩ := @fetchPages_run .plain (backlogStore (lit "u/h/r/p/x") 1001)
    (lit "u/h/r/p/x") (List.replicate 11 100) (by simp)
  have hsum : ((List.replicate 11 (100 : Int)).map Int.toNat).sum = 1100 := rfl
  have hlen : ((List.range 1001).map backlogEntry).length ≤ 1100 := by simp
  rw [hsum, backlogStore_unread] at hrun hunread
  rw [backlogStore_sec, List.take_of_length_le hlen, backlog_live] at hrun
  exact ⟨t, hrun, by rw [hunread, List.drop_of_length_le hlen]⟩

/-- **A thousand expired messages hide one that is not**: none is counted, no event is sent, and
fetches return one. -/
theorem unread_count_misses_mail :
    (∃ t, (fetchPages (lit "u/h/r/p/x") (List.replicate 11 100)).run (exec .plain)
      (backlogStore (lit "u/h/r/p/x") 1001) = (.ok [backlogEntry 1000], t) ∧
      t.unread (lit "u/h/r/p/x") = []) ∧
    (unreadCount (lit "u/h/r/p/x")).run (exec .plain) (backlogStore (lit "u/h/r/p/x") 1001) =
      (.ok (0, []), backlogStore (lit "u/h/r/p/x") 1001) ∧ nudge 0 [] = none := by
  refine ⟨backlog_fetch, ?_, rfl⟩
  rw [unreadCount_run_eq, backlogStore_unread, backlogStore_sec, backlog_expired]
  rfl

theorem unread_count_agrees_iff_backlog :
    ∃ count oldest, (unreadCount (lit "u/h/r/p/x")).run (exec .plain)
        (backlogStore (lit "u/h/r/p/x") 1001) =
        (.ok (count, oldest), backlogStore (lit "u/h/r/p/x") 1001) ∧
      ((count = 1 ∧ oldest = oldestTs [backlogEntry 1000] ∧ (nudge count oldest ≠ none ↔
          ∃ e ∈ (backlogStore (lit "u/h/r/p/x") 1001).unread (lit "u/h/r/p/x"),
            (backlogStore (lit "u/h/r/p/x") 1001).sec < e.expiresAt)) ↔
        ∀ e ∈ ((backlogStore (lit "u/h/r/p/x") 1001).unread (lit "u/h/r/p/x")).drop 1000,
          e.expiresAt ≤ (backlogStore (lit "u/h/r/p/x") 1001).sec) := by
  obtain ⟨t, hrun, hdone⟩ := backlog_fetch
  exact unread_count_agrees_iff .plain (by simp) hrun hdone

end Muster
