import Muster.StoreRuns

/-!
# What a short page says

A page has `min limit 100` entries, and those that have expired are dropped from the
answer after the cursor has passed them.  So an answer shorter than the page is no
sign that nothing is left: an expired entry may have taken a place on the page while
an unexpired one is still past the cursor (`short_page_hides_mail`).

It is such a sign unless both happen: an expired entry among the first
`min limit 100` past the cursor, and an unexpired one beyond them
(`short_page_iff`).
-/

namespace Muster

/-- A page of `m` entries loses none to expiry, or is all the unread there is. -/
theorem length_unexpired_lt_iff (now : Int) (es : List Entry) (m : Nat) :
    ((unexpired now (es.take m)).length < m → unexpired now (es.drop m) = []) ↔
      (∀ e ∈ es.take m, now < e.expiresAt) ∨ ∀ e ∈ es.drop m, e.expiresAt ≤ now := by
  have hrest : unexpired now (es.drop m) = [] ↔ ∀ e ∈ es.drop m, e.expiresAt ≤ now := by
    simp [unexpired, List.filter_eq_nil_iff]
  have hfull : (unexpired now (es.take m)).length = (es.take m).length ↔
      ∀ e ∈ es.take m, now < e.expiresAt := by
    unfold unexpired
    rw [List.length_filter_eq_length_iff]
    simp
  rw [hrest, ← hfull]
  have hle : (unexpired now (es.take m)).length ≤ (es.take m).length := List.length_filter_le _ _
  have hlen := List.length_take (l := es) (i := m)
  constructor
  · intro h
    by_cases hm : (unexpired now (es.take m)).length < m
    · exact .inr (h hm)
    · left
      omega
  · rintro (h | h) hm
    · -- a short page with nothing expired: the page was short already
      have : es.drop m = [] := List.drop_eq_nil_iff.2 (by omega)
      simp [this]
    · exact h

section
variable [Python] (srv : Server) (sender : Address) {args : Args} (s : Db) {n : Int}

/-- A fetch request takes its page off the unread, and answers with the unexpired ones. -/
theorem opFetch_run (hlimit : ((Json.get args "limit").or (.int 20)).toInt = .ok n) (h : 1 ≤ n) :
    ∃ s', (opFetch sender args).run (exec srv) s =
        (.ok (.fetch ((unexpired s.sec (s.page sender.text (min n 100))).map Message.of)), s') ∧
      s'.unread sender.text = (s.unread sender.text).drop (min n 100).toNat ∧ s'.sec = s.sec := by
  have hpage : 1 ≤ min n 100 := by omega
  obtain ⟨hres, hunread⟩ := fetchUnread_spec srv s sender.text hpage
  refine ⟨((fetchUnread sender.text (min n 100)).run (exec srv) s).2, ?_, hunread, ?_⟩
  · unfold opFetch pyInt
    rw [hlimit]
    show (fetchUnread sender.text (min n 100) >>= _).run (exec srv) s = _
    rw [Prog.run_bind_of_ok _ (Prod.ext hres rfl)]
    rfl
  · unfold Db.sec
    rw [run_now]

/-- **When a short page means an empty inbox.**  After a fetch that returned fewer than
`min limit 100` messages no unexpired entry is left past the cursor, if and only if no
entry of the page had expired or every entry beyond the page had. -/
theorem short_page_iff (hlimit : ((Json.get args "limit").or (.int 20)).toInt = .ok n) (h : 1 ≤ n) :
    ∃ ms s', (opFetch sender args).run (exec srv) s = (.ok (.fetch ms), s') ∧
      (((ms.length : Int) < min n 100 → unexpired s'.sec (s'.unread sender.text) = []) ↔
        (∀ e ∈ (s.unread sender.text).take (min n 100).toNat, s.sec < e.expiresAt) ∨
        ∀ e ∈ (s.unread sender.text).drop (min n 100).toNat, e.expiresAt ≤ s.sec) := by
  obtain ⟨s', hrun, hunread, hsec⟩ := opFetch_run srv sender s hlimit h
  refine ⟨_, s', hrun, ?_⟩
  rw [hunread, hsec, ← length_unexpired_lt_iff, List.length_map]
  have hm : ((min n 100).toNat : Int) = min n 100 := Int.toNat_of_nonneg (by omega)
  refine imp_congr ?_ Iff.rfl
  unfold Db.page
  omega

end

def shortSender : Address := ⟨lit "u", lit "h", lit "r", lit "p", lit "x"⟩

/-- At 3 s: a message that expired at 2 s, then one that expires at 9 s. -/
def shortStore : Db :=
  (exec Server.plain (.xadd shortSender.text [] 1 9 1000)
    (exec Server.plain (.xadd shortSender.text [] 1 2 1000) (.empty 3000)).1).1

/-- A fetch of one message returns none, and leaves one. -/
theorem short_page_hides_mail :
    let r := (@opFetch shortSender [(lit "limit", .int 1)] Python.plain).run (exec Server.plain) shortStore
    r.1 = .ok (.fetch []) ∧
      unexpired r.2.sec (r.2.unread shortSender.text) = [⟨toLex (3000, 1), [], 1, 9⟩] :=
  ⟨rfl, rfl⟩

theorem short_page_iff_shortStore :
    ∃ ms s', (@opFetch shortSender [(lit "limit", .int 1)] Python.plain).run (exec Server.plain)
        shortStore = (.ok (.fetch ms), s') ∧
      (((ms.length : Int) < min 1 100 → unexpired s'.sec (s'.unread shortSender.text) = []) ↔
        (∀ e ∈ (shortStore.unread shortSender.text).take (min 1 100 : Int).toNat,
          shortStore.sec < e.expiresAt) ∨
        ∀ e ∈ (shortStore.unread shortSender.text).drop (min 1 100 : Int).toNat,
          e.expiresAt ≤ shortStore.sec) :=
  @short_page_iff Python.plain Server.plain shortSender [(lit "limit", .int 1)] shortStore 1 rfl
    (by decide)

end Muster
