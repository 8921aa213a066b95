import Muster.OpsRuns

/-!
# What a failed request leaves

Every check that can refuse a request comes before its first lasting write, and the
rate limit is the last of them.  So a request that raises, whatever its arguments are,
leaves the store as it was, or counts once against the caller's own limit, and that
only after it has passed everything else (`failed_request_leaves_store`).
-/

namespace Muster

/-- What an operation checks before the rate limit: size, reference and self-send for a chat,
project, size and scope for an announce. -/
def Admitted [Python] (cfg : Config) (ident : Identity Member) (sender : Address) (args : Args) (s : Db) :
    RateKind → Prop
  | .chat =>
    (∃ r, checkSize cfg.bodyMax ((Json.get args "body").or (.str [])) (Json.get args "subject") =
      .ok r) ∧
    ∃ target, resolveReference ((Json.get args "to").or (.str [])) (s.visibleRows ident) = .ok target ∧
      target.addr ≠ sender.text
  | .announce =>
    ((Json.get args "project").or (.str [])).truthy = true ∧
    (∃ r, checkSize cfg.bodyMax ((Json.get args "body").or (.str [])) (Json.get args "subject") =
      .ok r) ∧
    ∃ inScope, resolveScope ident ((Json.get args "scope").or (.str [])) = .ok inScope

section
variable (srv : Server) {s t : Db} {cfg : Config} {ident : Identity Member} {sender : Address}
  {args : Args} {e : PyExn}

theorem counter_incr (kind : RateKind) (a : PyStr) {window : Int} (h : 0 < window) :
    (exec srv (.incr kind a window) s).1.counter kind a = s.counter kind a + 1 := by
  have hpos : ¬ window ≤ 0 := by omega
  unfold Db.counter
  rw [exec_now]
  simp only [exec, Keyspace.get, Keyspace.look_expireNx_same, Keyspace.look_edit_same,
    Option.bind_some]
  split
  · rfl
  · rw [if_neg hpos]
    rfl

variable [Python]

theorem opChat_failed (hrun : (opChat cfg ident sender args).run (exec srv) s = (.error e, t)) :
    t = s ∨ t = (exec srv (.incr .chat sender.text cfg.rateWindow) s).1 ∧
      Admitted cfg ident sender args s .chat := by
  cases opChat_cases srv s cfg ident sender args hrun with
  | refused => exact .inl rfl
  | unlisted => exact .inl rfl
  | unresolved => exact .inl rfl
  | toSelf => exact .inl rfl
  | limited hsize _ hto hother => exact .inr ⟨rfl, ⟨_, hsize⟩, _, hto, hother⟩
  | passed hsize _ hto hother _ hsent =>
    -- XADD is refused on the client
    unfold deliver at hsent
    split at hsent
    · cases hsent
      exact .inr ⟨rfl, ⟨_, hsize⟩, _, hto, hother⟩
    · cases hsent

theorem opAnnounce_failed (hrun : (opAnnounce cfg ident sender args).run (exec srv) s = (.error e, t)) :
    t = s ∨ t = (exec srv (.incr .announce sender.text cfg.rateWindow) s).1 ∧
      Admitted cfg ident sender args s .announce := by
  cases opAnnounce_cases srv s cfg ident sender args hrun with
  | unnamed => exact .inl rfl
  | refused => exact .inl rfl
  | unscoped => exact .inl rfl
  | limited hproject hsize hscope => exact .inr ⟨rfl, hproject, ⟨_, hsize⟩, _, hscope⟩
  | unlisted hproject hsize hscope _ hcounted =>
    -- the directory is listed behind the rate limit
    exact .inr ⟨hcounted, hproject, ⟨_, hsize⟩, _, hscope⟩

/-- A fetch raises before it moves the cursor. -/
theorem opFetch_failed (hrun : (opFetch sender args).run (exec srv) s = (.error e, t)) : t = s := by
  rw [opFetch_run_eq] at hrun
  cases hlimit : pyInt ((Json.get args "limit").or (.int 20)) with
  | error e' =>
    rw [hlimit] at hrun
    cases hrun
    rfl
  | ok n =>
    rw [hlimit] at hrun
    dsimp only at hrun
    by_cases h : min n 100 < 1
    · rw [fetchUnread_refused srv s sender.text h] at hrun
      cases hrun
      rfl
    · rw [(fetchUnread_spec srv s sender.text (by omega)).1] at hrun
      cases hrun

/-- **Failed requests leave the store intact.**  Where `dispatch` raises, no key but counters has
changed and nothing was published; the store is as it was, or the caller's own counter for the
operation was incremented once, the request having passed every other check. -/
theorem failed_request_leaves_store {op : PyStr}
    (hrun : (dispatch cfg ident sender args op).run (exec srv) s = (.error e, t)) :
    t.pubs = s.pubs ∧ (∀ k, (∀ kind a, k ≠ .rate kind a) → t.keys k = s.keys k) ∧
    (t = s ∨ ∃ kind : RateKind, op = kind.text ∧ Admitted cfg ident sender args s kind ∧
      t = (exec srv (.incr kind sender.text cfg.rateWindow) s).1 ∧
      (∀ k, k ≠ .rate kind sender.text → t.keys k = s.keys k) ∧
      (0 < cfg.rateWindow → t.counter kind sender.text = s.counter kind sender.text + 1)) := by
  have hcounted : t = s ∨ ∃ kind : RateKind, op = kind.text ∧ Admitted cfg ident sender args s kind ∧
      t = (exec srv (.incr kind sender.text cfg.rateWindow) s).1 := by
    unfold dispatch at hrun
    split at hrun
    · next hop =>
      obtain h | ⟨h, hadmitted⟩ := opChat_failed srv hrun
      · exact .inl h
      · exact .inr ⟨.chat, hop, hadmitted, h⟩
    · split at hrun
      · exact .inl (opFetch_failed srv hrun)
      · split at hrun
        · rw [opRoster_run] at hrun
          exact .inl (congrArg Prod.snd hrun).symm
        · split at hrun
          · next hop =>
            obtain h | ⟨h, hadmitted⟩ := opAnnounce_failed srv hrun
            · exact .inl h
            · exact .inr ⟨.announce, hop, hadmitted, h⟩
          · cases hrun
            exact .inl rfl
  obtain rfl | ⟨kind, hop, hadmitted, rfl⟩ := hcounted
  · exact ⟨rfl, fun _ _ => rfl, .inl rfl⟩
  · have hkeys : ∀ k, k ≠ .rate kind sender.text →
        (exec srv (.incr kind sender.text cfg.rateWindow) s).1.keys k = s.keys k :=
      fun k hk => exec_other srv _ s (by simpa [Cmd.writes] using hk)
    exact ⟨rfl, fun k hk => hkeys k (hk kind _), .inr ⟨kind, hop, hadmitted, rfl, hkeys,
      counter_incr srv kind sender.text⟩⟩

end

/-! ## A chat beyond the limit -/

def busySender : Address := ⟨lit "u", lit "h", lit "r", lit "p", lit "s"⟩

def busyTarget : Address := ⟨lit "u", lit "h", lit "r", lit "p", lit "x"⟩

/-- An agent to write to, and a limit of none. -/
def busyStore : Db :=
  (exec Server.plain (.register busyTarget.text (.of busyTarget [] .null 5) 60) (.empty 5000)).1

def busyConfig : Config := { Config.defaults with chatRate := 0 }

def busyArgs : Args := [(lit "to", .str (lit "x")), (lit "body", .str (lit "hi"))]

theorem failed_request_leaves_store_busy :
    ∃ payload t, (@dispatch busyConfig ⟨lit "u", []⟩ busySender busyArgs Python.plain (lit "chat")).run
        (exec .plain) busyStore = (.error (.opError 429 payload), t) ∧
      t.pubs = busyStore.pubs ∧ (∀ k, (∀ kind a, k ≠ .rate kind a) → t.keys k = busyStore.keys k) ∧
      (t = busyStore ∨ ∃ kind : RateKind, lit "chat" = kind.text ∧
        @Admitted Python.plain busyConfig ⟨lit "u", []⟩ busySender busyArgs busyStore kind ∧
        t = (exec .plain (.incr kind busySender.text busyConfig.rateWindow) busyStore).1 ∧
        (∀ k, k ≠ .rate kind busySender.text → t.keys k = busyStore.keys k) ∧
        (0 < busyConfig.rateWindow →
          t.counter kind busySender.text = busyStore.counter kind busySender.text + 1)) := by
  have hrun : (@dispatch busyConfig ⟨lit "u", []⟩ busySender busyArgs Python.plain (lit "chat")).run
      (exec .plain) busyStore = (.error (.opError 429 _), _) := rfl
  exact ⟨_, _, hrun, @failed_request_leaves_store .plain busyStore _ busyConfig ⟨lit "u", []⟩ busySender
    busyArgs _ Python.plain (lit "chat") hrun⟩

end Muster
