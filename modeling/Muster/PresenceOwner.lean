import Muster.StoreRuns

/-!
# Who owns the presence record

The streams of one address open, ping and close in any order.  Opening and pinging
touch the record, and make their connection its owner; closing clears it if the
connection is the owner.  So a ping of an old connection takes the record back from
its successor, and its close then deletes the record under the successor
(`old_ping_then_close`).

The record belongs to the last connection that opened or pinged (`Owned`), as long
as nothing expires: a close deletes it exactly when that connection is the one that
closes (`close_deletes_iff`).
-/

namespace Muster

/-- The streams of one address: every connection opened so far, oldest first, and those
still open. -/
structure Streams where
  db : Db
  opened : List PyStr
  live : List PyStr

inductive StreamStep where
  | open (cid : PyStr)
  | ping (cid : PyStr)
  | close (cid : PyStr)
  | tick (d : Nat)

section
variable (srv : Server) (a : PyStr) (ttl : Int)

/-- One step, where it is possible: connection ids are distinct, only open connections ping
and close, and the record does not expire. -/
def Streams.step (s : Streams) : StreamStep → Option Streams
  | .open cid =>
    if cid ∈ s.opened then none
    else some ⟨((touchPresence a cid ttl).run (exec srv) s.db).2, s.opened ++ [cid], s.live ++ [cid]⟩
  | .ping cid =>
    if cid ∈ s.live then
      some { s with db := ((touchPresence a cid ttl).run (exec srv) s.db).2 }
    else none
  | .close cid =>
    if cid ∈ s.live then
      some { s with db := ((clearPresence a cid).run (exec srv) s.db).2, live := s.live.erase cid }
    else none
  | .tick d =>
    if ((Env.tick d).apply s.db).presence a = s.db.presence a then
      some { s with db := (Env.tick d).apply s.db }
    else none

/-- The steps, in order. -/
def Streams.play (s : Streams) : List StreamStep → Option Streams
  | [] => some s
  | x :: xs => (s.step srv a ttl x).bind fun s' => s'.play xs

/-- Whose open or ping was the last one after a step. -/
def StreamStep.toucher (last : Option PyStr) : StreamStep → Option PyStr
  | .open cid => some cid
  | .ping cid => some cid
  | _ => last

/-- The connection of the last open or ping. -/
def lastTouch (xs : List StreamStep) : Option PyStr := xs.foldl StreamStep.toucher none

/-- Closing `cid` now would delete the record. -/
def Streams.CloseDeletes (s : Streams) (cid : PyStr) : Prop :=
  s.db.presence a ≠ none ∧ (((clearPresence a cid).run (exec srv) s.db).2).presence a = none

/-- A connection opened after `cid` is still open. -/
def Streams.HasSuccessor (s : Streams) (cid : PyStr) : Prop := ∃ c ∈ s.live, List.Sublist [cid, c] s.opened

/-- The record is the last toucher's, or it has closed and nobody has touched since. -/
def Owned (s : Streams) (last : Option PyStr) : Prop :=
  match last with
  | none => s.live = []
  | some cid => (s.db.presence a).map (·.connectionId) = some cid ∨
      (s.db.presence a = none ∧ cid ∉ s.live)

end

section
variable (srv : Server) {a : PyStr} {ttl : Int} {s s' : Streams} {xs : List StreamStep}

theorem Streams.play_append (xs ys : List StreamStep) :
    s.play srv a ttl (xs ++ ys) = (s.play srv a ttl xs).bind fun s' => s'.play srv a ttl ys := by
  induction xs generalizing s with
  | nil => rfl
  | cons x xs ih =>
    simp only [List.cons_append, Streams.play]
    cases s.step srv a ttl x with
    | none => rfl
    | some t => exact ih

theorem closeDeletes_iff (cid : PyStr) :
    s.CloseDeletes srv a cid ↔ (s.db.presence a).map (·.connectionId) = some cid := by
  unfold Streams.CloseDeletes
  rw [clearPresence_run]
  dsimp only
  rw [presence_exec_clear]
  constructor
  · rintro ⟨hne, h⟩
    by_contra hc
    rw [if_neg hc] at h
    exact hne h
  · intro h
    exact ⟨fun hn => by simp [hn] at h, if_pos h⟩

/-! ## One step -/

/-- Open connections are opened ones, and no connection is open twice. -/
structure Streams.Wf (s : Streams) : Prop where
  live : s.live ⊆ s.opened
  nodup : s.live.Nodup

theorem Streams.Wf.step (hs : s.Wf) {x : StreamStep} (h : s.step srv a ttl x = some s') : s'.Wf := by
  cases x with
  | «open» cid =>
    simp only [Streams.step] at h
    split at h
    · cases h
    · next hnew =>
      cases h
      constructor
      · intro c hc
        rcases List.mem_append.1 hc with hc | hc
        · exact List.mem_append_left _ (hs.live hc)
        · exact List.mem_append_right _ hc
      · refine List.nodup_append.2 ⟨hs.nodup, List.nodup_singleton _, ?_⟩
        intro c hc c' hc' e
        rw [List.mem_singleton.1 hc'] at e
        exact hnew (hs.live (e ▸ hc))
  | ping cid =>
    simp only [Streams.step] at h
    split at h
    · cases h; exact ⟨hs.live, hs.nodup⟩
    · cases h
  | close cid =>
    simp only [Streams.step] at h
    split at h
    · cases h
      exact ⟨fun c hc => hs.live (List.mem_of_mem_erase hc), hs.nodup.erase _⟩
    · cases h
  | tick d =>
    simp only [Streams.step] at h
    split at h
    · cases h; exact ⟨hs.live, hs.nodup⟩
    · cases h

theorem Owned.step (httl : 0 < ttl) (hs : s.Wf) {last : Option PyStr} (hI : Owned a s last)
    {x : StreamStep} (h : s.step srv a ttl x = some s') :
    Owned a s' (x.toucher last) := by
  cases x with
  | «open» cid =>
    simp only [Streams.step] at h
    split at h
    · cases h
    · cases h
      left
      rw [touchPresence_run]
      simp only [presence_exec_touch srv _ httl, Option.map_some]
  | ping cid =>
    simp only [Streams.step] at h
    split at h
    · cases h
      left
      rw [touchPresence_run]
      simp only [presence_exec_touch srv _ httl, Option.map_some]
    · cases h
  | close cid =>
    simp only [Streams.step] at h
    split at h
    · next hlive =>
      cases h
      cases last with
      | none => rw [show s.live = [] from hI] at hlive; cases hlive
      | some c =>
        simp only [Owned, clearPresence_run, presence_exec_clear]
        rcases hI with hc | ⟨hn, hc⟩
        · by_cases he : c = cid
          · -- the owner closes: the record goes, and the owner is closed
            subst he
            rw [if_pos hc]
            exact .inr ⟨rfl, fun hm => absurd hm (List.Nodup.not_mem_erase hs.nodup)⟩
          · rw [if_neg (by rw [hc]; simpa using he)]
            exact .inl hc
        · rw [hn, if_neg (by simp)]
          exact .inr ⟨rfl, fun hm => hc (List.mem_of_mem_erase hm)⟩
    · cases h
  | tick d =>
    simp only [Streams.step] at h
    split at h
    · next hp =>
      cases h
      cases last with
      | none => exact hI
      | some c =>
        simp only [Owned]
        rw [hp]
        exact hI
    · cases h

/-! ## Every run -/

theorem play_owned (httl : 0 < ttl) (hs : s.Wf) {last : Option PyStr} (hI : Owned a s last)
    (h : s.play srv a ttl xs = some s') :
    s'.Wf ∧ Owned a s' (xs.foldl StreamStep.toucher last) := by
  induction xs generalizing s last with
  | nil => cases h; exact ⟨hs, hI⟩
  | cons x xs ih =>
    obtain ⟨t, ht, h⟩ := Option.bind_eq_some_iff.1 h
    exact ih (hs.step srv ht) (hI.step srv httl hs ht) h

/-- A close deletes the record exactly when no other connection has opened or pinged since
the closing one did. -/
theorem close_deletes_iff (httl : 0 < ttl) {db : Db} {cid : PyStr}
    (h : (Streams.mk db [] []).play srv a ttl xs = some s) (hlive : cid ∈ s.live) :
    s.CloseDeletes srv a cid ↔ lastTouch xs = some cid := by
  have hstart : Owned a (Streams.mk db [] []) none := rfl
  obtain ⟨-, hI⟩ := play_owned srv httl ⟨List.Subset.refl _, List.nodup_nil⟩ hstart h
  rw [closeDeletes_iff]
  change Owned a s (lastTouch xs) at hI
  cases hl : lastTouch xs with
  | none =>
    rw [hl] at hI
    rw [show s.live = [] from hI] at hlive
    cases hlive
  | some c =>
    rw [hl] at hI
    rcases hI with hc | ⟨hn, hc⟩
    · rw [hc]
    · rw [hn]
      constructor
      · intro h
        cases h
      · intro h
        cases h
        exact absurd hlive hc

theorem live_of_close {db : Db} {pre : List StreamStep} {cid : PyStr}
    (h : (Streams.mk db [] []).play srv a ttl xs = some s') (hp : pre ++ [.close cid] <+: xs)
    (hs : (Streams.mk db [] []).play srv a ttl pre = some s) : cid ∈ s.live := by
  obtain ⟨rest, rfl⟩ := hp
  rw [Streams.play_append, Streams.play_append, hs] at h
  by_contra hc
  simp [Streams.play, Streams.step, hc] at h

/-- **When a late close spares its successor.**  In a run of any streams of one address, no
close of `cid` deletes the record under a connection opened later and still open, if and
only if at every such close the last open or ping was another connection's. -/
theorem close_spares_successor_iff (httl : 0 < ttl) {db : Db}
    (h : (Streams.mk db [] []).play srv a ttl xs = some s) :
    (∀ pre cid t, pre ++ [.close cid] <+: xs → (Streams.mk db [] []).play srv a ttl pre = some t →
      t.HasSuccessor cid → ¬ t.CloseDeletes srv a cid) ↔
    ∀ pre cid t, pre ++ [.close cid] <+: xs → (Streams.mk db [] []).play srv a ttl pre = some t →
      t.HasSuccessor cid → lastTouch pre ≠ some cid := by
  refine forall₃_congr fun pre cid t => forall₃_congr fun hp ht _ => ?_
  rw [close_deletes_iff srv httl ht (live_of_close srv h hp ht)]

end

/-- `A` opens, `B` opens, `A` pings and closes: the record is gone, `B` is open. -/
theorem old_ping_then_close :
    ∃ t, (Streams.mk (.empty 5000) [] []).play Server.plain (lit "u/h/r/p/s") 60
        [.open (lit "A"), .open (lit "B"), .ping (lit "A")] = some t ∧
      t.HasSuccessor (lit "A") ∧ t.CloseDeletes Server.plain (lit "u/h/r/p/s") (lit "A") :=
  ⟨_, rfl, ⟨lit "B", by decide, by decide⟩, nofun, rfl⟩

/-- `A` opens, `B` opens, `A` closes. -/
theorem close_spares_successor_iff_inTurn :
    let xs : List StreamStep := [.open (lit "A"), .open (lit "B"), .close (lit "A")]
    (∀ pre cid t, pre ++ [.close cid] <+: xs →
      (Streams.mk (.empty 5000) [] []).play Server.plain (lit "u/h/r/p/s") 60 pre = some t →
      t.HasSuccessor cid → ¬ t.CloseDeletes Server.plain (lit "u/h/r/p/s") cid) ↔
    ∀ pre cid t, pre ++ [.close cid] <+: xs →
      (Streams.mk (.empty 5000) [] []).play Server.plain (lit "u/h/r/p/s") 60 pre = some t →
      t.HasSuccessor cid → lastTouch pre ≠ some cid := by
  intro xs
  have hplay : ∃ s, (Streams.mk (.empty 5000) [] []).play Server.plain (lit "u/h/r/p/s") 60 xs = some s :=
    ⟨_, rfl⟩
  obtain ⟨s, hs⟩ := hplay
  exact close_spares_successor_iff Server.plain (by decide) hs

end Muster
