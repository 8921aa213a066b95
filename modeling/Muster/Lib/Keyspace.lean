import Mathlib.Data.Set.Function

/-!
# A keyspace with expiry

A key holds a value and possibly a deadline (milliseconds); past its deadline it
is absent, whether or not the server has dropped it.  The type of the value
depends on the key, so a command meant for another type cannot be issued.

`look` is what any read sees.  Writes come in three kinds: `put` sets a value
and drops the deadline (SET), `edit` changes the value and keeps the deadline
(HSET, XADD, INCR, SADD), `expire` sets the deadline (EXPIRE, which deletes the
key for a period that is not positive).
-/

namespace Muster

/-- A stored value and when it expires. -/
structure Slot (α : Type) where
  val : α
  deadline : Option Nat
  deriving DecidableEq

namespace Slot

variable {α : Type}

def live (now : Nat) (s : Slot α) : Bool :=
  match s.deadline with
  | none => true
  | some d => decide (now < d)

theorem live_of_le {now now' : Nat} {s : Slot α} (h : now ≤ now') (hl : s.live now' = true) :
    s.live now = true := by
  unfold live at *
  cases hd : s.deadline with
  | none => rfl
  | some d =>
    rw [hd] at hl
    have := of_decide_eq_true hl
    exact decide_eq_true (by omega)

end Slot

abbrev Keyspace (κ : Type) (V : κ → Type) := (k : κ) → Option (Slot (V k))

namespace Keyspace

variable {κ : Type} {V : κ → Type}

section reads
variable (ks : Keyspace κ V) (now : Nat) (k : κ)

def look : Option (Slot (V k)) := (ks k).filter (·.live now)

/-- GET, HGETALL, SMEMBERS: the value, if the key exists. -/
def get : Option (V k) := (ks.look now k).map (·.val)

/-- EXISTS. -/
def has : Bool := (ks.look now k).isSome

/-- TTL: -2 without the key, -1 without a deadline, else the nearest second. -/
def ttl : Int :=
  match ks.look now k with
  | none => -2
  | some ⟨_, none⟩ => -1
  | some ⟨_, some d⟩ => ((d - now + 500) / 1000 : Nat)

end reads

section
variable {ks : Keyspace κ V} {now : Nat} {k : κ}

theorem look_eq_some_iff {s : Slot (V k)} :
    ks.look now k = some s ↔ ks k = some s ∧ s.live now = true := by
  simp [look, Option.filter_eq_some_iff]

theorem look_of_le {now' : Nat} {s : Slot (V k)} (h : now ≤ now')
    (hs : ks.look now' k = some s) : ks.look now k = some s := by
  rw [look_eq_some_iff] at hs ⊢
  exact ⟨hs.1, Slot.live_of_le h hs.2⟩

theorem get_eq_some_iff {v : V k} :
    ks.get now k = some v ↔ ∃ d, ks.look now k = some ⟨v, d⟩ := by
  simp only [get, Option.map_eq_some_iff]
  constructor
  · rintro ⟨⟨w, d⟩, hs, rfl⟩; exact ⟨d, hs⟩
  · rintro ⟨d, hs⟩; exact ⟨_, hs, rfl⟩

theorem get_eq_none_iff : ks.get now k = none ↔ ks.has now k = false := by
  simp [get, has]

theorem has_iff_get : ks.has now k = true ↔ ∃ v, ks.get now k = some v := by
  simp only [has, get, Option.isSome_iff_exists, Option.map_eq_some_iff]
  constructor
  · rintro ⟨s, hs⟩; exact ⟨_, s, hs, rfl⟩
  · rintro ⟨_, s, hs, -⟩; exact ⟨s, hs⟩

/-- What a key reads as depends on nothing but that key. -/
theorem look_congr {ks' : Keyspace κ V} (h : ks k = ks' k) :
    ks.look now k = ks'.look now k := by
  unfold look; rw [h]

theorem get_congr {ks' : Keyspace κ V} (h : ks k = ks' k) :
    ks.get now k = ks'.get now k := by
  unfold get; rw [look_congr h]

theorem get_of_look_eq {ks' : Keyspace κ V} (h : ks.look now k = ks'.look now k) :
    ks.get now k = ks'.get now k := by
  unfold get; rw [h]

theorem live_of_look_deadline (v : V k) :
    (⟨v, (ks.look now k).bind (·.deadline)⟩ : Slot (V k)).live now = true := by
  cases hs : ks.look now k with
  | none => rfl
  | some s =>
    have hl := (look_eq_some_iff.1 hs).2
    unfold Slot.live at hl ⊢
    exact hl

/-- TTL is negative only without the key, or where it has no deadline. -/
theorem ttl_neg_iff : ks.ttl now k < 0 ↔ ∀ s, ks.look now k = some s → s.deadline = none := by
  unfold ttl
  cases ks.look now k with
  | none => simp
  | some s =>
    obtain ⟨v, d⟩ := s
    cases d with
    | none => simp
    | some d =>
      simp only [Option.some.injEq, forall_eq', reduceCtorEq, iff_false]
      omega

end

section writes
variable [DecidableEq κ]

section
variable (ks : Keyspace κ V) (now : Nat)

/-- SET: the value, without a deadline. -/
def put (k : κ) (v : V k) : Keyspace κ V := Function.update ks k (some ⟨v, none⟩)

/-- A write that keeps the deadline of a key that exists. -/
def edit (k : κ) (f : Option (V k) → V k) : Keyspace κ V :=
  Function.update ks k (some ⟨f (ks.get now k), (ks.look now k).bind (·.deadline)⟩)

/-- DEL. -/
def del (k : κ) : Keyspace κ V := Function.update ks k none

/-- EXPIRE: `secs` from now; at once if that is not in the future. -/
def expire (k : κ) (secs : Int) : Keyspace κ V :=
  match ks.look now k with
  | none => ks
  | some s =>
    if secs ≤ 0 then ks.del k
    else Function.update ks k (some ⟨s.val, some (now + secs.toNat * 1000)⟩)

/-- EXPIRE NX: only where there is no deadline yet. -/
def expireNx (k : κ) (secs : Int) : Keyspace κ V :=
  match ks.look now k with
  | some ⟨_, none⟩ => ks.expire now k secs
  | _ => ks

end

/-! ## Reads after writes -/

variable {ks : Keyspace κ V} {now : Nat} {k k' : κ}

@[simp] theorem put_same (v : V k) : ks.put k v k = some ⟨v, none⟩ := Function.update_self ..

theorem put_other (v : V k) (h : k' ≠ k) : ks.put k v k' = ks k' := Function.update_of_ne h ..

@[simp] theorem edit_same (f : Option (V k) → V k) :
    ks.edit now k f k = some ⟨f (ks.get now k), (ks.look now k).bind (·.deadline)⟩ :=
  Function.update_self ..

theorem edit_other (f : Option (V k) → V k) (h : k' ≠ k) : ks.edit now k f k' = ks k' :=
  Function.update_of_ne h ..

@[simp] theorem del_same : ks.del k k = none := Function.update_self ..

theorem del_other (h : k' ≠ k) : ks.del k k' = ks k' := Function.update_of_ne h ..

theorem expire_other (secs : Int) (h : k' ≠ k) : ks.expire now k secs k' = ks k' := by
  unfold expire
  cases ks.look now k with
  | none => rfl
  | some s =>
    by_cases hs : secs ≤ 0
    · simp only [hs, if_true]
      exact del_other h
    · simp only [hs, if_false]
      exact Function.update_of_ne h ..

theorem expireNx_other (secs : Int) (h : k' ≠ k) : ks.expireNx now k secs k' = ks k' := by
  unfold expireNx
  cases ks.look now k with
  | none => rfl
  | some s =>
    cases s with
    | mk v d =>
      cases d with
      | none => exact expire_other secs h
      | some d => rfl

@[simp] theorem get_put_same (v : V k) : (ks.put k v).get now k = some v := by
  simp [get, look, Slot.live]

@[simp] theorem get_del_same : (ks.del k).get now k = none := by
  simp [get, look]

@[simp] theorem look_edit_same (f : Option (V k) → V k) :
    (ks.edit now k f).look now k =
      some ⟨f (ks.get now k), (ks.look now k).bind (·.deadline)⟩ :=
  look_eq_some_iff.2 ⟨edit_same f, live_of_look_deadline _⟩

@[simp] theorem get_edit_same (f : Option (V k) → V k) :
    (ks.edit now k f).get now k = some (f (ks.get now k)) := by
  simp [get]

/-- EXPIRE leaves the value readable for a positive period, and removes it otherwise. -/
theorem look_expire_same (secs : Int) :
    (ks.expire now k secs).look now k =
      if secs ≤ 0 then none
      else (ks.look now k).map fun s => ⟨s.val, some (now + secs.toNat * 1000)⟩ := by
  unfold expire
  cases hs : ks.look now k with
  | none => simp [hs]
  | some s =>
    by_cases h : secs ≤ 0
    · simp [h, look]
    · have : now < now + secs.toNat * 1000 := by omega
      simp [h, look, Slot.live, this]

/-- A write followed by EXPIRE, as the MULTI blocks have it. -/
theorem expire_edit_same (f : Option (V k) → V k) (secs : Int) :
    (ks.edit now k f).expire now k secs k =
      if secs ≤ 0 then none else some ⟨f (ks.get now k), some (now + secs.toNat * 1000)⟩ := by
  unfold expire
  rw [look_edit_same]
  by_cases h : secs ≤ 0
  · simp [h]
  · simp [h]

theorem expire_of_look_none {secs : Int} (h : ks.look now k = none) : ks.expire now k secs = ks := by
  unfold expire
  rw [h]

/-- After EXPIRE NX a key that exists has a deadline: the one it had, or the new one. -/
theorem look_expireNx_same (secs : Int) :
    (ks.expireNx now k secs).look now k =
      (ks.look now k).bind fun s => match s.deadline with
        | some d => some ⟨s.val, some d⟩
        | none => if secs ≤ 0 then none else some ⟨s.val, some (now + secs.toNat * 1000)⟩ := by
  unfold expireNx
  cases hs : ks.look now k with
  | none => simp [hs]
  | some s =>
    obtain ⟨v, d⟩ := s
    cases d with
    | none =>
      dsimp only
      rw [look_expire_same, hs]
      rfl
    | some d => simp [hs]

/-- A write with EXPIRE NX, as a MULTI block has it. -/
theorem expireNx_edit_same (f : Option (V k) → V k) {secs : Int} (h : 0 < secs) :
    (ks.edit now k f).expireNx now k secs k = some ⟨f (ks.get now k),
      some (((ks.look now k).bind (·.deadline)).getD (now + secs.toNat * 1000))⟩ := by
  have hpos : ¬ secs ≤ 0 := by omega
  unfold expireNx
  rw [look_edit_same]
  cases hd : (ks.look now k).bind (·.deadline) with
  | none =>
    show (ks.edit now k f).expire now k secs k = _
    rw [expire_edit_same, if_neg hpos]
    rfl
  | some d =>
    show ks.edit now k f k = _
    rw [edit_same, hd]
    rfl

/-! ## Writes to two keyspaces -/

section
variable {ks' : Keyspace κ V} (h : ks.look now k = ks'.look now k)
include h

theorem look_edit_of_look_eq (f : Option (V k) → V k) :
    (ks.edit now k f).look now k = (ks'.edit now k f).look now k := by
  rw [look_edit_same, look_edit_same, get_of_look_eq h, h]

theorem look_expire_of_look_eq (secs : Int) :
    (ks.expire now k secs).look now k = (ks'.expire now k secs).look now k := by
  rw [look_expire_same, look_expire_same, h]

theorem look_expireNx_of_look_eq (secs : Int) :
    (ks.expireNx now k secs).look now k = (ks'.expireNx now k secs).look now k := by
  have hexpire := look_expire_of_look_eq h secs
  unfold expireNx
  rw [← h]
  split
  · exact hexpire
  · exact h

end

end writes

end Keyspace

end Muster
