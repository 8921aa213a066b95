import Muster.Lib.Json
import Muster.Lib.Keyspace
import Muster.Lib.Prog
import Muster.Identity

/-!
# The store on Valkey: keys, values, commands (`store.py`)

`Key` is the namespace `muster2:`; `Key.name` is the key string, and
`Key.name_injective` says that no two keys of any two families share one, so a
keyspace over `Key` is a keyspace over key strings.  The JSON and decimal fields
of the hashes are kept as the values they encode, and so are the two stamps of a
message.

`Cmd` is everything `store.py` and `reaper.py` send, one constructor for each
command or MULTI block: what is executed in one go.  `exec` is the server.
`MAXLEN ~` evicts nothing by itself here: eviction of any number of old entries
is the environment's step `Env.evict`, at any time.
-/

namespace Muster

/-! ## Keys -/

inductive RateKind where
  | chat
  | announce
  deriving DecidableEq

def RateKind.text : RateKind → PyStr
  | .chat => lit "chat"
  | .announce => lit "announce"

inductive Key where
  | agents
  | agent (a : PyStr)
  | presence (a : PyStr)
  | inbox (a : PyStr)
  | cursor (a : PyStr)
  | rate (kind : RateKind) (a : PyStr)
  deriving DecidableEq

/-- The key string (`AGENTS`, `agent_key`, …, `rate_key`). -/
def Key.name : Key → PyStr
  | .agents => lit "muster2:agents"
  | .agent a => lit "muster2:agent:" ++ a
  | .presence a => lit "muster2:presence:" ++ a
  | .inbox a => lit "muster2:inbox:" ++ a
  | .cursor a => lit "muster2:cursor:" ++ a
  | .rate kind a => lit "muster2:rate:" ++ (kind.text ++ (lit ":" ++ a))

/-- **Key families are disjoint and injective**, for arbitrary address strings. -/
theorem Key.name_injective : Function.Injective Key.name := by
  intro k k' h
  cases k with
  | rate kind a =>
    cases k' with
    | rate kind' b => cases kind <;> cases kind' <;> simp_all [Key.name, RateKind.text, lit]
    | _ => cases kind <;> simp [Key.name, RateKind.text, lit] at h
  | _ =>
    cases k' with
    | rate kind b => cases kind <;> simp [Key.name, RateKind.text, lit] at h
    | _ => simp_all [Key.name, lit]

def notifyChannel (a : PyStr) : PyStr := lit "muster2:notify:" ++ a

/-! ## Values -/

/-- `ms-seq`, ordered by `ms`, then `seq`. -/
abbrev StreamId := ℕ ×ₗ ℕ

/-- What the server is free to choose: the id XADD gives for `*`, above the last
one, and the order in which SMEMBERS lists a set. -/
structure Server where
  nextId : (now : Nat) → (last : StreamId) → StreamId
  lt_nextId : ∀ now last, last < nextId now last
  members : Finset PyStr → List PyStr
  coe_members : ∀ s, (members s : Multiset PyStr) = s.val

theorem Server.mem_members (srv : Server) {S : Finset PyStr} {a : PyStr} :
    a ∈ srv.members S ↔ a ∈ S := by
  rw [← Multiset.mem_coe, srv.coe_members]
  exact Iff.rfl

/-- The clock's id unless it has been passed; a sorted set. -/
def Server.plain : Server where
  nextId now last := if (ofLex last).1 < now then toLex (now, 0)
    else toLex ((ofLex last).1, (ofLex last).2 + 1)
  lt_nextId now last := by
    split
    · next h => exact Prod.Lex.toLex_lt_toLex.2 (.inl h)
    · exact Prod.Lex.toLex_lt_toLex.2 (.inr ⟨rfl, Nat.lt_succ_self _⟩)
  members s := Quot.liftOn s.val (List.insertionSort (· ≤ ·)) fun l l' h =>
    (((List.perm_insertionSort _ l).trans h).trans
      (List.perm_insertionSort _ l').symm).eq_of_pairwise' (List.pairwise_insertionSort _ _)
        (List.pairwise_insertionSort _ _)
  coe_members s := by
    rcases s with ⟨⟨l⟩, _⟩
    exact Quot.sound (List.perm_insertionSort _ l)

/-- The fields of a message as the sender's operation gives them. -/
abbrev Fields := List (String × PyStr)

/-- `f.get(name, default)`. -/
def Fields.get (f : Fields) (name : String) (default : PyStr) : PyStr :=
  (f.lookup name).getD default

/-- An inbox entry; `ts` and `expires_at` are stamped by `append_message`. -/
structure Entry where
  id : StreamId
  fields : Fields
  ts : Int
  expiresAt : Int
  deriving DecidableEq

/-- A stream: its entries in order of id, none above the last id handed out. -/
structure Stream where
  entries : List Entry
  last : StreamId
  sorted : entries.Pairwise fun a b => a.id < b.id
  le_last : ∀ e ∈ entries, e.id ≤ last

structure AgentHash where
  user : PyStr
  host : PyStr
  runtime : PyStr
  project : PyStr
  session : PyStr
  groups : List Member
  metadata : Json
  lastConnect : Int

structure PresenceHash where
  connectionId : PyStr
  connectedAt : Int
  deriving DecidableEq

@[reducible] def Key.Val : Key → Type
  | .agents => Finset PyStr
  | .agent _ => AgentHash
  | .presence _ => PresenceHash
  | .inbox _ => Stream
  | .cursor _ => StreamId
  | .rate _ _ => Nat

namespace Stream

def empty : Stream := ⟨[], toLex (0, 0), .nil, by simp⟩

/-- XADD. -/
def add (srv : Server) (now : Nat) (fields : Fields) (ts expiresAt : Int) (s : Stream) : Stream where
  entries := s.entries ++ [⟨srv.nextId now s.last, fields, ts, expiresAt⟩]
  last := srv.nextId now s.last
  sorted := by
    rw [List.pairwise_append]
    refine ⟨s.sorted, List.pairwise_singleton _ _, ?_⟩
    intro a ha b hb
    rw [List.mem_singleton.1 hb]
    exact lt_of_le_of_lt (s.le_last a ha) (srv.lt_nextId _ _)
  le_last := by
    intro e he
    rcases List.mem_append.1 he with he | he
    · exact (s.le_last e he).trans (srv.lt_nextId _ _).le
    · rw [List.mem_singleton.1 he]

/-- Above `after`; without it every id is. -/
def past (after : Option StreamId) (id : StreamId) : Bool :=
  match after with
  | none => true
  | some c => decide (c < id)

/-- XRANGE from `after` (exclusive; `-` without it) to `+`, at most `count`. -/
def range (s : Stream) (after : Option StreamId) (count : Nat) : List Entry :=
  (s.entries.filter fun e => past after e.id).take count

/-- The oldest `n` entries evicted. -/
def evict (n : Nat) (s : Stream) : Stream where
  entries := s.entries.drop n
  last := s.last
  sorted := s.sorted.sublist (List.drop_sublist _ _)
  le_last e he := s.le_last e (List.mem_of_mem_drop he)

theorem mem_add {srv : Server} {now : Nat} {fields : Fields} {ts expiresAt : Int} {s : Stream}
    {e : Entry} : e ∈ (s.add srv now fields ts expiresAt).entries ↔
      e ∈ s.entries ∨ e = ⟨srv.nextId now s.last, fields, ts, expiresAt⟩ := by
  simp [add]

theorem mem_of_mem_range {s : Stream} {after : Option StreamId} {count : Nat} {e : Entry}
    (h : e ∈ s.range after count) : e ∈ s.entries ∧ past after e.id = true :=
  List.mem_filter.1 (List.mem_of_mem_take h)

theorem range_sorted (s : Stream) (after : Option StreamId) (count : Nat) :
    (s.range after count).Pairwise fun a b => a.id < b.id :=
  (s.sorted.filter _).sublist (List.take_sublist _ _)

theorem le_getLast {es : List Entry} {last e : Entry} (hs : es.Pairwise fun a b => a.id < b.id)
    (hl : es.getLast? = some last) (he : e ∈ es) : e.id ≤ last.id := by
  obtain ⟨init, rfl⟩ := List.getLast?_eq_some_iff.1 hl
  rcases List.mem_append.1 he with he | he
  · exact ((List.pairwise_append.1 hs).2.2 e he last (by simp)).le
  · rw [List.mem_singleton.1 he]

/-- **A page has no gap**: up to its last entry it has everything past `after`. -/
theorem mem_range_of_le_last {s : Stream} {after : Option StreamId} {count : Nat} {e last : Entry}
    (hlast : (s.range after count).getLast? = some last) (he : e ∈ s.entries)
    (hpast : past after e.id = true) (hle : e.id ≤ last.id) : e ∈ s.range after count := by
  have hf : e ∈ s.entries.filter fun e => past after e.id := List.mem_filter.2 ⟨he, hpast⟩
  have hs : (s.entries.filter fun e => past after e.id).Pairwise fun a b => a.id < b.id :=
    s.sorted.filter _
  rw [← List.take_append_drop count (s.entries.filter _)] at hf hs
  rcases List.mem_append.1 hf with hf | hf
  · exact hf
  · have := (List.pairwise_append.1 hs).2.2 last (List.mem_of_getLast? hlast) e hf
    exact absurd hle (not_le_of_gt this)

end Stream

/-- The server: its clock (milliseconds), its keys, and every event published so
far with its channel, oldest first. -/
structure Db where
  now : Nat
  keys : Keyspace Key Key.Val
  pubs : List (PyStr × Json)

namespace Db

/-- A server nobody has used. -/
def empty (now : Nat) : Db := ⟨now, fun _ => none, []⟩

variable (s : Db)

/-- `int(time.time())`. -/
def sec : Int := (s.now / 1000 : Nat)

def members : Finset PyStr := (s.keys.get s.now .agents).getD ∅

def agent (a : PyStr) : Option AgentHash := s.keys.get s.now (.agent a)

def presence (a : PyStr) : Option PresenceHash := s.keys.get s.now (.presence a)

def online (a : PyStr) : Bool := s.keys.has s.now (.presence a)

def stream (a : PyStr) : Stream := (s.keys.get s.now (.inbox a)).getD .empty

def inbox (a : PyStr) : List Entry := (s.stream a).entries

def cursor (a : PyStr) : Option StreamId := s.keys.get s.now (.cursor a)

end Db

/-! ## Commands -/

inductive Cmd where
  /-- `time.time()`, in milliseconds -/
  | time
  | smembers
  | srem (a : PyStr)
  /-- MULTI: SADD, HSET, EXPIRE -/
  | register (a : PyStr) (h : AgentHash) (retention : Int)
  | hgetall (a : PyStr)
  /-- MULTI: HSET, EXPIRE -/
  | touch (a : PyStr) (p : PresenceHash) (ttl : Int)
  /-- EVAL of `_CLEAR_IF_OWNER` -/
  | clearIfOwner (a connectionId : PyStr)
  | exists (k : Key)
  | del (ks : List Key)
  | get (a : PyStr)
  | set (a : PyStr) (id : StreamId)
  | xrange (a : PyStr) (after : Option StreamId) (count : Nat)
  | xadd (a : PyStr) (fields : Fields) (ts expiresAt : Int) (maxlen : Nat)
  | publish (a : PyStr) (event : Json)
  /-- MULTI: INCR, EXPIRE NX -/
  | incr (kind : RateKind) (a : PyStr) (window : Int)
  | ttl (k : Key)
  | expire (k : Key) (secs : Int)

@[reducible] def Cmd.Reply : Cmd → Type
  | .time => Nat
  | .smembers => List PyStr
  | .srem _ => Unit
  | .register _ _ _ => Unit
  | .hgetall _ => Option AgentHash
  | .touch _ _ _ => Unit
  | .clearIfOwner _ _ => Nat
  | .exists _ => Bool
  | .del _ => Unit
  | .get _ => Option StreamId
  | .set _ _ => Unit
  | .xrange _ _ _ => List Entry
  | .xadd _ _ _ _ _ => StreamId
  | .publish _ _ => Unit
  | .incr _ _ _ => Nat
  | .ttl _ => Int
  | .expire _ _ => Unit

/-- The server executes one command. -/
def exec (srv : Server) : (c : Cmd) → Db → Db × c.Reply
  | .time, s => (s, s.now)
  | .smembers, s => (s, srv.members s.members)
  | .srem a, s => ({ s with keys := s.keys.edit s.now .agents fun v => (v.getD ∅).erase a }, ())
  | .register a h retention, s =>
    let ks := s.keys.edit s.now .agents fun v => insert a (v.getD ∅)
    let ks := ks.edit s.now (.agent a) fun _ => h
    ({ s with keys := ks.expire s.now (.agent a) retention }, ())
  | .hgetall a, s => (s, s.agent a)
  | .touch a p ttl, s =>
    let ks := s.keys.edit s.now (.presence a) fun _ => p
    ({ s with keys := ks.expire s.now (.presence a) ttl }, ())
  | .clearIfOwner a cid, s =>
    if (s.presence a).map (·.connectionId) = some cid then
      ({ s with keys := s.keys.del (.presence a) }, 1)
    else (s, 0)
  | .exists k, s => (s, s.keys.has s.now k)
  | .del ks, s => ({ s with keys := ks.foldl Keyspace.del s.keys }, ())
  | .get a, s => (s, s.cursor a)
  | .set a id, s => ({ s with keys := s.keys.put (.cursor a) id }, ())
  | .xrange a after count, s => (s, (s.stream a).range after count)
  | .xadd a fields ts expiresAt _, s =>
    ({ s with keys := s.keys.edit s.now (.inbox a) fun v =>
        (v.getD .empty).add srv s.now fields ts expiresAt },
      srv.nextId s.now (s.stream a).last)
  | .publish a event, s => ({ s with pubs := s.pubs ++ [(notifyChannel a, event)] }, ())
  | .incr kind a window, s =>
    let ks := s.keys.edit s.now (.rate kind a) fun v => v.getD 0 + 1
    ({ s with keys := ks.expireNx s.now (.rate kind a) window },
      (s.keys.get s.now (.rate kind a)).getD 0 + 1)
  | .ttl k, s => (s, s.keys.ttl s.now k)
  | .expire k secs, s => ({ s with keys := s.keys.expire s.now k secs }, ())

/-- What happens on the server without a command. -/
inductive Env where
  /-- the clock moves on by `d` milliseconds -/
  | tick (d : Nat)
  /-- `MAXLEN ~` evicts the oldest `n` entries of an inbox -/
  | evict (a : PyStr) (n : Nat)

def Env.apply : Env → Db → Db
  | .tick d, s => { s with now := s.now + d }
  | .evict a n, s =>
    { s with keys := fun k => match k with
        | .inbox b => if b = a then (s.keys (.inbox b)).map fun v => ⟨v.val.evict n, v.deadline⟩
          else s.keys (.inbox b)
        | k => s.keys k }

/-! ## What a command writes -/

def Cmd.reads : Cmd → List Key
  | .smembers => [.agents]
  | .hgetall a => [.agent a]
  | .exists k => [k]
  | .get a => [.cursor a]
  | .xrange a _ _ => [.inbox a]
  | .ttl k => [k]
  | _ => []

def Cmd.writes : Cmd → List Key
  | .srem _ => [.agents]
  | .register a _ _ => [.agents, .agent a]
  | .touch a _ _ => [.presence a]
  | .clearIfOwner a _ => [.presence a]
  | .del ks => ks
  | .set a _ => [.cursor a]
  | .xadd a _ _ _ _ => [.inbox a]
  | .incr kind a _ => [.rate kind a]
  | .expire k _ => [k]
  | _ => []

theorem foldl_del_other {ks : Keyspace Key Key.Val} {l : List Key} {k : Key} (h : k ∉ l) :
    l.foldl Keyspace.del ks k = ks k := by
  induction l generalizing ks with
  | nil => rfl
  | cons k' l ih =>
    rw [List.mem_cons, not_or] at h
    rw [List.foldl_cons, ih h.2, Keyspace.del_other h.1]

theorem foldl_del_of_mem {ks : Keyspace Key Key.Val} {l : List Key} {k : Key} (h : k ∈ l) :
    l.foldl Keyspace.del ks k = none := by
  induction l generalizing ks with
  | nil => cases h
  | cons k' l ih =>
    rw [List.foldl_cons]
    by_cases hk : k ∈ l
    · exact ih hk
    · have : k = k' := (List.mem_cons.1 h).resolve_right hk
      rw [foldl_del_other hk, this, Keyspace.del_same]

section
variable (srv : Server) (c : Cmd) (s : Db)

/-- **Frame.**  A command changes no key outside `writes`. -/
theorem exec_other {k : Key} (h : k ∉ c.writes) : (exec srv c s).1.keys k = s.keys k := by
  cases c with
  | srem a =>
    have h' : k ≠ .agents := by simpa [Cmd.writes] using h
    simp only [exec]
    rw [Keyspace.edit_other _ h']
  | register a v retention =>
    simp only [Cmd.writes, List.mem_cons, List.not_mem_nil, or_false, not_or] at h
    simp only [exec]
    rw [Keyspace.expire_other _ h.2, Keyspace.edit_other _ h.2, Keyspace.edit_other _ h.1]
  | touch a p ttl =>
    have h' : k ≠ .presence a := by simpa [Cmd.writes] using h
    simp only [exec]
    rw [Keyspace.expire_other _ h', Keyspace.edit_other _ h']
  | clearIfOwner a cid =>
    simp only [exec]
    split
    · exact Keyspace.del_other (by simpa [Cmd.writes] using h)
    · rfl
  | del ks => exact foldl_del_other h
  | set a id => exact Keyspace.put_other _ (by simpa [Cmd.writes] using h)
  | xadd a fields ts expiresAt maxlen =>
    have h' : k ≠ .inbox a := by simpa [Cmd.writes] using h
    simp only [exec]
    rw [Keyspace.edit_other _ h']
  | incr kind a window =>
    have h' : k ≠ .rate kind a := by simpa [Cmd.writes] using h
    simp only [exec]
    rw [Keyspace.expireNx_other _ h', Keyspace.edit_other _ h']
  | expire k' secs => exact Keyspace.expire_other _ (by simpa [Cmd.writes] using h)
  | _ => rfl

@[simp] theorem exec_now : (exec srv c s).1.now = s.now := by
  cases c with
  | clearIfOwner a cid => simp only [exec]; split <;> rfl
  | _ => rfl

theorem exec_get_other {k : Key} (h : k ∉ c.writes) :
    (exec srv c s).1.keys.get (exec srv c s).1.now k = s.keys.get s.now k := by
  rw [exec_now]
  exact Keyspace.get_congr (exec_other srv c s h)

end

/-! ## Keys without a deadline -/

/-- The key does not expire. -/
def Db.Permanent (s : Db) (k : Key) : Prop := ∀ v, s.keys k = some v → v.deadline = none

theorem Db.Permanent.get {s : Db} {k : Key} (h : s.Permanent k) :
    s.keys.get s.now k = (s.keys k).map (·.val) := by
  unfold Keyspace.get Keyspace.look
  cases hk : s.keys k with
  | none => rfl
  | some v => simp [Slot.live, h v hk]

theorem Db.Permanent.look {s : Db} {k : Key} (h : s.Permanent k) :
    s.keys.look s.now k = s.keys k := by
  unfold Keyspace.look
  cases hk : s.keys k with
  | none => rfl
  | some v => simp [Slot.live, h v hk]

/-- Keys of the families that no MULTI block expires. -/
def Key.lasting : Key → Bool
  | .agents => true
  | .inbox _ => true
  | .cursor _ => true
  | _ => false

/-- Only EXPIRE itself could give a lasting key a deadline. -/
theorem Db.Permanent.exec {s : Db} {k : Key} (h : s.Permanent k) (hk : k.lasting = true)
    (srv : Server) {c : Cmd} (hc : ∀ secs, c ≠ .expire k secs) :
    (exec srv c s).1.Permanent k := by
  have hd : (s.keys.look s.now k).bind (·.deadline) = none := by
    rw [h.look]
    cases hv : s.keys k with
    | none => rfl
    | some v => exact h v hv
  by_cases hw : k ∈ c.writes
  · intro v hv
    cases c with
    | srem a =>
      obtain rfl : k = .agents := by simpa [Cmd.writes] using hw
      simp only [Muster.exec, Keyspace.edit_same, Option.some.injEq] at hv
      rw [← hv]
      exact hd
    | register a w retention =>
      have hne : k ≠ .agent a := by rintro rfl; cases hk
      obtain rfl : k = .agents := by simpa [Cmd.writes, hne] using hw
      simp only [Muster.exec] at hv
      rw [Keyspace.expire_other _ hne, Keyspace.edit_other _ hne, Keyspace.edit_same] at hv
      rw [← Option.some.inj hv]
      exact hd
    | del ks =>
      have hn : (ks.foldl Keyspace.del s.keys) k = none := foldl_del_of_mem hw
      exact absurd hv (by simp [Muster.exec, hn])
    | set a id =>
      obtain rfl : k = .cursor a := by simpa [Cmd.writes] using hw
      simp only [Muster.exec, Keyspace.put_same, Option.some.injEq] at hv
      rw [← hv]
    | xadd a fields ts expiresAt maxlen =>
      obtain rfl : k = .inbox a := by simpa [Cmd.writes] using hw
      simp only [Muster.exec, Keyspace.edit_same, Option.some.injEq] at hv
      rw [← hv]
      exact hd
    | expire k' secs => exact absurd (List.mem_singleton.1 hw).symm fun e => hc secs (e ▸ rfl)
    | touch a p ttl => rw [List.mem_singleton.1 hw] at hk; cases hk
    | clearIfOwner a cid => rw [List.mem_singleton.1 hw] at hk; cases hk
    | incr kind a window => rw [List.mem_singleton.1 hw] at hk; cases hk
    | _ => cases hw
  · intro v hv
    rw [exec_other srv c s hw] at hv
    exact h v hv

theorem Db.Permanent.env {s : Db} {k : Key} (h : s.Permanent k) (e : Env) :
    (e.apply s).Permanent k := by
  cases e with
  | tick d => exact h
  | evict a n =>
    intro v hv
    cases k with
    | inbox b =>
      by_cases hb : b = a
      · subst hb
        simp only [Env.apply, if_true, Option.map_eq_some_iff] at hv
        obtain ⟨w, hw, rfl⟩ := hv
        exact h w hw
      · simp only [Env.apply, hb, if_false] at hv
        exact h v hv
    | _ => exact h v hv

/-! ## Inbox and cursor after a command -/

section
variable (srv : Server) {c : Cmd} {s : Db} {a : PyStr}

theorem stream_exec_other (h : .inbox a ∉ c.writes) : (exec srv c s).1.stream a = s.stream a := by
  unfold Db.stream
  rw [exec_get_other srv c s h]

theorem stream_exec_xadd (fields : Fields) (ts expiresAt : Int) (maxlen : Nat) :
    (exec srv (.xadd a fields ts expiresAt maxlen) s).1.stream a =
      (s.stream a).add srv s.now fields ts expiresAt := by
  simp [exec, Db.stream]

theorem cursor_exec_other (h : .cursor a ∉ c.writes) : (exec srv c s).1.cursor a = s.cursor a :=
  exec_get_other srv c s h

@[simp] theorem cursor_exec_set (id : StreamId) :
    (exec srv (.set a id) s).1.cursor a = some id := by
  simp [exec, Db.cursor]

end

/-! ## Directory after a command -/

section
variable (srv : Server) {c : Cmd} {s : Db} {a : PyStr}

theorem members_exec_other (h : .agents ∉ c.writes) : (exec srv c s).1.members = s.members := by
  unfold Db.members
  rw [exec_get_other srv c s h]

theorem members_exec_srem : (exec srv (.srem a) s).1.members = s.members.erase a := by
  simp [exec, Db.members]

theorem members_exec_register (h : AgentHash) (retention : Int) :
    (exec srv (.register a h retention) s).1.members = insert a s.members := by
  simp only [exec, Db.members]
  rw [Keyspace.get_congr (Keyspace.expire_other _ (by simp)),
    Keyspace.get_congr (Keyspace.edit_other _ (by simp)), Keyspace.get_edit_same, Option.getD_some]

theorem agent_exec_other (h : .agent a ∉ c.writes) : (exec srv c s).1.agent a = s.agent a :=
  exec_get_other srv c s h

end

section
variable (srv : Server) {s : Db} {a : PyStr}

/-- A touch with a period in the future makes the toucher the owner. -/
theorem presence_exec_touch (p : PresenceHash) {ttl : Int} (h : 0 < ttl) :
    (exec srv (.touch a p ttl) s).1.presence a = some p := by
  have hn : ¬ ttl ≤ 0 := by omega
  simp [exec, Db.presence, Keyspace.get, Keyspace.look_expire_same, hn]

/-- Only the owner's clear deletes the record. -/
theorem presence_exec_clear (cid : PyStr) :
    (exec srv (.clearIfOwner a cid) s).1.presence a =
      if (s.presence a).map (·.connectionId) = some cid then none else s.presence a := by
  simp only [exec]
  split
  · exact Keyspace.get_del_same
  · rfl

end

/-- An identity hash that exists existed before: the environment creates none. -/
theorem agent_env {s : Db} {e : Env} {a : PyStr} {h : AgentHash}
    (he : (e.apply s).agent a = some h) : s.agent a = some h := by
  cases e with
  | tick d =>
    obtain ⟨v, hv⟩ := Keyspace.get_eq_some_iff.1 he
    exact Keyspace.get_eq_some_iff.2 ⟨v, Keyspace.look_of_le (Nat.le_add_right _ _) hv⟩
  | evict b n => exact he

theorem members_env {s : Db} (h : s.Permanent .agents) (e : Env) :
    (e.apply s).members = s.members := by
  simp only [Db.members, (h.env e).get, h.get]
  cases e <;> rfl

theorem stream_tick {s : Db} {a : PyStr} (h : s.Permanent (.inbox a)) (d : Nat) :
    ((Env.tick d).apply s).stream a = s.stream a := by
  simp only [Db.stream, (h.env (.tick d)).get, h.get]
  rfl

theorem stream_evict {s : Db} {a : PyStr} (h : s.Permanent (.inbox a)) (b : PyStr) (n : Nat) :
    ((Env.evict b n).apply s).stream a = if a = b then (s.stream a).evict n else s.stream a := by
  have hempty : Stream.empty = Stream.empty.evict n := by simp [Stream.evict, Stream.empty]
  simp only [Db.stream, (h.env (.evict b n)).get, h.get]
  by_cases hb : a = b
  · subst hb
    cases hk : s.keys (.inbox a) with
    | none => simpa [Env.apply, hk] using hempty
    | some v => simp [Env.apply, hk]
  · simp [Env.apply, hb]

/-- The environment only takes entries away, and never hands out an id. -/
theorem stream_env {s : Db} {a : PyStr} (h : s.Permanent (.inbox a)) (e : Env) :
    ((e.apply s).stream a).last = (s.stream a).last ∧
      ∀ x ∈ (e.apply s).inbox a, x ∈ s.inbox a := by
  unfold Db.inbox
  cases e with
  | tick d =>
    rw [stream_tick h]
    exact ⟨rfl, fun _ hx => hx⟩
  | evict b n =>
    rw [stream_evict h]
    split
    · exact ⟨rfl, fun _ hx => List.mem_of_mem_drop hx⟩
    · exact ⟨rfl, fun _ hx => hx⟩

theorem cursor_env {s : Db} {a : PyStr} (h : s.Permanent (.cursor a)) (e : Env) :
    (e.apply s).cursor a = s.cursor a := by
  simp only [Db.cursor, (h.env e).get, h.get]
  cases e <;> rfl

end Muster
