import Muster.Traffic

/-!
# The API (`app.py`)

What a client can make the server do.  Every request carries the identity its key
resolves to and the `x-muster-agent` header, and acts under the address the two
give (`caller`); a stream opens, pings and closes under the address it was opened
with.  `api` is the pool of all requests, and of the reaper, on one server.
-/

namespace Muster

inductive Request where
  | rpc (ident : Identity Member) (header op : PyStr) (args : Args)
  | streamOpen (ident : Identity Member) (header connectionId : PyStr) (metadata : Json)
  /-- `groups2` is what the key resolves to at the ping -/
  | streamPing (ident : Identity Member) (header connectionId : PyStr) (metadata : Json)
    (groups2 : List Member)
  | streamClose (ident : Identity Member) (header connectionId : PyStr)
  | reap

/-- The identity and the header of a request. -/
def Request.headers : Request → Option (Identity Member × PyStr)
  | .rpc ident header _ _ => some (ident, header)
  | .streamOpen ident header _ _ => some (ident, header)
  | .streamPing ident header _ _ _ => some (ident, header)
  | .streamClose ident header _ => some (ident, header)
  | .reap => none

/-- The address is stamped from the resolved identity. -/
def caller (ident : Identity Member) (header : PyStr) : M Address :=
  match parseAgentHeader ident.userId header with
  | .error e => .throw (.addressError e)
  | .ok addr => pure addr

def Request.body [Python] (cfg : Config) : Request → M Unit
  | .rpc ident header op args => (fun _ => ()) <$> Muster.rpc cfg ident header op args
  | .streamOpen ident header connectionId metadata => do
    let addr ← caller ident header
    let _ ← Muster.streamOpen cfg addr connectionId metadata ident.groups
  | .streamPing ident header connectionId metadata groups2 => do
    let addr ← caller ident header
    Muster.streamPing cfg addr connectionId metadata ident.groups groups2
  | .streamClose ident header connectionId => do
    let addr ← caller ident header
    let _ ← Muster.streamClose addr connectionId
  | .reap => (fun _ => ()) <$> reapOnce

def api [Python] (cfg : Config) (srv : Server) : Pool Cmd Cmd.Reply PyExn Unit Request Db Env where
  exec := exec srv
  env := Env.apply
  body := Request.body cfg

/-! ## What a request sends -/

/-- A stream's legs: its own record, presence, cursor and inbox. -/
inductive StreamSends (a : PyStr) : Cmd → Prop
  | time : StreamSends a .time
  | register (h : AgentHash) (retention : Int) : StreamSends a (.register a h retention)
  | touch (p : PresenceHash) (ttl : Int) : StreamSends a (.touch a p ttl)
  | get : StreamSends a (.get a)
  | xrange (after : Option StreamId) (n : Nat) : StreamSends a (.xrange a after n)
  | clearIfOwner (connectionId : PyStr) : StreamSends a (.clearIfOwner a connectionId)

/-- What each request sends, after which replies. -/
def Request.Sends (cfg : Config) : Request → Log → Cmd → Prop
  | .rpc ident header op _, l, c => ∃ sender, parseAgentHeader ident.userId header = .ok sender ∧
    DispatchSends cfg ident sender op l c
  | .streamOpen ident header _ _, _, c => ∃ sender,
    parseAgentHeader ident.userId header = .ok sender ∧ StreamSends sender.text c
  | .streamPing ident header _ _ _, _, c => ∃ sender,
    parseAgentHeader ident.userId header = .ok sender ∧ StreamSends sender.text c
  | .streamClose ident header _, _, c => ∃ sender,
    parseAgentHeader ident.userId header = .ok sender ∧ StreamSends sender.text c
  | .reap, l, c => ReapSends l c

theorem caller_ensures {α : Type} {Φ : Log → Cmd → Prop} {ident : Identity Member} {header : PyStr}
    {f : Address → M α}
    (hf : ∀ addr, parseAgentHeader ident.userId header = .ok addr →
      (f addr).Ensures Φ (fun _ _ => True) []) :
    (caller ident header >>= f).Ensures Φ (fun _ _ => True) [] := by
  unfold caller
  split
  · trivial
  · next addr h => exact hf addr h

theorem touchPresence_sends (a connectionId : PyStr) (ttl : Int) (l : Log) :
    (touchPresence a connectionId ttl).Ensures (fun _ c => StreamSends a c) (fun _ _ => True) l :=
  ⟨.time, fun _ => ⟨.touch _ _, fun _ => trivial⟩⟩

theorem registerAgent_sends (addr : Address) (groups : List Member) (metadata : Json)
    (retention : Int) (l : Log) : (registerAgent addr groups metadata retention).Ensures
      (fun _ c => StreamSends addr.text c) (fun _ _ => True) l :=
  ⟨.time, fun _ => ⟨.register _ _, fun _ => trivial⟩⟩

theorem unreadCount_sends (a : PyStr) (l : Log) :
    (unreadCount a).Ensures (fun _ c => StreamSends a c) (fun _ _ => True) l :=
  ⟨.get, fun _ => ⟨.xrange _ _, fun _ => ⟨.time, fun _ => trivial⟩⟩⟩

theorem streamOpen_sends (cfg : Config) (addr : Address) (connectionId : PyStr) (metadata : Json)
    (groups : List Member) : (streamOpen cfg addr connectionId metadata groups).Ensures
      (fun _ c => StreamSends addr.text c) (fun _ _ => True) [] :=
  (registerAgent_sends addr groups metadata _ _).bind
    (fun _ _ _ => (touchPresence_sends _ _ _ _).bind (fun _ _ _ => unreadCount_sends _ _)
      fun _ _ _ => trivial)
    fun _ _ _ => trivial

theorem streamPing_sends (cfg : Config) (addr : Address) (connectionId : PyStr) (metadata : Json)
    (groups groups2 : List Member) :
    (streamPing cfg addr connectionId metadata groups groups2).Ensures
      (fun _ c => StreamSends addr.text c) (fun _ _ => True) [] := by
  unfold streamPing
  dsimp only
  split
  · exact (registerAgent_sends addr groups2 metadata _ _).bind
      (fun _ _ _ => touchPresence_sends _ _ _ _) fun _ _ _ => trivial
  · exact touchPresence_sends _ _ _ _

/-- **Every request keeps to what it sends**, whatever the server answers. -/
theorem Request.body_ensures [Python] (cfg : Config) (req : Request) :
    (req.body cfg).Ensures (req.Sends cfg) (fun _ _ => True) [] := by
  cases req with
  | rpc ident header op args =>
    exact (Prog.ensures_map _ _ _).2 (rpc_ensures cfg ident header op args)
  | streamOpen ident header connectionId metadata =>
    refine caller_ensures ?_
    intro addr ha
    exact ((streamOpen_sends cfg addr connectionId metadata ident.groups).mono
      (fun _ _ h => ⟨addr, ha, h⟩) fun _ _ => id).bind (fun _ _ _ => trivial) fun _ _ _ => trivial
  | streamPing ident header connectionId metadata groups2 =>
    refine caller_ensures ?_
    intro addr ha
    exact (streamPing_sends cfg addr connectionId metadata ident.groups groups2).mono
      (fun _ _ h => ⟨addr, ha, h⟩) fun _ _ => id
  | streamClose ident header connectionId =>
    exact caller_ensures fun addr ha => ⟨⟨addr, ha, .clearIfOwner _⟩, fun _ => trivial⟩
  | reap => exact (Prog.ensures_map _ _ _).2 (reapOnce_ensures.mono (fun _ _ => id) fun _ _ => id)

end Muster
