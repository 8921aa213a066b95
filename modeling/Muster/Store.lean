import Muster.Valkey

/-!
# Operations on the store (`store.py`)

Every function of `store.py`, as a program that issues the commands the source
issues, in its order.  A pipeline without MULTI (`list_agents`) is its commands
one by one; a MULTI block is one command.

redis-py refuses on the client, with DataError, an XRANGE with a count below 1
and an XADD with a negative MAXLEN.
-/

namespace Muster

/-- What can come out of a handler besides a result. -/
inductive PyExn where
  | addressError (e : AddressError)
  /-- `OpError` -/
  | opError (status : Nat) (payload : List (PyStr × Json))
  | unicodeEncodeError
  | attributeError
  | typeError
  | valueError
  | overflowError
  | recursionError
  | dataError

/-- Programs of the server against Valkey. -/
abbrev M (α : Type) := Prog Cmd Cmd.Reply PyExn α

abbrev send (c : Cmd) : M c.Reply := Prog.cmd c

def StreamId.text (id : StreamId) : PyStr :=
  PyStr.strNat (ofLex id).1 ++ lit "-" ++ PyStr.strNat (ofLex id).2

inductive Status where
  | online
  | offline
  deriving DecidableEq

def Status.text : Status → PyStr
  | .online => lit "online"
  | .offline => lit "offline"

/-- A row of the directory. -/
structure Row where
  addr : PyStr
  user : PyStr
  host : PyStr
  runtime : PyStr
  project : PyStr
  session : PyStr
  groups : List Member
  metadata : Json
  lastConnect : Int
  status : Status

/-! ## Registry and presence -/

/-- `int(time.time())`. -/
def nowSec : M Int := do
  let now ← send .time
  return (now / 1000 : Nat)

def registerAgent (addr : Address) (groups : List Member) (metadata : Json) (retention : Int) :
    M Unit := do
  let a := addr.text
  let now ← nowSec
  send (.register a
    { user := addr.user, host := addr.host, runtime := addr.runtime, project := addr.project,
      session := addr.session, groups := groups, metadata := metadata.or (.obj []),
      lastConnect := now } retention)

def touchPresence (a connectionId : PyStr) (ttl : Int) : M Unit := do
  let now ← nowSec
  send (.touch a { connectionId := connectionId, connectedAt := now } ttl)

/-- Connection race protection: delete presence iff still the owner. -/
def clearPresence (a connectionId : PyStr) : M Nat := send (.clearIfOwner a connectionId)

def Row.of (a : PyStr) (h : AgentHash) (online : Bool) : Row where
  addr := a
  user := h.user
  host := h.host
  runtime := h.runtime
  project := h.project
  session := h.session
  groups := h.groups
  metadata := h.metadata
  lastConnect := h.lastConnect
  status := if online then .online else .offline

/-- The pipeline of `list_agents` over the sorted addresses; an expired identity has no row. -/
def listRows : List PyStr → M (List Row)
  | [] => pure []
  | a :: addrs => do
    let h ← send (.hgetall a)
    let online ← send (.exists (.presence a))
    let rows ← listRows addrs
    match h with
    | none => return rows
    | some h => return Row.of a h online :: rows

def listAgents : M (List Row) := do
  let addrs ← send .smembers
  listRows (addrs.insertionSort (· ≤ ·))

/-! ## Inboxes -/

/-- The summary line of a message; `subject` is empty where there is none. -/
def envelope (frm body subject : PyStr) (important : Bool) (subjectMax : Nat) : PyStr :=
  let subj := PyStr.strip (if subject = [] then body else subject)
  let shown := (PyStr.firstLine subj).take subjectMax
  let line := lit "✉ " ++ frm ++ lit ": " ++ shown ++
    (if shown = PyStr.strip body then [] else lit " · fetch for full")
  if important then lit "❗ " ++ line else line

def appendMessage (dest : PyStr) (fields : Fields) (maxlen messageTtl : Int) : M StreamId := do
  let now ← nowSec
  if maxlen < 0 then .throw .dataError
  else send (.xadd dest fields now (now + messageTtl) maxlen.toNat)

def publishDeliver (dest : PyStr) (event : Json) : M Unit := send (.publish dest event)

def entriesPastCursor (a : PyStr) (limit : Int) : M (List Entry) := do
  let cur ← send (.get a)
  if limit < 1 then .throw .dataError
  else send (.xrange a cur limit.toNat)

/-- The entries of a page that have not expired. -/
def unexpired (now : Int) (entries : List Entry) : List Entry :=
  entries.filter fun e => decide (now < e.expiresAt)

/-- Fetch is the ack: the cursor moves to the last entry read. -/
def fetchUnread (a : PyStr) (limit : Int) : M (List Entry) := do
  let entries ← entriesPastCursor a limit
  match entries.getLast? with
  | none => return []
  | some last =>
    send (.set a last.id)
    let now ← nowSec
    return unexpired now entries

/-- The number of unread messages and the stamp of the oldest. -/
def unreadCount (a : PyStr) : M (Nat × PyStr) := do
  let entries ← entriesPastCursor a 1000
  let now ← nowSec
  let live := unexpired now entries
  return (live.length, match live with
    | [] => []
    | e :: _ => PyStr.strInt e.ts)

/-- Whether the call is within the limit, else the seconds to wait. -/
def rateCheck (kind : RateKind) (a : PyStr) (limit window : Int) : M (Bool × Int) := do
  let n ← send (.incr kind a window)
  if limit < n then
    let ttl ← send (.ttl (.rate kind a))
    if ttl < 0 then
      -- a key that a crash or a race left without a deadline
      send (.expire (.rate kind a) window)
      return (false, max window 1)
    else return (false, max ttl 1)
  else return (true, 0)

end Muster
