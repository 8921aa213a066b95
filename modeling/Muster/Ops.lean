import Muster.Config
import Muster.Store

/-!
# RPC handlers (`ops.py`, `app.py`)

Every rule the server enforces on a request: reference resolution, visibility,
the size cap, self-send, rate limits and the server-stamped sender.  `args` is
the JSON object of the request, with values of any type.

A value is only ever compared (`Json.isStr` with a string, as a `Member` with groups),
tested for truth, printed, or sent through `.encode()`, `.startswith()` or `int()`, which
raise on other types.
-/

namespace Muster

abbrev Args := List (PyStr × Json)

structure Message where
  msgId : StreamId
  sender : PyStr
  kind : PyStr
  subject : PyStr
  body : PyStr
  ts : PyStr
  important : Bool
  deriving DecidableEq

/-- What an operation answers, besides `"ok": true`. -/
inductive Response where
  | chat (msgId : StreamId) (dest : PyStr) (status : Status)
  | fetch (messages : List Message)
  | roster (agents : List Json) (hidden : List (PyStr × Nat))
  | announce (recipients : Nat)

/-- `x == s` for a string `s`. -/
def Json.isStr : Json → PyStr → Bool
  | .str t, s => t == s
  | _, _ => false

/-- `x.encode()`: the string and its length in bytes. -/
def encode : Json → Except PyExn (PyStr × Nat)
  | .str s =>
    match s.encodeLen with
    | some n => .ok (s, n)
    | none => .error .unicodeEncodeError
  | _ => .error .attributeError

/-! ## What the handlers share -/

section
variable (ident : Identity Member)

/-- The list comprehension of `_visible_agents`. -/
def keepVisible : List Row → Except PyExn (List Row)
  | [] => .ok []
  | a :: rows =>
    match visible ident.userId ident.groups a.user a.groups with
    | none => .error .typeError
    | some keep => (keepVisible rows).map fun kept => if keep then a :: kept else kept

def visibleAgents : M (List Row) := do
  let rows ← listAgents
  keepVisible ident rows

def Row.visibleTo (a : Row) : Bool :=
  visible ident.userId ident.groups a.user a.groups == some true

/-- The predicate can be asked of the row. -/
def Row.comparable (a : Row) : Bool :=
  (visible ident.userId ident.groups a.user a.groups).isSome

/-- **A listing is what is visible of the rows, or none at all**: it raises where one row, visible or
not, has groups that cannot be compared. -/
theorem keepVisible_eq (rows : List Row) : keepVisible ident rows =
    if ∀ a ∈ rows, a.comparable ident = true then .ok (rows.filter (·.visibleTo ident))
    else .error .typeError := by
  induction rows with
  | nil => rfl
  | cons a rows ih =>
    have hasked : a.comparable ident = (visible ident.userId ident.groups a.user a.groups).isSome := rfl
    have hkept : a.visibleTo ident = (visible ident.userId ident.groups a.user a.groups == some true) :=
      rfl
    rw [keepVisible, ih, List.filter_cons, hkept]
    cases hv : visible ident.userId ident.groups a.user a.groups with
    | none =>
      have hno : ¬ ∀ x ∈ a :: rows, x.comparable ident = true := fun h => by
        have ha := h a List.mem_cons_self
        rw [hasked, hv] at ha
        cases ha
      rw [if_neg hno]
    | some keep =>
      rw [hv] at hasked
      have hcons : (∀ x ∈ a :: rows, x.comparable ident = true) ↔ ∀ x ∈ rows, x.comparable ident = true :=
        List.forall_mem_cons.trans (and_iff_right hasked)
      by_cases h : ∀ x ∈ rows, x.comparable ident = true
      · rw [if_pos h, if_pos (hcons.2 h)]
        cases keep <;> rfl
      · rw [if_neg h, if_neg fun hall => h (hcons.1 hall)]
        rfl

theorem keepVisible_ok {rows kept : List Row} (h : keepVisible ident rows = .ok kept) :
    (∀ a ∈ rows, a.comparable ident = true) ∧ kept = rows.filter (·.visibleTo ident) := by
  rw [keepVisible_eq] at h
  split at h
  · next hall =>
    cases h
    exact ⟨hall, rfl⟩
  · cases h

end

theorem visibleTo_iff {ident : Identity Member} {a : Row} :
    a.visibleTo ident = true ↔ visible ident.userId ident.groups a.user a.groups = some true :=
  beq_iff_eq

/-- Roster row: groups stripped. -/
def Row.public (a : Row) : Json := .obj (dict [
  ("addr", .str a.addr), ("user", .str a.user), ("host", .str a.host),
  ("runtime", .str a.runtime), ("project", .str a.project), ("session", .str a.session),
  ("status", .str a.status.text), ("last_connect", .int a.lastConnect), ("meta", a.metadata)])

def Json.matchesRef : Json → PyStr → Bool
  | .str ref, addr => Muster.matchesRef ref addr
  | _, _ => false

def resolveReference [Python] (ref : Json) (agents : List Row) : Except PyExn Row :=
  match agents.filter fun a => ref.matchesRef a.addr with
  | [] =>
    if Python.reprDepth < ref.nesting then .error .recursionError
    else .error (.opError 404 (dict [
      ("code", .str (lit "agent_not_found")),
      ("message", .str (lit "no visible agent matches " ++ ref.repr)),
      ("visible", .arr (agents.map fun a => .str a.addr))]))
  | [hit] => .ok hit
  | hits => .error (.opError 409 (dict [
      ("code", .str (lit "ambiguous_reference")),
      ("message", .str (ref.repr ++ lit " matches " ++ PyStr.strNat hits.length ++
        lit " agents; use a longer reference")),
      ("candidates", .arr (hits.map Row.public))]))

def checkRate (kind : RateKind) (sender : PyStr) (limit window : Int) : M Unit := do
  let (ok, retry) ← rateCheck kind sender limit window
  if ok then return ()
  else .throw (.opError 429 (dict [
    ("code", .str (lit "message_rate_exceeded")), ("retry_after", .int retry),
    ("limit", .int limit), ("window", .int window),
    ("message", .str (lit ("Unusually high agent messaging rate; possible message " ++
      "loop. Wait until the retry window expires before continuing.")))]))

/-- The size cap; what is left of body and subject are strings. -/
def checkSize (bodyMax : Int) (body subject : Json) : Except PyExn (PyStr × PyStr) := do
  let (body, n) ← encode body
  let (subject, m) ← encode (subject.or (.str []))
  if bodyMax < n + m then
    .error (.opError 413 (dict [
      ("code", .str (lit "message_too_large")),
      ("message", .str (lit "body+subject is " ++ PyStr.strNat (n + m) ++
        lit " bytes; cap is " ++ PyStr.strInt bodyMax))]))
  else return (body, subject)

/-! ## chat and fetch -/

section
variable (cfg : Config) (ident : Identity Member) (sender : Address) (args : Args)

def chatFields (frm body subject : PyStr) (important : Bool) : Fields :=
  [("from", frm), ("kind", lit "chat"), ("body", body),
    ("summary", envelope frm body subject important 56),
    ("important", if important then lit "1" else lit "0")] ++
    if subject = [] then [] else [("subject", subject)]

def chatEvent (msgId : StreamId) (frm body subject : PyStr) (important : Bool) : Json :=
  .obj (dict [("event", .str (lit "deliver")), ("kind", .str (lit "chat")),
    ("msg_id", .str msgId.text), ("from", .str frm),
    ("envelope", .str (envelope frm body subject important 56)), ("important", .bool important)])

def opChat [Python] : M Response := do
  let important := (Json.get args "important").truthy
  let (body, subject) ← checkSize cfg.bodyMax ((Json.get args "body").or (.str []))
    (Json.get args "subject")
  let agents ← visibleAgents ident
  let target ← resolveReference ((Json.get args "to").or (.str [])) agents
  if target.addr = sender.text then
    .throw (.opError 400 (dict [("code", .str (lit "self_send")),
      ("message", .str (lit "target resolves to the sending agent"))]))
  else
    checkRate .chat sender.text cfg.chatRate cfg.rateWindow
    let msgId ← appendMessage target.addr (chatFields sender.text body subject important)
      cfg.inboxMaxlen cfg.messageTtl
    publishDeliver target.addr (chatEvent msgId sender.text body subject important)
    return .chat msgId target.addr target.status

def Message.of (e : Entry) : Message where
  msgId := e.id
  sender := e.fields.get "from" []
  kind := e.fields.get "kind" []
  subject := e.fields.get "subject" []
  body := e.fields.get "body" []
  ts := PyStr.strInt e.ts
  important := e.fields.get "important" [] == lit "1"

/-- `int(x)`. -/
def pyInt [Python] (x : Json) : Except PyExn Int :=
  match x.toInt with
  | .ok n => .ok n
  | .error .typeError => .error .typeError
  | .error .valueError => .error .valueError
  | .error .overflowError => .error .overflowError

def opFetch [Python] : M Response := do
  let n ← pyInt ((Json.get args "limit").or (.int 20))
  let msgs ← fetchUnread sender.text (min n 100)
  return .fetch (msgs.map Message.of)

/-! ## roster and announce -/

/-- `if args.get(field): agents = [a for a in agents if a[field] == args[field]]`. -/
def filterField (field : String) (get : Row → PyStr) (agents : List Row) : List Row :=
  let v := Json.get args field
  if v.truthy then agents.filter fun a => v.isStr (get a) else agents

/-- `hidden[p] = hidden.get(p, 0) + 1`. -/
def bump (p : PyStr) : List (PyStr × Nat) → List (PyStr × Nat)
  | [] => [(p, 1)]
  | (q, n) :: hidden => if q = p then (q, n + 1) :: hidden else (q, n) :: bump p hidden

def hiddenCounts (projects : List PyStr) : List (PyStr × Nat) :=
  projects.foldl (fun hidden p => bump p hidden) []

/-- The status asked for (`none`: all of them), if it is one of `STATUSES`. -/
def parseStatus (v : Json) : Option (Option Status) :=
  if v.isStr (lit "online") then some (some .online)
  else if v.isStr (lit "offline") then some (some .offline)
  else if v.isStr (lit "all") then some none
  else none

/-- `if args.get("group")`, restricted to one of the caller's own. -/
def filterGroup (agents : List Row) : Except PyExn (List Row) :=
  let v := Json.get args "group"
  if v.truthy then
    if v.member ∈ ident.groups then .ok (agents.filter fun a => a.groups.contains v.member)
    else .error (.opError 403 (dict [("code", .str (lit "invalid_scope")),
      ("message", .str (lit "group must be one of your own groups"))]))
  else .ok agents

def opRoster : M Response := do
  let agents ← visibleAgents ident
  let agents := filterField args "user" Row.user agents
  let agents := filterField args "project" Row.project agents
  let agents := filterField args "runtime" Row.runtime agents
  let agents ← filterGroup ident args agents
  match parseStatus ((Json.get args "status").or (.str (lit "online"))) with
  | none => .throw (.opError 400 (dict [("code", .str (lit "invalid_status")),
      ("message", .str (lit "status must be one of online, offline, all"))]))
  | some none => return .roster (agents.map Row.public) []
  | some (some status) =>
    let dropped := agents.filter fun a => a.status ≠ status && a.addr ≠ sender.text
    return .roster ((agents.filter (·.status = status)).map Row.public)
      (hiddenCounts (dropped.map Row.project))

/-- Which agents a scope names: the caller's own, or one of the caller's groups. -/
def resolveScope (scope : Json) : Except PyExn (Row → Bool) :=
  match scope with
  | .str s =>
    if s = lit "user:" ++ ident.userId then .ok fun a => a.user == ident.userId
    else if (lit "group:").isPrefixOf s ∧ .str (s.drop 6) ∈ ident.groups then
      .ok fun a => a.groups.contains (.str (s.drop 6))
    else .error (.opError 403 (dict [("code", .str (lit "invalid_scope")),
      ("message", .str (lit "scope must be user:<self> or group:<one of your groups>"))]))
  | _ => .error .attributeError

def announceEvent (frm body subject : PyStr) : Json :=
  .obj (dict [("event", .str (lit "deliver")), ("kind", .str (lit "announce")),
    ("from", .str frm), ("subject", .str subject), ("body", .str body)])

def publishAll (event : Json) : List Row → M Unit
  | [] => pure ()
  | a :: rows => do
    publishDeliver a.addr event
    publishAll event rows

def opAnnounce : M Response := do
  let project := (Json.get args "project").or (.str [])
  if project.truthy then
    let (body, subject) ← checkSize cfg.bodyMax ((Json.get args "body").or (.str []))
      (Json.get args "subject")
    let inScope ← resolveScope ident ((Json.get args "scope").or (.str []))
    checkRate .announce sender.text cfg.announceRate cfg.rateWindow
    let agents ← visibleAgents ident
    let eligible := agents.filter fun a =>
      inScope a && project.isStr a.project && a.status = .online && a.addr ≠ sender.text
    publishAll (announceEvent sender.text body subject) eligible
    return .announce eligible.length
  else
    .throw (.opError 400 (dict [("code", .str (lit "invalid_scope")),
      ("message", .str (lit "project is required"))]))

def dispatch [Python] (op : PyStr) : M Response :=
  if op = lit "chat" then opChat cfg ident sender args
  else if op = lit "fetch" then opFetch sender args
  else if op = lit "roster" then opRoster ident sender args
  else if op = lit "announce" then opAnnounce cfg ident sender args
  else .throw (.opError 400 (dict [("code", .str (lit "unknown_op")),
    ("message", .str (lit "unknown op " ++ PyStr.repr op)),
    ("ops", .arr [.str (lit "announce"), .str (lit "chat"), .str (lit "fetch"),
      .str (lit "roster")])]))

end

end Muster
