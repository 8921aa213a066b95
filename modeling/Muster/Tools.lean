import Muster.OpenCode
import Muster.Relay
import Muster.Rpc
import Muster.Sessions

/-!
# The tools of the two clients (`muster_channel.py`, `muster-chat.js`)

Each tool asks the server once and makes a text of what comes back, a refusal included.
What Python raises while it does is reported as the bus being offline; in JavaScript it
becomes a text too, but one that the engine words, and there is no text of it here
(`none`).  `callRoster` and `fmtRosterJs` make the text of a roster.
-/

namespace Muster

/-! ## `muster_channel.py` -/

section
variable [Python]

/-- `res[key]`. -/
def Json.item (res : Json) (key : String) : Except BusExn Json :=
  match res with
  | .obj kvs =>
    match kvs.lookup (lit key) with
    | some v => .ok v
    | none => .error (.other (lit "KeyError"))
  | _ => .error (.other (lit "TypeError"))

def Json.asString : Json → Option PyStr
  | .str s => some s
  | _ => none

/-- `", ".join(x)`. -/
def joinComma : Json → Option PyStr
  | .arr xs => (xs.mapM Json.asString).map (lit ", ").intercalate
  | .str s => some ((lit ", ").intercalate (s.map ([·])))
  | .obj kvs => some ((lit ", ").intercalate (kvs.map Prod.fst))
  | _ => none

/-- `c["addr"]`. -/
def candidateAddr : Json → Option Json
  | .obj kvs => kvs.lookup (lit "addr")
  | _ => none

def joinCandidates : Json → Option PyStr
  | .arr cs => (cs.mapM candidateAddr).bind fun addrs => joinComma (.arr addrs)
  | _ => none

def addVisible (p : List (PyStr × Json)) : Option PyStr :=
  if (Json.get p "visible").truthy then
    (joinComma (Json.get p "visible")).map (lit " | visible: " ++ ·)
  else some []

def addCandidates (p : List (PyStr × Json)) : Option PyStr :=
  if (Json.get p "candidates").truthy then
    (joinCandidates (Json.get p "candidates")).map (lit " | candidates: " ++ ·)
  else some []

def addRetry (p : List (PyStr × Json)) : PyStr :=
  match p.lookup (lit "retry_after") with
  | some n => lit " | retry in " ++ n.text ++ lit "s"
  | none => []

/-- `_fmt_error`.  What it raises itself is not caught. -/
def fmtError (p : List (PyStr × Json)) : Option PyStr :=
  match ((Json.get p "message").or (Json.get p "code")).or (.str (lit "bus error")) with
  | .str m => do
    let visible ← addVisible p
    let candidates ← addCandidates p
    return m ++ visible ++ candidates ++ addRetry p
  | _ => none

/-- `_mail_line`. -/
def mailLine : Json → Except BusExn PyStr
  | .obj m =>
    let subject := Json.get m "subject"
    .ok (lit "[" ++ (Relay.getOr m "ts" "").text ++ lit "] " ++
      (if (Json.get m "important").truthy then lit "❗ " else []) ++
      lit "from " ++ (Relay.getOr m "from" "?").text ++
      (if subject.truthy then lit " [" ++ subject.text ++ lit "]" else []) ++
      lit ": " ++ (Relay.getOr m "body" "").text)
  | _ => .error (.other (lit "AttributeError"))

def chatRequest (args : Args) : Except BusExn Args := do
  let dest ← (Json.obj args).item "to"
  let body ← (Json.obj args).item "body"
  return dict [("to", dest), ("body", body), ("subject", Json.get args "subject"),
    ("important", .bool (Json.get args "important").truthy)]

def chatText (res : Json) : Except BusExn PyStr := do
  let dest ← res.item "to"
  let status ← res.item "status"
  let msgId ← res.item "msg_id"
  return lit "Delivered to " ++ dest.text ++ lit " (" ++ status.text ++ lit ", msg " ++ msgId.text ++
    lit ")."

def fetchRequest (args : Args) : Except BusExn Args :=
  .ok (dict [("limit", (args.lookup (lit "limit")).getD (.int 20))])

/-- A string or a dict is gone through by its characters or keys, which have no `.get`. -/
def fetchText (res : Json) : Except BusExn PyStr := do
  let msgs ← res.item "messages"
  if msgs.truthy then
    match msgs with
    | .arr ms =>
      let lines ← ms.mapM mailLine
      return lit "Unread messages (now marked read):\n" ++ (lit "\n").intercalate lines
    | .str _ => .error (.other (lit "AttributeError"))
    | .obj _ => .error (.other (lit "AttributeError"))
    | _ => .error (.other (lit "TypeError"))
  else return lit "No unread messages."

def announceRequest (args : Args) : Except BusExn Args := do
  let scope ← (Json.obj args).item "scope"
  let project ← (Json.obj args).item "project"
  let body ← (Json.obj args).item "body"
  return dict [("scope", scope), ("project", project), ("body", body),
    ("subject", Json.get args "subject")]

def announceText (res : Json) : Except BusExn PyStr := do
  let recipients ← res.item "recipients"
  return lit "Announced to " ++ recipients.text ++ lit " online agent(s)."

/-- What `_call_tool` makes of an outcome. -/
def shimText (url : PyStr) : Except BusExn PyStr → Option PyStr
  | .ok text => some text
  | .error (.busError _ payload) => fmtError payload
  | .error (.other name) => some (lit "Muster bus offline (" ++ name ++ lit "). Check MUSTER_URL=" ++
      url ++ lit " and your key.")

/-- `_call_tool` for a tool that asks for `op`, and what it leaves on the server. -/
def callTool (cfg : Config) (srv : Server) (resolved : Except AuthExn (Identity Member))
    (url header : PyStr) (op : String) (request : Except BusExn Args)
    (render : Json → Except BusExn PyStr) (fate : Fate) (s : Db) : Option PyStr × Db :=
  match request with
  | .error e => (shimText url (.error e), s)
  | .ok args =>
    let r := callBus cfg srv resolved header op args fate s
    (shimText url (r.1 >>= render), r.2)

def callChat (cfg : Config) (srv : Server) (resolved : Except AuthExn (Identity Member))
    (url header : PyStr) (args : Args) : Fate → Db → Option PyStr × Db :=
  callTool cfg srv resolved url header "chat" (chatRequest args) chatText

def callFetch (cfg : Config) (srv : Server) (resolved : Except AuthExn (Identity Member))
    (url header : PyStr) (args : Args) : Fate → Db → Option PyStr × Db :=
  callTool cfg srv resolved url header "fetch" (fetchRequest args) fetchText

def callAnnounce (cfg : Config) (srv : Server) (resolved : Except AuthExn (Identity Member))
    (url header : PyStr) (args : Args) : Fate → Db → Option PyStr × Db :=
  callTool cfg srv resolved url header "announce" (announceRequest args) announceText

end

/-! ## `muster-chat.js` -/

/-- What a call of `rpc` throws. -/
inductive PluginExn where
  /-- an `Error` with the body of the answer as its payload -/
  | bus (message : PyStr) (payload : Json)
  /-- of the HTTP library -/
  | other (message : PyStr)
  /-- worded by the engine -/
  | typeError

section
variable [JsNumbers]

/-- `x || y`. -/
def jsOr (x y : Json) : Json := if x.jsTruthy then x else y

/-- `data[key]`, where `undefined` and `null` are the same. -/
def Json.jsField (data : Json) (key : String) : Json :=
  match data with
  | .obj kvs => Json.get kvs key
  | _ => .null

/-- `rpc`, from the answer on. -/
def rpcJs (a : HttpAnswer) : Except PluginExn Json :=
  let data := a.body.getD (.obj (dict [("code", .str (lit "bad_response")),
    ("message", .str (lit "HTTP " ++ PyStr.strNat a.status))]))
  if 200 ≤ a.status ∧ a.status < 300 then .ok data
  else if data.isNull then .error .typeError
  else
    match (jsOr (jsOr (data.jsField "message") (data.jsField "code"))
        (.str (PyStr.strNat a.status))).jsString with
    | some message => .error (.bus message data)
    | none => .error .typeError

/-- `x.join(", ")`. -/
def jsJoin : Json → Option PyStr
  | .arr xs => (Json.jsItems xs).map (lit ", ").intercalate
  | _ => none

/-- `x.map((c) => c.addr).join(", ")`. -/
def jsJoinCandidates : Json → Option PyStr
  | .arr cs => (cs.mapM fun c : Json => if c.isNull then none else some (c.jsField "addr")).bind
      fun addrs => jsJoin (.arr addrs)
  | _ => none

def addVisibleJs (p : Json) : Option PyStr :=
  if (p.jsField "visible").jsTruthy then
    (jsJoin (p.jsField "visible")).map (lit " | visible: " ++ ·)
  else some []

def addCandidatesJs (p : Json) : Option PyStr :=
  if (p.jsField "candidates").jsTruthy then
    (jsJoinCandidates (p.jsField "candidates")).map (lit " | candidates: " ++ ·)
  else some []

def addRetryJs (p : Json) : Option PyStr :=
  if (p.jsField "retry_after").isNull then some []
  else (p.jsField "retry_after").jsString.map fun n => lit " | retry in " ++ n ++ lit "s"

/-- `fmtErr`. -/
def fmtErrJs : PluginExn → Option PyStr
  | .bus message payload => do
    let p := jsOr payload (.obj [])
    let m ← (jsOr (jsOr (p.jsField "message") (.str message)) (.str (lit "bus error"))).jsString
    let visible ← addVisibleJs p
    let candidates ← addCandidatesJs p
    let retry ← addRetryJs p
    return m ++ visible ++ candidates ++ retry
  | .other message => some (if message = [] then lit "bus error" else message)
  | .typeError => none

/-- `${data[key]}`. -/
def Json.template (data : Json) (key : String) : Option PyStr :=
  match data with
  | .obj kvs =>
    match kvs.lookup (lit key) with
    | some v => v.jsString
    | none => some (lit "undefined")
  | .null => none
  | _ => some (lit "undefined")

def chatTextJs (res : Json) : Option PyStr := do
  let dest ← res.template "to"
  let status ← res.template "status"
  let msgId ← res.template "msg_id"
  return lit "Delivered to " ++ dest ++ lit " (" ++ status ++ lit ", msg " ++ msgId ++ lit ")."

def announceTextJs (res : Json) : Option PyStr := do
  let recipients ← res.template "recipients"
  return lit "Announced to " ++ recipients ++ lit " online agent(s)."

def subjectJs (m : Json) : Option PyStr :=
  if (m.jsField "subject").jsTruthy then
    (m.jsField "subject").jsString.map fun t => lit " [" ++ t ++ lit "]"
  else some []

/-- A line of `muster_fetch`. -/
def mailLineJs (m : Json) : Option PyStr := do
  let sender ← m.template "from"
  let subject ← subjectJs m
  let body ← m.template "body"
  return lit "• " ++ (if (m.jsField "important").jsTruthy then lit "❗ " else []) ++ lit "from " ++
    sender ++ subject ++ lit ": " ++ body

/-- Whatever has no length has no messages. -/
def fetchTextJs (res : Json) : Option PyStr :=
  match res.jsField "messages" with
  | .null => none
  | .arr (m :: ms) => ((m :: ms).mapM mailLineJs).map (lit "\n").intercalate
  | .str (_ :: _) => none
  | .obj kvs =>
    if (Json.get kvs "length").jsTruthy then none else some (lit "No unread messages.")
  | _ => some (lit "No unread messages.")

/-- What `execute` makes of an outcome. -/
def pluginText (render : Json → Option PyStr) : Except PluginExn Json → Option PyStr
  | .ok res => render res
  | .error e => (fmtErrJs e).map (lit "Muster: " ++ ·)

end

end Muster
