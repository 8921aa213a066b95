import Muster.Lib.Cut
import Muster.Auth
import Muster.Service

/-!
# Requests over HTTP (`app.py`, `httpbus.py`)

From the client's call to what it gets back.  The server authenticates the key, then the
header, and dispatches; every exception becomes an answer, those it does not know one that
is no JSON.  The client raises `BusError` for an answer of 400 and up, and whatever its
HTTP library raises when there is none.

`httpx`, FastAPI and the two JSON codecs between them carry values as they are.  What they
cannot carry is a request that never arrives, or an answer that does not.
-/

namespace Muster

/-! ## The server's side -/

/-- An answer; `body` is `none` where it is not JSON. -/
structure HttpAnswer where
  status : Nat
  body : Option Json

def Message.json (m : Message) : Json := .obj (dict [
  ("msg_id", .str m.msgId.text), ("from", .str m.sender), ("kind", .str m.kind),
  ("subject", .str m.subject), ("body", .str m.body), ("ts", .str m.ts),
  ("important", .bool m.important)])

def Response.json : Response → Json
  | .chat msgId dest status => .obj (dict [("ok", .bool true), ("msg_id", .str msgId.text),
      ("to", .str dest), ("status", .str status.text)])
  | .fetch messages => .obj (dict [("ok", .bool true), ("messages", .arr (messages.map Message.json))])
  | .roster agents hidden => .obj (dict [("ok", .bool true), ("agents", .arr agents),
      ("hidden", .obj (hidden.map fun e => (e.1, .int e.2)))])
  | .announce recipients => .obj (dict [("ok", .bool true), ("recipients", .int recipients)])

/-- The exception handlers; what they do not know is `Internal Server Error`. -/
def PyExn.answer : PyExn → HttpAnswer
  | .addressError e => ⟨400, some (.obj (dict [("code", .str (lit "bad_agent_header")),
      ("message", .str (lit e.message))]))⟩
  | .opError status payload => ⟨status, some (.obj payload)⟩
  | _ => ⟨500, none⟩

def AuthExn.answer : AuthExn → HttpAnswer
  | .authError status code message => ⟨status, some (.obj (dict [("code", .str code),
      ("message", .str message)]))⟩
  | _ => ⟨500, none⟩

def answerOf : Except PyExn Response → HttpAnswer
  | .ok r => ⟨200, some r.json⟩
  | .error e => e.answer

section
variable [Python] (cfg : Config)

/-- `dispatch` of values that are not checked: an operation that cannot be hashed, arguments that
are no dict. -/
def dispatchJson (ident : Identity Member) (sender : Address) (op args : Json) : M Response :=
  match op with
  | .str op =>
    match args with
    | .obj args => dispatch cfg ident sender args op
    | _ =>
      if op ∈ [lit "chat", lit "fetch", lit "roster", lit "announce"] then .throw .attributeError
      else dispatch cfg ident sender [] op
  | .arr _ => .throw .typeError
  | .obj _ => .throw .typeError
  | op => .throw (.opError 400 (dict [("code", .str (lit "unknown_op")),
      ("message", .str (lit "unknown op " ++ op.repr)),
      ("ops", .arr [.str (lit "announce"), .str (lit "chat"), .str (lit "fetch"),
        .str (lit "roster")])]))

/-- The handler of `/v1/rpc`, from the caller on; `payload` is `none` where it is not JSON. -/
def rpcRoute (ident : Identity Member) (header : PyStr) (payload : Option Json) : M Response :=
  match parseAgentHeader ident.userId header with
  | .error e => .throw (.addressError e)
  | .ok sender =>
    match payload with
    | none => .throw .valueError
    | some (.obj kvs) =>
      dispatchJson cfg ident sender ((kvs.lookup (lit "op")).getD (.str []))
        ((Json.get kvs "args").or (.obj []))
    | some _ => .throw .attributeError

/-- `resolved` is what the key resolves to. -/
def serve (srv : Server) (resolved : Except AuthExn (Identity Member)) (header : PyStr)
    (payload : Option Json) (s : Db) : HttpAnswer × Db :=
  match resolved with
  | .error e => (e.answer, s)
  | .ok ident =>
    let r := (rpcRoute cfg ident header payload).run (exec srv) s
    (answerOf r.1, r.2)

/-- The server as far as the first `n` commands of a request. -/
def serveCut (srv : Server) (resolved : Except AuthExn (Identity Member)) (header : PyStr)
    (payload : Option Json) (n : Nat) (s : Db) : Db :=
  match resolved with
  | .error _ => s
  | .ok ident => (rpcRoute cfg ident header payload).cut (exec srv) n s

end

/-! ## The client's side -/

/-- What the client's call raises. -/
inductive BusExn where
  /-- `BusError` -/
  | busError (status : Nat) (payload : List (PyStr × Json))
  /-- anything else, by the name of its class -/
  | other (name : PyStr)

/-- `rpc` of `MusterClient`, from the answer on.  `BusError` takes a dict. -/
def clientRpc (a : HttpAnswer) : Except BusExn Json :=
  let data := a.body.getD (.obj (dict [("code", .str (lit "bad_response")),
    ("message", .str (lit "non-JSON answer (" ++ PyStr.strNat a.status ++ lit ")"))]))
  if 400 ≤ a.status then
    match data with
    | .obj payload => .error (.busError a.status payload)
    | _ => .error (.other (lit "AttributeError"))
  else .ok data

/-- How a request fares. -/
inductive Fate where
  | answered
  /-- no answer comes, and the client raises `name`; the server has sent `n` of its commands -/
  | lost (name : PyStr) (n : Nat)

/-- One call of the client, and what it leaves on the server. -/
def callBus [Python] (cfg : Config) (srv : Server) (resolved : Except AuthExn (Identity Member))
    (header : PyStr) (op : String) (args : Args) (fate : Fate) (s : Db) : Except BusExn Json × Db :=
  let payload := Json.obj (dict [("op", .str (lit op)), ("args", .obj args)])
  match fate with
  | .answered =>
    let r := serve cfg srv resolved header (some payload) s
    (clientRpc r.1, r.2)
  | .lost name n => (.error (.other name), serveCut cfg srv resolved header (some payload) n s)

/-! ## What the client asks is what the server does -/

theorem lookup_dict_cons (k key : String) (v : Json) (kvs : List (String × Json)) :
    (dict ((k, v) :: kvs)).lookup (lit key) =
      if lit key = lit k then some v else (dict kvs).lookup (lit key) := by
  show List.lookup (lit key) ((lit k, v) :: dict kvs) = _
  rw [List.lookup_cons]
  by_cases h : lit key = lit k
  · rw [if_pos h, h, beq_self_eq_true]
  · have hbeq : (lit key == lit k) = false := by simpa using h
    rw [if_neg h, hbeq]

theorem get_dict_cons (k key : String) (v : Json) (kvs : List (String × Json)) :
    Json.get (dict ((k, v) :: kvs)) key = if lit key = lit k then v else Json.get (dict kvs) key := by
  unfold Json.get
  rw [lookup_dict_cons]
  split <;> rfl

/-- An object is no default of itself. -/
theorem obj_or (kvs : List (PyStr × Json)) : (Json.obj kvs).or (.obj []) = .obj kvs := by
  cases kvs <;> rfl

/-- The payload of the client comes through. -/
theorem rpcRoute_client [Python] (cfg : Config) (ident : Identity Member) (header : PyStr) (op : String)
    (args : Args) :
    rpcRoute cfg ident header (some (.obj (dict [("op", .str (lit op)), ("args", .obj args)]))) =
      rpc cfg ident header (lit op) args := by
  have hop : (dict [("op", .str (lit op)), ("args", .obj args)]).lookup (lit "op") =
      some (.str (lit op)) := by
    rw [lookup_dict_cons, if_pos rfl]
  have hargs : Json.get (dict [("op", .str (lit op)), ("args", .obj args)]) "args" = .obj args := by
    rw [get_dict_cons, if_neg (by decide), get_dict_cons, if_pos rfl]
  unfold rpcRoute rpc
  cases parseAgentHeader ident.userId header with
  | error e => rfl
  | ok sender =>
    dsimp only
    rw [hop, hargs, obj_or]
    rfl

end Muster
