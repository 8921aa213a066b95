import Muster.Lib.Pool
import Muster.Ops
import Muster.Reaper
import Muster.Stream

/-!
# The service: every call against one store

`Call` is what can be running: a request (`rpc`: the caller's address, then
`dispatch`), a reaper pass, the legs of a stream, or one of the store's
operations by itself.  `service` is the pool of all of them on one server, with
one command as the unit of interleaving.
-/

namespace Muster

inductive Call where
  | rpc (ident : Identity Member) (header op : PyStr) (args : Args)
  | registerAgent (addr : Address) (groups : List Member) (metadata : Json) (retention : Int)
  | touchPresence (a connectionId : PyStr) (ttl : Int)
  | clearPresence (a connectionId : PyStr)
  | appendMessage (dest : PyStr) (fields : Fields) (maxlen messageTtl : Int)
  | fetchUnread (a : PyStr) (limit : Int)
  | unreadCount (a : PyStr)
  | reapOnce

/-- Requests and what streams do to the store; neither the reaper nor a store operation
by itself. -/
def Call.served : Call → Prop
  | .rpc _ _ _ _ => True
  | .registerAgent _ _ _ _ => True
  | .touchPresence _ _ _ => True
  | .clearPresence _ _ => True
  | .unreadCount _ => True
  | _ => False

inductive Outcome where
  | response (r : Response)
  | entries (es : List Entry)
  | msgId (id : StreamId)
  | unread (n : Nat) (oldestTs : PyStr)
  | count (n : Nat)
  | done

/-- `caller`, then `dispatch`. -/
def rpc [Python] (cfg : Config) (ident : Identity Member) (header op : PyStr) (args : Args) :
    M Response :=
  match parseAgentHeader ident.userId header with
  | .error e => .throw (.addressError e)
  | .ok sender => dispatch cfg ident sender args op

def Call.body [Python] (cfg : Config) : Call → M Outcome
  | .rpc ident header op args => .response <$> Muster.rpc cfg ident header op args
  | .registerAgent addr groups metadata retention =>
    (fun _ => .done) <$> Muster.registerAgent addr groups metadata retention
  | .touchPresence a connectionId ttl => (fun _ => .done) <$> Muster.touchPresence a connectionId ttl
  | .clearPresence a connectionId => .count <$> Muster.clearPresence a connectionId
  | .appendMessage dest fields maxlen messageTtl =>
    .msgId <$> Muster.appendMessage dest fields maxlen messageTtl
  | .fetchUnread a limit => .entries <$> Muster.fetchUnread a limit
  | .unreadCount a => (fun r => .unread r.1 r.2) <$> Muster.unreadCount a
  | .reapOnce => .count <$> Muster.reapOnce

/-- The service at some moment: the store, the calls in progress, the commands so far. -/
abbrev Moment := World Cmd Cmd.Reply PyExn Outcome Call Db

abbrev Ev := Event Cmd Cmd.Reply Call Db

def service [Python] (cfg : Config) (srv : Server) : Pool Cmd Cmd.Reply PyExn Outcome Call Db Env where
  exec := exec srv
  env := Env.apply
  body := Call.body cfg

end Muster
