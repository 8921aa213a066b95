import Muster.Identity
import Muster.Lib.Json

/-!
# Configuration from the environment (`config.py`)

`load` reads every setting from the environment, with the default of its line.
A `Config` is what `load` accepts: agents are retained at least as long as their
messages.
-/

namespace Muster

structure Config where
  resolverUrl : Option PyStr
  resolverHeader : PyStr
  userField : PyStr
  groupsField : PyStr
  staticKeys : List (PyStr × Identity Json)
  authCacheTtl : Int
  messageTtl : Int
  agentRetention : Int
  inboxMaxlen : Int
  chatRate : Int
  announceRate : Int
  rateWindow : Int
  bodyMax : Int
  pingInterval : Int
  presenceTtl : Int
  messageTtl_le : messageTtl ≤ agentRetention

inductive ConfigError where
  /-- `int()` of a setting -/
  | badInt (name : String)
  /-- `json.loads` of the static keys -/
  | badJson
  | retention (message : String)

section
variable [Python] (loads : PyStr → Option (List (PyStr × Identity Json))) (env : String → Option PyStr)

/-- `int(env.get(name, default))`. -/
def envInt (name default : String) : Except ConfigError Int :=
  match PyStr.toInt ((env name).getD (lit default)) with
  | some n => .ok n
  | none => .error (.badInt name)

/-- `loads` decodes the static keys, a JSON map from keys to identities. -/
def load : Except ConfigError Config := do
  let resolverUrl := (env "MUSTER_RESOLVER_URL").filter (· ≠ [])
  let resolverHeader := (env "MUSTER_RESOLVER_HEADER").getD (lit "x-litellm-api-key")
  let userField := (env "MUSTER_USER_FIELD").getD (lit "user_id")
  let groupsField := (env "MUSTER_GROUPS_FIELD").getD (lit "teams")
  let staticKeys ← match loads ((env "MUSTER_STATIC_KEYS").getD (lit "\x7b\x7d")) with
    | some kvs => pure kvs
    | none => throw .badJson
  let authCacheTtl ← envInt env "MUSTER_AUTH_CACHE_TTL" "60"
  let messageTtl ← envInt env "MUSTER_MESSAGE_TTL" "259200"
  let agentRetention ← envInt env "MUSTER_AGENT_RETENTION" "604800"
  let inboxMaxlen ← envInt env "MUSTER_INBOX_MAXLEN" "1000"
  let chatRate ← envInt env "MUSTER_CHAT_RATE" "20"
  let announceRate ← envInt env "MUSTER_ANNOUNCE_RATE" "3"
  let rateWindow ← envInt env "MUSTER_RATE_WINDOW" "60"
  let bodyMax ← envInt env "MUSTER_BODY_MAX" "262144"
  let pingInterval ← envInt env "MUSTER_PING_INTERVAL" "15"
  let presenceTtl ← envInt env "MUSTER_PRESENCE_TTL" "60"
  if h : agentRetention < messageTtl then
    throw (.retention "agent_retention must be >= message_ttl (spec §7)")
  else
    return { resolverUrl, resolverHeader, userField, groupsField, staticKeys, authCacheTtl,
             messageTtl, agentRetention, inboxMaxlen, chatRate, announceRate, rateWindow,
             bodyMax, pingInterval, presenceTtl, messageTtl_le := Int.not_lt.1 h }

end

/-- What an empty environment gives. -/
def Config.defaults : Config where
  resolverUrl := none
  resolverHeader := lit "x-litellm-api-key"
  userField := lit "user_id"
  groupsField := lit "teams"
  staticKeys := []
  authCacheTtl := 60
  messageTtl := 259200
  agentRetention := 604800
  inboxMaxlen := 1000
  chatRate := 20
  announceRate := 3
  rateWindow := 60
  bodyMax := 262144
  pingInterval := 15
  presenceTtl := 60
  messageTtl_le := by decide

/-- The defaults, with a resolver. -/
def Config.asking : Config := { Config.defaults with resolverUrl := some (lit "http://r/") }

/-- **The defaults are accepted**: every one parses, and they pass the retention check. -/
theorem load_empty [Python] (loads : PyStr → Option (List (PyStr × Identity Json)))
    (h : loads (lit "\x7b\x7d") = some []) : load loads (fun _ => none) = .ok Config.defaults := by
  simp only [load, Option.getD_none, h]
  rfl

end Muster
