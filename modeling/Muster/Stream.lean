import Muster.Config
import Muster.Store

/-!
# The delivery leg (`stream.py`)

What the generator of `stream_endpoint` does to the store, step by step: it opens
(registers, touches presence, counts the unread), pings (registers again only
where the groups changed, touches presence), and on its way out clears presence.
-/

namespace Muster

section
variable (cfg : Config) (addr : Address) (connectionId : PyStr) (metadata : Json)

/-- Up to the loop: the number of unread messages and the oldest stamp. -/
def streamOpen (groups : List Member) : M (Nat × PyStr) := do
  registerAgent addr groups metadata cfg.agentRetention
  touchPresence addr.text connectionId cfg.presenceTtl
  unreadCount addr.text

/-- The ping branch after a successful re-auth: `groups` are the stream's, `groups2`
the ones just resolved. -/
def streamPing (groups groups2 : List Member) : M Unit := do
  if groups2 ≠ groups then
    registerAgent addr groups2 metadata cfg.agentRetention
  touchPresence addr.text connectionId cfg.presenceTtl

/-- The `finally` branch. -/
def streamClose : M Nat := clearPresence addr.text connectionId

end

end Muster
