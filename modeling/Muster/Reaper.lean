import Muster.Store

/-!
# Garbage collection of expired identities (`reaper.py`)

One pass over the directory: an address whose identity hash has expired loses
its inbox, cursor and presence, then its entry in the directory.
-/

namespace Muster

/-- The loop of `reap_once` over the addresses SMEMBERS listed. -/
def reapAll : List PyStr → (reaped : Nat) → M Nat
  | [], reaped => pure reaped
  | a :: addrs, reaped => do
    let live ← send (.exists (.agent a))
    if live then reapAll addrs reaped
    else
      send (.del [.inbox a, .cursor a, .presence a])
      send (.srem a)
      reapAll addrs (reaped + 1)

def reapOnce : M Nat := do
  let addrs ← send .smembers
  reapAll addrs 0

end Muster
