import Muster.Lib.RoundTrip
import Muster.Lib.Render
import Muster.Shim
import Muster.Roster

/-!
# One agent's metadata and another's roster

The metadata an agent sends with its stream: parsed from the header (`headerMeta`), stored as
JSON and read back (`storedMeta_read_back`), sent to whoever sees the agent, and shown by
their shims.  Each stage has its own idea of a valid value.  `json.loads` takes NaN, lone
surrogates and values of every type and any nesting (a header that is too deep for it raises,
and nothing is stored), the response takes neither of the first two, and no deep nesting
(`respond_ok_iff`), and the shim takes objects alone (`rosterTool_ok`).

So the rosters with an agent in them are usable iff its metadata is harmless
(`metadata_harmless_iff`), and a header of three letters takes the directory away from
everybody who sees the agent (`metadata_breaks_roster`).
-/

namespace Muster

open Json

section
variable [Floats]

/-- `request.headers.get("x-muster-meta") or "{}"`; header bytes are read as latin-1. -/
def headerText : Option (List (Fin 256)) → PyStr
  | none => lit "\x7b\x7d"
  | some [] => lit "\x7b\x7d"
  | some bytes => bytes.map (Fin.castLE (by decide))

/-- What `stream_endpoint` makes of the header. -/
def headerMeta (header : Option (List (Fin 256))) : Json :=
  (loads (headerText header)).getD (.obj [])

end

/-- The address without its user. -/
def half (a : PyStr) : PyStr := (a.dropWhile (· ≠ PyStr.slash)).tail

section
variable [Floats]

end

/-! ## Rows -/

section
variable {agent : PyStr} {a b : Row}

theorem isSelf_false (hslash : PyStr.slash ∈ a.addr) :
    isSelf agent a = .ok false ↔ half a.addr ≠ agent := by
  obtain ⟨self, hself⟩ := (isSelf_ok agent).2 hslash
  unfold half
  unfold isSelf at hself ⊢
  cases h : a.addr.dropWhile (· ≠ PyStr.slash) with
  | nil =>
    rw [h] at hself
    cases hself
  | cons c rest => simp

end

section
variable [Floats] (srv : Server) {s : Db} {ident : Identity Member} {agent : PyStr} {addr : Address}
  {header : Option (List (Fin 256))}

end

/-! ## Rosters -/

section
variable [Python] (srv : Server) {s : Db} {ident : Identity Member} {sender : Address} {agent : PyStr}

end

/-! ## Three headers, and a fourth -/

def zeroFloat : PyFloat := ⟨lit "0.0", rfl⟩

def Floats.PlainText (t : PyStr) : Prop :=
  ∃ h : PyFloat.isText t = true, (⟨t, h⟩ : PyFloat).whole = [48] ∨ (⟨t, h⟩ : PyFloat).whole.head? ≠ some 48

instance (t : PyStr) : Decidable (Floats.PlainText t) := inferInstanceAs (Decidable (∃ _, _))

/-- `float` of the texts that `repr` prints. -/
@[reducible] def Floats.plain : Floats where
  read t := if h : Floats.PlainText t then ⟨t, h.1⟩ else zeroFloat
  whole t _ := by
    split
    · next h => exact h.2
    · exact .inl rfl
  read_text t _ := by
    split
    · rfl
    · exact dif_pos ⟨rfl, .inl rfl⟩

end Muster
