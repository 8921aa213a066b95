import Muster.Lib.Stringify
import Muster.Listing
import Muster.Metadata
import Muster.OwnGroups
import Muster.RequestErrors
import Muster.Rpc

/-!
# What agents say of themselves

The branch and the directory of an agent, from `build_meta` and from the plugin, by way of a
header, the store and a roster, to the lists of its peers.  The shim escapes its header to
ASCII (`shimHeader_ne_none`).  The plugin does not, and `fetch` sends nothing that is not
Latin-1: with a branch or a directory beyond it, an OpenCode agent never connects.  All
others are shown as they describe themselves, and the rosters break on them where a text
cannot be encoded or groups cannot be compared (`descriptions_reach_peers`).
-/

namespace Muster

open Json

/-! ## Headers -/

/-- `build_meta`; `info` is what `git_info` returns, if it does. -/
def buildMeta (info : Option (Option PyStr × Bool)) (cwd : PyStr) : Json :=
  let (branch, isWt) := info.getD (none, false)
  .obj (dict [("branch", .str (branch.getD [])), ("cwd", .str cwd), ("worktree", .bool isWt)])

instance (s : PyStr) : Decidable (Latin s) := inferInstanceAs (Decidable (∀ c ∈ s, c < 256))

/-- The bytes of a header. -/
def latin1 (s : PyStr) : Option (List (Fin 256)) :=
  if Latin s then some (s.map fun c => ⟨c.val % 256, Nat.mod_lt _ (by decide)⟩) else none

/-- `MusterClient.stream`. -/
def shimHeader (metadata : Json) : Option (List (Fin 256)) := latin1 (dumps (metadata.or (.obj [])))

/-- `relay` of the plugin; `fetch` throws where the text is no byte string. -/
def pluginHeader (branch cwd : PyStr) : Option (List (Fin 256)) :=
  latin1 (stringify [(lit "branch", branch), (lit "cwd", cwd)])

/-- The header of an agent's streams.  Without one there are none. -/
inductive Sends (branch cwd : PyStr) : Option (List (Fin 256)) → Prop
  | shim (info : Option (Option PyStr × Bool)) (hbranch : (info.bind Prod.fst).getD [] = branch) :
    Sends branch cwd (shimHeader (buildMeta info cwd))
  | plugin : Sends branch cwd (pluginHeader branch cwd)

section
variable {branch cwd : PyStr} {header : Option (List (Fin 256))}

/-- What is read of the header of an agent. -/
inductive Description (branch cwd : PyStr) : Json → Prop
  | shim (worktree : Bool) : Description branch cwd
    (.obj (dict [("branch", .str branch), ("cwd", .str cwd), ("worktree", .bool worktree)]))
  | plugin : Description branch cwd (.obj (dict [("branch", .str branch), ("cwd", .str cwd)]))

theorem Description.or {x : Json} (h : Description branch cwd x) : x.or (.obj []) = x := by
  cases h <;> rfl

end

/-! ## Rows -/

theorem Description.nesting {branch cwd : PyStr} {x : Json} (h : Description branch cwd x) :
    x.nesting = 1 := by
  cases h <;> simp [dict, Json.nesting, nestingFields]

section
variable [Python] [Floats] (sha256 : PyStr → PyStr) (cfg : Config)

/-- The streams of `addr` are opened with its own header. -/
def OwnHeader (addr : Address) (header : Option (List (Fin 256))) (s : Bus) (l : BusStep) : Prop :=
  ∀ key agentHeader connectionId metadata ident, l = .connect key agentHeader connectionId metadata →
    (s.resolve sha256 cfg key).1 = .ok ident → parseAgentHeader ident.userId agentHeader = .ok addr →
    ∃ bytes, header = some bytes ∧ metadata = headerMeta (some bytes)

end

section
variable [Floats] {addr : Address} {header : Option (List (Fin 256))} {agentHeader : PyStr} {s s' : Bus}

/-- The streams and the record of `addr` are described by its header. -/
structure Bus.Says (addr : Address) (header : Option (List (Fin 256))) (s : Bus) : Prop where
  records : ∀ v, s.db.agent addr.text = some v →
    ∃ bytes groups sec, header = some bytes ∧ v = .of addr groups (headerMeta (some bytes)) sec
  streams : ∀ session ∈ s.sessions, session.addr.text = addr.text → session.addr = addr ∧
    ∃ bytes, header = some bytes ∧ session.metadata = headerMeta (some bytes)

/-- What writes no record, and opens no stream. -/
theorem Bus.Says.of_agent (h : s.Says addr header)
    (hrecords : ∀ v, s'.db.agent addr.text = some v → s.db.agent addr.text = some v)
    (hstreams : ∀ session ∈ s'.sessions, session ∈ s.sessions) : s'.Says addr header where
  records := fun v hv => h.records v (hrecords v hv)
  streams := fun session hsession => h.streams session (hstreams session hsession)

variable [Python] {sha256 : PyStr → PyStr} {cfg : Config} {srv : Server} {l : BusStep}

omit [Floats] in
theorem resolve_frame (sha256 : PyStr → PyStr) (cfg : Config) (s : Bus) (key : PyStr) :
    (s.resolve sha256 cfg key).2.db = s.db ∧
    (s.resolve sha256 cfg key).2.sessions = s.sessions := by
  unfold Bus.resolve
  exact ⟨rfl, rfl⟩

/-- **One step.** -/
theorem Bus.Says.step (h : s.Says addr header) (haddr : parseAgentHeader addr.user agentHeader = .ok addr)
    (hok : OwnHeader sha256 cfg addr header s l) (hs : (bus sha256 cfg srv).step s l = some s') :
    s'.Says addr header := by
  have hclose : ∀ (r : Bus) (i : Nat) (session : Session), r.db = s.db → r.sessions = s.sessions →
      (r.close srv i session).Says addr header := by
    intro r i session hdb hsessions
    refine h.of_agent (fun v hv => ?_) fun session hsession => ?_
    · have hv := agent_of_streamClose srv _ _ hv
      rwa [hdb] at hv
    · exact hsessions ▸ List.mem_of_mem_eraseIdx hsession
  cases Bus.next_of_step sha256 cfg srv hs with
  | @turnedAway _ key out r hkey hr =>
    obtain ⟨hdb, hsessions⟩ := resolve_frame sha256 cfg s key
    rw [hr] at hdb hsessions
    exact h.of_agent (fun v hv => hdb ▸ hv) fun session hsession => hsessions ▸ hsession
  | @connected key agentHeader' connectionId metadata ident addr' r hr hp =>
    obtain ⟨hdb, hsessions⟩ := resolve_frame sha256 cfg s key
    rw [hr] at hdb hsessions
    have hown : addr'.text = addr.text → addr' = addr ∧
        ∃ bytes, header = some bytes ∧ metadata = headerMeta (some bytes) := by
      intro htext
      obtain ⟨huser, hheader⟩ := parseAgentHeader_text_inj hp haddr htext
      rw [huser, hheader, haddr] at hp
      cases hp
      exact ⟨rfl, hok key agentHeader' connectionId metadata ident rfl (congrArg Prod.fst hr)
        (by rw [hheader]; exact huser ▸ haddr)⟩
    refine ⟨fun v hv => ?_, fun session hsession htext => ?_⟩
    · rcases agent_of_streamOpen cfg srv addr' connectionId metadata hv with ⟨htext, rfl⟩ | hv
      · obtain ⟨rfl, bytes, hbytes, rfl⟩ := hown htext.symm
        exact ⟨bytes, _, _, hbytes, rfl⟩
      · exact h.records v (hdb ▸ hv)
    · rcases List.mem_append.1 hsession with hsession | hsession
      · exact h.streams session (hsessions ▸ hsession) htext
      · rw [List.mem_singleton.1 hsession] at htext ⊢
        exact hown htext
  | @pinged i session ident2 r hsession hr =>
    obtain ⟨hdb, hsessions⟩ := resolve_frame sha256 cfg s session.key
    rw [hr] at hdb hsessions
    have hmem := List.mem_of_getElem? hsession
    refine ⟨fun v hv => ?_, fun session' hsession' htext => ?_⟩
    · rcases agent_of_streamPing cfg srv session.addr session.connectionId session.metadata hv with
        ⟨htext, rfl⟩ | hv
      · obtain ⟨hsame, bytes, hbytes, hmeta⟩ := h.streams session hmem htext.symm
        rw [hsame, hmeta]
        exact ⟨bytes, _, _, hbytes, rfl⟩
      · exact h.records v (hdb ▸ hv)
    · rcases List.mem_or_eq_of_mem_set hsession' with hsession' | rfl
      · exact h.streams session' (hsessions ▸ hsession') htext
      · exact h.streams session hmem htext
  | @refused i session e r hsession hr =>
    obtain ⟨hdb, hsessions⟩ := resolve_frame sha256 cfg s session.key
    rw [hr] at hdb hsessions
    exact hclose r i session hdb hsessions
  | disconnected _ => exact hclose s _ _ rfl rfl
  | @asked key header' ident r hr =>
    obtain ⟨hdb, hsessions⟩ := resolve_frame sha256 cfg s key
    rw [hr] at hdb hsessions
    exact h.of_agent (fun v hv => hdb ▸ hv) fun session hsession => hsessions ▸ hsession
  | served _ =>
    refine h.of_agent (fun v hv => ?_) fun _ hsession => hsession
    rwa [agent_run srv (rpc_keys srv (k := .agent addr.text) trivial)] at hv
  | resolver key answer => exact h.of_agent (fun _ hv => hv) fun _ hsession => hsession
  | reap =>
    refine h.of_agent (fun v hv => ?_) fun _ hsession => hsession
    rwa [agent_run srv (reapOnce_agent srv _ addr.text)] at hv
  | tick d => exact h.of_agent (fun v hv => agent_env hv) fun _ hsession => hsession

end

end Muster
