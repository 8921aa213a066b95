import Muster.Ops

/-!
# The roster tool of the Claude shim (`muster_channel.py`)

From the rows of the server's answer to the text the agent reads.  A row is what the shim
reads back of `Row.public`: everything but the groups.  An exception anywhere in it is
reported as the bus being offline, and so is a row that cannot be rendered
(`callRoster_offline_iff`).
-/

namespace Muster

inductive ShimExn where
  | indexError
  | attributeError
  deriving DecidableEq

def ShimExn.name : ShimExn → PyStr
  | .indexError => lit "IndexError"
  | .attributeError => lit "AttributeError"

/-- `_is_self`: `agent` is the half of the address the shim knows. -/
def isSelf (agent : PyStr) (a : Row) : Except ShimExn Bool :=
  match a.addr.dropWhile (· ≠ PyStr.slash) with
  | [] => .error .indexError
  | _ :: rest => .ok (rest = agent)

/-- `[a for a in agents if not _is_self(a)]`. -/
def peers (agent : PyStr) : List Row → Except ShimExn (List Row)
  | [] => .ok []
  | a :: rows => do
    let self ← isSelf agent a
    let rest ← peers agent rows
    return if self then rest else a :: rest

/-- `_age`: coarse age of a unix timestamp. -/
def age (now ts : Int) : PyStr :=
  let d := max 0 (now - ts)
  if 86400 ≤ d then PyStr.strInt (d / 86400) ++ lit "d"
  else if 3600 ≤ d then PyStr.strInt (d / 3600) ++ lit "h"
  else if 60 ≤ d then PyStr.strInt (d / 60) ++ lit "m"
  else PyStr.strInt d ++ lit "s"

section
variable [Python] (now : Int)

/-- `_fmt_agent`; `.get` is for dicts only. -/
def fmtAgent (a : Row) (showStatus : Bool) : Except ShimExn PyStr :=
  match a.metadata.or (.obj []) with
  | .obj metadata =>
    let branch := Json.get metadata "branch"
    .ok (lit "- " ++ a.addr ++
      (if showStatus then lit " — " ++ a.status.text else []) ++
      (if branch.truthy then lit " @" ++ branch.text else []) ++
      if a.status = .offline ∧ a.lastConnect ≠ 0 then
        lit " (last connect " ++ age now a.lastConnect ++ lit " ago)"
      else [])
  | _ => .error .attributeError

/-- The rows of one project under its heading. -/
def fmtProject (agents : List Row) (showStatus : Bool) (project : PyStr) :
    Except ShimExn (List PyStr) := do
  let rows := (agents.filter (·.project = project)).insertionSort fun a b => a.addr ≤ b.addr
  let lines ← rows.mapM fun a => fmtAgent now a showStatus
  return (project ++ lit ":") :: lines

/-- The order of the hidden projects: most agents first. -/
def moreHidden (x y : PyStr × Nat) : Prop := y.2 < x.2 ∨ (x.2 = y.2 ∧ x.1 ≤ y.1)

instance (x y : PyStr × Nat) : Decidable (moreHidden x y) := inferInstanceAs (Decidable (_ ∨ _))

/-- `_fmt_roster`. -/
def fmtRoster (agent : PyStr) (agents : List Row) (hidden : List (PyStr × Nat)) (status : PyStr) :
    Except ShimExn PyStr := do
  let label := if status = lit "all" then lit "visible" else status
  let groups ← ((agents.map Row.project).dedup.insertionSort (· ≤ ·)).mapM
    (fmtProject now agents (status = lit "all"))
  let head :=
    if agents = [] then lit "You are \"" ++ agent ++ lit "\". No " ++ label ++ lit " agents visible."
    else lit "You are \"" ++ agent ++ lit "\". " ++ PyStr.strNat agents.length ++ lit " " ++ label ++
      lit " agent(s):"
  let counts := (hidden.insertionSort moreHidden).map fun e => e.1 ++ lit " ×" ++ PyStr.strNat e.2
  let foot :=
    if hidden = [] then []
    else [(if status = lit "online" then lit "Offline" else lit "Online") ++ lit ": " ++
      (lit " · ").intercalate counts ++
      lit " — roster \x7b\"status\":\"all\"\x7d or \x7b\"project\":\"…\"\x7d to list them"]
  return (lit "\n").intercalate (head :: groups.flatten ++ foot)

/-- The roster tool, from the answer of the server on. -/
def rosterTool (agent : PyStr) (agents : List Row) (hidden : List (PyStr × Nat)) (status : PyStr) :
    Except ShimExn PyStr := do
  let others ← peers agent agents
  fmtRoster now agent others hidden status

/-- `_call_tool`: what the agent reads. -/
def callRoster (url agent : PyStr) (agents : List Row) (hidden : List (PyStr × Nat)) (status : PyStr) :
    PyStr :=
  match rosterTool now agent agents hidden status with
  | .ok text => text
  | .error e => lit "Muster bus offline (" ++ e.name ++ lit "). Check MUSTER_URL=" ++ url ++
      lit " and your key."

end

/-! ## When it answers -/

/-- `.get` works on the metadata. -/
def Row.Shown (a : Row) : Prop := ∃ metadata, a.metadata.or (.obj []) = .obj metadata

/-- The shim can tell whether the row is its own, and can show it if it is not. -/
structure Row.Rendered (agent : PyStr) (a : Row) : Prop where
  slash : PyStr.slash ∈ a.addr
  shown : isSelf agent a = .ok false → a.Shown

theorem isSelf_ok (agent : PyStr) {a : Row} :
    (∃ self, isSelf agent a = .ok self) ↔ PyStr.slash ∈ a.addr := by
  unfold isSelf
  split
  · next h =>
    refine iff_of_false nofun fun hmem => ?_
    have := List.dropWhile_eq_nil_iff.1 h _ hmem
    simp at this
  · next c rest h =>
    refine iff_of_true ⟨_, rfl⟩ ?_
    have hc := List.head?_dropWhile_not (fun c => decide (c ≠ PyStr.slash)) a.addr
    rw [h] at hc
    have heq : c = PyStr.slash := by simpa using hc
    have hsuffix : (c :: rest) <:+ a.addr := h ▸ List.dropWhile_suffix _
    exact heq ▸ hsuffix.subset List.mem_cons_self

/-- The rows that are not the agent's own. -/
theorem peers_ok (agent : PyStr) {rows : List Row} (h : ∀ a ∈ rows, PyStr.slash ∈ a.addr) :
    ∃ others, peers agent rows = .ok others ∧
      ∀ a, a ∈ others ↔ a ∈ rows ∧ isSelf agent a = .ok false := by
  induction rows with
  | nil => exact ⟨[], rfl, by simp⟩
  | cons a rows ih =>
    obtain ⟨self, hself⟩ := (isSelf_ok agent).2 (h a List.mem_cons_self)
    obtain ⟨others, hothers, hmem⟩ := ih fun b hb => h b (List.mem_cons_of_mem _ hb)
    refine ⟨if self then others else a :: others, ?_, ?_⟩
    · simp only [peers, hself, hothers]
      rfl
    · intro b
      cases self with
      | true =>
        rw [if_pos rfl, hmem, List.mem_cons]
        constructor
        · exact fun hb => ⟨.inr hb.1, hb.2⟩
        · rintro ⟨rfl | hb, hfalse⟩
          · rw [hself] at hfalse
            cases hfalse
          · exact ⟨hb, hfalse⟩
      | false =>
        rw [if_neg (by simp), List.mem_cons, List.mem_cons, hmem]
        constructor
        · rintro (rfl | hb)
          · exact ⟨.inl rfl, hself⟩
          · exact ⟨.inr hb.1, hb.2⟩
        · rintro ⟨rfl | hb, hfalse⟩
          · exact .inl rfl
          · exact .inr ⟨hb, hfalse⟩

theorem slash_of_peers {agent : PyStr} {rows others : List Row} (h : peers agent rows = .ok others) :
    ∀ a ∈ rows, PyStr.slash ∈ a.addr := by
  induction rows generalizing others with
  | nil => exact List.forall_mem_nil _
  | cons a rows ih =>
    cases hself : isSelf agent a with
    | error e =>
      simp only [peers, hself] at h
      cases h
    | ok self =>
      cases hrest : peers agent rows with
      | error e =>
        simp only [peers, hself, hrest] at h
        cases h
      | ok rest => exact List.forall_mem_cons.2 ⟨(isSelf_ok agent).1 ⟨self, hself⟩, ih hrest⟩

/-- A comprehension raises where one of its items does. -/
theorem mapM_ok {α β ε : Type} {f : α → Except ε β} {l : List α} :
    (∃ ys, l.mapM f = .ok ys) ↔ ∀ x ∈ l, ∃ y, f x = .ok y := by
  induction l with
  | nil => exact iff_of_true ⟨[], rfl⟩ (List.forall_mem_nil _)
  | cons x l ih =>
    rw [List.forall_mem_cons, List.mapM_cons]
    cases hx : f x with
    | error e => exact iff_of_false nofun fun h => nomatch h.1
    | ok y =>
      cases hl : l.mapM f with
      | error e =>
        rw [hl] at ih
        exact iff_of_false nofun fun h => nomatch ih.2 h.2
      | ok ys =>
        rw [hl] at ih
        exact iff_of_true ⟨_, rfl⟩ ⟨⟨y, rfl⟩, ih.1 ⟨ys, rfl⟩⟩

section
variable [Python] {now : Int}

theorem fmtAgent_ok {a : Row} {showStatus : Bool} :
    (∃ line, fmtAgent now a showStatus = .ok line) ↔ a.Shown := by
  unfold fmtAgent Row.Shown
  split
  · next metadata h => exact iff_of_true ⟨_, rfl⟩ ⟨metadata, h⟩
  · next h => exact iff_of_false nofun fun ⟨metadata, hm⟩ => h metadata hm

theorem fmtProject_ok {agents : List Row} {showStatus : Bool} {project : PyStr} :
    (∃ lines, fmtProject now agents showStatus project = .ok lines) ↔
      ∀ a ∈ agents, a.project = project → a.Shown := by
  have hlines := mapM_ok (f := fun a => fmtAgent now a showStatus)
    (l := (agents.filter (·.project = project)).insertionSort fun a b => a.addr ≤ b.addr)
  simp only [List.mem_insertionSort, List.mem_filter, decide_eq_true_eq, fmtAgent_ok, and_imp] at hlines
  rw [← hlines]
  unfold fmtProject
  dsimp only
  generalize List.mapM (fun a => fmtAgent now a showStatus) _ = r
  cases r with
  | error e => exact iff_of_false nofun nofun
  | ok lines => exact iff_of_true ⟨_, rfl⟩ ⟨lines, rfl⟩

theorem fmtRoster_ok {agent : PyStr} {agents : List Row} {hidden : List (PyStr × Nat)}
    {status : PyStr} :
    (∃ text, fmtRoster now agent agents hidden status = .ok text) ↔ ∀ a ∈ agents, a.Shown := by
  have hgroups := mapM_ok (f := fmtProject now agents (status = lit "all"))
    (l := (agents.map Row.project).dedup.insertionSort (· ≤ ·))
  have hall : (∃ groups, ((agents.map Row.project).dedup.insertionSort (· ≤ ·)).mapM
      (fmtProject now agents (status = lit "all")) = .ok groups) ↔ ∀ a ∈ agents, a.Shown := by
    rw [hgroups]
    simp only [List.mem_insertionSort, List.mem_dedup, List.mem_map, fmtProject_ok]
    exact ⟨fun h a ha => h a.project ⟨a, ha, rfl⟩ a ha rfl, fun h _ _ a ha _ => h a ha⟩
  rw [← hall]
  unfold fmtRoster
  generalize List.mapM (fmtProject now agents _) _ = r
  cases r with
  | error e => exact iff_of_false nofun nofun
  | ok groups => exact iff_of_true ⟨_, rfl⟩ ⟨groups, rfl⟩

/-- **The tool answers iff every row can be rendered.** -/
theorem rosterTool_ok {agent : PyStr} {agents : List Row} {hidden : List (PyStr × Nat)}
    {status : PyStr} :
    (∃ text, rosterTool now agent agents hidden status = .ok text) ↔
      ∀ a ∈ agents, a.Rendered agent := by
  constructor
  · rintro ⟨text, h⟩
    cases hpeers : peers agent agents with
    | error e =>
      simp only [rosterTool, hpeers] at h
      cases h
    | ok others =>
      have hslash := slash_of_peers hpeers
      obtain ⟨others', hothers, hmem⟩ := peers_ok agent hslash
      obtain rfl : others = others' := Except.ok.inj (hpeers.symm.trans hothers)
      simp only [rosterTool, hpeers] at h
      have hshown := fmtRoster_ok.1 ⟨text, h⟩
      exact fun a ha => ⟨hslash a ha, fun hself => hshown a ((hmem a).2 ⟨ha, hself⟩)⟩
  · intro h
    obtain ⟨others, hothers, hmem⟩ := peers_ok agent fun a ha => (h a ha).slash
    have hshown : ∀ a ∈ others, a.Shown := fun a ha =>
      (h a ((hmem a).1 ha).1).shown ((hmem a).1 ha).2
    simp only [rosterTool, hothers]
    exact fmtRoster_ok.2 hshown

/-- The text begins with a `Y`. -/
theorem fmtRoster_head {agent : PyStr} {agents : List Row} {hidden : List (PyStr × Nat)}
    {status text : PyStr} (h : fmtRoster now agent agents hidden status = .ok text) :
    text.head? = some 89 := by
  unfold fmtRoster at h
  revert h
  generalize List.mapM (fmtProject now agents _) _ = r
  intro h
  cases r with
  | error e => cases h
  | ok groups =>
    cases h
    rw [List.cons_append]
    generalize groups.flatten ++ _ = lines
    cases lines with
    | nil =>
      rw [List.intercalate_singleton]
      split <;> rfl
    | cons line lines =>
      rw [List.intercalate_cons_cons]
      split <;> rfl

theorem rosterTool_head {agent : PyStr} {agents : List Row} {hidden : List (PyStr × Nat)}
    {status text : PyStr} (h : rosterTool now agent agents hidden status = .ok text) :
    text.head? = some 89 := by
  unfold rosterTool at h
  cases hpeers : peers agent agents with
  | error e =>
    rw [hpeers] at h
    cases h
  | ok others =>
    rw [hpeers] at h
    exact fmtRoster_head h

/-- **The bus is reported offline iff some row cannot be rendered.** -/
theorem callRoster_offline_iff {url agent : PyStr} {agents : List Row} {hidden : List (PyStr × Nat)}
    {status : PyStr} :
    lit "Muster bus offline (" <+: callRoster now url agent agents hidden status ↔
      ∃ a ∈ agents, ¬ a.Rendered agent := by
  have htool := @rosterTool_ok _ now agent agents hidden status
  unfold callRoster
  cases h : rosterTool now agent agents hidden status with
  | error e =>
    rw [h] at htool
    refine iff_of_true ?_ ?_
    · simp only [List.append_assoc]
      exact List.prefix_append _ _
    · by_contra hnone
      have hall : ∀ a ∈ agents, a.Rendered agent := by
        intro a ha
        by_contra hr
        exact hnone ⟨a, ha, hr⟩
      obtain ⟨text, htext⟩ := htool.2 hall
      cases htext
  | ok text =>
    rw [h] at htool
    refine iff_of_false ?_ ?_
    · rintro ⟨rest, hrest⟩
      have hhead := rosterTool_head h
      replace hrest : lit "Muster bus offline (" ++ rest = text := hrest
      rw [← hrest] at hhead
      cases hhead
    · rintro ⟨a, ha, hr⟩
      exact hr (htool.1 ⟨text, rfl⟩ a ha)

end

end Muster
