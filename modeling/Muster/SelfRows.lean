import Muster.References
import Muster.Metadata

/-!
# The caller's own row (`muster_channel.py`, `muster-chat.js`)

A client knows its address without the user.  Both shims take a row for their own when its
address is theirs from the first slash on.  That is right unless a user id has a slash, which
makes the caller a stranger to itself, or somebody else has the same host, runtime, project and
session, who is then hidden (`hides_self_iff`).
-/

namespace Muster

/-- `a.addr.split("/").slice(1).join("/") === agent`. -/
def isSelfJs (agent : PyStr) (a : Row) : Bool := PyStr.join ((PyStr.split a.addr).drop 1) == agent

/-- `peers` of the plugin. -/
def peersJs (agent : PyStr) (rows : List Row) : List Row := rows.filter fun a => !isSelfJs agent a

/-- Of these rows both leave out the one with the address `own`, and no other. -/
structure HidesSelf (agent own : PyStr) (rows : List Row) : Prop where
  shim : ∃ others, peers agent rows = .ok others ∧ ∀ a ∈ rows, a ∈ others ↔ a.addr ≠ own
  plugin : ∀ a ∈ rows, a ∈ peersJs agent rows ↔ a.addr ≠ own

theorem half_append {u : PyStr} (h : PyStr.slash ∉ u) (v : PyStr) : half (u ++ PyStr.slash :: v) = v := by
  have hu : ∀ c ∈ u, decide (c ≠ PyStr.slash) = true := by
    intro c hc
    rw [decide_eq_true_iff]
    rintro rfl
    exact h hc
  unfold half
  rw [List.dropWhile_append_of_pos hu, List.dropWhile_cons_of_neg (by simp)]
  rfl

/-- Cut at the first slash, either way. -/
theorem join_drop_split (a : PyStr) : PyStr.join ((PyStr.split a).drop 1) = half a := by
  by_cases h : PyStr.slash ∈ a
  · obtain ⟨u, v, rfl, hu⟩ := List.eq_append_cons_of_mem h
    rw [PyStr.split_slash, PyStr.split_of_noSlash hu, half_append hu]
    exact PyStr.join_split v
  · have hhalf : a.dropWhile (· ≠ PyStr.slash) = [] := by
      refine List.dropWhile_eq_nil_iff.2 fun c hc => ?_
      rw [decide_eq_true_iff]
      rintro rfl
      exact h hc
    unfold half
    rw [PyStr.split_of_noSlash h, hhalf]
    rfl

/-- The row of an accepted header, against a header of four segments. -/
theorem half_eq_iff {a : Row} (h : a.Parsed) {agent : PyStr} (hagent : (PyStr.split agent).length = 4) :
    half a.addr = agent ↔ PyStr.slash ∉ a.user ∧ a.addr = a.user ++ PyStr.slash :: agent := by
  obtain ⟨header, addr, hparse, haddr⟩ := h
  have hlen : (PyStr.split header).length = 4 := by
    rw [(parseAgentHeader_ok hparse).2.1]
    rfl
  rw [← haddr, text_of_parseAgentHeader hparse]
  by_cases huser : PyStr.slash ∈ a.user
  · obtain ⟨u, v, heq, hu⟩ := List.eq_append_cons_of_mem huser
    refine iff_of_false ?_ fun h => h.1 huser
    rw [heq, List.append_assoc, List.cons_append, half_append hu]
    intro hhalf
    have hsplit : (PyStr.split v).length + (PyStr.split header).length = 4 := by
      rw [← hagent, ← hhalf, PyStr.split_slash, List.length_append]
    have hpos := List.length_pos_of_ne_nil (PyStr.split_ne_nil v)
    omega
  · rw [half_append huser]
    simp [huser]

section
variable {rows : List Row} {sender : Address} {user agent : PyStr}

theorem hidesSelf_iff_half (hslash : ∀ a ∈ rows, PyStr.slash ∈ a.addr) (own : PyStr) :
    HidesSelf agent own rows ↔ ∀ a ∈ rows, half a.addr = agent ↔ a.addr = own := by
  constructor
  · rintro ⟨-, hplugin⟩ a ha
    have h := hplugin a ha
    rw [peersJs, List.mem_filter, isSelfJs, join_drop_split, and_iff_right ha, Bool.not_eq_true',
      beq_eq_false_iff_ne] at h
    exact not_iff_not.1 h
  · intro h
    obtain ⟨others, hothers, hmem⟩ := peers_ok agent hslash
    refine ⟨⟨others, hothers, fun a ha => ?_⟩, fun a ha => ?_⟩
    · rw [hmem, and_iff_right ha, isSelf_false (hslash a ha)]
      exact not_iff_not.2 (h a ha)
    · rw [peersJs, List.mem_filter, isSelfJs, join_drop_split, and_iff_right ha, Bool.not_eq_true',
        beq_eq_false_iff_ne]
      exact not_iff_not.2 (h a ha)

/-- Rows with the caller's half of an address, whoever they are of. -/
def Stranger (user agent : PyStr) (a : Row) : Prop :=
  PyStr.slash ∉ a.user ∧ a.addr = a.user ++ PyStr.slash :: agent ∧ a.user ≠ user

/-- The rows among which the caller knows itself, and takes nobody else for itself. -/
theorem hidesSelf_iff (hsender : parseAgentHeader user agent = .ok sender) (hparsed : ∀ a ∈ rows, a.Parsed) :
    HidesSelf agent sender.text rows ↔
      ((∃ a ∈ rows, a.addr = sender.text) → PyStr.slash ∉ user) ∧ ∀ a ∈ rows, ¬ Stranger user agent a := by
  have hagent : (PyStr.split agent).length = 4 := by
    rw [(parseAgentHeader_ok hsender).2.1]
    rfl
  have hown : sender.text = user ++ PyStr.slash :: agent := text_of_parseAgentHeader hsender
  have hslash : ∀ a ∈ rows, PyStr.slash ∈ a.addr := by
    intro a ha
    obtain ⟨header, addr, hparse, haddr⟩ := hparsed a ha
    rw [← haddr, text_of_parseAgentHeader hparse]
    simp
  have huser : ∀ a ∈ rows, a.addr = sender.text → a.user = user := by
    intro a ha heq
    obtain ⟨header, addr, hparse, haddr⟩ := hparsed a ha
    exact (parseAgentHeader_text_inj hparse hsender (haddr.trans heq)).1
  rw [hidesSelf_iff_half hslash]
  constructor
  · intro h
    refine ⟨?_, ?_⟩
    · rintro ⟨a, ha, heq⟩
      rw [← huser a ha heq]
      exact ((half_eq_iff (hparsed a ha) hagent).1 ((h a ha).2 heq)).1
    · rintro a ha ⟨hfree, haddr, hne⟩
      have heq := (h a ha).1 ((half_eq_iff (hparsed a ha) hagent).2 ⟨hfree, haddr⟩)
      exact hne (huser a ha heq)
  · rintro ⟨hfree, hnone⟩ a ha
    rw [half_eq_iff (hparsed a ha) hagent]
    constructor
    · rintro ⟨hauser, haddr⟩
      have heq : a.user = user := by
        by_contra hne
        exact hnone a ha ⟨hauser, haddr, hne⟩
      rw [haddr, heq, hown]
    · intro heq
      have heq' := huser a ha heq
      refine ⟨?_, ?_⟩
      · rw [heq']
        exact hfree ⟨a, ha, heq⟩
      · rw [heq, heq', hown]

end

section
variable (srv : Server) {s : Db} {ident : Identity Member} {sender : Address} {agent : PyStr} {args : Args}

/-- **When the roster hides the caller and nobody else.**  Iff the caller's user id has no slash,
where the caller is listed, and nobody else who is listed has a user id without a slash and the
caller's host, runtime, project and session. -/
theorem hides_self_iff (hsender : parseAgentHeader ident.userId agent = .ok sender)
    (hs : ∀ r ∈ s.directory, r.Parsed) {r : Response} {t : Db}
    (hrun : (opRoster ident sender args).run (exec srv) s = (.ok r, t)) :
    ∃ shown hidden, r = .roster (shown.map Row.public) hidden ∧
      (HidesSelf agent sender.text shown ↔
        ((∃ a ∈ shown, a.addr = sender.text) → PyStr.slash ∉ ident.userId) ∧
        ∀ a ∈ shown, ¬ (PyStr.slash ∉ a.user ∧ a.addr = a.user ++ lit "/" ++ agent ∧ a.user ≠ ident.userId)) := by
  obtain ⟨status, shown, hidden, rfl, hrostered⟩ := roster_conserves srv hrun
  refine ⟨shown, hidden, rfl, ?_⟩
  have hparsed : ∀ a ∈ shown, a.Parsed := by
    intro a ha
    exact hs a (List.mem_of_mem_filter (hrostered.filtered a ha).1)
  rw [hidesSelf_iff hsender hparsed]
  simp only [Stranger, List.append_assoc]
  rfl

end

/-! ## A namesake of another user -/

/-- On the same host, runtime, project and session as `ana`'s agent. -/
def eveSender : Address := ⟨lit "eve", lit "box", lit "claude", lit "web", lit "s1"⟩

def askAll : Args := [(lit "status", .str (lit "all"))]

def shadowRow : Row := Row.of shadowAddr.text (.of shadowAddr [lit "team"] .null 5) false

theorem eve_asks : (opRoster shadowCaller eveSender askAll).run (exec .plain) shadowStore =
    (.ok (.roster ([boxRow, shadowRow].map Row.public) []), shadowStore) := rfl

/-- `ana`'s agent is listed, and hidden from `eve`. -/
theorem namesake_hidden :
    (opRoster shadowCaller eveSender askAll).run (exec .plain) shadowStore =
        (.ok (.roster ([boxRow, shadowRow].map Row.public) []), shadowStore) ∧
      parseAgentHeader shadowCaller.userId (lit "box/claude/web/s1") = .ok eveSender ∧
      boxRow.addr ≠ eveSender.text ∧
      peers (lit "box/claude/web/s1") [boxRow, shadowRow] = .ok [shadowRow] ∧
      ¬ HidesSelf (lit "box/claude/web/s1") eveSender.text [boxRow, shadowRow] := by
  have hne : boxRow.addr ≠ eveSender.text := by decide
  refine ⟨eve_asks, rfl, hne, rfl, fun h => ?_⟩
  have hkept := (h.plugin boxRow List.mem_cons_self).2 hne
  have hself : isSelfJs (lit "box/claude/web/s1") boxRow = true := rfl
  rw [peersJs, List.mem_filter, hself] at hkept
  cases hkept.2

theorem hides_self_iff_namesake :
    ∃ shown hidden, Response.roster ([boxRow, shadowRow].map Row.public) [] = .roster (shown.map Row.public) hidden ∧
      (HidesSelf (lit "box/claude/web/s1") eveSender.text shown ↔
        ((∃ a ∈ shown, a.addr = eveSender.text) → PyStr.slash ∉ shadowCaller.userId) ∧
        ∀ a ∈ shown, ¬ (PyStr.slash ∉ a.user ∧ a.addr = a.user ++ lit "/" ++ lit "box/claude/web/s1" ∧
          a.user ≠ shadowCaller.userId)) :=
  hides_self_iff .plain rfl shadowStore_parsed eve_asks

end Muster
