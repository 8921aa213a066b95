import Muster.Lib.Member

/-!
# Addresses, references and the ACL predicate (`identity.py`)

An address is `user/host/runtime/project/session`.  `user` comes from the
resolver and may be any string, slashes included; the other four come from the
`x-muster-agent` header, which must split into four non-empty segments.  So an
address string determines both, read from its right-hand end
(`parseAgentHeader_text_inj`).
-/

namespace Muster

/-- Who the resolver says the caller is.  `γ` is the type of a group. -/
structure Identity (γ : Type) where
  userId : PyStr
  groups : List γ
  deriving DecidableEq

/-- The groups up to `==`: they are compared, and nothing else. -/
def Identity.members (ident : Identity Json) : Identity Member :=
  ⟨ident.userId, ident.groups.map Json.member⟩

structure Address where
  user : PyStr
  host : PyStr
  runtime : PyStr
  project : PyStr
  session : PyStr
  deriving DecidableEq

/-- `str(addr)`. -/
def Address.text (a : Address) : PyStr :=
  PyStr.join [a.user, a.host, a.runtime, a.project, a.session]

structure AddressError where
  message : String
  deriving DecidableEq

def parseAgentHeader (user header : PyStr) : Except AddressError Address :=
  match PyStr.split header with
  | [host, runtime, project, session] =>
    if host = [] ∨ runtime = [] ∨ project = [] ∨ session = [] then
      .error ⟨"x-muster-agent must be host/runtime/project/session, all segments non-empty"⟩
    else .ok ⟨user, host, runtime, project, session⟩
  | _ => .error ⟨"x-muster-agent must be host/runtime/project/session, all segments non-empty"⟩

/-- `matches`: a non-empty reference that is a `/`-joined slice of the segments. -/
def matchesRef (ref addr : PyStr) : Bool :=
  if ref = [] then false
  else
    let segs := PyStr.split addr
    (List.range segs.length).any fun i =>
      (List.range' (i + 1) (segs.length - i)).any fun j =>
        PyStr.join ((segs.drop i).take (j - i)) == ref

/-- `set(groups)` goes through. -/
def hashable (groups : List Member) : Bool := groups.all Member.hashable

/-- The ACL predicate: the same user, or a group in common.  `none` is the TypeError of a set
that is to hold a list or a dict. -/
def visible (callerUser : PyStr) (callerGroups : List Member) (agentUser : PyStr)
    (agentGroups : List Member) : Option Bool :=
  if callerUser = agentUser then some true
  else if hashable callerGroups && hashable agentGroups then
    some (callerGroups.any fun g => decide (g ∈ agentGroups))
  else none

section
variable {u v : PyStr} {gs hs : List Member}

theorem visible_of_hashable (hgs : hashable gs = true) (hhs : hashable hs = true) :
    visible u gs v hs = some true ↔ u = v ∨ ∃ g ∈ gs, g ∈ hs := by
  unfold visible
  by_cases huv : u = v
  · simp [huv]
  · simp [huv, hgs, hhs]

/-- The predicate does not hold of one thing and raise for another. -/
theorem visible_eq_none : visible u gs v hs = none ↔ u ≠ v ∧ ¬ (hashable gs = true ∧ hashable hs = true) := by
  unfold visible
  by_cases huv : u = v
  · simp [huv]
  · rw [if_neg huv, and_iff_right huv, ← Bool.and_eq_true]
    split
    · next h => exact iff_of_false (Option.some_ne_none _) (not_not_intro h)
    · next h => exact iff_of_true rfl h

/-- What is visible has its groups in common with the caller, where it is of another user. -/
theorem visible_iff : visible u gs v hs = some true ↔
    u = v ∨ hashable gs = true ∧ hashable hs = true ∧ ∃ g ∈ gs, g ∈ hs := by
  by_cases h : hashable gs = true ∧ hashable hs = true
  · rw [visible_of_hashable h.1 h.2, and_iff_right h.1, and_iff_right h.2]
  · unfold visible
    by_cases huv : u = v
    · simp [huv]
    · rw [if_neg huv, if_neg (by rwa [Bool.and_eq_true])]
      exact iff_of_false (Option.some_ne_none true).symm fun hv =>
        hv.elim huv fun hv => h ⟨hv.1, hv.2.1⟩

/-- The predicate is symmetric. -/
theorem visible_comm : visible u gs v hs = visible v hs u gs := by
  have hany : (gs.any fun g => decide (g ∈ hs)) = hs.any fun g => decide (g ∈ gs) := by
    rw [Bool.eq_iff_iff]
    simp only [List.any_eq_true, decide_eq_true_eq]
    exact exists_congr fun g => and_comm
  unfold visible
  rw [hany, Bool.and_comm]
  exact if_congr eq_comm rfl rfl

end

/-! ## An address string determines user and header -/

theorem parseAgentHeader_ok {user header : PyStr} {a : Address}
    (h : parseAgentHeader user header = .ok a) :
    a.user = user ∧ PyStr.split header = [a.host, a.runtime, a.project, a.session] ∧
      a.host ≠ [] ∧ a.runtime ≠ [] ∧ a.project ≠ [] ∧ a.session ≠ [] := by
  unfold parseAgentHeader at h
  split at h
  · next host runtime project session hs =>
    split at h
    · cases h
    · next hne =>
      simp only [not_or] at hne
      cases h
      exact ⟨rfl, hs, hne⟩
  · cases h

/-- The address prints as the user, a slash and the header. -/
theorem text_of_parseAgentHeader {user header : PyStr} {a : Address}
    (h : parseAgentHeader user header = .ok a) :
    a.text = user ++ PyStr.slash :: header := by
  obtain ⟨rfl, hs, -⟩ := parseAgentHeader_ok h
  have hj := PyStr.join_split header
  rw [hs] at hj
  rw [Address.text, ← hj]
  simp [PyStr.join, List.intercalate_cons_cons]

/-- Cut at the last slashes: as many segments as the header has, nothing of the user. -/
theorem append_slash_inj {u v h k : PyStr}
    (hlen : (PyStr.split h).length = (PyStr.split k).length)
    (heq : u ++ PyStr.slash :: h = v ++ PyStr.slash :: k) : u = v ∧ h = k := by
  have hs : PyStr.split u ++ PyStr.split h = PyStr.split v ++ PyStr.split k := by
    unfold PyStr.split
    rw [← List.splitOn_append_cons_self, ← List.splitOn_append_cons_self, heq]
  obtain ⟨hu, hh⟩ := List.append_inj' hs hlen
  constructor
  · rw [← PyStr.join_split u, hu, PyStr.join_split]
  · rw [← PyStr.join_split h, hh, PyStr.join_split]

/-- **Address strings are unambiguous**, whatever slashes a user id has. -/
theorem parseAgentHeader_text_inj {u v h k : PyStr} {a b : Address}
    (ha : parseAgentHeader u h = .ok a) (hb : parseAgentHeader v k = .ok b)
    (heq : a.text = b.text) : u = v ∧ h = k := by
  rw [text_of_parseAgentHeader ha, text_of_parseAgentHeader hb] at heq
  obtain ⟨-, hsa, -⟩ := parseAgentHeader_ok ha
  obtain ⟨-, hsb, -⟩ := parseAgentHeader_ok hb
  exact append_slash_inj (by rw [hsa, hsb]; rfl) heq

end Muster
