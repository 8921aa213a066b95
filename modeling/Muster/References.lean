import Muster.OpsRuns

/-!
# What a reference finds

A reference matches an address iff its segments are a run of the address's segments
(`matchesRef_iff`), so a longer reference matches no more, and what exactly one visible
agent matches stays with that agent (`references_narrow`).

A full address is a reference like any other.  A user id may have slashes, so the
address of one agent may be a run of the segments of another's
(`listed_address_ambiguous`); `listed_address_resolves_iff` says when it is not.
-/

namespace Muster

/-! ## A reference is a run of segments -/

theorem slice_isInfix {α : Type} (xs : List α) (i j : Nat) : (xs.drop i).take (j - i) <:+: xs :=
  (List.take_prefix _ _).isInfix.trans (List.drop_suffix i xs).isInfix

theorem matchesRef_iff (ref addr : PyStr) :
    matchesRef ref addr = true ↔ ref ≠ [] ∧ PyStr.split ref <:+: PyStr.split addr := by
  unfold matchesRef
  by_cases href : ref = []
  · simp [href]
  · simp only [href, if_false, List.any_eq_true, List.mem_range, List.mem_range', beq_iff_eq, ne_eq,
      not_false_eq_true, true_and]
    constructor
    · rintro ⟨i, hi, j, ⟨k, hk, rfl⟩, heq⟩
      have hinf := slice_isInfix (PyStr.split addr) i (i + 1 + 1 * k)
      generalize hxs : ((PyStr.split addr).drop i).take (i + 1 + 1 * k - i) = xs at hinf heq
      have hne : xs ≠ [] := by
        rw [← hxs]
        refine List.ne_nil_of_length_pos ?_
        rw [List.length_take, List.length_drop]
        omega
      have hslash : ∀ x ∈ xs, PyStr.slash ∉ x :=
        fun x hx => PyStr.slash_not_mem_of_mem_split (hinf.subset hx)
      rw [← heq, PyStr.split_join hslash hne]
      exact hinf
    · rintro ⟨before, after, heq⟩
      have hpos : 0 < (PyStr.split ref).length := List.length_pos_of_ne_nil (List.splitOn_ne_nil _ _)
      have hlen := congrArg List.length heq
      simp only [List.length_append] at hlen
      refine ⟨before.length, by omega, before.length + (PyStr.split ref).length,
        ⟨(PyStr.split ref).length - 1, by omega, by omega⟩, ?_⟩
      rw [← heq, List.append_assoc, List.drop_left, Nat.add_sub_cancel_left, List.take_left,
        PyStr.join_split]

/-! ## One, none or several -/

/-- The agents a reference matches. -/
def matched (ref : PyStr) (agents : List Row) : List Row :=
  agents.filter fun a => matchesRef ref a.addr

theorem get_candidates (code message candidates : Json) :
    Json.get (dict [("code", code), ("message", message), ("candidates", candidates)]) "candidates" =
      candidates := by
  have hcode : (lit "candidates" == lit "code") = false := by decide
  have hmessage : (lit "candidates" == lit "message") = false := by decide
  simp [Json.get, dict, List.lookup, hcode, hmessage]

theorem resolveReference_cases [Python] (ref : PyStr) (agents : List Row) :
    (∃ a, matched ref agents = [a] ∧ resolveReference (.str ref) agents = .ok a) ∨
    (matched ref agents = [] ∧ ∃ payload,
      resolveReference (.str ref) agents = .error (.opError 404 payload)) ∨
    (2 ≤ (matched ref agents).length ∧ ∃ payload,
      resolveReference (.str ref) agents = .error (.opError 409 payload) ∧
      Json.get payload "candidates" = .arr ((matched ref agents).map Row.public)) := by
  have hm : agents.filter (fun a => (Json.str ref).matchesRef a.addr) = matched ref agents := rfl
  unfold resolveReference
  rw [hm]
  generalize matched ref agents = hits
  match hits with
  | [] => exact .inr (.inl ⟨rfl, _, rfl⟩)
  | [a] => exact .inl ⟨a, rfl, rfl⟩
  | a :: b :: hits => exact .inr (.inr ⟨by simp, _, rfl, get_candidates _ _ _⟩)

theorem resolveReference_ok_iff [Python] {ref : PyStr} {agents : List Row} {a : Row} :
    resolveReference (.str ref) agents = .ok a ↔ matched ref agents = [a] := by
  obtain ⟨b, hm, hr⟩ | ⟨hm, _, hr⟩ | ⟨hm, _, hr, -⟩ := resolveReference_cases ref agents
  · rw [hm, hr]
    simp
  · rw [hm, hr]
    simp
  · rw [hr]
    refine ⟨nofun, fun h => ?_⟩
    rw [h] at hm
    simp at hm

theorem resolveReference_notFound_iff [Python] {ref : PyStr} {agents : List Row} :
    (∃ payload, resolveReference (.str ref) agents = .error (.opError 404 payload)) ↔
      matched ref agents = [] := by
  obtain ⟨b, hm, hr⟩ | ⟨hm, _, hr⟩ | ⟨hm, _, hr, -⟩ := resolveReference_cases ref agents
  · rw [hm, hr]
    simp
  · rw [hm, hr]
    simp
  · rw [hr]
    refine ⟨nofun, fun h => ?_⟩
    rw [h] at hm
    simp at hm

/-! ## Longer references -/

/-- The empty reference is a run of the segments of `/box`, which matches an agent of the
user with the empty id; it matches nothing itself. -/
theorem empty_reference_narrows_nothing :
    (∃ a, parseAgentHeader [] (lit "box/claude/web/s1") = .ok a ∧ a.text = lit "/box/claude/web/s1") ∧
    PyStr.split [] <:+: PyStr.split (lit "/box") ∧
    matchesRef (lit "/box") (lit "/box/claude/web/s1") = true ∧
    matchesRef [] (lit "/box/claude/web/s1") = false :=
  ⟨⟨⟨[], lit "box", lit "claude", lit "web", lit "s1"⟩, rfl, rfl⟩, ⟨[], [lit "box"], rfl⟩,
    by decide, rfl⟩

/-- **A longer reference matches no more.** -/
theorem matchesRef_of_run {short long addr : PyStr} (hne : short ≠ [])
    (hinf : PyStr.split short <:+: PyStr.split long) (h : matchesRef long addr = true) :
    matchesRef short addr = true :=
  (matchesRef_iff short addr).2 ⟨hne, hinf.trans ((matchesRef_iff long addr).1 h).2⟩

theorem matched_of_run {short long : PyStr} (hne : short ≠ [])
    (hinf : PyStr.split short <:+: PyStr.split long) (agents : List Row) :
    matched long agents = (matched short agents).filter fun a => matchesRef long a.addr := by
  unfold matched
  rw [List.filter_filter]
  refine List.filter_congr ?_
  intro a _
  cases h : matchesRef long a.addr with
  | false => rfl
  | true => rw [matchesRef_of_run hne hinf h, Bool.and_true]

/-- What one agent alone matches, a longer reference resolves to it or to nothing. -/
theorem resolveReference_of_run [Python] {short long : PyStr} (hne : short ≠ [])
    (hinf : PyStr.split short <:+: PyStr.split long) {agents : List Row} {a : Row}
    (h : resolveReference (.str short) agents = .ok a) :
    resolveReference (.str long) agents = .ok a ∨
      ∃ payload, resolveReference (.str long) agents = .error (.opError 404 payload) := by
  have hmatched := matched_of_run hne hinf agents
  rw [resolveReference_ok_iff.1 h] at hmatched
  rw [resolveReference_ok_iff, resolveReference_notFound_iff, hmatched]
  cases hlong : matchesRef long a.addr with
  | true => exact .inl (List.filter_cons_of_pos hlong)
  | false => exact .inr (List.filter_cons_of_neg (by simp [hlong]))

/-- **References are runs of segments, and longer ones only narrow.**  A reference matches an
address iff it is not empty and its segments are a run of the address's.  It resolves to an agent
iff that one alone matches, to 404 iff none does, and else to 409 with those that do.  One that
is a run of the segments of another, and not empty, matches every agent the other does, and
what it alone resolves to the other resolves to, or to nothing. -/
theorem references_narrow [Python] :
    (∀ ref addr : PyStr,
      matchesRef ref addr = true ↔ ref ≠ [] ∧ PyStr.split ref <:+: PyStr.split addr) ∧
    (∀ (ref : PyStr) (agents : List Row),
      (∀ a, resolveReference (.str ref) agents = .ok a ↔ matched ref agents = [a]) ∧
      ((∃ payload, resolveReference (.str ref) agents = .error (.opError 404 payload)) ↔
        matched ref agents = []) ∧
      (2 ≤ (matched ref agents).length → ∃ payload,
        resolveReference (.str ref) agents = .error (.opError 409 payload) ∧
        Json.get payload "candidates" = .arr ((matched ref agents).map Row.public))) ∧
    ∀ short long : PyStr, short ≠ [] → PyStr.split short <:+: PyStr.split long →
      ∀ agents : List Row, (∀ a ∈ matched long agents, a ∈ matched short agents) ∧
        ∀ a, resolveReference (.str short) agents = .ok a →
          resolveReference (.str long) agents = .ok a ∨
          ∃ payload, resolveReference (.str long) agents = .error (.opError 404 payload) := by
  refine ⟨matchesRef_iff, ?_, ?_⟩
  · intro ref agents
    refine ⟨fun a => resolveReference_ok_iff, resolveReference_notFound_iff, ?_⟩
    intro h
    obtain ⟨a, hm, -⟩ | ⟨hm, -⟩ | ⟨-, hr⟩ := resolveReference_cases ref agents
    · simp [hm] at h
    · simp [hm] at h
    · exact hr
  · intro short long hne hinf agents
    refine ⟨?_, fun a => resolveReference_of_run hne hinf⟩
    intro a ha
    rw [matched_of_run hne hinf agents] at ha
    exact List.mem_of_mem_filter ha

/-! ## Full addresses as references -/

/-- The row is of an agent whose header was accepted; its user id may be any string. -/
def Row.Parsed (a : Row) : Prop :=
  ∃ header addr, parseAgentHeader a.user header = .ok addr ∧ addr.text = a.addr

theorem Row.Parsed.addr_ne_nil {a : Row} (h : a.Parsed) : a.addr ≠ [] := by
  obtain ⟨header, addr, hp, ha⟩ := h
  rw [← ha, text_of_parseAgentHeader hp]
  simp

/-- Four segments after those of the user. -/
theorem Row.Parsed.length_split {a : Row} (h : a.Parsed) :
    (PyStr.split a.addr).length = (PyStr.split a.user).length + 4 := by
  obtain ⟨header, addr, hp, ha⟩ := h
  have hheader := (parseAgentHeader_ok hp).2.1
  unfold PyStr.split at hheader ⊢
  rw [← ha, text_of_parseAgentHeader hp, List.splitOn_append_cons_self, List.length_append, hheader]
  rfl

/-- The one way for an address to be a run of another's segments. -/
theorem Row.Parsed.eq_or_lt_of_run {a b : Row} (ha : a.Parsed) (hb : b.Parsed)
    (h : PyStr.split a.addr <:+: PyStr.split b.addr) :
    a.addr = b.addr ∨ (PyStr.split a.user).length < (PyStr.split b.user).length := by
  have hle := h.length_le
  rw [ha.length_split, hb.length_split] at hle
  rcases Nat.lt_or_ge (PyStr.split a.user).length (PyStr.split b.user).length with hlt | hge
  · exact .inr hlt
  · have hlen : (PyStr.split a.addr).length = (PyStr.split b.addr).length := by
      rw [ha.length_split, hb.length_split]
      omega
    left
    rw [← PyStr.join_split a.addr, h.eq_of_length hlen, PyStr.join_split]

/-- Nobody in sight whose user id has more slashes than `a`'s has `a`'s address as a run of the
segments of its own. -/
def Unshadowed (rows : List Row) (a : Row) : Prop :=
  ∀ b ∈ rows, (PyStr.split a.user).length < (PyStr.split b.user).length →
    ¬ PyStr.split a.addr <:+: PyStr.split b.addr

section
variable {rows : List Row} {a : Row}

/-- A listed agent matches its own address. -/
theorem mem_matched_addr (hp : a.Parsed) (ha : a ∈ rows) : a ∈ matched a.addr rows :=
  List.mem_filter.2 ⟨ha, (matchesRef_iff _ _).2 ⟨hp.addr_ne_nil, List.infix_rfl⟩⟩

theorem matched_addr_iff (hnodup : rows.Nodup)
    (hinj : ∀ r ∈ rows, ∀ r' ∈ rows, r.addr = r'.addr → r = r') (hparsed : ∀ r ∈ rows, r.Parsed)
    (ha : a ∈ rows) : matched a.addr rows = [a] ↔ Unshadowed rows a := by
  have hself := mem_matched_addr (hparsed a ha) ha
  constructor
  · intro h b hb hlt hinf
    have hmem : b ∈ matched a.addr rows :=
      List.mem_filter.2 ⟨hb, (matchesRef_iff _ _).2 ⟨(hparsed a ha).addr_ne_nil, hinf⟩⟩
    rw [h, List.mem_singleton] at hmem
    rw [hmem] at hlt
    exact lt_irrefl _ hlt
  · intro h
    have hall : ∀ b ∈ matched a.addr rows, b = a := by
      intro b hb
      obtain ⟨hb, hm⟩ := List.mem_filter.1 hb
      have hinf := ((matchesRef_iff _ _).1 hm).2
      rcases (hparsed a ha).eq_or_lt_of_run (hparsed b hb) hinf with he | hlt
      · exact (hinj a ha b hb he).symm
      · exact absurd hinf (h b hb hlt)
    refine List.perm_singleton.1 ?_
    refine (List.perm_ext_iff_of_nodup (hnodup.filter _) (List.nodup_singleton a)).2 ?_
    intro b
    rw [List.mem_singleton]
    constructor
    · exact hall b
    · rintro rfl
      exact hself

end

section
variable [Python] (srv : Server) (s : Db) (cfg : Config) (ident : Identity Member) (sender : Address)

/-- A chat ends in 404 or 409 where its size passes, the directory can be listed, and its reference
ends so. -/
theorem opChat_unresolved_iff (args : Args) {status : Nat} (hstatus : status = 404 ∨ status = 409) :
    (∃ payload, ((opChat cfg ident sender args).run (exec srv) s).1 = .error (.opError status payload)) ↔
      (∃ r, checkSize cfg.bodyMax ((Json.get args "body").or (.str [])) (Json.get args "subject") =
        .ok r) ∧ s.Listable ident ∧
      ∃ payload, resolveReference ((Json.get args "to").or (.str [])) (s.visibleRows ident) =
        .error (.opError status payload) := by
  rcases hrun : (opChat cfg ident sender args).run (exec srv) s with ⟨out, t⟩
  cases opChat_cases srv s cfg ident sender args hrun with
  | refused hsize =>
    refine iff_of_false ?_ (by simp [hsize])
    rintro ⟨payload, h⟩
    cases h
    obtain h | h | ⟨_, h⟩ := checkSize_error hsize
    · cases h
    · cases h
    · cases h
      omega
  | unlisted _ hlist => exact iff_of_false (by rintro ⟨payload, ⟨⟩⟩) fun h => hlist h.2.1
  | unresolved hsize hlist hto =>
    simp [hsize, hlist, hto]
  | toSelf hsize _ hto =>
    refine iff_of_false ?_ (by simp [hto])
    rintro ⟨payload, h⟩
    cases h
    omega
  | limited hsize _ hto =>
    refine iff_of_false ?_ (by simp [hto])
    rintro ⟨payload, h⟩
    cases h
    omega
  | passed hsize _ hto _ _ hsent =>
    refine iff_of_false ?_ (by simp [hto])
    rintro ⟨payload, rfl⟩
    unfold deliver at hsent
    split at hsent <;> cases hsent

/-- **When a listed agent is reached by its full address.**  Its address as a reference resolves
to it, and a chat that was ambiguous and is sent again to that address is neither ambiguous nor
without a target, iff nobody in sight whose user id has more slashes has that address as a run of
the segments of its own. -/
theorem listed_address_resolves_iff (hs : ∀ r ∈ s.directory, r.Parsed) {a : Row}
    (ha : a ∈ s.visibleRows ident) :
    (resolveReference (.str a.addr) (s.visibleRows ident) = .ok a ↔
      Unshadowed (s.visibleRows ident) a) ∧
    ∀ (args again : Args) (payload : List (PyStr × Json)),
      ((opChat cfg ident sender args).run (exec srv) s).1 = .error (.opError 409 payload) →
      Json.get again "to" = .str a.addr → Json.get again "body" = Json.get args "body" →
      Json.get again "subject" = Json.get args "subject" →
      ((∀ status payload, status = 404 ∨ status = 409 →
        ((opChat cfg ident sender again).run (exec srv) s).1 ≠ .error (.opError status payload)) ↔
        Unshadowed (s.visibleRows ident) a) := by
  have hvis : ∀ r ∈ s.visibleRows ident, r ∈ s.directory := fun r hr => List.mem_of_mem_filter hr
  have hparsed : ∀ r ∈ s.visibleRows ident, r.Parsed := fun r hr => hs r (hvis r hr)
  have hmatched : matched a.addr (s.visibleRows ident) = [a] ↔ Unshadowed (s.visibleRows ident) a :=
    matched_addr_iff ((directory_nodup s).filter _)
      (fun r hr r' hr' => directory_inj s (hvis r hr) (hvis r' hr')) hparsed ha
  refine ⟨resolveReference_ok_iff.trans hmatched, ?_⟩
  intro args again payload h409 hto hbody hsubject
  obtain ⟨hsize, hlist, -⟩ := (opChat_unresolved_iff srv s cfg ident sender args (.inr rfl)).1 ⟨payload, h409⟩
  have hagain := @opChat_unresolved_iff _ srv s cfg ident sender again
  rw [hto, hbody, hsubject] at hagain
  have hor : (Json.str a.addr).or (.str []) = .str a.addr :=
    Json.or_of_truthy (bne_iff_ne.2 (hparsed a ha).addr_ne_nil)
  rw [hor] at hagain
  rw [← hmatched, ← resolveReference_ok_iff]
  have hself := mem_matched_addr (hparsed a ha) ha
  constructor
  · intro h
    obtain ⟨b, hm, -⟩ | ⟨hm, -⟩ | ⟨-, payload, hr, -⟩ := resolveReference_cases a.addr (s.visibleRows ident)
    · rw [hm] at hself
      rw [resolveReference_ok_iff, hm, List.mem_singleton.1 hself]
    · rw [hm] at hself
      cases hself
    · obtain ⟨payload', h'⟩ := (hagain (.inr rfl)).2 ⟨hsize, hlist, payload, hr⟩
      exact absurd h' (h 409 payload' (.inr rfl))
  · intro hok status payload hstatus h
    obtain ⟨-, -, payload', hr⟩ := (hagain hstatus).1 ⟨payload, h⟩
    rw [hok] at hr
    cases hr

end

/-! ## Two agents of which one cannot be addressed -/

def boxAddr : Address := ⟨lit "ana", lit "box", lit "claude", lit "web", lit "s1"⟩

/-- The same host, under a user id that ends like the other one. -/
def shadowAddr : Address := ⟨lit "corp/ana", lit "box", lit "claude", lit "web", lit "s1"⟩

/-- Both are registered, in one group. -/
def shadowStore : Db :=
  (exec Server.plain (.register shadowAddr.text (.of shadowAddr [lit "team"] .null 5) 60)
    (exec Server.plain (.register boxAddr.text (.of boxAddr [lit "team"] .null 5) 60)
      (.empty 5000)).1).1

def shadowCaller : Identity Member := ⟨lit "eve", [lit "team"]⟩

def shadowSender : Address := ⟨lit "eve", lit "h", lit "r", lit "p", lit "x"⟩

def boxRow : Row := Row.of boxAddr.text (.of boxAddr [lit "team"] .null 5) false

def toBox : Args := [(lit "to", .str boxAddr.text), (lit "body", .str (lit "hi"))]

/-- The address of an agent in sight is ambiguous, so there is no reaching it. -/
theorem listed_address_ambiguous :
    (∃ rows, (visibleAgents shadowCaller).run (exec .plain) shadowStore = (.ok rows, shadowStore) ∧
      boxRow ∈ rows ∧ boxRow.Parsed ∧
      ∃ payload, @resolveReference Python.plain (.str boxRow.addr) rows = .error (.opError 409 payload)) ∧
    ∃ payload, ((@opChat Config.defaults shadowCaller shadowSender toBox Python.plain).run (exec .plain)
      shadowStore).1 = .error (.opError 409 payload) :=
  ⟨⟨_, rfl, List.mem_cons_self, ⟨lit "box/claude/web/s1", boxAddr, rfl, rfl⟩, _, rfl⟩, _, rfl⟩

theorem shadowStore_parsed : ∀ r ∈ shadowStore.directory, r.Parsed := by
  intro r hr
  obtain ⟨hm, hrow⟩ := (mem_directory shadowStore).1 hr
  have hmembers : shadowStore.members = {shadowAddr.text, boxAddr.text} := rfl
  rw [hmembers, Finset.mem_insert, Finset.mem_singleton] at hm
  rcases hm with hm | hm <;> rw [hm] at hrow <;> cases hrow
  · exact ⟨lit "box/claude/web/s1", shadowAddr, rfl, rfl⟩
  · exact ⟨lit "box/claude/web/s1", boxAddr, rfl, rfl⟩

theorem boxRow_visible : boxRow ∈ shadowStore.visibleRows shadowCaller := by
  refine List.mem_filter.2 ⟨(mem_directory shadowStore).2 ⟨?_, rfl⟩, rfl⟩
  show boxAddr.text ∈ ({shadowAddr.text, boxAddr.text} : Finset PyStr)
  simp

theorem listed_address_resolves_iff_boxRow :
    (@resolveReference Python.plain (.str boxRow.addr) (shadowStore.visibleRows shadowCaller) =
        .ok boxRow ↔ Unshadowed (shadowStore.visibleRows shadowCaller) boxRow) ∧
    ((∀ status payload, status = 404 ∨ status = 409 →
      ((@opChat Config.defaults shadowCaller shadowSender toBox Python.plain).run (exec .plain)
        shadowStore).1 ≠ .error (.opError status payload)) ↔
      Unshadowed (shadowStore.visibleRows shadowCaller) boxRow) := by
  have h := @listed_address_resolves_iff Python.plain .plain shadowStore Config.defaults shadowCaller
    shadowSender shadowStore_parsed boxRow boxRow_visible
  exact ⟨h.1, h.2 toBox toBox _ rfl rfl rfl rfl⟩

end Muster
