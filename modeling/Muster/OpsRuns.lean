import Muster.StoreRuns

/-!
# Requests run alone

Each handler as an equation over the store it starts from: which checks it makes in
which order, what it answers, and the commands that change the store.  A handler sees
the directory only through `Db.visibleRows`.
-/

namespace Muster

section
variable (srv : Server) (s : Db)

theorem lift_run {α β : Type} (x : Except PyExn α) (f : α → M β) :
    ((liftM x : M α) >>= f).run (exec srv) s =
      match x with
      | .ok a => (f a).run (exec srv) s
      | .error e => (.error e, s) := by
  cases x <;> rfl

/-! ## Rate limits -/

/-- The calls counted in the present window. -/
def Db.counter (kind : RateKind) (a : PyStr) : Nat := (s.keys.get s.now (.rate kind a)).getD 0

/-- The key that INCR with EXPIRE NX leaves has a deadline, so TTL finds nothing to re-arm. -/
theorem look_rate_incr (kind : RateKind) (a : PyStr) (window : Int) {slot : Slot Nat}
    (h : (exec srv (.incr kind a window) s).1.keys.look s.now (.rate kind a) = some slot) :
    slot.deadline ≠ none := by
  simp only [exec] at h
  rw [Keyspace.look_expireNx_same, Keyspace.look_edit_same] at h
  simp only [Option.bind_some] at h
  split at h
  · cases h
    simp
  · split at h
    · cases h
    · cases h
      simp

/-- **A rate check alone is one INCR**: it passes if the count is then within the limit. -/
theorem rateCheck_run (kind : RateKind) (a : PyStr) (limit window : Int) :
    ∃ retry, (rateCheck kind a limit window).run (exec srv) s =
      (.ok (decide ((s.counter kind a : Int) + 1 ≤ limit), retry),
        (exec srv (.incr kind a window) s).1) := by
  have hn : (exec srv (.incr kind a window) s).2 = s.counter kind a + 1 := rfl
  have hnow := exec_now srv (.incr kind a window) s
  have hlook : ∀ slot, (exec srv (.incr kind a window) s).1.keys.look s.now (.rate kind a) = some slot →
      slot.deadline ≠ none := fun _ => look_rate_incr srv s kind a window
  unfold rateCheck
  simp only [send, Prog.cmd_bind, Prog.run_call, hn]
  generalize (exec srv (.incr kind a window) s).1 = t at hnow hlook ⊢
  by_cases hlim : limit < (s.counter kind a + 1 : Nat)
  · rw [if_pos hlim, decide_eq_false (by omega)]
    show ∃ retry, Prog.run (exec srv) (if t.keys.ttl t.now (.rate kind a) < 0 then _ else _) t = _
    rw [hnow]
    by_cases httl : t.keys.ttl s.now (.rate kind a) < 0
    · have hnone : t.keys.look s.now (.rate kind a) = none := by
        cases hs : t.keys.look s.now (.rate kind a) with
        | none => rfl
        | some slot => exact absurd (Keyspace.ttl_neg_iff.1 httl slot hs) (hlook slot hs)
      rw [if_pos httl]
      refine ⟨max window 1, ?_⟩
      show (Except.ok (false, max window 1), { t with keys := t.keys.expire t.now _ window }) = _
      rw [Keyspace.expire_of_look_none (by rw [hnow]; exact hnone)]
    · rw [if_neg httl]
      exact ⟨_, rfl⟩
  · rw [if_neg hlim, decide_eq_true (by omega)]
    exact ⟨0, rfl⟩

def rateExceeded (retry limit window : Int) : PyExn := .opError 429 (dict [
  ("code", .str (lit "message_rate_exceeded")), ("retry_after", .int retry),
  ("limit", .int limit), ("window", .int window),
  ("message", .str (lit ("Unusually high agent messaging rate; possible message " ++
    "loop. Wait until the retry window expires before continuing.")))])

theorem checkRate_run (kind : RateKind) (a : PyStr) (limit window : Int) :
    ∃ retry, (checkRate kind a limit window).run (exec srv) s =
      (if (s.counter kind a : Int) + 1 ≤ limit then .ok () else .error (rateExceeded retry limit window),
        (exec srv (.incr kind a window) s).1) := by
  obtain ⟨retry, hrun⟩ := rateCheck_run srv s kind a limit window
  refine ⟨retry, ?_⟩
  unfold checkRate
  rw [Prog.run_bind_of_ok _ hrun]
  by_cases h : (s.counter kind a : Int) + 1 ≤ limit
  · rw [decide_eq_true h, if_pos h]
    rfl
  · rw [decide_eq_false h, if_neg h]
    rfl

end

/-! ## The size check -/

theorem isStr_iff {v : Json} {x : PyStr} : v.isStr x = true ↔ v = .str x := by
  cases v <;> simp [Json.isStr]

/-- A string argument; empty where there is none. -/
def Json.asStr : Json → PyStr
  | .str s => s
  | _ => []

theorem asStr_of_or {j : Json} {x : PyStr} (h : j.or (.str []) = .str x) : j.asStr = x := by
  unfold Json.or at h
  split at h
  · rw [h]; rfl
  · next hf =>
    cases h
    cases j with
    | str s =>
      simp only [Json.truthy, bne_iff_ne, ne_eq, Decidable.not_not] at hf
      exact hf
    | _ => rfl

theorem encode_ok {j : Json} {x : PyStr} {n : Nat} (h : encode j = .ok (x, n)) : j = .str x := by
  unfold encode at h
  split at h
  · split at h
    · cases h; rfl
    · cases h
  · cases h

/-- What passes the size check are the strings of the arguments. -/
theorem checkSize_ok {bodyMax : Int} {j k : Json} {x y : PyStr}
    (h : checkSize bodyMax (j.or (.str [])) k = .ok (x, y)) : j.asStr = x ∧ k.asStr = y := by
  unfold checkSize at h
  cases hb : encode (j.or (.str [])) with
  | error e => rw [hb] at h; cases h
  | ok r =>
    obtain ⟨b, n⟩ := r
    rw [hb] at h
    change (encode (k.or (.str [])) >>= _) = _ at h
    cases hs : encode (k.or (.str [])) with
    | error e => rw [hs] at h; cases h
    | ok r =>
      obtain ⟨c, m⟩ := r
      rw [hs] at h
      change (if bodyMax < (n : Int) + m then _ else _ : Except PyExn (PyStr × PyStr)) = _ at h
      split at h
      · cases h
      · cases h
        exact ⟨asStr_of_or (encode_ok hb), asStr_of_or (encode_ok hs)⟩

theorem encode_error {j : Json} {e : PyExn} (h : encode j = .error e) :
    e = .unicodeEncodeError ∨ e = .attributeError := by
  unfold encode at h
  split at h
  · split at h
    · cases h
    · cases h
      exact .inl rfl
  · cases h
    exact .inr rfl

/-- A body and subject that are not strings one can encode, or more than the cap. -/
theorem checkSize_error {bodyMax : Int} {body subject : Json} {e : PyExn}
    (h : checkSize bodyMax body subject = .error e) :
    e = .unicodeEncodeError ∨ e = .attributeError ∨ ∃ payload, e = .opError 413 payload := by
  have henc : e = .unicodeEncodeError ∨ e = .attributeError →
      e = .unicodeEncodeError ∨ e = .attributeError ∨ ∃ payload, e = .opError 413 payload :=
    fun h => h.elim .inl fun h => .inr (.inl h)
  unfold checkSize at h
  cases hb : encode body with
  | error e' =>
    rw [hb] at h
    cases h
    exact henc (encode_error hb)
  | ok b =>
    rw [hb] at h
    cases hs : encode (subject.or (.str [])) with
    | error e' =>
      rw [hs] at h
      cases h
      exact henc (encode_error hs)
    | ok t =>
      rw [hs] at h
      obtain ⟨b, n⟩ := b
      obtain ⟨t, m⟩ := t
      replace h : (if bodyMax < n + m then _ else _ : Except PyExn (PyStr × PyStr)) = .error e := h
      split at h
      · cases h
        exact .inr (.inr ⟨_, rfl⟩)
      · cases h

/-! ## The handlers -/

section
variable (srv : Server) (s : Db) (cfg : Config) (ident : Identity Member) (sender : Address)
  (args : Args)

/-- The last part of a chat: the message is stamped and appended, then published. -/
def deliver (target : Row) (body subject : PyStr) : Except PyExn Response × Db :=
  if cfg.inboxMaxlen < 0 then (.error .dataError, s)
  else
    let important := (Json.get args "important").truthy
    let r := exec srv (.xadd target.addr (chatFields sender.text body subject important) s.sec
      (s.sec + cfg.messageTtl) cfg.inboxMaxlen.toNat) s
    (.ok (.chat r.2 target.addr target.status),
      (exec srv (.publish target.addr (chatEvent r.2 sender.text body subject important)) r.1).1)

def selfSend : PyExn := .opError 400 (dict [("code", .str (lit "self_send")),
  ("message", .str (lit "target resolves to the sending agent"))])

theorem opChat_run [Python] : (opChat cfg ident sender args).run (exec srv) s =
    match checkSize cfg.bodyMax ((Json.get args "body").or (.str [])) (Json.get args "subject") with
    | .error e => (.error e, s)
    | .ok (body, subject) =>
      if s.Listable ident then
        match resolveReference ((Json.get args "to").or (.str [])) (s.visibleRows ident) with
        | .error e => (.error e, s)
        | .ok target =>
          if target.addr = sender.text then (.error selfSend, s)
          else
            match (checkRate .chat sender.text cfg.chatRate cfg.rateWindow).run (exec srv) s with
            | (.error e, t) => (.error e, t)
            | (.ok _, t) => deliver srv t cfg sender args target body subject
      else (.error .typeError, s) := by
  unfold opChat
  rw [lift_run]
  cases checkSize cfg.bodyMax ((Json.get args "body").or (.str [])) (Json.get args "subject") with
  | error e => rfl
  | ok r =>
    obtain ⟨body, subject⟩ := r
    dsimp only
    rw [visibleAgents_bind_run, lift_run]
    refine if_congr Iff.rfl ?_ rfl
    cases resolveReference ((Json.get args "to").or (.str [])) (s.visibleRows ident) with
    | error e => rfl
    | ok target =>
      dsimp only
      split
      · rfl
      · rw [Prog.run_bind]
        rcases (checkRate .chat sender.text cfg.chatRate cfg.rateWindow).run (exec srv) s
          with ⟨_ | _, t⟩
        · rfl
        · show Prog.run (exec srv) (Prog.bind (if cfg.inboxMaxlen < 0 then _ else _) _) t = _
          unfold deliver
          split <;> rfl

/-- How a chat ends, and what it leaves. -/
inductive ChatResult [Python] : Except PyExn Response → Db → Prop
  | refused {e : PyExn}
    (hsize : checkSize cfg.bodyMax ((Json.get args "body").or (.str [])) (Json.get args "subject") =
      .error e) : ChatResult (.error e) s
  | unlisted {sized : PyStr × PyStr}
    (hsize : checkSize cfg.bodyMax ((Json.get args "body").or (.str [])) (Json.get args "subject") =
      .ok sized)
    (hlist : ¬ s.Listable ident) : ChatResult (.error .typeError) s
  | unresolved {sized : PyStr × PyStr} {e : PyExn}
    (hsize : checkSize cfg.bodyMax ((Json.get args "body").or (.str [])) (Json.get args "subject") =
      .ok sized)
    (hlist : s.Listable ident)
    (hto : resolveReference ((Json.get args "to").or (.str [])) (s.visibleRows ident) = .error e) :
    ChatResult (.error e) s
  | toSelf {sized : PyStr × PyStr} {target : Row}
    (hsize : checkSize cfg.bodyMax ((Json.get args "body").or (.str [])) (Json.get args "subject") =
      .ok sized)
    (hlist : s.Listable ident)
    (hto : resolveReference ((Json.get args "to").or (.str [])) (s.visibleRows ident) = .ok target)
    (hself : target.addr = sender.text) : ChatResult (.error selfSend) s
  | limited {sized : PyStr × PyStr} {target : Row} {retry : Int}
    (hsize : checkSize cfg.bodyMax ((Json.get args "body").or (.str [])) (Json.get args "subject") =
      .ok sized)
    (hlist : s.Listable ident)
    (hto : resolveReference ((Json.get args "to").or (.str [])) (s.visibleRows ident) = .ok target)
    (hother : target.addr ≠ sender.text)
    (hlimit : cfg.chatRate < (s.counter .chat sender.text : Int) + 1) :
    ChatResult (.error (rateExceeded retry cfg.chatRate cfg.rateWindow))
      (exec srv (.incr .chat sender.text cfg.rateWindow) s).1
  | passed {body subject : PyStr} {target : Row} {out : Except PyExn Response} {t : Db}
    (hsize : checkSize cfg.bodyMax ((Json.get args "body").or (.str [])) (Json.get args "subject") =
      .ok (body, subject))
    (hlist : s.Listable ident)
    (hto : resolveReference ((Json.get args "to").or (.str [])) (s.visibleRows ident) = .ok target)
    (hother : target.addr ≠ sender.text)
    (hlimit : (s.counter .chat sender.text : Int) + 1 ≤ cfg.chatRate)
    (hsent : deliver srv (exec srv (.incr .chat sender.text cfg.rateWindow) s).1 cfg sender args target
      body subject = (out, t)) : ChatResult out t

theorem opChat_cases [Python] {out : Except PyExn Response} {t : Db}
    (hrun : (opChat cfg ident sender args).run (exec srv) s = (out, t)) :
    ChatResult srv s cfg ident sender args out t := by
  rw [opChat_run] at hrun
  cases hsize : checkSize cfg.bodyMax ((Json.get args "body").or (.str [])) (Json.get args "subject") with
  | error e =>
    rw [hsize] at hrun
    cases hrun
    exact .refused hsize
  | ok sized =>
    obtain ⟨body, subject⟩ := sized
    by_cases hlist : s.Listable ident
    case neg =>
      simp only [hsize, if_neg hlist] at hrun
      cases hrun
      exact .unlisted hsize hlist
    cases hto : resolveReference ((Json.get args "to").or (.str [])) (s.visibleRows ident) with
    | error e =>
      simp only [hsize, if_pos hlist, hto] at hrun
      cases hrun
      exact .unresolved hsize hlist hto
    | ok target =>
      simp only [hsize, if_pos hlist, hto] at hrun
      by_cases hself : target.addr = sender.text
      · rw [if_pos hself] at hrun
        cases hrun
        exact .toSelf hsize hlist hto hself
      · rw [if_neg hself] at hrun
        obtain ⟨retry, hrate⟩ := checkRate_run srv s .chat sender.text cfg.chatRate cfg.rateWindow
        rw [hrate] at hrun
        by_cases hlimit : (s.counter .chat sender.text : Int) + 1 ≤ cfg.chatRate
        · rw [if_pos hlimit] at hrun
          exact .passed hsize hlist hto hself hlimit hrun
        · rw [if_neg hlimit] at hrun
          cases hrun
          exact .limited hsize hlist hto hself (by omega)

theorem opFetch_run_eq [Python] : (opFetch sender args).run (exec srv) s =
    match pyInt ((Json.get args "limit").or (.int 20)) with
    | .error e => (.error e, s)
    | .ok n =>
      (((fetchUnread sender.text (min n 100)).run (exec srv) s).1.map fun es =>
        .fetch (es.map Message.of), ((fetchUnread sender.text (min n 100)).run (exec srv) s).2) := by
  unfold opFetch
  rw [lift_run]
  cases pyInt ((Json.get args "limit").or (.int 20)) with
  | error e => rfl
  | ok n =>
    dsimp only
    rw [Prog.run_bind]
    rcases (fetchUnread sender.text (min n 100)).run (exec srv) s with ⟨_ | _, t⟩ <;> rfl

/-- What `op_roster` answers, from the rows the caller can see. -/
def rosterOf (rows : List Row) : Except PyExn Response := do
  let agents := filterField args "user" Row.user rows
  let agents := filterField args "project" Row.project agents
  let agents := filterField args "runtime" Row.runtime agents
  let agents ← filterGroup ident args agents
  match parseStatus ((Json.get args "status").or (.str (lit "online"))) with
  | none => .error (.opError 400 (dict [("code", .str (lit "invalid_status")),
      ("message", .str (lit "status must be one of online, offline, all"))]))
  | some none => return .roster (agents.map Row.public) []
  | some (some status) =>
    let dropped := agents.filter fun a => a.status ≠ status && a.addr ≠ sender.text
    return .roster ((agents.filter (·.status = status)).map Row.public)
      (hiddenCounts (dropped.map Row.project))

theorem opRoster_run : (opRoster ident sender args).run (exec srv) s =
    (if s.Listable ident then rosterOf ident sender args (s.visibleRows ident) else .error .typeError,
      s) := by
  unfold opRoster rosterOf
  rw [visibleAgents_bind_run]
  by_cases hlist : s.Listable ident
  case neg => rw [if_neg hlist, if_neg hlist]
  rw [if_pos hlist, if_pos hlist]
  dsimp only
  rw [lift_run]
  cases filterGroup ident args _ with
  | error e => rfl
  | ok agents =>
    show Prog.run (exec srv) (match parseStatus _ with | none => _ | some none => _ | some (some _) => _) s
      = _
    cases parseStatus ((Json.get args "status").or (.str (lit "online"))) with
    | none => rfl
    | some status => cases status <;> rfl

/-- Counting the call leaves the directory as it is. -/
theorem directory_incr (kind : RateKind) (a : PyStr) (window : Int) :
    (exec srv (.incr kind a window) s).1.directory = s.directory := by
  refine directory_congr (exec_now srv _ s) ?_
  intro k hk
  refine exec_other srv _ s ?_
  cases k <;> first | exact hk.elim | simp [Cmd.writes]

theorem listable_incr (kind : RateKind) (a : PyStr) (window : Int) :
    (exec srv (.incr kind a window) s).1.Listable ident ↔ s.Listable ident := by
  unfold Db.Listable
  rw [directory_incr]

/-- One event to each of the rows. -/
def Db.publishTo (event : Json) (rows : List Row) : Db :=
  { s with pubs := s.pubs ++ rows.map fun a => (notifyChannel a.addr, event) }

theorem publishAll_run (event : Json) (rows : List Row) :
    (publishAll event rows).run (exec srv) s = (.ok (), s.publishTo event rows) := by
  induction rows generalizing s with
  | nil => simp [publishAll, Db.publishTo]
  | cons a rows ih =>
    show (publishAll event rows).run (exec srv) _ = _
    rw [ih]
    simp [exec, Db.publishTo]

def eligible (inScope : Row → Bool) (rows : List Row) : List Row :=
  rows.filter fun a => inScope a && ((Json.get args "project").or (.str [])).isStr a.project &&
    a.status = .online && a.addr ≠ sender.text

def projectRequired : PyExn := .opError 400 (dict [("code", .str (lit "invalid_scope")),
  ("message", .str (lit "project is required"))])

theorem opAnnounce_run : (opAnnounce cfg ident sender args).run (exec srv) s =
    if ((Json.get args "project").or (.str [])).truthy then
      match checkSize cfg.bodyMax ((Json.get args "body").or (.str [])) (Json.get args "subject") with
      | .error e => (.error e, s)
      | .ok (body, subject) =>
        match resolveScope ident ((Json.get args "scope").or (.str [])) with
        | .error e => (.error e, s)
        | .ok inScope =>
          match (checkRate .announce sender.text cfg.announceRate cfg.rateWindow).run (exec srv) s with
          | (.error e, t) => (.error e, t)
          | (.ok _, t) =>
            if t.Listable ident then
              (.ok (.announce (eligible sender args inScope (t.visibleRows ident)).length),
                t.publishTo (announceEvent sender.text body subject)
                  (eligible sender args inScope (t.visibleRows ident)))
            else (.error .typeError, t)
    else (.error projectRequired, s) := by
  unfold opAnnounce
  dsimp only
  split
  · rw [lift_run]
    cases checkSize cfg.bodyMax ((Json.get args "body").or (.str [])) (Json.get args "subject") with
    | error e => rfl
    | ok r =>
      obtain ⟨body, subject⟩ := r
      dsimp only
      rw [lift_run]
      cases resolveScope ident ((Json.get args "scope").or (.str [])) with
      | error e => rfl
      | ok inScope =>
        dsimp only
        rw [Prog.run_bind]
        rcases (checkRate .announce sender.text cfg.announceRate cfg.rateWindow).run (exec srv) s
          with ⟨_ | _, t⟩
        · rfl
        · dsimp only
          rw [visibleAgents_bind_run, Prog.run_bind_of_ok _ (publishAll_run srv t _ _)]
          rfl
  · rfl

/-- How an announce ends, and what it leaves. -/
inductive AnnounceResult : Except PyExn Response → Db → Prop
  | unnamed (hproject : ((Json.get args "project").or (.str [])).truthy = false) :
    AnnounceResult (.error projectRequired) s
  | refused {e : PyExn} (hproject : ((Json.get args "project").or (.str [])).truthy = true)
    (hsize : checkSize cfg.bodyMax ((Json.get args "body").or (.str [])) (Json.get args "subject") =
      .error e) : AnnounceResult (.error e) s
  | unscoped {sized : PyStr × PyStr} {e : PyExn}
    (hproject : ((Json.get args "project").or (.str [])).truthy = true)
    (hsize : checkSize cfg.bodyMax ((Json.get args "body").or (.str [])) (Json.get args "subject") =
      .ok sized)
    (hscope : resolveScope ident ((Json.get args "scope").or (.str [])) = .error e) :
    AnnounceResult (.error e) s
  | limited {sized : PyStr × PyStr} {inScope : Row → Bool} {retry : Int}
    (hproject : ((Json.get args "project").or (.str [])).truthy = true)
    (hsize : checkSize cfg.bodyMax ((Json.get args "body").or (.str [])) (Json.get args "subject") =
      .ok sized)
    (hscope : resolveScope ident ((Json.get args "scope").or (.str [])) = .ok inScope)
    (hlimit : cfg.announceRate < (s.counter .announce sender.text : Int) + 1) :
    AnnounceResult (.error (rateExceeded retry cfg.announceRate cfg.rateWindow))
      (exec srv (.incr .announce sender.text cfg.rateWindow) s).1
  | unlisted {sized : PyStr × PyStr} {inScope : Row → Bool} {t : Db}
    (hproject : ((Json.get args "project").or (.str [])).truthy = true)
    (hsize : checkSize cfg.bodyMax ((Json.get args "body").or (.str [])) (Json.get args "subject") =
      .ok sized)
    (hscope : resolveScope ident ((Json.get args "scope").or (.str [])) = .ok inScope)
    (hlimit : (s.counter .announce sender.text : Int) + 1 ≤ cfg.announceRate)
    (hcounted : t = (exec srv (.incr .announce sender.text cfg.rateWindow) s).1)
    (hlist : ¬ s.Listable ident) : AnnounceResult (.error .typeError) t
  | passed {body subject : PyStr} {inScope : Row → Bool} {t : Db}
    (hproject : ((Json.get args "project").or (.str [])).truthy = true)
    (hsize : checkSize cfg.bodyMax ((Json.get args "body").or (.str [])) (Json.get args "subject") =
      .ok (body, subject))
    (hscope : resolveScope ident ((Json.get args "scope").or (.str [])) = .ok inScope)
    (hlimit : (s.counter .announce sender.text : Int) + 1 ≤ cfg.announceRate)
    (hcounted : t = (exec srv (.incr .announce sender.text cfg.rateWindow) s).1)
    (hlist : s.Listable ident) :
    AnnounceResult (.ok (.announce (eligible sender args inScope (t.visibleRows ident)).length))
      (t.publishTo (announceEvent sender.text body subject)
        (eligible sender args inScope (t.visibleRows ident)))

theorem opAnnounce_cases {out : Except PyExn Response} {t : Db}
    (hrun : (opAnnounce cfg ident sender args).run (exec srv) s = (out, t)) :
    AnnounceResult srv s cfg ident sender args out t := by
  rw [opAnnounce_run] at hrun
  by_cases hproject : ((Json.get args "project").or (.str [])).truthy = true
  · rw [if_pos hproject] at hrun
    cases hsize : checkSize cfg.bodyMax ((Json.get args "body").or (.str [])) (Json.get args "subject") with
    | error e =>
      rw [hsize] at hrun
      cases hrun
      exact .refused hproject hsize
    | ok sized =>
      obtain ⟨body, subject⟩ := sized
      cases hscope : resolveScope ident ((Json.get args "scope").or (.str [])) with
      | error e =>
        simp only [hsize, hscope] at hrun
        cases hrun
        exact .unscoped hproject hsize hscope
      | ok inScope =>
        obtain ⟨retry, hrate⟩ := checkRate_run srv s .announce sender.text cfg.announceRate cfg.rateWindow
        simp only [hsize, hscope, hrate] at hrun
        by_cases hlimit : (s.counter .announce sender.text : Int) + 1 ≤ cfg.announceRate
        · rw [if_pos hlimit] at hrun
          have hsame := listable_incr srv s ident .announce sender.text cfg.rateWindow
          by_cases hlist : s.Listable ident
          · simp only [if_pos (hsame.2 hlist)] at hrun
            cases hrun
            exact .passed hproject hsize hscope hlimit rfl hlist
          · simp only [if_neg fun h => hlist (hsame.1 h)] at hrun
            cases hrun
            exact .unlisted hproject hsize hscope hlimit rfl hlist
        · rw [if_neg hlimit] at hrun
          cases hrun
          exact .limited hproject hsize hscope (by omega)
  · rw [if_neg hproject] at hrun
    cases hrun
    exact .unnamed (Bool.eq_false_iff.2 hproject)

/-! ## The directory -/

/-- The request gets as far as listing the agents. -/
inductive ReachesDirectory (op : PyStr) : Prop
  | chat {sized : PyStr × PyStr} (hop : op = lit "chat")
    (hsize : checkSize cfg.bodyMax ((Json.get args "body").or (.str [])) (Json.get args "subject") =
      .ok sized)
  | roster (hop : op = lit "roster")
  | announce {sized : PyStr × PyStr} {inScope : Row → Bool} (hop : op = lit "announce")
    (hproject : ((Json.get args "project").or (.str [])).truthy = true)
    (hsize : checkSize cfg.bodyMax ((Json.get args "body").or (.str [])) (Json.get args "subject") =
      .ok sized)
    (hscope : resolveScope ident ((Json.get args "scope").or (.str [])) = .ok inScope)
    (hlimit : (s.counter .announce sender.text : Int) + 1 ≤ cfg.announceRate)

theorem resolveReference_not_typeError [Python] {ref : Json} {agents : List Row} :
    resolveReference ref agents ≠ .error .typeError := by
  unfold resolveReference
  split
  · split <;> rintro ⟨⟩
  · rintro ⟨⟩
  · rintro ⟨⟩

theorem rosterOf_not_typeError {rows : List Row} :
    rosterOf ident sender args rows ≠ .error .typeError := by
  have hgroup : ∀ agents, filterGroup ident args agents ≠ .error .typeError := by
    intro agents
    unfold filterGroup
    dsimp only
    split
    · split <;> rintro ⟨⟩
    · rintro ⟨⟩
  intro h
  unfold rosterOf at h
  dsimp only at h
  cases hfiltered : filterGroup ident args (filterField args "runtime" Row.runtime
    (filterField args "project" Row.project (filterField args "user" Row.user rows))) with
  | error e =>
    rw [hfiltered] at h
    cases h
    exact hgroup _ hfiltered
  | ok agents =>
    rw [hfiltered] at h
    dsimp only [bind, Except.bind] at h
    split at h <;> cases h

/-- **A request that gets to the directory stops there iff it cannot be listed.** -/
theorem dispatch_typeError_iff [Python] {op : PyStr} (h : ReachesDirectory s cfg ident sender args op) :
    ((dispatch cfg ident sender args op).run (exec srv) s).1 = .error .typeError ↔
      ¬ s.Listable ident := by
  cases h with
  | chat hop hsize =>
    subst hop
    show ((opChat cfg ident sender args).run (exec srv) s).1 = _ ↔ _
    rcases hrun : (opChat cfg ident sender args).run (exec srv) s with ⟨out, t⟩
    cases opChat_cases srv s cfg ident sender args hrun with
    | refused hno =>
      rw [hsize] at hno
      cases hno
    | unlisted _ hlist => exact iff_of_true rfl hlist
    | unresolved _ hlist hto =>
      refine iff_of_false (fun h => ?_) (not_not_intro hlist)
      cases h
      exact resolveReference_not_typeError hto
    | toSelf _ hlist => exact iff_of_false (by rintro ⟨⟩) (not_not_intro hlist)
    | limited _ hlist => exact iff_of_false (by rintro ⟨⟩) (not_not_intro hlist)
    | passed _ hlist _ _ _ hsent =>
      refine iff_of_false (fun h => ?_) (not_not_intro hlist)
      unfold deliver at hsent
      split at hsent <;> cases hsent <;> cases h
  | roster hop =>
    subst hop
    show ((opRoster ident sender args).run (exec srv) s).1 = _ ↔ _
    rw [opRoster_run]
    dsimp only
    split
    · next hlist => exact iff_of_false (rosterOf_not_typeError ident sender args) (not_not_intro hlist)
    · next hlist => exact iff_of_true rfl hlist
  | announce hop hproject hsize hscope hlimit =>
    subst hop
    show ((opAnnounce cfg ident sender args).run (exec srv) s).1 = _ ↔ _
    rcases hrun : (opAnnounce cfg ident sender args).run (exec srv) s with ⟨out, t⟩
    cases opAnnounce_cases srv s cfg ident sender args hrun with
    | unnamed hno =>
      rw [hproject] at hno
      cases hno
    | refused _ hno =>
      rw [hsize] at hno
      cases hno
    | unscoped _ _ hno =>
      rw [hscope] at hno
      cases hno
    | limited _ _ _ hno => exact absurd hlimit (by omega)
    | unlisted _ _ _ _ _ hlist => exact iff_of_true rfl hlist
    | passed _ _ _ _ _ hlist => exact iff_of_false (by rintro ⟨⟩) (not_not_intro hlist)

end

end Muster
