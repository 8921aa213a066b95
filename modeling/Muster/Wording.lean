import Muster.Lib.Raises
import Muster.Failures
import Muster.Listing
import Muster.Tools

/-!
# How a refusal reads

Whatever the server raises on purpose has a message, and with it, of the right types, what
the clients add to the message: the visible agents, the candidates, the time to wait
(`serve_refusal`).  So both clients have a text for every refusal.  It is the same text but
for two: where no agent is visible at all the plugin adds an empty list, and where the
server stops on an exception of its own each client has words for that
(`refusals_worded_alike_iff`).
-/

namespace Muster

/-- Begins as no report of success does. -/
def refusing : PyStr → Bool
  | [] => false
  | c :: _ => c != 68 && c != 65

/-- What the clients read of a refusal. -/
structure Worded (payload : List (PyStr × Json)) : Prop where
  message : ∃ m, Json.get payload "message" = .str m ∧ refusing m = true
  visible : Json.get payload "visible" = .null ∨
    ∃ addrs : List PyStr, Json.get payload "visible" = .arr (addrs.map .str)
  candidates : Json.get payload "candidates" = .null ∨
    ∃ rows : List Row, rows ≠ [] ∧ Json.get payload "candidates" = .arr (rows.map Row.public)
  retry : payload.lookup (lit "retry_after") = none ∨
    ∃ n : Int, payload.lookup (lit "retry_after") = some (.int n)

/-- An exception that is no answer, or one in words. -/
def PyExn.Spoken : PyExn → Prop
  | .opError status payload => 400 ≤ status ∧ Worded payload
  | .addressError e => refusing (lit e.message) = true
  | _ => True

theorem ne_nil_of_refusing {m : PyStr} (h : refusing m = true) : m ≠ [] := by
  rintro rfl
  cases h

/-! ## Payloads -/

theorem get_dict_nil (key : String) : Json.get (dict []) key = .null := rfl

theorem lookup_dict_none {kvs : List (String × Json)} {key : PyStr} (h : ∀ kv ∈ kvs, lit kv.1 ≠ key) :
    (dict kvs).lookup key = none := by
  rw [List.lookup_eq_none_iff, dict, List.forall_mem_map]
  exact fun kv hkv => bne_iff_ne.2 (h kv hkv).symm

/-- A code and a message, and fields that the clients do not read. -/
theorem worded_plain {code : Json} {m : PyStr} (hm : refusing m = true) {rest : List (String × Json)}
    (hrest : ∀ kv ∈ rest, lit kv.1 ∉ [lit "visible", lit "candidates", lit "retry_after"]) :
    Worded (dict (("code", code) :: ("message", .str m) :: rest)) := by
  have hunread : ∀ key ∈ [lit "visible", lit "candidates", lit "retry_after"],
      (dict rest).lookup key = none := by
    intro key hkey
    refine lookup_dict_none fun kv hkv heq => hrest kv hkv ?_
    rw [heq]
    exact hkey
  have hvisible : Json.get (dict rest) "visible" = .null := by
    rw [Json.get, hunread _ (by simp)]
    rfl
  have hcandidates : Json.get (dict rest) "candidates" = .null := by
    rw [Json.get, hunread _ (by simp)]
    rfl
  constructor
  · exact ⟨m, by simp [get_dict_cons, lit], hm⟩
  · exact .inl (by rw [get_dict_cons, if_neg (by decide), get_dict_cons, if_neg (by decide), hvisible])
  · exact .inl (by rw [get_dict_cons, if_neg (by decide), get_dict_cons, if_neg (by decide), hcandidates])
  · refine .inl ?_
    rw [lookup_dict_cons, if_neg (by decide), lookup_dict_cons, if_neg (by decide), hunread _ (by simp)]

theorem worded_visible {code : Json} {m : PyStr} (hm : refusing m = true) (addrs : List PyStr) :
    Worded (dict [("code", code), ("message", .str m), ("visible", .arr (addrs.map .str))]) := by
  constructor
  · exact ⟨m, by simp [get_dict_cons, lit], hm⟩
  · exact .inr ⟨addrs, by simp [get_dict_cons, lit]⟩
  · exact .inl (by simp [get_dict_cons, get_dict_nil, lit])
  · exact .inl (by simp [dict, lit])

theorem worded_candidates {code : Json} {m : PyStr} (hm : refusing m = true) {rows : List Row} (hrows : rows ≠ []) :
    Worded (dict [("code", code), ("message", .str m), ("candidates", .arr (rows.map Row.public))]) := by
  constructor
  · exact ⟨m, by simp [get_dict_cons, lit], hm⟩
  · exact .inl (by simp [get_dict_cons, get_dict_nil, lit])
  · exact .inr ⟨rows, hrows, by simp [get_dict_cons, lit]⟩
  · exact .inl (by simp [dict, lit])

theorem worded_retry {code limit window : Json} {n : Int} {m : PyStr} (hm : refusing m = true) :
    Worded (dict [("code", code), ("retry_after", .int n), ("limit", limit), ("window", window),
      ("message", .str m)]) := by
  constructor
  · exact ⟨m, by simp [get_dict_cons, lit], hm⟩
  · exact .inl (by simp [get_dict_cons, get_dict_nil, lit])
  · exact .inl (by simp [get_dict_cons, get_dict_nil, lit])
  · exact .inr ⟨n, by rw [lookup_dict_cons, if_neg (by decide), lookup_dict_cons, if_pos rfl]⟩

/-! ## What the handlers raise -/

theorem encode_spoken {j : Json} {e : PyExn} (h : encode j = .error e) : e.Spoken := by
  unfold encode at h
  split at h
  · split at h
    · cases h
    · cases h
      trivial
  · cases h
    trivial

theorem checkSize_spoken {bodyMax : Int} {body subject : Json} {e : PyExn}
    (h : checkSize bodyMax body subject = .error e) : e.Spoken := by
  unfold checkSize at h
  cases hb : encode body with
  | error e' =>
    rw [hb] at h
    cases h
    exact encode_spoken hb
  | ok b =>
    rw [hb] at h
    cases hs : encode (subject.or (.str [])) with
    | error e' =>
      rw [hs] at h
      cases h
      exact encode_spoken hs
    | ok t =>
      rw [hs] at h
      obtain ⟨b, n⟩ := b
      obtain ⟨t, m⟩ := t
      replace h : (if bodyMax < n + m then _ else _ : Except PyExn (PyStr × PyStr)) = .error e := h
      split at h
      · cases h
        exact ⟨by decide, worded_plain rfl (List.forall_mem_nil _)⟩
      · cases h

section
variable [Python]

/-- A reference that matches anything is a string, which is quoted. -/
theorem matches_refusing {ref : Json} {agents : List Row} {rest : PyStr}
    (h : (agents.filter fun a => ref.matchesRef a.addr) ≠ []) : refusing (ref.repr ++ rest) = true := by
  cases ref with
  | str ref =>
    show (PyStr.reprQuote ref != 68 && PyStr.reprQuote ref != 65) = true
    unfold PyStr.reprQuote
    split <;> rfl
  | _ => exact absurd (List.filter_eq_nil_iff.2 fun _ _ => by simp [Json.matchesRef]) h

theorem resolveReference_spoken {ref : Json} {agents : List Row} {e : PyExn}
    (h : resolveReference ref agents = .error e) : e.Spoken := by
  unfold resolveReference at h
  split at h
  · split at h
    · cases h
      trivial
    · cases h
      have haddrs : agents.map (fun a => Json.str a.addr) = (agents.map Row.addr).map .str := by
        rw [List.map_map]
        rfl
      rw [haddrs]
      exact ⟨by decide, worded_visible rfl _⟩
  · cases h
  · next hnil _ =>
    cases h
    simp only [List.append_assoc]
    exact ⟨by decide, worded_candidates (matches_refusing hnil) hnil⟩

end

theorem filterGroup_spoken {ident : Identity Member} {args : Args} {agents : List Row} {e : PyExn}
    (h : filterGroup ident args agents = .error e) : e.Spoken := by
  unfold filterGroup at h
  dsimp only at h
  split at h
  · split at h
    · cases h
    · cases h
      exact ⟨by decide, worded_plain rfl (List.forall_mem_nil _)⟩
  · cases h

theorem resolveScope_spoken {ident : Identity Member} {scope : Json} {e : PyExn}
    (h : resolveScope ident scope = .error e) : e.Spoken := by
  unfold resolveScope at h
  split at h
  · split at h
    · cases h
    · split at h
      · cases h
      · cases h
        exact ⟨by decide, worded_plain rfl (List.forall_mem_nil _)⟩
  · cases h
    trivial

theorem listRows_spoken (addrs : List PyStr) : (listRows addrs).Raises PyExn.Spoken := by
  induction addrs with
  | nil => trivial
  | cons a addrs ih =>
    refine Prog.raises_bind (Prog.raises_cmd _) fun h => ?_
    refine Prog.raises_bind (Prog.raises_cmd _) fun online => ?_
    refine Prog.raises_bind ih fun rows => ?_
    cases h <;> trivial

theorem visibleAgents_spoken (ident : Identity Member) : (visibleAgents ident).Raises PyExn.Spoken := by
  refine Prog.raises_bind (fun _ => listRows_spoken _) fun rows => ?_
  show (Prog.ofExcept (keepVisible ident rows)).Raises PyExn.Spoken
  rw [keepVisible_eq]
  split <;> trivial

theorem checkRate_spoken (kind : RateKind) (sender : PyStr) (limit window : Int) :
    (checkRate kind sender limit window).Raises PyExn.Spoken := by
  refine Prog.raises_bind ?_ fun r => ?_
  · unfold rateCheck
    refine Prog.raises_bind (Prog.raises_cmd _) fun n => ?_
    split
    · refine Prog.raises_bind (Prog.raises_cmd _) fun ttl => ?_
      split
      · exact fun _ => trivial
      · trivial
    · trivial
  · obtain ⟨ok, retry⟩ := r
    dsimp only
    split
    · trivial
    · exact ⟨by decide, worded_retry (by simp [lit, refusing])⟩

section
variable [Python] (cfg : Config) (ident : Identity Member) (sender : Address) (args : Args)

theorem opChat_spoken : (opChat cfg ident sender args).Raises PyExn.Spoken := by
  refine Prog.raises_lift (fun e => checkSize_spoken) fun sized _ => ?_
  obtain ⟨body, subject⟩ := sized
  refine Prog.raises_bind (visibleAgents_spoken ident) fun agents => ?_
  refine Prog.raises_lift (fun e => resolveReference_spoken) fun target _ => ?_
  split
  · exact ⟨by decide, worded_plain rfl (List.forall_mem_nil _)⟩
  · refine Prog.raises_bind (checkRate_spoken _ _ _ _) fun _ => ?_
    refine Prog.raises_bind ?_ fun _ _ => trivial
    intro now
    show Prog.Raises PyExn.Spoken (if cfg.inboxMaxlen < 0 then _ else _)
    split
    · trivial
    · exact fun _ => trivial

theorem opFetch_spoken : (opFetch sender args).Raises PyExn.Spoken := by
  refine Prog.raises_lift ?_ fun n _ => ?_
  · intro e he
    unfold pyInt at he
    split at he <;> cases he <;> trivial
  · refine Prog.raises_bind ?_ fun _ => trivial
    refine Prog.raises_bind ?_ fun es => ?_
    · intro cur
      show Prog.Raises PyExn.Spoken (if min n 100 < 1 then _ else _)
      split
      · trivial
      · exact fun _ => trivial
    · split
      · trivial
      · exact fun _ _ => trivial

omit [Python] in
theorem opRoster_spoken : (opRoster ident sender args).Raises PyExn.Spoken := by
  refine Prog.raises_bind (visibleAgents_spoken ident) fun agents => ?_
  refine Prog.raises_lift (fun e => filterGroup_spoken) fun agents _ => ?_
  split
  · exact ⟨by decide, worded_plain rfl (List.forall_mem_nil _)⟩
  · trivial
  · trivial

omit [Python] in
theorem opAnnounce_spoken : (opAnnounce cfg ident sender args).Raises PyExn.Spoken := by
  unfold opAnnounce
  dsimp only
  split
  · refine Prog.raises_lift (fun e => checkSize_spoken) fun sized _ => ?_
    obtain ⟨body, subject⟩ := sized
    refine Prog.raises_lift (fun e => resolveScope_spoken) fun inScope _ => ?_
    refine Prog.raises_bind (checkRate_spoken _ _ _ _) fun _ => ?_
    refine Prog.raises_bind (visibleAgents_spoken ident) fun agents => ?_
    refine Prog.raises_bind ?_ fun _ => trivial
    generalize agents.filter _ = rows
    induction rows with
    | nil => trivial
    | cons a rows ih => exact fun _ => ih
  · exact ⟨by decide, worded_plain rfl (List.forall_mem_nil _)⟩

theorem dispatch_spoken (op : PyStr) : (dispatch cfg ident sender args op).Raises PyExn.Spoken := by
  unfold dispatch
  split
  · exact opChat_spoken cfg ident sender args
  split
  · exact opFetch_spoken sender args
  split
  · exact opRoster_spoken ident sender args
  split
  · exact opAnnounce_spoken cfg ident sender args
  · exact ⟨by decide, worded_plain rfl (List.forall_mem_singleton.2 (by decide))⟩

omit [Python] in
theorem parseAgentHeader_spoken {user header : PyStr} {e : AddressError}
    (h : parseAgentHeader user header = .error e) : (PyExn.addressError e).Spoken := by
  show refusing (lit e.message) = true
  unfold parseAgentHeader at h
  split at h
  · split at h
    · cases h
      decide
    · cases h
  · cases h
    decide

theorem rpcRoute_spoken (header : PyStr) (payload : Option Json) :
    (rpcRoute cfg ident header payload).Raises PyExn.Spoken := by
  unfold rpcRoute
  split
  · next e he => exact parseAgentHeader_spoken he
  · split
    · trivial
    · unfold dispatchJson
      split
      · split
        · exact dispatch_spoken cfg ident _ _ _
        · split
          · trivial
          · exact dispatch_spoken cfg ident _ _ _
      · trivial
      · trivial
      · exact ⟨by decide, worded_plain rfl (List.forall_mem_singleton.2 (by decide))⟩
    · trivial

end

/-! ## Answers -/

/-- The server refuses in words, or stops. -/
inductive Refuses : HttpAnswer → Prop
  | worded {status : Nat} {payload : List (PyStr × Json)} (hstatus : 400 ≤ status)
    (hworded : Worded payload) : Refuses ⟨status, some (.obj payload)⟩
  | stopped : Refuses ⟨500, none⟩

theorem Refuses.of_spoken {e : PyExn} (h : e.Spoken) : Refuses e.answer := by
  cases e with
  | addressError e => exact .worded (by decide) (worded_plain h (List.forall_mem_nil _))
  | opError status payload => exact .worded h.1 h.2
  | _ => exact .stopped

section
variable [Python]

/-- A key is refused in words too. -/
theorem resolve_refuses {sha256 : PyStr → PyStr} {cfg : Config} {key : PyStr} {now later : Int}
    {answer : Answer} {cache : AuthCache} {e : AuthExn}
    (h : (resolve sha256 cfg key now answer later cache).1 = .error e) : Refuses e.answer := by
  have hplain : ∀ {status : Nat} {code message : PyStr}, 400 ≤ status → refusing message = true →
      Refuses (AuthExn.authError status code message).answer := fun hstatus hmessage =>
    .worded hstatus (worded_plain hmessage (List.forall_mem_nil _))
  unfold resolve at h
  cases hstart : resolveStart sha256 cfg key now cache with
  | some r =>
    rw [hstart] at h
    obtain rfl : r = .error e := h
    unfold resolveStart at hstart
    dsimp only at hstart
    have hno : ∀ e', some (Except.error e') = some (Except.error e : Except AuthExn (Identity Json)) →
        Refuses e'.answer → Refuses e.answer := by
      intro e' he' hrefuses
      cases he'
      exact hrefuses
    split at hstart
    · exact hno _ hstart (hplain (by decide) rfl)
    · split at hstart
      · cases hstart
      · split at hstart
        · split at hstart
          · cases hstart
          · split at hstart
            · exact hno _ hstart (hplain (by decide) rfl)
            · cases hstart
        · split at hstart
          · exact hno _ hstart (hplain (by decide) rfl)
          · cases hstart
  | none =>
    rw [hstart] at h
    replace h : (resolveFinish sha256 cfg key answer later cache).1 = .error e := h
    unfold resolveFinish at h
    split at h
    · cases h
      exact hplain (by decide) rfl
    · cases h
      exact .stopped
    · next status body =>
      split at h
      · cases h
        exact hplain (by decide) rfl
      · split at h
        · cases h
          exact hplain (by decide) rfl
        · split at h
          · cases h
            exact .stopped
          · split at h
            · cases h
              exact hplain (by decide) rfl
            · cases h

/-- What a key can resolve to. -/
def Resolves (cfg : Config) (resolved : Except AuthExn (Identity Member)) : Prop :=
  ∃ sha256 key now answer later cache,
    (resolve sha256 cfg key now answer later cache).1.map Identity.members = resolved

theorem Resolves.refuses {cfg : Config} {e : AuthExn} (h : Resolves cfg (.error e)) : Refuses e.answer := by
  obtain ⟨sha256, key, now, answer, later, cache, hres⟩ := h
  cases hout : (resolve sha256 cfg key now answer later cache).1 with
  | error e' =>
    rw [hout] at hres
    cases hres
    exact resolve_refuses hout
  | ok ident =>
    rw [hout] at hres
    cases hres

/-- **The server answers, or refuses in words, or stops.** -/
theorem serve_refusal (cfg : Config) (srv : Server) {resolved : Except AuthExn (Identity Member)}
    (hres : Resolves cfg resolved) (header : PyStr) (payload : Option Json) (s : Db) :
    (∃ r : Response, (serve cfg srv resolved header payload s).1 = ⟨200, some r.json⟩) ∨
      Refuses (serve cfg srv resolved header payload s).1 := by
  cases resolved with
  | error e =>
    exact .inr hres.refuses
  | ok ident =>
    unfold serve
    dsimp only
    cases hrun : ((rpcRoute cfg ident header payload).run (exec srv) s).1 with
    | ok r => exact .inl ⟨r, rfl⟩
    | error e => exact .inr (.of_spoken ((rpcRoute_spoken cfg ident header payload).of_run hrun))

end

/-! ## Texts -/

theorem mapM_asString (addrs : List PyStr) : (addrs.map Json.str).mapM Json.asString = some addrs := by
  induction addrs with
  | nil => rfl
  | cons a addrs ih =>
    rw [List.map_cons, List.mapM_cons, ih]
    rfl

theorem jsItems_str [JsNumbers] (addrs : List PyStr) : Json.jsItems (addrs.map Json.str) = some addrs := by
  induction addrs with
  | nil => rfl
  | cons a addrs ih =>
    rw [List.map_cons, Json.jsItems, ih]
    rfl

theorem public_addr (a : Row) : candidateAddr a.public = some (.str a.addr) := by
  unfold candidateAddr Row.public
  dsimp only
  rw [lookup_dict_cons, if_pos rfl]

theorem public_addrs (rows : List Row) :
    (rows.map Row.public).mapM candidateAddr = some ((rows.map Row.addr).map .str) := by
  induction rows with
  | nil => rfl
  | cons a rows ih =>
    rw [List.map_cons, List.mapM_cons, public_addr, ih]
    rfl

theorem public_addrs_js (rows : List Row) :
    ((rows.map Row.public).mapM fun c : Json => if c.isNull then none else some (c.jsField "addr")) =
      some ((rows.map Row.addr).map .str) := by
  have haddr : ∀ a : Row, a.public.jsField "addr" = .str a.addr := by
    intro a
    show Json.get (dict _) "addr" = _
    rw [get_dict_cons, if_pos rfl]
  induction rows with
  | nil => rfl
  | cons a rows ih =>
    rw [List.map_cons, List.mapM_cons, ih, haddr]
    rfl

section
variable [Python] [JsNumbers] {p : List (PyStr × Json)}

omit [Python] [JsNumbers] in
theorem truthy_arr {xs : List Json} (h : xs ≠ []) : (Json.arr xs).truthy = true := by
  cases xs with
  | nil => exact absurd rfl h
  | cons x xs => rfl

omit [Python] [JsNumbers] in
theorem jsTruthy_arr (xs : List Json) : (Json.arr xs).jsTruthy = true := rfl

omit [Python] in
/-- The agents a refusal lists: an empty list is none to the shim, and one to the plugin. -/
theorem visible_texts (h : Worded p) : ∃ v v', addVisible p = some v ∧ addVisibleJs (.obj p) = some v' ∧
    (Json.get p "visible" ≠ .arr [] → v' = v) ∧
    (Json.get p "visible" = .arr [] → v = [] ∧ v' = lit " | visible: ") := by
  have hfield : (Json.obj p).jsField "visible" = Json.get p "visible" := rfl
  unfold addVisible addVisibleJs
  rw [hfield]
  rcases h.visible with hnull | ⟨addrs, haddrs⟩
  · rw [hnull]
    exact ⟨[], [], rfl, rfl, fun _ => rfl, by simp⟩
  · rw [haddrs]
    cases addrs with
    | nil => exact ⟨[], lit " | visible: ", rfl, rfl, by simp, fun _ => ⟨rfl, rfl⟩⟩
    | cons a addrs =>
      have htruthy : (Json.arr ((a :: addrs).map .str)).truthy = true := truthy_arr (by simp)
      refine ⟨lit " | visible: " ++ (lit ", ").intercalate (a :: addrs),
        lit " | visible: " ++ (lit ", ").intercalate (a :: addrs), ?_, ?_, fun _ => rfl, by simp⟩
      · rw [if_pos htruthy, joinComma, mapM_asString]
        rfl
      · rw [if_pos (jsTruthy_arr _), jsJoin, jsItems_str]
        rfl

omit [Python] in
theorem candidates_texts (h : Worded p) : ∃ c, addCandidates p = some c ∧
    addCandidatesJs (.obj p) = some c := by
  have hfield : (Json.obj p).jsField "candidates" = Json.get p "candidates" := rfl
  unfold addCandidates addCandidatesJs
  rw [hfield]
  rcases h.candidates with hnull | ⟨rows, hrows, hcandidates⟩
  · rw [hnull]
    exact ⟨[], rfl, rfl⟩
  · have htruthy : (Json.arr (rows.map Row.public)).truthy = true := truthy_arr (by simpa using hrows)
    rw [hcandidates]
    refine ⟨lit " | candidates: " ++ (lit ", ").intercalate (rows.map Row.addr), ?_, ?_⟩
    · rw [if_pos htruthy, joinCandidates, public_addrs, Option.bind_some, joinComma, mapM_asString]
      rfl
    · rw [if_pos (jsTruthy_arr _), jsJoinCandidates, public_addrs_js, Option.bind_some, jsJoin,
        jsItems_str]
      rfl

theorem retry_texts (h : Worded p)
    (hprinted : ∀ n, p.lookup (lit "retry_after") = some (.int n) → JsNumbers.int n = PyStr.strInt n) :
    addRetryJs (.obj p) = some (addRetry p) := by
  have hfield : (Json.obj p).jsField "retry_after" = (p.lookup (lit "retry_after")).getD .null := rfl
  unfold addRetry addRetryJs
  rw [hfield]
  rcases h.retry with hnone | ⟨n, hn⟩
  · rw [hnone]
    rfl
  · have hstring : (Json.int n).jsString = some (PyStr.strInt n) := by
      rw [Json.jsString, hprinted n hn]
    rw [hn, Option.getD_some, hstring]
    rfl

/-- The text of a refusal in both clients: they differ where there is an empty list of agents. -/
theorem texts_of_worded (h : Worded p)
    (hprinted : ∀ n, p.lookup (lit "retry_after") = some (.int n) → JsNumbers.int n = PyStr.strInt n)
    (message : PyStr) : ∃ m v v' rest, fmtError p = some (m ++ v ++ rest) ∧
      fmtErrJs (.bus message (.obj p)) = some (m ++ v' ++ rest) ∧
      (Json.get p "visible" ≠ .arr [] → v' = v) ∧
      (Json.get p "visible" = .arr [] → v = [] ∧ v' = lit " | visible: ") := by
  obtain ⟨m, hm, hrefusing⟩ := h.message
  have hne := ne_nil_of_refusing hrefusing
  obtain ⟨v, v', hv, hv', hvne, hvnil⟩ := visible_texts h
  obtain ⟨c, hc, hc'⟩ := candidates_texts h
  have hr := retry_texts h hprinted
  have hmtruthy : (Json.str m).truthy = true := by simpa [Json.truthy] using hne
  have hmjs : (Json.str m).jsTruthy = true := by simpa [Json.jsTruthy] using hne
  refine ⟨m, v, v', c ++ addRetry p, ?_, ?_, hvne, hvnil⟩
  · unfold fmtError
    rw [hm, Json.or_of_truthy hmtruthy, Json.or_of_truthy hmtruthy, hv, hc]
    simp
  · have hpayload : jsOr (Json.obj p) (.obj []) = .obj p := rfl
    have hfield : (Json.obj p).jsField "message" = Json.get p "message" := rfl
    unfold fmtErrJs
    dsimp only
    rw [hpayload, hfield, hm, jsOr, jsOr, if_pos hmjs, if_pos hmjs, hv', hc', hr]
    simp [Json.jsString]

/-- What each client reports of an answer. -/
theorem reports_of_worded {status : Nat} (hstatus : 400 ≤ status) (h : Worded p) (url : PyStr)
    (render : Json → Except BusExn PyStr) (renderJs : Json → Option PyStr) :
    shimText url (clientRpc ⟨status, some (.obj p)⟩ >>= render) = fmtError p ∧
    ∃ message, pluginText renderJs (rpcJs ⟨status, some (.obj p)⟩) =
      (fmtErrJs (.bus message (.obj p))).map (lit "Muster: " ++ ·) := by
  obtain ⟨m, hm, hrefusing⟩ := h.message
  have hne := ne_nil_of_refusing hrefusing
  have hmjs : (Json.str m).jsTruthy = true := by simpa [Json.jsTruthy] using hne
  constructor
  · unfold clientRpc
    dsimp only
    rw [if_pos hstatus]
    rfl
  · refine ⟨m, ?_⟩
    have hmessage : (jsOr (jsOr ((Json.obj p).jsField "message") ((Json.obj p).jsField "code"))
        (.str (PyStr.strNat status))).jsString = some m := by
      have hfield : (Json.obj p).jsField "message" = Json.get p "message" := rfl
      rw [hfield, hm, jsOr, jsOr, if_pos hmjs, if_pos hmjs, Json.jsString]
    unfold rpcJs
    dsimp only [Option.getD_some]
    rw [if_neg (by omega), if_neg (by simp [Json.isNull]), hmessage]
    rfl

omit [JsNumbers] in
theorem shimText_stopped (url : PyStr) (render : Json → Except BusExn PyStr) :
    shimText url (clientRpc ⟨500, none⟩ >>= render) = some (lit "non-JSON answer (500)") := by
  rfl

omit [Python] in
theorem pluginText_stopped (renderJs : Json → Option PyStr) :
    pluginText renderJs (rpcJs ⟨500, none⟩) = some (lit "Muster: HTTP 500") := by
  rfl

/-- **Both clients word a refusal alike**, unless the server stops on an exception of its own or
there is no agent to list. -/
theorem refusals_worded_alike_iff (cfg : Config) (srv : Server)
    {resolved : Except AuthExn (Identity Member)} (hres : Resolves cfg resolved) (header : PyStr)
    (payload : Option Json) (s : Db) {a : HttpAnswer}
    (ha : a = (serve cfg srv resolved header payload s).1) (hrefused : 400 ≤ a.status)
    (hprinted : ∀ p n, a.body = some (.obj p) → p.lookup (lit "retry_after") = some (.int n) →
      JsNumbers.int n = PyStr.strInt n)
    (url : PyStr) (render : Json → Except BusExn PyStr) (renderJs : Json → Option PyStr) :
    (∃ t, shimText url (clientRpc a >>= render) = some t ∧
      pluginText renderJs (rpcJs a) = some (lit "Muster: " ++ t)) ↔
    ∃ p, a.body = some (.obj p) ∧ Json.get p "visible" ≠ .arr [] := by
  have hrefuses : Refuses a := by
    rcases serve_refusal cfg srv hres header payload s with ⟨r, hr⟩ | hr
    · rw [ha, hr] at hrefused
      exact absurd hrefused (by simp)
    · exact ha ▸ hr
  clear ha
  cases hrefuses with
  | stopped =>
    rw [shimText_stopped, pluginText_stopped]
    refine iff_of_false ?_ ?_
    · rintro ⟨t, ht, ht'⟩
      cases ht
      revert ht'
      decide
    · rintro ⟨p, ⟨⟩, -⟩
  | worded hstatus hworded =>
    next payload =>
    obtain ⟨hshim, message, hplugin⟩ := reports_of_worded hstatus hworded url render renderJs
    obtain ⟨m, v, v', rest, hpy, hjs, hsame, hempty⟩ :=
      texts_of_worded hworded (fun n hn => hprinted _ n rfl hn) message
    rw [hshim, hplugin, hpy, hjs, Option.map_some]
    constructor
    · rintro ⟨t, ht, ht'⟩
      refine ⟨payload, rfl, fun hvisible => ?_⟩
      obtain ⟨rfl, rfl⟩ := hempty hvisible
      cases ht
      have hempty : lit " | visible: " = [] := by simpa using ht'
      exact absurd hempty (by decide)
    · rintro ⟨q, hq, hvisible⟩
      cases hq
      rw [hsame hvisible]
      exact ⟨_, rfl, rfl⟩

end

/-- Local development. -/
def devConfig : Config := { Config.defaults with staticKeys := [(lit "dev-key", ⟨lit "u", []⟩)] }

/-- A chat to no one visible, with an agent to be listed. -/
theorem refusals_worded_alike_iff_unknown :
    let _ : Python := Python.plain
    let _ : JsNumbers := JsNumbers.plain
    ∃ t, shimText (lit "http://x") (clientRpc (serve devConfig .plain (.ok ⟨lit "u", []⟩) (lit "h/r/p/s")
        (some (.obj (dict [("op", .str (lit "chat")), ("args", .obj (dict [("to", .str (lit "y"))]))])))
        busyStore).1 >>= chatText) = some t ∧
      pluginText chatTextJs (rpcJs (serve devConfig .plain (.ok ⟨lit "u", []⟩) (lit "h/r/p/s")
        (some (.obj (dict [("op", .str (lit "chat")), ("args", .obj (dict [("to", .str (lit "y"))]))])))
        busyStore).1) = some (lit "Muster: " ++ t) := by
  intro _ _
  have hres : Resolves devConfig (.ok ⟨lit "u", []⟩) :=
    ⟨id, lit "dev-key", 0, .unreachable, 0, fun _ => none, rfl⟩
  refine (refusals_worded_alike_iff devConfig .plain hres _ _ busyStore rfl ?_ ?_ _ _ _).2 ?_
  · decide +kernel
  · intro p n hp hn
    rfl
  · refine ⟨_, rfl, ?_⟩
    intro h
    have htruthy := congrArg Json.truthy h
    revert htruthy
    decide +kernel

end Muster
