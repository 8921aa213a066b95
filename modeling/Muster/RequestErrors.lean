import Muster.Announce
import Muster.Failures

/-!
# Requests that are answered with a code

A handler refuses a request with an error that has a code, or stops on an exception of its own:
where it encodes a text that is no string, converts a limit that is no number, prints a
reference that is nested too deep, or lists agents whose groups cannot be hashed
(`answered_iff`).  Filters and the status are only compared, so values of any type pass there.
-/

namespace Muster

/-- An error for the caller, with a code. -/
inductive HasCode : PyExn → Prop
  | opError {status : Nat} {payload : List (PyStr × Json)} {code : PyStr}
    (hcode : Json.get payload "code" = .str code) (hne : code ≠ []) : HasCode (.opError status payload)

inductive Answered : Except PyExn Response → Prop
  | result (r : Response) : Answered (.ok r)
  | refused {e : PyExn} (h : HasCode e) : Answered (.error e)

theorem answered_error {e : PyExn} : Answered (.error e) ↔ HasCode e :=
  ⟨by rintro (_ | h); exact h, .refused⟩

/-- The length of a text that is left out, or can be encoded. -/
def Json.bytes (j : Json) : Option Nat :=
  match j.or (.str []) with
  | .str s => s.encodeLen
  | _ => none

/-! ## Texts -/

theorem encode_of_bytes {j : Json} {n : Nat} (h : j.bytes = some n) :
    ∃ x, encode (j.or (.str [])) = .ok (x, n) := by
  unfold Json.bytes at h
  split at h
  · next s hs =>
    refine ⟨s, ?_⟩
    rw [hs, encode, h]
  · cases h

theorem encode_of_bytes_none {j : Json} (h : j.bytes = none) :
    ∃ e, encode (j.or (.str [])) = .error e ∧ ¬ HasCode e := by
  unfold Json.bytes at h
  split at h
  · next s hs =>
    refine ⟨.unicodeEncodeError, ?_, by rintro ⟨⟩⟩
    rw [hs, encode, h]
  · next hs =>
    refine ⟨.attributeError, ?_, by rintro ⟨⟩⟩
    unfold encode
    split
    · next s hor => exact absurd hor (hs s)
    · rfl

/-- The texts are too long, not to be encoded, or pass. -/
inductive Sized (bodyMax : Int) (body subject : Json) : Except PyExn (PyStr × PyStr) → Prop
  | passed {n m : Nat} {sized : PyStr × PyStr} (hbody : body.bytes = some n) (hsubject : subject.bytes = some m)
    (hfit : (n + m : Int) ≤ bodyMax) : Sized bodyMax body subject (.ok sized)
  | tooLong {n m : Nat} {e : PyExn} (hbody : body.bytes = some n) (hsubject : subject.bytes = some m)
    (hlong : bodyMax < (n + m : Int)) (hcode : HasCode e) : Sized bodyMax body subject (.error e)
  | unencoded {e : PyExn} (h : body.bytes = none ∨ subject.bytes = none) (hcode : ¬ HasCode e) :
    Sized bodyMax body subject (.error e)

theorem checkSize_sized (bodyMax : Int) (body subject : Json) :
    Sized bodyMax body subject (checkSize bodyMax (body.or (.str [])) subject) := by
  unfold checkSize
  cases hbody : body.bytes with
  | none =>
    obtain ⟨e, he, hcode⟩ := encode_of_bytes_none hbody
    rw [he]
    exact .unencoded (.inl hbody) hcode
  | some n =>
    obtain ⟨x, hx⟩ := encode_of_bytes hbody
    rw [hx]
    cases hsubject : subject.bytes with
    | none =>
      obtain ⟨e, he, hcode⟩ := encode_of_bytes_none hsubject
      rw [he]
      exact .unencoded (.inr hsubject) hcode
    | some m =>
      obtain ⟨y, hy⟩ := encode_of_bytes hsubject
      rw [hy]
      show Sized bodyMax body subject (if bodyMax < (n : Int) + m then _ else _)
      by_cases h : bodyMax < (n : Int) + m
      · rw [if_pos h]
        exact .tooLong hbody hsubject h (.opError rfl (by decide))
      · rw [if_neg h]
        exact .passed hbody hsubject (by omega)

/-! ## Refusals -/

/-- Only a string matches an address. -/
theorem nesting_of_matches {ref : Json} {addr : PyStr} (h : ref.matchesRef addr = true) :
    ref.nesting = 0 := by
  cases ref with
  | str s => rfl
  | _ => cases h

/-- A reference that matches nobody is printed. -/
theorem resolveReference_hasCode [Python] {ref : Json} {agents : List Row} {e : PyExn}
    (h : resolveReference ref agents = .error e) : HasCode e ↔ ref.nesting ≤ Python.reprDepth := by
  unfold resolveReference at h
  split at h
  · split at h
    · next hdeep =>
      cases h
      exact iff_of_false (by rintro ⟨⟩) (by omega)
    · next hdeep =>
      cases h
      exact iff_of_true (.opError rfl (by decide)) (by omega)
  · cases h
  · next hnil _ =>
    cases h
    obtain ⟨a, ha⟩ := List.exists_mem_of_ne_nil _ hnil
    rw [nesting_of_matches (List.mem_filter.1 ha).2]
    exact iff_of_true (.opError rfl (by decide)) (Nat.zero_le _)

theorem nesting_of_resolved [Python] {ref : Json} {agents : List Row} {a : Row}
    (h : resolveReference ref agents = .ok a) : ref.nesting = 0 := by
  unfold resolveReference at h
  split at h
  · split at h <;> cases h
  · next hit heq =>
    have hmem : hit ∈ agents.filter fun a => ref.matchesRef a.addr := heq ▸ List.mem_singleton_self hit
    exact nesting_of_matches (List.mem_filter.1 hmem).2
  · cases h

theorem rateExceeded_hasCode (retry limit window : Int) : HasCode (rateExceeded retry limit window) :=
  .opError rfl (by decide)

/-- A scope is refused for what it says; the handler stops where it is no string. -/
theorem resolveScope_hasCode {ident : Identity Member} {scope : Json} {e : PyExn}
    (h : resolveScope ident (scope.or (.str [])) = .error e) :
    HasCode e ↔ (scope.truthy = true → ∃ text, scope = .str text) := by
  have hstr : ∀ text, resolveScope ident (.str text) = .error e → HasCode e := by
    intro text h
    unfold resolveScope at h
    dsimp only at h
    split at h
    · cases h
    · split at h
      · cases h
      · cases h
        exact .opError rfl (by decide)
  by_cases htruthy : scope.truthy = true
  · rw [Json.or_of_truthy htruthy] at h
    cases scope with
    | str text => exact iff_of_true (hstr text h) fun _ => ⟨text, rfl⟩
    | _ =>
      cases h
      refine iff_of_false (by rintro ⟨⟩) fun hscope => ?_
      obtain ⟨text, htext⟩ := hscope htruthy
      cases htext
  · have hor : scope.or (.str []) = .str [] := if_neg htruthy
    rw [hor] at h
    exact iff_of_true (hstr [] h) fun h => absurd h htruthy

theorem filterGroup_hasCode {ident : Identity Member} {args : Args} {agents : List Row} {e : PyExn}
    (h : filterGroup ident args agents = .error e) : HasCode e := by
  unfold filterGroup at h
  dsimp only at h
  split at h
  · split at h
    · cases h
    · cases h
      exact .opError rfl (by decide)
  · cases h

/-- A roster is not stopped once it has its rows. -/
theorem rosterOf_answered (ident : Identity Member) (sender : Address) (args : Args) (rows : List Row) :
    Answered (rosterOf ident sender args rows) := by
  unfold rosterOf
  dsimp only
  cases hgroup : filterGroup ident args (filterField args "runtime" Row.runtime
    (filterField args "project" Row.project (filterField args "user" Row.user rows))) with
  | error e => exact .refused (filterGroup_hasCode hgroup)
  | ok agents =>
    dsimp only [bind, Except.bind]
    cases parseStatus ((Json.get args "status").or (.str (lit "online"))) with
    | none => exact .refused (.opError rfl (by decide))
    | some status =>
      cases status with
      | none => exact .result _
      | some status => exact .result _

/-! ## Requests -/

section
variable [Python] (cfg : Config) (ident : Identity Member) (sender : Address) (args : Args) (s : Db)

/-- Body and subject are together within some length, and what remains is asked of those that
fit. -/
def Encodable (fits : Prop) : Prop :=
  ∃ n m, (Json.get args "body").bytes = some n ∧ (Json.get args "subject").bytes = some m ∧
    ((n + m : Int) ≤ cfg.bodyMax → fits)

/-- The reference can be printed, and nothing is appended to an inbox whose length is limited to
less than nothing. -/
def ChatAnswered : Prop :=
  Encodable cfg args <|
    ((Json.get args "to").or (.str [])).nesting ≤ Python.reprDepth ∧ ∀ target,
      resolveReference ((Json.get args "to").or (.str [])) (s.visibleRows ident) = .ok target →
      target.addr ≠ sender.text → (s.counter .chat sender.text : Int) + 1 ≤ cfg.chatRate →
      0 ≤ cfg.inboxMaxlen

def FetchAnswered : Prop := ∃ n, ((Json.get args "limit").or (.int 20)).toInt = .ok n ∧ 1 ≤ n

def AnnounceAnswered : Prop :=
  (Json.get args "project").truthy = true →
    Encodable cfg args ((Json.get args "scope").truthy = true → ∃ scope, Json.get args "scope" = .str scope)

section
omit [Python]
variable {cfg args} {fits : Prop}

theorem encodable_ok {sized : PyStr × PyStr}
    (h : checkSize cfg.bodyMax ((Json.get args "body").or (.str [])) (Json.get args "subject") = .ok sized) :
    Encodable cfg args fits ↔ fits := by
  have hsized := checkSize_sized cfg.bodyMax (Json.get args "body") (Json.get args "subject")
  rw [h] at hsized
  cases hsized with
  | passed hbody hsubject hfit =>
    constructor
    · rintro ⟨n, m, hn, hm, hfits⟩
      obtain rfl := Option.some.inj (hn.symm.trans hbody)
      obtain rfl := Option.some.inj (hm.symm.trans hsubject)
      exact hfits hfit
    · exact fun hfits => ⟨_, _, hbody, hsubject, fun _ => hfits⟩

theorem encodable_error {e : PyExn}
    (h : checkSize cfg.bodyMax ((Json.get args "body").or (.str [])) (Json.get args "subject") = .error e) :
    Encodable cfg args fits ↔ HasCode e := by
  have hsized := checkSize_sized cfg.bodyMax (Json.get args "body") (Json.get args "subject")
  rw [h] at hsized
  cases hsized with
  | tooLong hbody hsubject hlong hcode =>
    refine iff_of_true ⟨_, _, hbody, hsubject, fun hfit => ?_⟩ hcode
    omega
  | unencoded hnone hcode =>
    refine iff_of_false ?_ hcode
    rintro ⟨n, m, hn, hm, -⟩
    rcases hnone with hnone | hnone
    · rw [hn] at hnone
      cases hnone
    · rw [hm] at hnone
      cases hnone

end

variable (srv : Server)

omit [Python] in
/-- Where the directory cannot be listed, who gets to it is stopped. -/
theorem answered_unlisted {op : PyStr} {fits : Prop} (hreaches : ReachesDirectory s cfg ident sender args op)
    (hlist : ¬ s.Listable ident) : Answered (.error .typeError) ↔
      (ReachesDirectory s cfg ident sender args op → s.Listable ident) ∧ fits :=
  iff_of_false (by rintro (_ | ⟨⟨⟩⟩)) fun h => hlist (h.1 hreaches)

theorem opChat_answered_iff :
    Answered ((opChat cfg ident sender args).run (exec srv) s).1 ↔
      (ReachesDirectory s cfg ident sender args (lit "chat") → s.Listable ident) ∧
        ChatAnswered cfg ident sender args s := by
  rcases hrun : (opChat cfg ident sender args).run (exec srv) s with ⟨out, t⟩
  unfold ChatAnswered
  cases opChat_cases srv s cfg ident sender args hrun with
  | refused hsize =>
    have hearly : ¬ ReachesDirectory s cfg ident sender args (lit "chat") := by
      rintro (⟨-, hok⟩ | hop | hop)
      · rw [hsize] at hok
        cases hok
      · exact absurd hop (by decide)
      · exact absurd hop (by decide)
    exact (answered_error.trans (encodable_error hsize).symm).trans (and_iff_right (absurd · hearly)).symm
  | unlisted hsize hlist => exact answered_unlisted cfg ident sender args s (.chat rfl hsize) hlist
  | unresolved hsize hlist hto =>
    rw [encodable_ok hsize, and_iff_right fun _ => hlist, answered_error, resolveReference_hasCode hto]
    refine (and_iff_left fun target htarget => ?_).symm
    rw [hto] at htarget
    cases htarget
  | toSelf hsize hlist hto hself =>
    rw [encodable_ok hsize, and_iff_right fun _ => hlist, nesting_of_resolved hto]
    refine iff_of_true (.refused (.opError rfl (by decide))) ⟨Nat.zero_le _, fun target htarget hother => ?_⟩
    obtain rfl := Except.ok.inj (hto.symm.trans htarget)
    exact absurd hself hother
  | limited hsize hlist hto hother hlimit =>
    rw [encodable_ok hsize, and_iff_right fun _ => hlist, nesting_of_resolved hto]
    refine iff_of_true (.refused (rateExceeded_hasCode _ _ _)) ⟨Nat.zero_le _, fun _ _ _ hwithin => ?_⟩
    omega
  | passed hsize hlist hto hother hlimit hsent =>
    rw [encodable_ok hsize, and_iff_right fun _ => hlist, nesting_of_resolved hto,
      and_iff_right (Nat.zero_le _)]
    unfold deliver at hsent
    split at hsent
    · next hmaxlen =>
      cases hsent
      refine iff_of_false (by rintro (_ | ⟨⟨⟩⟩)) fun h => ?_
      have := h _ hto hother hlimit
      omega
    · next hmaxlen =>
      cases hsent
      exact iff_of_true (.result _) fun _ _ _ _ => by omega

theorem opFetch_answered_iff :
    Answered ((opFetch sender args).run (exec srv) s).1 ↔ FetchAnswered args := by
  rw [opFetch_run_eq]
  unfold FetchAnswered pyInt
  cases ((Json.get args "limit").or (.int 20)).toInt with
  | error e =>
    refine iff_of_false ?_ (by rintro ⟨n, ⟨⟩, -⟩)
    cases e <;> rintro (_ | ⟨⟨⟩⟩)
  | ok n =>
    dsimp only
    by_cases h : n < 1
    · have hlimit : min n 100 < 1 := by omega
      rw [fetchUnread_refused srv s sender.text hlimit]
      refine iff_of_false (by rintro (_ | ⟨⟨⟩⟩)) ?_
      rintro ⟨_, ⟨⟩, hn⟩
      omega
    · have hlimit : 1 ≤ min n 100 := by omega
      rw [(fetchUnread_spec srv s sender.text hlimit).1]
      exact iff_of_true (.result _) ⟨n, rfl, by omega⟩

omit [Python] in
theorem opRoster_answered_iff :
    Answered ((opRoster ident sender args).run (exec srv) s).1 ↔ s.Listable ident := by
  rw [opRoster_run]
  dsimp only
  split
  · next hlist => exact iff_of_true (rosterOf_answered ident sender args _) hlist
  · next hlist => exact iff_of_false (by rintro (_ | ⟨⟨⟩⟩)) hlist

omit [Python] in
theorem opAnnounce_answered_iff :
    Answered ((opAnnounce cfg ident sender args).run (exec srv) s).1 ↔
      (ReachesDirectory s cfg ident sender args (lit "announce") → s.Listable ident) ∧
        AnnounceAnswered cfg args := by
  have hor : ((Json.get args "project").or (.str [])).truthy = (Json.get args "project").truthy :=
    Json.truthy_or rfl
  -- whatever refuses an announce does so before it gets to the directory
  have hearly : ∀ {P : Prop}, (∀ {sized : PyStr × PyStr} {inScope : Row → Bool},
      ((Json.get args "project").or (.str [])).truthy = true →
      checkSize cfg.bodyMax ((Json.get args "body").or (.str [])) (Json.get args "subject") = .ok sized →
      resolveScope ident ((Json.get args "scope").or (.str [])) = .ok inScope →
      ¬ (s.counter .announce sender.text : Int) + 1 ≤ cfg.announceRate) →
      (P ↔ (ReachesDirectory s cfg ident sender args (lit "announce") → s.Listable ident) ∧ P) := by
    intro P hno
    refine (and_iff_right fun h => ?_).symm
    cases h with
    | chat hop => exact absurd hop (by decide)
    | roster hop => exact absurd hop (by decide)
    | announce _ hproject hsize hscope hlimit => exact absurd hlimit (hno hproject hsize hscope)
  rcases hrun : (opAnnounce cfg ident sender args).run (exec srv) s with ⟨out, t⟩
  unfold AnnounceAnswered
  rw [← hor]
  cases opAnnounce_cases srv s cfg ident sender args hrun with
  | unnamed hproject =>
    refine Iff.trans (iff_of_true (.refused (.opError rfl (by decide))) fun h => ?_) (hearly fun h => ?_)
    · rw [hproject] at h
      cases h
    · rw [hproject] at h
      cases h
  | refused hproject hsize =>
    rw [forall_prop_of_true hproject, encodable_error hsize]
    refine answered_error.trans (hearly fun _ h => ?_)
    rw [hsize] at h
    cases h
  | unscoped hproject hsize hscope =>
    rw [forall_prop_of_true hproject, encodable_ok hsize]
    refine (answered_error.trans (resolveScope_hasCode hscope)).trans (hearly fun _ _ h => ?_)
    rw [hscope] at h
    cases h
  | limited hproject hsize hscope hlimit =>
    rw [forall_prop_of_true hproject, encodable_ok hsize]
    obtain ⟨scope, hscope, -⟩ := resolveScope_ok hscope
    exact Iff.trans (iff_of_true (.refused (rateExceeded_hasCode _ _ _)) fun _ => ⟨scope, hscope⟩)
      (hearly fun _ _ _ => by omega)
  | unlisted hproject hsize hscope hlimit hcounted hlist =>
    exact answered_unlisted cfg ident sender args s (.announce rfl hproject hsize hscope hlimit) hlist
  | passed hproject hsize hscope hlimit hcounted hlist =>
    rw [forall_prop_of_true hproject, encodable_ok hsize]
    obtain ⟨scope, hscope, -⟩ := resolveScope_ok hscope
    exact iff_of_true (.result _) ⟨fun _ => hlist, fun _ => ⟨scope, hscope⟩⟩

/-- **When a request is answered with a code.**  Iff, where it gets as far as the directory, that can
be listed, body and subject of a chat or an announce are left out or strings that UTF-8 has bytes
for, the reference of a chat can be printed and the scope of an announce for a project is left out
or a string, unless the texts are too long together, the limit of a fetch is left out or `int()`
makes at least 1 of it, and no chat within its rate is to be kept in an inbox of negative length. -/
theorem answered_iff (op : PyStr) :
    Answered ((dispatch cfg ident sender args op).run (exec srv) s).1 ↔
      (ReachesDirectory s cfg ident sender args op → s.Listable ident) ∧
      (op = lit "chat" → ChatAnswered cfg ident sender args s) ∧ (op = lit "fetch" → FetchAnswered args) ∧
      (op = lit "announce" → AnnounceAnswered cfg args) := by
  unfold dispatch
  split
  · next hop =>
    rw [hop, forall_prop_of_true rfl, opChat_answered_iff cfg ident sender args s srv]
    exact and_congr_right' (and_iff_left ⟨by rintro ⟨⟩, by rintro ⟨⟩⟩).symm
  · next hchat =>
    rw [and_iff_right (a := op = lit "chat" → _) (absurd · hchat)]
    split
    · next hop =>
      have hnever : ¬ ReachesDirectory s cfg ident sender args op := by
        rw [hop]
        rintro (⟨hop, -⟩ | hop | hop) <;> exact absurd hop (by decide)
      rw [and_iff_right (absurd · hnever), hop, forall_prop_of_true rfl, opFetch_answered_iff sender args s srv]
      exact (and_iff_left (by rintro ⟨⟩)).symm
    · next hfetch =>
      rw [and_iff_right (a := op = lit "fetch" → _) (absurd · hfetch)]
      split
      · next hop =>
        rw [forall_prop_of_true (.roster hop), opRoster_answered_iff ident sender args s srv, hop]
        exact (and_iff_left (by rintro ⟨⟩)).symm
      · next hroster =>
        split
        · next hop =>
          rw [hop, forall_prop_of_true rfl]
          exact opAnnounce_answered_iff cfg ident sender args s srv
        · next hannounce =>
          refine iff_of_true (.refused (.opError rfl (by decide))) ⟨fun h => ?_, (absurd · hannounce)⟩
          cases h with
          | chat hop => exact absurd hop hchat
          | roster hop => exact absurd hop hroster
          | announce hop => exact absurd hop hannounce

end

/-- A body that is a number, one with half of a surrogate pair, a limit that is a word, and one
below 1. -/
theorem request_stops :
    let _ : Python := Python.plain
    let request (op : PyStr) (args : Args) :=
      ((dispatch Config.defaults ⟨lit "u", []⟩ busySender args op).run (exec .plain) busyStore).1
    request (lit "chat") [(lit "to", .str (lit "x")), (lit "body", .int 5)] = .error .attributeError ∧
    request (lit "chat") [(lit "to", .str (lit "x")), (lit "body", .str [0xD83D])] =
      .error .unicodeEncodeError ∧
    request (lit "fetch") [(lit "limit", .str (lit "ten"))] = .error .valueError ∧
    request (lit "fetch") [(lit "limit", .int (-1))] = .error .dataError ∧
    ¬ ∀ op args, Answered (request op args) := by
  intro _ request
  have hnumber : request (lit "chat") [(lit "to", .str (lit "x")), (lit "body", .int 5)] =
      .error .attributeError := rfl
  refine ⟨hnumber, rfl, rfl, rfl, fun h => ?_⟩
  have := h (lit "chat") [(lit "to", .str (lit "x")), (lit "body", .int 5)]
  rw [hnumber, answered_error] at this
  cases this

end Muster
