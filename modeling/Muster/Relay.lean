import Muster.Lib.Recency
import Muster.Lib.Json

/-!
# The relay of the Claude shim (`muster_channel.py`)

What becomes of the events of the stream, connection after connection.  `seen` keeps the
ids of 256 messages, oldest first, over all of them; an event whose id is in it is a
duplicate.

It is meant to be an LRU.  But a duplicate leaves its id where it is, so the ids that go
first are those that were let in first, however late they have come again
(`Recency.forgets_by_admission`).  When that makes no difference is said by
`relay_dedups_iff`.
-/

namespace Muster

namespace Relay

open Recency

abbrev Event.Dict := List (PyStr × Json)

/-- A value as a key of a dict.  Numbers are the same key when they are equal; there is one
`nan` only, the decoder's. -/
inductive MsgKey where
  | str (s : PyStr)
  | number (x : Json.Number)
  | nan
  deriving DecidableEq

/-- `none` for what cannot be hashed. -/
def keyOf : Json → Option MsgKey
  | .str s => some (.str s)
  | .arr _ => none
  | .obj _ => none
  | x => some ((x.number.map MsgKey.number).getD .nan)

/-- `ev.get("msg_id")`, when it is true, as a key of `seen`.  A list or a dict is a `TypeError`. -/
def msgId (ev : Event.Dict) : Except Unit (Option MsgKey) :=
  let mid := Json.get ev "msg_id"
  if mid.truthy then
    match keyOf mid with
    | some k => .ok (some k)
    | none => .error ()
  else .ok none

/-- `ev.get(key, default)`. -/
def getOr (ev : Event.Dict) (key default : String) : Json :=
  (ev.lookup (lit key)).getD (.str (lit default))

/-- `_render_deliver`. -/
def renderDeliver [Python] (ev : Event.Dict) : Option Json :=
  match Json.get ev "kind" with
  | .str kind =>
    if kind = lit "chat" then
      some ((Json.get ev "envelope").or (.str (lit "✉ new muster message — fetch for full")))
    else if kind = lit "announce" then
      let subject := Json.get ev "subject"
      some (.str (lit "📢 Announce from " ++ (getOr ev "from" "?").text ++
        (if subject.truthy then lit " [" ++ subject.text ++ lit "]" else []) ++ lit ": " ++
        (getOr ev "body" "").text))
    else if kind = lit "unread" then
      some (.str (lit "✉ " ++ (Json.get ev "count").text ++
        lit " unread muster message(s) waiting — run fetch to read them"))
    else none
  | _ => none

/-- What becomes of a deliver event. -/
inductive Relayed where
  | duplicate
  /-- of a kind that is not rendered -/
  | nothing
  | pushed (content : Json)

/-- `seen[mid] = None`, and `popitem(last=False)` while there are more than 256. -/
def letIn (seen : List MsgKey) (mid : MsgKey) : List MsgKey :=
  (seen ++ [mid]).drop ((seen ++ [mid]).length - 256)

/-- A deliver event on its way, with the memory before and after it. -/
structure Step where
  ev : Event.Dict
  mid : Option MsgKey
  seen : List MsgKey
  seen' : List MsgKey
  outcome : Relayed

section
variable [Python]

def present (ev : Event.Dict) : Relayed :=
  match renderDeliver ev with
  | some content => if content.truthy then .pushed content else .nothing
  | none => .nothing

/-- `continue` on a duplicate leaves `seen` as it is. -/
def relayDeliver (seen : List MsgKey) (mid : Option MsgKey) (ev : Event.Dict) : Step :=
  match mid with
  | some k =>
    if k ∈ seen then ⟨ev, mid, seen, seen, .duplicate⟩
    else ⟨ev, mid, seen, letIn seen k, present ev⟩
  | none => ⟨ev, mid, seen, seen, present ev⟩

/-- One connection.  An error event ends it, and so does an exception. -/
def relayConnection (seen : List MsgKey) : List Event.Dict → List MsgKey × List Step
  | [] => (seen, [])
  | ev :: evs =>
    match Json.get ev "_event" with
    | .str name =>
      if name = lit "error" then (seen, [])
      else if name = lit "deliver" then
        match msgId ev with
        | .error () => (seen, [])
        | .ok mid =>
          let s := relayDeliver seen mid ev
          let rest := relayConnection s.seen' evs
          (rest.1, s :: rest.2)
      else relayConnection seen evs
    | _ => relayConnection seen evs

/-- `relay`: one connection after the other. -/
def relay (seen : List MsgKey) : List (List Event.Dict) → List MsgKey × List Step
  | [] => (seen, [])
  | evs :: connections =>
    let r := relayConnection seen evs
    let rest := relay r.1 connections
    (rest.1, r.2 ++ rest.2)

end

/-! ## The deliver events -/

def isNamed (name : String) (ev : Event.Dict) : Bool :=
  match Json.get ev "_event" with
  | .str s => s == lit name
  | _ => false

/-- An error event, or a deliver event with an id that cannot be hashed. -/
def ends (ev : Event.Dict) : Bool :=
  isNamed "error" ev || (isNamed "deliver" ev && !(msgId ev).isOk)

/-- The id of a deliver event that does not end its connection. -/
def eventId (ev : Event.Dict) : Option MsgKey := (msgId ev).toOption.join

/-- The deliver events of the connections that come to be handled. -/
def handled (connections : List (List Event.Dict)) : List Event.Dict :=
  connections.flatMap fun evs => (evs.takeWhile fun ev => !ends ev).filter (isNamed "deliver")

section
variable [Python]

/-- Deliver events in turn. -/
def relayAll (seen : List MsgKey) : List Event.Dict → List MsgKey × List Step
  | [] => (seen, [])
  | ev :: evs =>
    let s := relayDeliver seen (eventId ev) ev
    let rest := relayAll s.seen' evs
    (rest.1, s :: rest.2)

theorem relayAll_append (seen : List MsgKey) (evs evs' : List Event.Dict) :
    relayAll seen (evs ++ evs') =
      ((relayAll (relayAll seen evs).1 evs').1,
        (relayAll seen evs).2 ++ (relayAll (relayAll seen evs).1 evs').2) := by
  induction evs generalizing seen with
  | nil => rfl
  | cons ev evs ih =>
    rw [List.cons_append, relayAll, relayAll]
    dsimp only
    rw [ih]
    rfl

theorem relayConnection_eq (seen : List MsgKey) (evs : List Event.Dict) :
    relayConnection seen evs =
      relayAll seen ((evs.takeWhile fun ev => !ends ev).filter (isNamed "deliver")) := by
  induction evs generalizing seen with
  | nil => rfl
  | cons ev evs ih =>
    rw [relayConnection, List.takeWhile_cons]
    cases hname : Json.get ev "_event" with
    | str name =>
      dsimp only
      by_cases herror : name = lit "error"
      · rw [if_pos herror]
        simp [ends, isNamed, hname, herror, relayAll]
      · rw [if_neg herror]
        by_cases hdeliver : name = lit "deliver"
        · rw [if_pos hdeliver]
          have hnamed : isNamed "deliver" ev = true := by simp [isNamed, hname, hdeliver]
          cases hid : msgId ev with
          | error =>
            have hends : ends ev = true := by simp [ends, hnamed, hid, Except.isOk, Except.toBool]
            rw [if_neg (by simp [hends])]
            rfl
          | ok mid =>
            have hends : ends ev = false := by
              simp [ends, isNamed, hname, herror, hid, Except.isOk, Except.toBool]
            have heventId : eventId ev = mid := by simp [eventId, hid, Except.toOption]
            rw [if_pos (by simp [hends]), List.filter_cons, if_pos hnamed, relayAll, heventId]
            dsimp only
            rw [ih]
        · rw [if_neg hdeliver, if_pos (by simp [ends, isNamed, hname, herror, hdeliver]),
            List.filter_cons, if_neg (by simp [isNamed, hname, hdeliver]), ih]
    | _ =>
      dsimp only
      rw [if_pos (by simp [ends, isNamed, hname]), List.filter_cons, if_neg (by simp [isNamed, hname]), ih]

theorem relay_eq (seen : List MsgKey) (connections : List (List Event.Dict)) :
    relay seen connections = relayAll seen (handled connections) := by
  induction connections generalizing seen with
  | nil => rfl
  | cons evs connections ih =>
    unfold handled at ih ⊢
    rw [relay, List.flatMap_cons, relayAll_append, relayConnection_eq, ih]

/-! ## The memory -/

/-- The ids of events, in order. -/
def ids (evs : List Event.Dict) : List MsgKey := evs.filterMap eventId

omit [Python] in
theorem letIn_eq (seen : List MsgKey) (k : MsgKey) : letIn seen k = (seen ++ [k]).rtake 256 := rfl

theorem relayDeliver_seen' (seen : List MsgKey) (mid : Option MsgKey) (ev : Event.Dict) :
    (relayDeliver seen mid ev).seen' = mid.toList.foldl (fifoStep 256) seen := by
  cases mid with
  | none => rfl
  | some k =>
    unfold relayDeliver
    rw [Option.toList_some, List.foldl_cons, List.foldl_nil, fifoStep, ← letIn_eq]
    dsimp only
    by_cases hk : k ∈ seen
    · rw [if_pos hk, if_pos hk]
    · rw [if_neg hk, if_neg hk]

/-- The memory is first in, first out. -/
theorem relayAll_seen (seen : List MsgKey) (evs : List Event.Dict) :
    (relayAll seen evs).1 = (ids evs).foldl (fifoStep 256) seen := by
  induction evs generalizing seen with
  | nil => rfl
  | cons ev evs ih =>
    have hids : ids (ev :: evs) = (eventId ev).toList ++ ids evs := by
      unfold ids
      rw [List.filterMap_cons]
      cases eventId ev with
      | none => rfl
      | some k => rfl
    rw [relayAll, hids, List.foldl_append, ← relayDeliver_seen' seen (eventId ev) ev, ← ih]

theorem relayAll_nil_seen (evs : List Event.Dict) : (relayAll [] evs).1 = fifo 256 (ids evs) :=
  relayAll_seen [] evs

theorem relayDeliver_ev (seen : List MsgKey) (mid : Option MsgKey) (ev : Event.Dict) :
    (relayDeliver seen mid ev).ev = ev ∧ (relayDeliver seen mid ev).mid = mid ∧
      (relayDeliver seen mid ev).seen = seen := by
  unfold relayDeliver
  cases mid with
  | none => exact ⟨rfl, rfl, rfl⟩
  | some k =>
    dsimp only
    split
    · exact ⟨rfl, rfl, rfl⟩
    · exact ⟨rfl, rfl, rfl⟩

theorem present_ne_duplicate (ev : Event.Dict) : present ev ≠ .duplicate := by
  unfold present
  cases renderDeliver ev with
  | none => rintro ⟨⟩
  | some content =>
    dsimp only
    split
    · rintro ⟨⟩
    · rintro ⟨⟩

theorem relayDeliver_duplicate_iff (seen : List MsgKey) (k : MsgKey) (ev : Event.Dict) :
    (relayDeliver seen (some k) ev).outcome = .duplicate ↔ k ∈ seen := by
  unfold relayDeliver
  dsimp only
  split
  · next h => exact iff_of_true rfl h
  · next h => exact iff_of_false (present_ne_duplicate ev) h

/-- The id of each step, as of its event. -/
theorem relayAll_mid (seen : List MsgKey) (evs : List Event.Dict) :
    (relayAll seen evs).2.filterMap Step.mid = ids evs := by
  induction evs generalizing seen with
  | nil => rfl
  | cons ev evs ih =>
    unfold ids at ih ⊢
    rw [relayAll, List.filterMap_cons, List.filterMap_cons, (relayDeliver_ev _ _ _).2.1]
    cases eventId ev with
    | none => exact ih _
    | some k => exact congrArg _ (ih _)

/-- What holds of every step holds at every event, with the memory the events before it left. -/
theorem throughout_relayAll {P : List Step → Step → Prop} {evs : List Event.Dict} :
    Throughout P (relayAll [] evs).2 ↔
      Throughout (fun before ev => P (relayAll [] before).2
        (relayDeliver (relayAll [] before).1 (eventId ev) ev)) evs := by
  induction evs using List.reverseRecOn with
  | nil => exact ⟨fun _ => throughout_nil _, fun _ => throughout_nil _⟩
  | append_singleton evs ev ih =>
    rw [relayAll_append, throughout_concat, ← ih]
    exact throughout_concat

end

/-! ## The least recently used -/

def isChat (ev : Event.Dict) : Bool :=
  match Json.get ev "kind" with
  | .str s => s == lit "chat"
  | _ => false

/-- The filter of 256 ids that forgets the least recently used one. -/
structure ActsAsLru (steps : List Step) : Prop where
  bounded : ∀ s ∈ steps, s.seen'.length ≤ 256
  unkeyed : ∀ s ∈ steps, s.mid = none → s.outcome ≠ .duplicate ∧ s.seen' = s.seen
  keyed : Throughout (fun past s => ∀ k, s.mid = some k →
    (s.outcome = .duplicate ↔ k ∈ recent 256 (past.filterMap Step.mid))) steps
  chat : Throughout (fun past s => ∀ k, s.mid = some k → isChat s.ev = true →
    ((∃ content, s.outcome = .pushed content) ↔ k ∉ recent 256 (past.filterMap Step.mid))) steps

section
variable [Python]

theorem present_chat {ev : Event.Dict} (h : isChat ev = true) : ∃ content, present ev = .pushed content := by
  unfold isChat at h
  split at h
  · next kind hkind =>
    have hrender : renderDeliver ev =
        some ((Json.get ev "envelope").or (.str (lit "✉ new muster message — fetch for full"))) := by
      unfold renderDeliver
      rw [hkind]
      exact if_pos (beq_iff_eq.1 h)
    unfold present
    rw [hrender]
    dsimp only
    split
    · exact ⟨_, rfl⟩
    · next hfalse =>
      exfalso
      apply hfalse
      unfold Json.or
      split
      · assumption
      · rfl
  · cases h

theorem pushed_iff {ev : Event.Dict} (h : isChat ev = true) (seen : List MsgKey) (k : MsgKey) :
    (∃ content, (relayDeliver seen (some k) ev).outcome = .pushed content) ↔ k ∉ seen := by
  unfold relayDeliver
  dsimp only
  split
  · next hseen =>
    refine iff_of_false ?_ (not_not_intro hseen)
    rintro ⟨content, ⟨⟩⟩
  · next hseen => exact iff_of_true (present_chat h) hseen

theorem keyed_iff (evs : List Event.Dict) :
    Throughout (fun past s => ∀ k, s.mid = some k →
      (s.outcome = .duplicate ↔ k ∈ recent 256 (past.filterMap Step.mid))) (relayAll [] evs).2 ↔
    Throughout (fun before k => k ∈ fifo 256 before ↔ k ∈ recent 256 before) (ids evs) := by
  unfold ids
  rw [throughout_relayAll, throughout_filterMap]
  refine forall_congr' fun before => forall_congr' fun ev => imp_congr_right fun _ => forall_congr' fun k => ?_
  rw [(relayDeliver_ev _ _ _).2.1]
  refine imp_congr_right fun hk => ?_
  rw [hk, relayDeliver_duplicate_iff, relayAll_nil_seen, relayAll_mid]
  rfl

theorem acts_iff (connections : List (List Event.Dict)) :
    ActsAsLru (relay [] connections).2 ↔
      Throughout (fun before k => k ∈ fifo 256 before ↔ k ∈ recent 256 before)
        (ids (handled connections)) := by
  rw [relay_eq, ← keyed_iff]
  refine ⟨ActsAsLru.keyed, fun h => ⟨?_, ?_, h, ?_⟩⟩
  · apply of_throughout
    refine throughout_relayAll.2 fun before ev _ => ?_
    show (relayDeliver (relayAll [] before).1 (eventId ev) ev).seen'.length ≤ 256
    rw [relayDeliver_seen', relayAll_nil_seen, fifo, ← List.foldl_append]
    exact length_fifo_le 256 _
  · apply of_throughout
    refine throughout_relayAll.2 fun before ev _ => ?_
    show (relayDeliver (relayAll [] before).1 (eventId ev) ev).mid = none → _
    intro hmid
    rw [(relayDeliver_ev _ _ _).2.1] at hmid
    rw [hmid]
    exact ⟨present_ne_duplicate ev, rfl⟩
  · refine throughout_relayAll.2 fun before ev hbefore k hk hchat => ?_
    rw [(relayDeliver_ev _ _ _).2.1] at hk
    rw [(relayDeliver_ev _ _ _).1] at hchat
    have hsame := throughout_relayAll.1 h before ev hbefore k ((relayDeliver_ev _ _ _).2.1.trans hk)
    rw [hk] at hsame ⊢
    rw [pushed_iff hchat, ← hsame, relayDeliver_duplicate_iff]

/-- **When the filter is an LRU.**  Iff each id that comes, with those that came before it, is
among the 256 that came last just in case it is among the last 256 that were new when they
came. -/
theorem relay_dedups_iff (connections : List (List Event.Dict)) :
    ActsAsLru (relay [] connections).2 ↔
      Throughout (fun before k => k ∈ (newcomers 256 before).rtake 256 ↔ k ∈ recent 256 before)
        (ids (handled connections)) := by
  rw [acts_iff, agrees_iff]

theorem acts_of_few {connections : List (List Event.Dict)}
    (h : (ids (handled connections)).dedup.length ≤ 256) : ActsAsLru (relay [] connections).2 :=
  (acts_iff connections).2 (agrees_of_few 256 h)

/-! ## An id that keeps coming -/

omit [Python] in
/-- A nudge for the message with this id. -/
def nudge (id : PyStr) : Event.Dict :=
  [(lit "_event", .str (lit "deliver")), (lit "kind", .str (lit "chat")), (lit "msg_id", .str id)]

omit [Python] in
theorem msgId_nudge {id : PyStr} (h : id ≠ []) : msgId (nudge id) = .ok (some (.str id)) := by
  have hget : Json.get (nudge id) "msg_id" = .str id := rfl
  have htruthy : Json.truthy (.str id) = true := bne_iff_ne.2 h
  unfold msgId
  rw [hget]
  dsimp only
  rw [if_pos htruthy]
  rfl

omit [Python] in
theorem ids_handled_nudges {names : List PyStr} (h : ∀ id ∈ names, id ≠ []) :
    ids (handled [names.map nudge]) = names.map MsgKey.str := by
  unfold handled ids
  rw [List.flatMap_singleton, List.takeWhile_eq_self_iff.2, List.filter_eq_self.2]
  · induction names with
    | nil => rfl
    | cons id names ih =>
      have hid : eventId (nudge id) = some (.str id) := by
        unfold eventId
        rw [msgId_nudge (h id List.mem_cons_self)]
        rfl
      rw [List.map_cons, List.filterMap_cons_some hid, List.map_cons,
        ih fun id hid => h id (List.mem_cons_of_mem _ hid)]
  · rintro ev hev
    obtain ⟨id, _, rfl⟩ := List.mem_map.1 hev
    rfl
  · rintro ev hev
    obtain ⟨id, hid, rfl⟩ := List.mem_map.1 hev
    unfold ends
    rw [msgId_nudge (h id hid)]
    rfl

/-- As many ids as the memory holds, the first of them again, one more, and the first again. -/
theorem chats_not_lru {x z : PyStr} {ys : List PyStr} (hnodup : (x :: ys).Nodup)
    (hlen : (x :: ys).length = 256) (hz : z ∉ x :: ys) (hne : ∀ id ∈ x :: z :: ys, id ≠ []) :
    ¬ ActsAsLru (relay [] [(x :: ys ++ [x, z, x]).map nudge]).2 := by
  intro h
  have hinj : Function.Injective MsgKey.str := fun _ _ => MsgKey.str.inj
  have hnames : ∀ id ∈ x :: ys ++ [x, z, x], id ≠ [] := by
    intro id hid
    apply hne
    simp only [List.mem_append, List.mem_cons, List.not_mem_nil, or_false] at hid ⊢
    tauto
  have hlru := (acts_iff _).1 h
  rw [ids_handled_nudges hnames, List.map_append] at hlru
  refine not_agrees 256 ?_ ?_ ?_ (by decide) hlru
  · exact hnodup.map hinj
  · rw [← hlen, List.length_cons, List.length_cons, List.length_map]
  · rw [← List.map_cons, List.mem_map_of_injective hinj]
    exact hz

end

def letters (i : Nat) : PyStr := List.replicate (i + 1) 97

/-- What comes again after a single other id is pushed again. -/
theorem relay_forgets :
    let _ : Python := Python.plain
    let names := (List.range' 1 255).map letters
    ¬ ActsAsLru (relay []
      [(letters 0 :: names ++ [letters 0, letters 256, letters 0]).map nudge]).2 := by
  intro _ names
  have hinj : Function.Injective letters := by
    intro i j hij
    have := congrArg List.length hij
    simpa [letters] using this
  have hmem : ∀ i, letters i ∈ letters 0 :: names ↔ i < 256 := by
    intro i
    rw [← List.map_cons, List.mem_map_of_injective hinj, List.mem_cons, List.mem_range'_1]
    omega
  refine chats_not_lru ?_ ?_ ?_ ?_
  · rw [← List.map_cons]
    refine List.Nodup.map hinj (List.nodup_cons.2 ⟨?_, List.nodup_range'⟩)
    rw [List.mem_range'_1]
    omega
  · rw [List.length_cons, List.length_map, List.length_range']
  · rw [hmem]
    omega
  · intro id hid
    have : ∃ i, id = letters i := by
      rcases List.mem_cons.1 hid with rfl | hid
      · exact ⟨0, rfl⟩
      rcases List.mem_cons.1 hid with rfl | hid
      · exact ⟨256, rfl⟩
      obtain ⟨i, _, rfl⟩ := List.mem_map.1 hid
      exact ⟨i, rfl⟩
    obtain ⟨i, rfl⟩ := this
    simp [letters]

end Relay

end Muster
