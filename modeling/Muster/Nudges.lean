import Muster.Lib.OneLine
import Muster.Published
import Muster.Relay

/-!
# The nudges of the Claude shim

From the channel of an agent over its streams to what the shim pushes.  The ids of the
events on a channel differ (`chat_ids_differ`), so the filter for duplicates finds none, and
every chat, announcement and count of unread messages that is forwarded before a stream ends
is shown, in order (`nudges_all_shown`).  The nudge of a chat says who has sent it, on one
line of bounded length, however its body and subject are written (`envelope_fits`).
-/

namespace Muster

open Relay

/-- What the shim shows of a frame. -/
def Frame.nudge : Frame → Option PyStr
  | .chat _ frm body subject important => some (envelope frm body subject important 56)
  | .announce frm body subject => some (lit "📢 Announce from " ++ frm ++
      (if subject = [] then [] else lit " [" ++ subject ++ lit "]") ++ lit ": " ++ body)
  | .unread count _ => some (lit "✉ " ++ PyStr.strInt count ++
      lit " unread muster message(s) waiting — run fetch to read them")
  | .error _ _ => none
  | .ping => none

/-- What is forwarded from the channel. -/
def Frame.forwarded : Frame → Option Json
  | .chat msgId frm body subject important => some (chatEvent msgId frm body subject important)
  | .announce frm body subject => some (announceEvent frm body subject)
  | _ => none

def Frame.isError : Frame → Bool
  | .error _ _ => true
  | _ => false

def Frame.id : Frame → Option PyStr
  | .chat msgId _ _ _ _ => some msgId.text
  | _ => none

theorem carries_of_id {f : Frame} {t : PyStr} (h : f.id = some t) :
    ∃ event, f.forwarded = some event ∧ Carries t event := by
  cases f with
  | chat id frm body subject important =>
    cases h
    refine ⟨_, rfl, ?_⟩
    unfold Carries chatEvent Json.fields
    simp +decide only [get_dict_cons, if_false, if_true]
  | _ => cases h

theorem text_ne_nil (id : StreamId) : id.text ≠ [] := by
  unfold StreamId.text
  simp [lit]

theorem envelope_ne_nil (frm body subject : PyStr) (important : Bool) (n : Nat) :
    envelope frm body subject important n ≠ [] := by
  unfold envelope
  dsimp only
  split <;> simp [lit]

theorem yielded_dict {f : Frame} {event : PyStr} {kvs : List (String × Json)}
    (h : f.event = some (event, .obj (dict kvs))) : f.yielded = dict (("_event", .str event) :: kvs) := by
  unfold Frame.yielded
  rw [h]
  rfl

section
variable [Python]

omit [Python] in
theorem msgId_yielded (f : Frame) : msgId f.yielded = .ok (f.id.map .str) := by
  cases f with
  | chat id frm body subject important =>
    have hget : Json.get (Frame.chat id frm body subject important).yielded "msg_id" = .str id.text := by
      rw [yielded_dict rfl]
      simp +decide only [get_dict_cons, if_false, if_true]
    have htruthy : (Json.str id.text).truthy = true := by simpa [Json.truthy] using text_ne_nil id
    unfold msgId
    dsimp only
    rw [hget, if_pos htruthy]
    rfl
  | announce frm body subject =>
    have hget : Json.get (Frame.announce frm body subject).yielded "msg_id" = .null := by
      rw [yielded_dict rfl]
      simp +decide only [get_dict_cons, if_false]
      rfl
    unfold msgId
    rw [hget]
    rfl
  | unread count oldestTs =>
    have hget : Json.get (Frame.unread count oldestTs).yielded "msg_id" = .null := by
      rw [yielded_dict rfl]
      simp +decide only [get_dict_cons, if_false]
      rfl
    unfold msgId
    rw [hget]
    rfl
  | error code message =>
    have hget : Json.get (Frame.error code message).yielded "msg_id" = .null := by
      rw [yielded_dict rfl]
      simp +decide only [get_dict_cons, if_false]
      rfl
    unfold msgId
    rw [hget]
    rfl
  | ping => rfl

omit [Python] in
theorem get_event (f : Frame) : Json.get f.yielded "_event" =
    .str (if f.isError then lit "error" else if f.nudge.isSome then lit "deliver" else lit "_ping") := by
  cases f <;> rfl

/-- The shim pushes what there is to show. -/
theorem present_yielded {f : Frame} {t : PyStr} (h : f.nudge = some t) :
    present f.yielded = .pushed (.str t) := by
  have hpushed : ∀ {t : PyStr}, t ≠ [] → renderDeliver f.yielded = some (.str t) →
      present f.yielded = .pushed (.str t) := by
    intro t ht hrender
    have htruthy : (Json.str t).truthy = true := by simpa [Json.truthy] using ht
    unfold present
    rw [hrender]
    dsimp only
    rw [if_pos htruthy]
  cases f with
  | chat id frm body subject important =>
    cases h
    have hne := envelope_ne_nil frm body subject important 56
    refine hpushed hne ?_
    have htruthy : (Json.str (envelope frm body subject important 56)).truthy = true := by
      simpa [Json.truthy] using hne
    unfold renderDeliver
    rw [yielded_dict rfl]
    simp +decide only [get_dict_cons, if_false, if_true]
    rw [Json.or_of_truthy htruthy]
  | announce frm body subject =>
    cases h
    refine hpushed (by simp [lit]) ?_
    unfold renderDeliver
    rw [yielded_dict rfl]
    simp +decide only [get_dict_cons, getOr, lookup_dict_cons, if_false, if_true, Option.getD_some]
    cases subject <;> rfl
  | unread count oldestTs =>
    cases h
    refine hpushed (by simp [lit]) ?_
    unfold renderDeliver
    rw [yielded_dict rfl]
    simp +decide only [get_dict_cons, if_false, if_true]
    rfl
  | error code message => cases h
  | ping => cases h

omit [Python] in
theorem mem_letIn {seen : List MsgKey} {k x : MsgKey} (h : x ∈ letIn seen k) : x ∈ seen ∨ x = k := by
  unfold letIn at h
  generalize (seen ++ [k]).length - 256 = n at h
  rcases List.mem_append.1 (List.mem_of_mem_drop h) with h | h
  · exact .inl h
  · exact .inr (List.mem_singleton.1 h)

/-- Without repetitions nothing is a duplicate. -/
theorem relayAll_fresh {seen : List MsgKey} {evs : List Event.Dict} (hnodup : (ids evs).Nodup)
    (hseen : ∀ k ∈ seen, k ∉ ids evs) : (relayAll seen evs).2.map (·.outcome) = evs.map present := by
  induction evs generalizing seen with
  | nil => rfl
  | cons ev evs ih =>
    rw [relayAll]
    dsimp only
    rw [List.map_cons, List.map_cons]
    unfold ids at hnodup hseen ih
    rw [List.filterMap_cons] at hnodup hseen
    cases hid : eventId ev with
    | none =>
      rw [hid] at hnodup hseen
      exact congrArg _ (ih hnodup hseen)
    | some k =>
      rw [hid] at hnodup hseen
      have hk : k ∉ seen := fun hmem => hseen k hmem List.mem_cons_self
      obtain ⟨hnew, hnodup⟩ := List.nodup_cons.1 hnodup
      unfold relayDeliver
      dsimp only
      rw [if_neg hk]
      refine congrArg _ (ih hnodup fun x hx hmem => ?_)
      dsimp only at hx
      rcases mem_letIn hx with hx | hx
      · exact hseen x hx (List.mem_cons_of_mem _ hmem)
      · rw [hx] at hmem
        exact hnew hmem

omit [Python] in
theorem ids_yielded (frames : List Frame) :
    ids (frames.map Frame.yielded) = (frames.filterMap Frame.id).map .str := by
  have hid : ∀ f : Frame, eventId f.yielded = f.id.map .str := by
    intro f
    unfold eventId
    rw [msgId_yielded]
    rfl
  unfold ids
  rw [List.filterMap_map, List.map_filterMap]
  exact List.filterMap_congr fun f _ => hid f

/-- The frames of a connection up to an error, of those that have something to show. -/
def shown (frames : List Frame) : List Frame :=
  (frames.takeWhile fun f => !f.isError).filter fun f => f.nudge.isSome

omit [Python] in
theorem handled_yielded (connections : List (List Frame)) :
    handled (connections.map (List.map Frame.yielded)) = (connections.flatMap shown).map Frame.yielded := by
  have hends : ∀ f : Frame, ends f.yielded = f.isError := by
    intro f
    unfold ends isNamed
    rw [msgId_yielded, get_event]
    cases f <;> rfl
  have hnamed : ∀ f : Frame, f.isError = false → isNamed "deliver" f.yielded = f.nudge.isSome := by
    intro f hf
    unfold isNamed
    rw [get_event, hf]
    cases f <;> rfl
  unfold handled
  rw [List.flatMap_map, List.map_flatMap]
  refine List.flatMap_congr fun frames _ => ?_
  unfold shown
  rw [List.takeWhile_map, List.filter_map]
  have htake : (fun ev => !ends ev) ∘ Frame.yielded = fun f : Frame => !f.isError := by
    funext f
    exact congrArg (!·) (hends f)
  rw [htake]
  refine congrArg _ (List.filter_congr fun f hf => ?_)
  have hno := List.mem_takeWhile_imp hf
  exact hnamed f (by simpa using hno)

omit [Python] in
/-- **A connection is parsed back into its frames.** -/
theorem parse_texts {loads : PyStr → Option Json} {frames : List Frame} (h : Decodes loads frames) :
    (parseSse loads (PyStr.splitLines (frames.flatMap Frame.text))).2 = frames.map Frame.yielded := by
  have htext : frames.flatMap Frame.text = (frames.flatMap Frame.lines).flatMap (· ++ [10]) := by
    rw [List.flatMap_assoc]
    exact List.flatMap_congr fun f _ => text_eq_lines f
  have hlines : ∀ line ∈ frames.flatMap Frame.lines, ∀ c ∈ line, PyStr.isLineBreak c = false := by
    intro line hline c hc
    obtain ⟨f, -, hf⟩ := List.mem_flatMap.1 hline
    exact not_lineBreak (List.all_eq_true.1 (lines_printable f line hf) c hc)
  unfold parseSse
  rw [htext, PyStr.splitLines_flatMap hlines, parse_frames h]

end

section
variable [Python] {cfg : Config} {srv : Server} {a : PyStr} {s₀ : Db} {w : Moment}

/-- **Every nudge is shown**: whatever the service does, and however the events of a channel are
spread over connections, the shim takes none of them for a duplicate. -/
theorem nudges_all_shown (h : (service cfg srv).Reach Served s₀ w) (hin : s₀.Permanent (.inbox a))
    {loads : PyStr → Option Json} {connections : List (List Frame)}
    (hdecodes : Decodes loads connections.flatten)
    (hforwarded : (connections.flatten.filterMap Frame.forwarded).Sublist
      (w.st.received a s₀.pubs.length)) :
    (relay [] (connections.map fun frames =>
        (parseSse loads (PyStr.splitLines (frames.flatMap Frame.text))).2)).2.map (·.outcome) =
      ((connections.flatMap shown).filterMap Frame.nudge).map fun t => .pushed (.str t) := by
  have hparsed : (connections.map fun frames =>
      (parseSse loads (PyStr.splitLines (frames.flatMap Frame.text))).2) =
      connections.map (List.map Frame.yielded) := by
    refine List.map_congr_left fun frames hframes => parse_texts ?_
    exact fun f hf => hdecodes f (List.mem_flatten.2 ⟨frames, hframes, hf⟩)
  have hsub : (connections.flatMap shown).Sublist connections.flatten := by
    rw [← List.flatMap_id]
    exact List.Sublist.flatMap_right connections fun frames _ =>
      List.filter_sublist.trans (List.takeWhile_sublist _)
  have hids : (ids ((connections.flatMap shown).map Frame.yielded)).Nodup := by
    have hpair := (chat_ids_differ h hin).sublist hforwarded
    rw [List.pairwise_filterMap] at hpair
    rw [ids_yielded, List.nodup_map_iff fun _ _ h => MsgKey.str.inj h]
    refine List.pairwise_filterMap.2 ((hpair.sublist hsub).imp fun {f f'} hdiffer t ht t' ht' heq => ?_)
    subst heq
    obtain ⟨event, hevent, hcarries⟩ := carries_of_id ht
    obtain ⟨event', hevent', hcarries'⟩ := carries_of_id ht'
    exact hdiffer _ hevent _ hevent' _ hcarries hcarries'
  rw [hparsed, relay_eq, handled_yielded, relayAll_fresh hids (by simp), List.map_map,
    List.map_filterMap, ← List.filterMap_eq_map]
  refine List.filterMap_congr fun f hf => ?_
  obtain ⟨frames, -, hf⟩ := List.mem_flatMap.1 hf
  obtain ⟨t, ht⟩ := Option.isSome_iff_exists.1 (List.mem_filter.1 hf).2
  rw [ht]
  exact congrArg some (present_yielded ht)

end

/-- Two connections, one for each of the two messages of `overlapPrefix`. -/
def overlapConnections : List (List Frame) :=
  [[.unread 1 (lit "5"), .chat (toLex (5000, 0)) (lit "u/h/r/p/y") (lit "hi") [] false],
    [.ping, .chat (toLex (5000, 1)) (lit "u/h/r/p/y") (lit "hi") [] false]]

theorem nudges_all_shown_overlap :
    let _ : Python := Python.plain
    (relay [] (overlapConnections.map fun frames =>
        (parseSse (readBack overlapConnections.flatten)
          (PyStr.splitLines (frames.flatMap Frame.text))).2)).2.map (·.outcome) =
      ((overlapConnections.flatMap shown).filterMap Frame.nudge).map fun t => .pushed (.str t) := by
  intro _
  have hdumps : ((overlapConnections.flatten.filterMap Frame.event).map fun e => e.2.dumps).Nodup := by
    decide +kernel
  have hreceived : (overlap []).st.received (lit "u/h/r/p/x") 0 =
      overlapConnections.flatten.filterMap Frame.forwarded := rfl
  refine nudges_all_shown (a := lit "u/h/r/p/x") (overlap_reach [] (by simp)) ?_
    (readBack_decodes hdumps) ?_
  · intro v hv
    cases hv
  · exact hreceived ▸ List.Sublist.refl _

/-! ## The summary line -/

/-- **The summary line** is one line iff the sender's address is, and not much longer. -/
theorem envelope_fits (frm body subject : PyStr) (important : Bool) (n : Nat) :
    (OneLine (envelope frm body subject important n) ↔ OneLine frm) ∧
      (envelope frm body subject important n).length ≤ frm.length + n + 23 := by
  have hline : ∀ s : PyStr, OneLine ((PyStr.firstLine s).take n) := by
    intro s hmem
    have := List.mem_takeWhile_imp (List.mem_of_mem_take hmem)
    revert this
    decide
  have hlength : ∀ s : PyStr, ((PyStr.firstLine s).take n).length ≤ n := fun s => List.length_take_le _ _
  have hhint : OneLine (lit " · fetch for full") := by decide
  have hmark : OneLine (lit "✉ ") ∧ OneLine (lit ": ") ∧ OneLine (lit "❗ ") := by decide
  obtain ⟨hbegin, hcolon, himportant⟩ := hmark
  have hlengths : (lit " · fetch for full").length = 17 ∧ (lit "✉ ").length = 2 ∧
      (lit ": ").length = 2 ∧ (lit "❗ ").length = 2 := by decide
  obtain ⟨h17, h2, h2', h2''⟩ := hlengths
  unfold envelope
  dsimp only
  generalize PyStr.strip (if subject = [] then body else subject) = subj
  have hshown := hline subj
  have hn := hlength subj
  generalize (PyStr.firstLine subj).take n = shown at hshown hn ⊢
  by_cases hbody : shown = PyStr.strip body
  · rw [if_pos hbody]
    cases important with
    | true =>
      simp only [if_true, oneLine_append, List.length_append, List.length_nil, hbegin, hcolon, himportant,
        hshown, true_and, and_true]
      refine ⟨and_iff_left (by rintro ⟨⟩), by omega⟩
    | false =>
      simp only [Bool.false_eq_true, if_false, oneLine_append, List.length_append, List.length_nil, hbegin,
        hcolon, hshown, true_and, and_true]
      refine ⟨and_iff_left (by rintro ⟨⟩), by omega⟩
  · rw [if_neg hbody]
    cases important with
    | true =>
      simp only [if_true, oneLine_append, List.length_append, hbegin, hcolon, himportant, hshown, hhint,
        true_and, and_true, iff_self]
      omega
    | false =>
      simp only [Bool.false_eq_true, if_false, oneLine_append, List.length_append, hbegin, hcolon, hshown,
        hhint, true_and, and_true, iff_self]
      omega

end Muster
