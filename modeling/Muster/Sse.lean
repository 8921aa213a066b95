import Muster.Lib.LineFeed
import Muster.Lib.Dumps
import Muster.Ops

/-!
# Frames on the wire (`stream.py`, `httpbus.py`, `muster-chat.js`)

The stream sends frames of text: an `event:` and a `data:` line and a blank one, or the
comment of a ping.  Two clients read them.  `parseSse` goes over the lines of the text,
`relayRead` over whatever pieces of it arrive.  Both find the frames that were sent, each
once and in order, for any content of the messages and however the text is cut
(`sse_round_trip`).

`loads` and `jsonParse` are `json.loads` and `JSON.parse`, which are assumed to read back
what `json.dumps` writes.
-/

namespace Muster

/-! ## The server's frames -/

/-- `f"event: {event}\ndata: {data}\n\n"`. -/
def sse (event data : PyStr) : PyStr :=
  lit "event: " ++ event ++ lit "\ndata: " ++ data ++ lit "\n\n"

inductive Frame where
  /-- published by `op_chat`, forwarded verbatim -/
  | chat (msgId : StreamId) (frm body subject : PyStr) (important : Bool)
  /-- published by `op_announce`, forwarded verbatim -/
  | announce (frm body subject : PyStr)
  | unread (count : Nat) (oldestTs : PyStr)
  | error (code message : PyStr)
  | ping

def unreadEvent (count : Nat) (oldestTs : PyStr) : Json :=
  .obj (dict [("event", .str (lit "deliver")), ("kind", .str (lit "unread")),
    ("count", .int count), ("oldest_ts", .str oldestTs)])

def errorEvent (code message : PyStr) : Json :=
  .obj (dict [("code", .str code), ("message", .str (lit "stream closed: " ++ message))])

/-- The name of the event and its data. -/
def Frame.event : Frame → Option (PyStr × Json)
  | .chat msgId frm body subject important => some (lit "deliver", chatEvent msgId frm body subject important)
  | .announce frm body subject => some (lit "deliver", announceEvent frm body subject)
  | .unread count oldestTs => some (lit "deliver", unreadEvent count oldestTs)
  | .error code message => some (lit "error", errorEvent code message)
  | .ping => none

def Frame.text (f : Frame) : PyStr :=
  match f.event with
  | some (event, data) => sse event data.dumps
  | none => lit ": ping\n\n"

/-! ## `parse_sse` -/

/-- What a frame has brought so far; `event` is empty where it is `None`. -/
structure SseState where
  event : PyStr
  data : List PyStr

def SseState.fresh : SseState := ⟨[], []⟩

section
variable (loads : PyStr → Option Json)

/-- One line, and the event it yields.  The state is `none` after `**payload` of something that is
not a dict. -/
def parseLine : Option SseState → PyStr → Option SseState × List (List (PyStr × Json))
  | none, _ => (none, [])
  | some st, line =>
    if line = [] then
      if st.event ≠ [] ∧ st.data ≠ [] then
        match (loads ((lit "\n").intercalate st.data)).getD (.obj []) with
        | .obj payload => (some .fresh, [payload.foldl Json.setKey [(lit "_event", .str st.event)]])
        | _ => (none, [])
      else (some .fresh, [])
    else if (lit ":").isPrefixOf line then (some st, [[(lit "_event", .str (lit "_ping"))]])
    else if (lit "event:").isPrefixOf line then
      (some { st with event := PyStr.strip (line.drop 6) }, [])
    else if (lit "data:").isPrefixOf line then
      (some { st with data := st.data ++ [PyStr.strip (line.drop 5)] }, [])
    else (some st, [])

def parseSse (lines : List PyStr) : Option SseState × List (List (PyStr × Json)) :=
  LineFeed.handleAll (parseLine loads) (some .fresh) lines

end

/-! ## `relay` -/

/-- What `trim()` of JavaScript takes off. -/
def isJsSpace (c : CodePoint) : Bool :=
  (9 ≤ c && c ≤ 13) || c == 32 || c == 0xA0 || c == 0x1680 || (0x2000 ≤ c && c ≤ 0x200A) ||
    c == 0x2028 || c == 0x2029 || c == 0x202F || c == 0x205F || c == 0x3000 || c == 0xFEFF

/-- `s` without what `p` holds of at either end. -/
def trimBy (p : CodePoint → Bool) (s : PyStr) : PyStr :=
  ((s.dropWhile p).reverse.dropWhile p).reverse

/-- `line.replace(/\r$/, "")`. -/
def dropCr (line : PyStr) : PyStr := if line.getLast? = some 13 then line.dropLast else line

section
variable (jsonParse : PyStr → Option Json)

/-- One line, and the call of `onEvent` it makes. -/
def relayLine (st : SseState) (line : PyStr) : SseState × List (PyStr × Json) :=
  let line := dropCr line
  if line = [] then
    (.fresh, if st.event ≠ [] ∧ st.data ≠ [] then
        [(st.event, (jsonParse ((lit "\n").intercalate st.data)).getD (.obj []))]
      else [])
  else if (lit "event:").isPrefixOf line then
    ({ st with event := trimBy isJsSpace (line.drop 6) }, [])
  else if (lit "data:").isPrefixOf line then
    ({ st with data := st.data ++ [trimBy isJsSpace (line.drop 5)] }, [])
  else (st, [])

/-- The pieces that `reader.read()` gives, from the connect on: the state, the buffer, and the calls
of `onEvent`. -/
def relayRead (pieces : List PyStr) : (SseState × PyStr) × List (PyStr × Json) :=
  LineFeed.feedAll (relayLine jsonParse) 10 (.fresh, []) pieces

end

/-! ## What is expected of them -/

def Json.fields : Json → List (PyStr × Json)
  | .obj kvs => kvs
  | _ => []

/-- `{"_event": event, **data}`. -/
def Frame.yielded (f : Frame) : List (PyStr × Json) :=
  match f.event with
  | some (event, data) => (lit "_event", .str event) :: data.fields
  | none => [(lit "_event", .str (lit "_ping"))]

/-- A decoder that reads back the data of the frames. -/
def Decodes (decode : PyStr → Option Json) (frames : List Frame) : Prop :=
  ∀ f ∈ frames, ∀ event data, f.event = some (event, data) → decode data.dumps = some data

/-! ## Lines -/

/-- The lines of a frame, without their ends. -/
def Frame.lines (f : Frame) : List PyStr :=
  match f.event with
  | some (event, data) => [lit "event: " ++ event, lit "data: " ++ data.dumps, []]
  | none => [lit ": ping", []]

theorem text_eq_lines (f : Frame) : f.text = f.lines.flatMap (· ++ [10]) := by
  unfold Frame.text Frame.lines
  cases f.event with
  | none => rfl
  | some e =>
    simp only [sse, List.flatMap_cons, List.flatMap_nil, List.append_assoc, List.append_nil]
    rfl

theorem nodup_dict {kvs : List (String × Json)} (names : List String) (hn : kvs.map Prod.fst = names)
    (h : (("_event" :: names).map lit).Nodup) : (lit "_event" :: (dict kvs).map Prod.fst).Nodup := by
  have hkeys : (dict kvs).map Prod.fst = (kvs.map Prod.fst).map lit := by
    unfold dict
    rw [List.map_map, List.map_map]
    rfl
  rw [hkeys, hn]
  exact h

/-- The events the stream sends: a name, and a dict without an `_event` of its own. -/
theorem event_cases {f : Frame} {event : PyStr} {data : Json} (h : f.event = some (event, data)) :
    (event = lit "deliver" ∨ event = lit "error") ∧
    ∃ kvs, data = .obj kvs ∧ (lit "_event" :: kvs.map Prod.fst).Nodup := by
  cases f with
  | chat =>
    cases h
    exact ⟨.inl rfl, _, rfl, nodup_dict ["event", "kind", "msg_id", "from", "envelope", "important"] rfl (by decide)⟩
  | announce =>
    cases h
    exact ⟨.inl rfl, _, rfl, nodup_dict ["event", "kind", "from", "subject", "body"] rfl (by decide)⟩
  | unread =>
    cases h
    exact ⟨.inl rfl, _, rfl, nodup_dict ["event", "kind", "count", "oldest_ts"] rfl (by decide)⟩
  | error =>
    cases h
    exact ⟨.inr rfl, _, rfl, nodup_dict ["code", "message"] rfl (by decide)⟩
  | ping => cases h

theorem lines_printable (f : Frame) : ∀ line ∈ f.lines, line.all isPrintable = true := by
  unfold Frame.lines
  cases he : f.event with
  | none =>
    intro line hline
    rcases List.mem_cons.1 hline with rfl | hline
    · rfl
    · rw [List.mem_singleton.1 hline]
      rfl
  | some e =>
    obtain ⟨name, data⟩ := e
    obtain ⟨hname, -⟩ := event_cases he
    intro line hline
    rcases List.mem_cons.1 hline with rfl | hline
    · rcases hname with hname | hname <;> rw [hname] <;> rfl
    · rcases List.mem_cons.1 hline with rfl | hline
      · rw [List.all_append, Json.dumps_printable]
        rfl
      · rw [List.mem_singleton.1 hline]
        rfl

theorem not_lineBreak {c : CodePoint} (h : isPrintable c = true) : PyStr.isLineBreak c = false := by
  simp only [isPrintable, PyStr.isLineBreak, Bool.and_eq_true, decide_eq_true_eq, Bool.or_eq_false_iff,
    Bool.and_eq_false_iff, decide_eq_false_iff_not, beq_eq_false_iff_ne, Fin.le_def, Fin.ext_iff, ne_eq] at *
  obtain ⟨h1, h2⟩ := h
  omega

namespace PyStr

/-- A line and its end. -/
theorem splitLinesFrom_line {cur line rest : PyStr} (h : ∀ c ∈ line, isLineBreak c = false) :
    splitLinesFrom cur false (line ++ 10 :: rest) = (cur ++ line) :: splitLinesFrom [] false rest := by
  induction line generalizing cur with
  | nil =>
    rw [List.append_nil]
    rfl
  | cons c line ih =>
    rw [List.cons_append, splitLinesFrom, if_neg (by simp), h c List.mem_cons_self, if_neg (by simp),
      ih fun d hd => h d (List.mem_cons_of_mem _ hd), List.append_assoc]
    rfl

theorem splitLines_flatMap {lines : List PyStr} (h : ∀ line ∈ lines, ∀ c ∈ line, isLineBreak c = false) :
    splitLines (lines.flatMap (· ++ [10])) = lines := by
  unfold splitLines
  induction lines with
  | nil => rfl
  | cons line lines ih =>
    rw [List.flatMap_cons, List.append_assoc, List.singleton_append,
      splitLinesFrom_line (h line List.mem_cons_self),
      ih fun l hl => h l (List.mem_cons_of_mem _ hl)]
    rfl

end PyStr

/-- Between two characters that stay, nothing is trimmed. -/
theorem trimBy_space {p : CodePoint → Bool} (hp : p 32 = true) {a b : CodePoint} (ha : p a = false)
    (hb : p b = false) (s : PyStr) : trimBy p (32 :: a :: s ++ [b]) = a :: s ++ [b] := by
  have hleft : (32 :: a :: s ++ [b]).dropWhile p = a :: s ++ [b] := by
    rw [List.cons_append, List.cons_append, List.dropWhile_cons_of_pos hp,
      List.dropWhile_cons_of_neg (by simp [ha])]
  have hright : (a :: s ++ [b]).reverse.dropWhile p = (a :: s ++ [b]).reverse := by
    rw [List.reverse_append, List.reverse_singleton, List.singleton_append,
      List.dropWhile_cons_of_neg (by simp [hb])]
  unfold trimBy
  rw [hleft, hright, List.reverse_reverse]

theorem dumps_obj (kvs : List (PyStr × Json)) :
    (Json.obj kvs).dumps = 123 :: Json.sep (lit ", ") (Json.dumpsFields kvs) ++ [125] := by
  unfold Json.dumps
  rfl

/-! ## One frame -/

section
variable {decode : PyStr → Option Json} {f : Frame}

/-- `parse_sse` over the lines of a frame. -/
theorem parse_frame (h : ∀ event data, f.event = some (event, data) → decode data.dumps = some data) :
    LineFeed.handleAll (parseLine decode) (some .fresh) f.lines = (some .fresh, [f.yielded]) := by
  unfold Frame.lines Frame.yielded
  cases he : f.event with
  | none => rfl
  | some e =>
    obtain ⟨event, data⟩ := e
    obtain ⟨hname, kvs, rfl, hkeys⟩ := event_cases he
    have hdecode := h _ _ he
    have hevent : parseLine decode (some .fresh) (lit "event: " ++ event) =
        (some ⟨event, []⟩, []) := by
      rcases hname with rfl | rfl <;> rfl
    have hne : event ≠ [] := by
      rcases hname with rfl | rfl <;> exact List.cons_ne_nil _ _
    have hdata : parseLine decode (some ⟨event, []⟩) (lit "data: " ++ (Json.obj kvs).dumps) =
        (some ⟨event, [(Json.obj kvs).dumps]⟩, []) := by
      have hstrip : PyStr.strip (32 :: (Json.obj kvs).dumps) = (Json.obj kvs).dumps := by
        rw [dumps_obj]
        exact trimBy_space rfl rfl rfl _
      show (some (SseState.mk event [PyStr.strip (32 :: (Json.obj kvs).dumps)]), []) = _
      rw [hstrip]
    have hblank : parseLine decode (some ⟨event, [(Json.obj kvs).dumps]⟩) [] =
        (some .fresh, [(lit "_event", .str event) :: kvs]) := by
      have hjoin : (lit "\n").intercalate [(Json.obj kvs).dumps] = (Json.obj kvs).dumps := by simp
      unfold parseLine
      dsimp only
      rw [if_pos rfl, if_pos ⟨hne, List.cons_ne_nil _ _⟩, hjoin, hdecode]
      dsimp only [Option.getD_some]
      rw [Json.foldl_setKey (d := [(lit "_event", .str event)]) hkeys]
      rfl
    simp only [LineFeed.handleAll, hevent, hdata, hblank]
    rfl

/-- `relay` over the lines of a frame: a call of `onEvent`, except for a ping. -/
theorem relay_frame (h : ∀ event data, f.event = some (event, data) → decode data.dumps = some data) :
    LineFeed.handleAll (relayLine decode) .fresh f.lines = (.fresh, f.event.toList) := by
  have hcr : ∀ line : PyStr, line.all isPrintable = true → dropCr line = line := by
    intro line hline
    unfold dropCr
    rw [if_neg]
    intro hlast
    have hc := List.all_eq_true.1 hline 13 (List.mem_of_getLast? hlast)
    cases hc
  have hprintable := lines_printable f
  unfold Frame.lines at hprintable ⊢
  cases he : f.event with
  | none => rfl
  | some e =>
    obtain ⟨event, data⟩ := e
    rw [he] at hprintable
    obtain ⟨hname, kvs, rfl, -⟩ := event_cases he
    have hdecode := h _ _ he
    have hevent : relayLine decode .fresh (lit "event: " ++ event) = (⟨event, []⟩, []) := by
      rcases hname with rfl | rfl <;> rfl
    have hne : event ≠ [] := by
      rcases hname with rfl | rfl <;> exact List.cons_ne_nil _ _
    have hdata : relayLine decode ⟨event, []⟩ (lit "data: " ++ (Json.obj kvs).dumps) =
        (⟨event, [(Json.obj kvs).dumps]⟩, []) := by
      have htrim : trimBy isJsSpace (32 :: (Json.obj kvs).dumps) = (Json.obj kvs).dumps := by
        rw [dumps_obj]
        exact trimBy_space rfl rfl rfl _
      unfold relayLine
      rw [hcr _ (hprintable _ (List.mem_cons_of_mem _ List.mem_cons_self))]
      show (SseState.mk event [trimBy isJsSpace (32 :: (Json.obj kvs).dumps)], []) = _
      rw [htrim]
    have hblank : relayLine decode ⟨event, [(Json.obj kvs).dumps]⟩ [] =
        (.fresh, [(event, .obj kvs)]) := by
      have hjoin : (lit "\n").intercalate [(Json.obj kvs).dumps] = (Json.obj kvs).dumps := by simp
      unfold relayLine
      rw [hcr _ rfl]
      dsimp only
      rw [if_pos rfl, if_pos ⟨hne, List.cons_ne_nil _ _⟩, hjoin, hdecode]
      rfl
    simp only [LineFeed.handleAll, hevent, hdata, hblank]
    rfl

end

/-! ## Any sequence of frames -/

section
variable {decode : PyStr → Option Json}

theorem Decodes.cons {f : Frame} {frames : List Frame} (h : Decodes decode (f :: frames)) :
    (∀ event data, f.event = some (event, data) → decode data.dumps = some data) ∧
      Decodes decode frames :=
  ⟨h f List.mem_cons_self, fun g hg => h g (List.mem_cons_of_mem _ hg)⟩

theorem parse_frames {frames : List Frame} (h : Decodes decode frames) :
    LineFeed.handleAll (parseLine decode) (some .fresh) (frames.flatMap Frame.lines) =
      (some .fresh, frames.map Frame.yielded) := by
  induction frames with
  | nil => rfl
  | cons f frames ih =>
    obtain ⟨hf, hframes⟩ := h.cons
    rw [List.flatMap_cons, LineFeed.handleAll_append, parse_frame hf, ih hframes]
    rfl

theorem relay_frames {frames : List Frame} (h : Decodes decode frames) :
    LineFeed.handleAll (relayLine decode) .fresh (frames.flatMap Frame.lines) =
      (.fresh, frames.filterMap Frame.event) := by
  induction frames with
  | nil => rfl
  | cons f frames ih =>
    obtain ⟨hf, hframes⟩ := h.cons
    rw [List.flatMap_cons, LineFeed.handleAll_append, relay_frame hf, ih hframes, List.filterMap_cons]
    cases f.event <;> rfl

/-- **The codec round-trips.**  Over the lines of the text `parse_sse` yields the events sent, and
one `_ping` for each ping; `relay` calls `onEvent` with the events sent, however the text is cut. -/
theorem sse_round_trip {loads jsonParse : PyStr → Option Json} {frames : List Frame}
    (hloads : Decodes loads frames) (hparse : Decodes jsonParse frames) :
    parseSse loads (PyStr.splitLines (frames.flatMap Frame.text)) =
      (some .fresh, frames.map Frame.yielded) ∧
    ∀ pieces : List PyStr, pieces.flatten = frames.flatMap Frame.text →
      relayRead jsonParse pieces = ((.fresh, []), frames.filterMap Frame.event) := by
  have htext : frames.flatMap Frame.text = (frames.flatMap Frame.lines).flatMap (· ++ [10]) := by
    rw [List.flatMap_assoc]
    exact List.flatMap_congr fun f _ => text_eq_lines f
  have hprintable : ∀ line ∈ frames.flatMap Frame.lines, line.all isPrintable = true := by
    intro line hline
    obtain ⟨f, -, hf⟩ := List.mem_flatMap.1 hline
    exact lines_printable f line hf
  constructor
  · have hlines := PyStr.splitLines_flatMap fun line hline c hc =>
      not_lineBreak (List.all_eq_true.1 (hprintable line hline) c hc)
    unfold parseSse
    rw [htext, hlines, parse_frames hloads]
  · intro pieces hpieces
    have hsep : ∀ line ∈ frames.flatMap Frame.lines, (10 : CodePoint) ∉ line := by
      intro line hline h10
      have hc := List.all_eq_true.1 (hprintable line hline) 10 h10
      cases hc
    unfold relayRead
    rw [LineFeed.feedAll_eq hsep (hpieces.trans htext), relay_frames hparse]

end

/-! ## A message that looks like frames -/

/-- The `data` of these frames, by their text. -/
def readBack (frames : List Frame) (text : PyStr) : Option Json :=
  ((frames.filterMap Frame.event).find? fun e => e.2.dumps = text).map Prod.snd

theorem readBack_decodes {frames : List Frame}
    (h : ((frames.filterMap Frame.event).map fun e => e.2.dumps).Nodup) :
    Decodes (readBack frames) frames := by
  intro f hf event data he
  have hmem : (event, data) ∈ frames.filterMap Frame.event := List.mem_filterMap.2 ⟨f, hf, he⟩
  unfold readBack
  cases hfind : (frames.filterMap Frame.event).find? fun e => e.2.dumps = data.dumps with
  | none => simpa using List.find?_eq_none.1 hfind _ hmem
  | some e =>
    have hdumps : e.2.dumps = data.dumps := by simpa using List.find?_some hfind
    rw [List.inj_on_of_nodup_map h (List.mem_of_find?_eq_some hfind) hmem hdumps]
    rfl

def awkwardFrames : List Frame :=
  [.unread 2 (lit "1"), .ping, .announce (lit "u/h/r/p/x") (lit "a\r\n\nevent: error\ndata: 1\n\n") [],
    .ping, .error (lit "unauthorized") (lit "\x85 ✉")]

theorem sse_round_trip_awkward :
    parseSse (readBack awkwardFrames) (PyStr.splitLines (awkwardFrames.flatMap Frame.text)) =
      (some .fresh, awkwardFrames.map Frame.yielded) ∧
    ∀ pieces : List PyStr, pieces.flatten = awkwardFrames.flatMap Frame.text →
      relayRead (readBack awkwardFrames) pieces =
        ((.fresh, []), awkwardFrames.filterMap Frame.event) := by
  have hnodup : ((awkwardFrames.filterMap Frame.event).map fun e => e.2.dumps).Nodup := by
    decide +kernel
  exact sse_round_trip (readBack_decodes hnodup) (readBack_decodes hnodup)

end Muster
