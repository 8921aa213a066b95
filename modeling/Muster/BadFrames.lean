import Muster.Sse
import Muster.Metadata

/-!
# Frames that are not what they should be (`httpbus.py`)

`parse_sse` takes data that is no JSON for an empty payload.  But `{**payload}` takes dicts
only, so that a `1` is worse than nonsense: the exception leaves the generator, and with it the
stream (`frames_survive_iff`).

`loads t` is `none` for a `ValueError`.  Any other exception of `json.loads` (it has one, for
what is nested too deep) is as bad as a value that is no dict, and can be taken for one.
-/

namespace Muster

open LineFeed

/-! ## The lines of a frame -/

/-- The name of the event, as the last `event:` line has it. -/
def frameEvent (body : List PyStr) : PyStr :=
  ((body.filter (lit "event:").isPrefixOf).getLast?.map fun line => PyStr.strip (line.drop 6)).getD []

def frameData (body : List PyStr) : List PyStr :=
  (body.filter (lit "data:").isPrefixOf).map fun line => PyStr.strip (line.drop 5)

/-- Pings are answered at once. -/
def framePings (body : List PyStr) : List (List (PyStr × Json)) :=
  (body.filter (lit ":").isPrefixOf).map fun _ => [(lit "_event", .str (lit "_ping"))]

/-- What ends with a blank line, or nothing. -/
def Framed (lines : List PyStr) : Prop := ∀ line ∈ lines.getLast?, line = []

section
variable (loads : PyStr → Option Json)

/-- The events that `after` yields when it comes after `lines`. -/
def following (lines after : List PyStr) : List (List (PyStr × Json)) :=
  (handleAll (parseLine loads) (parseSse loads lines).1 after).2

/-- Nothing is raised, and no frame is missed where it is left out. -/
structure FramesSurvive (lines : List PyStr) : Prop where
  consumed : (parseSse loads lines).1 ≠ none
  unmissed : ∀ before bad after, lines = before ++ (bad ++ [[]]) ++ after → Framed before → [] ∉ bad →
    following loads (before ++ (bad ++ [[]])) after = following loads before after

/-- The frame has an event, and data that is JSON but no object. -/
def Poison (body : List PyStr) : Prop :=
  frameEvent body ≠ [] ∧ frameData body ≠ [] ∧
    ∃ x, loads ((lit "\n").intercalate (frameData body)) = some x ∧ ∀ kvs, x ≠ .obj kvs

theorem parseSse_append (lines after : List PyStr) :
    parseSse loads (lines ++ after) =
      ((handleAll (parseLine loads) (parseSse loads lines).1 after).1,
        (parseSse loads lines).2 ++ following loads lines after) :=
  handleAll_append _ _ _

theorem handleAll_none (lines : List PyStr) : handleAll (parseLine loads) none lines = (none, []) := by
  induction lines with
  | nil => rfl
  | cons line lines ih =>
    unfold handleAll
    dsimp only [parseLine]
    rw [ih]
    rfl

/-- A line that is not blank adds to the frame what it would be alone. -/
theorem parseLine_body {line : PyStr} (h : line ≠ []) (st : SseState) :
    parseLine loads (some st) line =
      (some ⟨(([line].filter (lit "event:").isPrefixOf).getLast?.map fun line => PyStr.strip (line.drop 6)).getD st.event,
        st.data ++ frameData [line]⟩, framePings [line]) := by
  have hnodata : st.data ++ [] = st.data := List.append_nil _
  by_cases hping : (lit ":").isPrefixOf line = true
  · obtain ⟨t, rfl⟩ := List.isPrefixOf_iff_prefix.1 hping
    have hdata : frameData [lit ":" ++ t] = [] := rfl
    rw [hdata, hnodata]
    rfl
  · by_cases hevent : (lit "event:").isPrefixOf line = true
    · obtain ⟨t, rfl⟩ := List.isPrefixOf_iff_prefix.1 hevent
      have hdata : frameData [lit "event:" ++ t] = [] := rfl
      rw [hdata, hnodata]
      rfl
    · by_cases hdata : (lit "data:").isPrefixOf line = true
      · obtain ⟨t, rfl⟩ := List.isPrefixOf_iff_prefix.1 hdata
        rfl
      · unfold parseLine frameData framePings
        dsimp only
        rw [if_neg h, if_neg hping, if_neg hevent, if_neg hdata, List.filter_cons_of_neg hping,
          List.filter_cons_of_neg hevent, List.filter_cons_of_neg hdata, List.filter_nil, List.filter_nil,
          List.filter_nil, List.map_nil, hnodata]
        rfl

/-- The lines before the blank one. -/
theorem handleAll_body {body : List PyStr} (h : [] ∉ body) (st : SseState) :
    handleAll (parseLine loads) (some st) body =
      (some ⟨((body.filter (lit "event:").isPrefixOf).getLast?.map fun line => PyStr.strip (line.drop 6)).getD st.event,
        st.data ++ frameData body⟩, framePings body) := by
  induction body generalizing st with
  | nil =>
    have hdata : frameData [] = [] := rfl
    rw [hdata, List.append_nil]
    rfl
  | cons line body ih =>
    obtain ⟨hline, hbody⟩ := List.ne_and_not_mem_of_not_mem_cons h
    have hfilter : ∀ p : PyStr → Bool, (line :: body).filter p = [line].filter p ++ body.filter p :=
      fun p => List.filter_append (p := p) [line] body
    have hdata : frameData (line :: body) = frameData [line] ++ frameData body := by
      unfold frameData
      rw [hfilter, List.map_append]
    have hpings : framePings (line :: body) = framePings [line] ++ framePings body := by
      unfold framePings
      rw [hfilter, List.map_append]
    rw [handleAll, parseLine_body loads (Ne.symm hline)]
    dsimp only
    rw [ih hbody, hdata, hpings, List.append_assoc, hfilter, List.getLast?_append]
    cases (body.filter (lit "event:").isPrefixOf).getLast? with
    | none => rfl
    | some last => rfl

/-- A whole frame. -/
theorem handleAll_frame {body : List PyStr} (h : [] ∉ body) :
    (Poison loads body ∧ (handleAll (parseLine loads) (some .fresh) (body ++ [[]])).1 = none) ∨
      (¬ Poison loads body ∧ (handleAll (parseLine loads) (some .fresh) (body ++ [[]])).1 = some .fresh) := by
  have hbody : handleAll (parseLine loads) (some .fresh) body =
      (some ⟨frameEvent body, frameData body⟩, framePings body) := handleAll_body loads h .fresh
  rw [handleAll_append, hbody]
  dsimp only [handleAll]
  unfold parseLine Poison
  dsimp only
  rw [if_pos rfl]
  by_cases hfull : frameEvent body ≠ [] ∧ frameData body ≠ []
  · rw [if_pos hfull]
    cases hloads : loads ((lit "\n").intercalate (frameData body)) with
    | none =>
      refine .inr ⟨?_, rfl⟩
      rintro ⟨-, -, x, hx, -⟩
      cases hx
    | some x =>
      cases x with
      | obj kvs =>
        refine .inr ⟨?_, rfl⟩
        rintro ⟨-, -, x, ⟨⟩, hx⟩
        exact hx kvs rfl
      | _ => exact .inl ⟨⟨hfull.1, hfull.2, _, rfl, by rintro _ ⟨⟩⟩, rfl⟩
  · rw [if_neg hfull]
    exact .inr ⟨fun hpoison => hfull ⟨hpoison.1, hpoison.2.1⟩, rfl⟩

/-! ## Frame after frame -/

theorem Framed.append {lines after : List PyStr} (hlines : Framed lines) (hafter : Framed after) :
    Framed (lines ++ after) := by
  intro line hline
  rw [List.getLast?_append] at hline
  cases hlast : after.getLast? with
  | none =>
    rw [hlast] at hline
    exact hlines line hline
  | some last =>
    rw [hlast] at hline
    exact hafter line (hlast.trans hline)

theorem framed_frame (body : List PyStr) : Framed (body ++ [[]]) := by
  intro line hline
  rw [List.getLast?_concat] at hline
  exact (Option.some.inj hline).symm

theorem consumed_of_append {lines after : List PyStr} (h : (parseSse loads (lines ++ after)).1 ≠ none) :
    (parseSse loads lines).1 ≠ none := by
  intro hnone
  rw [parseSse_append, hnone, handleAll_none] at h
  exact h rfl

/-- Between frames nothing is kept. -/
theorem fresh_of_framed {lines : List PyStr} (h : Framed lines) (hconsumed : (parseSse loads lines).1 ≠ none) :
    (parseSse loads lines).1 = some .fresh := by
  rcases List.eq_nil_or_concat' lines with rfl | ⟨before, line, rfl⟩
  · rfl
  · obtain rfl : line = [] := h line (by rw [List.getLast?_concat]; rfl)
    have hblank : ∀ st : Option SseState, (parseLine loads st []).1 ≠ none →
        (parseLine loads st []).1 = some .fresh := by
      intro st hst
      cases st with
      | none => exact absurd rfl hst
      | some st =>
        unfold parseLine at hst ⊢
        dsimp only at hst ⊢
        rw [if_pos rfl] at hst ⊢
        split
        · next hfull =>
          rw [if_pos hfull] at hst
          split
          · rfl
          · next hnot =>
            split at hst
            · next payload hpayload => exact absurd hpayload (hnot payload)
            · exact absurd rfl hst
        · rfl
    rw [parseSse_append] at hconsumed ⊢
    exact hblank _ hconsumed

theorem consumed_of_harmless {lines : List PyStr}
    (h : ∀ before body after, lines = before ++ (body ++ [[]]) ++ after → Framed before → [] ∉ body →
      ¬ Poison loads body) : (parseSse loads lines).1 ≠ none := by
  induction hlen : lines.length using Nat.strong_induction_on generalizing lines with
  | _ n ih =>
    by_cases hblank : [] ∈ lines
    · obtain ⟨body, rest, rfl, hbody⟩ := List.eq_append_cons_of_mem hblank
      have hsplit : body ++ [] :: rest = (body ++ [[]]) ++ rest := by simp
      have hfresh : (parseSse loads (body ++ [[]])).1 = some .fresh := by
        rcases handleAll_frame loads hbody with ⟨hpoison, -⟩ | ⟨-, hfresh⟩
        · exact absurd hpoison (h [] body rest (by simp) (by rintro line ⟨⟩) hbody)
        · exact hfresh
      rw [hsplit, parseSse_append, hfresh]
      refine ih rest.length ?_ ?_ rfl
      · rw [← hlen, List.length_append, List.length_cons]
        omega
      · intro before body' after hrest hframed hbody'
        refine h ((body ++ [[]]) ++ before) body' after ?_ ((framed_frame body).append hframed) hbody'
        rw [hsplit, hrest]
        simp
    · have hbody : handleAll (parseLine loads) (some .fresh) lines = _ := handleAll_body loads hblank .fresh
      rw [parseSse, hbody]
      rintro ⟨⟩

/-- **When no frame takes the stream with it.**  Iff none that ends has an event, and for its data
JSON that is no object. -/
theorem frames_survive_iff (lines : List PyStr) :
    FramesSurvive loads lines ↔
      ∀ before body after, lines = before ++ (body ++ [[]]) ++ after → Framed before → [] ∉ body →
        ¬ Poison loads body := by
  constructor
  · rintro ⟨hconsumed, -⟩ before body after rfl hframed hbody hpoison
    have hframe := consumed_of_append loads hconsumed
    have hbefore := fresh_of_framed loads hframed (consumed_of_append loads hframe)
    rw [parseSse_append, hbefore] at hframe
    rcases handleAll_frame loads hbody with ⟨-, hnone⟩ | ⟨hharmless, -⟩
    · exact hframe hnone
    · exact hharmless hpoison
  · intro h
    have hconsumed := consumed_of_harmless loads h
    refine ⟨hconsumed, ?_⟩
    rintro before bad after rfl hframed hbad
    have hframe := consumed_of_append loads hconsumed
    have hbefore := fresh_of_framed loads hframed (consumed_of_append loads hframe)
    have hafter := fresh_of_framed loads (hframed.append (framed_frame bad)) hframe
    unfold following
    rw [hbefore, hafter]

end

/-- Two good frames, with a `1` for the data of one between them. -/
def poisoned : List PyStr :=
  [lit "event: deliver", lit "data: \x7b\x7d", [], lit "event: deliver", lit "data: 1", [],
    lit "event: deliver", lit "data: \x7b\x7d", []]

theorem number_kills_relay :
    let _ : Floats := Floats.plain
    ¬ FramesSurvive Json.loads poisoned ∧
      (parseSse Json.loads poisoned).2 = [[(lit "_event", .str (lit "deliver"))]] := by
  intro _
  have hrun : parseSse Json.loads poisoned = (none, [[(lit "_event", .str (lit "deliver"))]]) := rfl
  refine ⟨fun h => h.consumed ?_, ?_⟩
  · rw [hrun]
  · rw [hrun]

end Muster
