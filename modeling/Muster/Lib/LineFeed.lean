import Mathlib.Data.List.Basic

/-!
# Text that arrives in pieces, handled line by line

A handler takes a state and a line to the next state and what it puts out.  `feed`
adds a piece to the buffer and handles the lines that have ended; the buffer keeps
the rest.  However a text is cut into pieces, its lines are handled once each and in
order (`feedAll_eq`).
-/

namespace Muster

namespace LineFeed

variable {α β σ : Type} (handle : σ → List α → σ × List β)

/-- The lines in turn. -/
def handleAll : σ → List (List α) → σ × List β
  | s, [] => (s, [])
  | s, line :: lines =>
    let r := handle s line
    let t := handleAll r.1 lines
    (t.1, r.2 ++ t.2)

variable {handle} in
theorem handleAll_append (s : σ) (xs ys : List (List α)) :
    handleAll handle s (xs ++ ys) =
      ((handleAll handle (handleAll handle s xs).1 ys).1,
        (handleAll handle s xs).2 ++ (handleAll handle (handleAll handle s xs).1 ys).2) := by
  induction xs generalizing s with
  | nil => rfl
  | cons x xs ih =>
    rw [List.cons_append]
    simp only [handleAll]
    rw [ih, List.append_assoc]

variable [DecidableEq α] (sep : α)

/-- Every line that has ended in the buffer. -/
def drain (s : σ) (buf : List α) : (σ × List α) × List β :=
  if sep ∈ buf then
    let r := handle s (buf.takeWhile (· ≠ sep))
    let t := drain r.1 (buf.drop ((buf.takeWhile (· ≠ sep)).length + 1))
    (t.1, r.2 ++ t.2)
  else ((s, buf), [])
termination_by buf.length
decreasing_by
  have := List.length_pos_of_mem ‹sep ∈ buf›
  simp only [List.length_drop]
  omega

def feed (st : σ × List α) (piece : List α) : (σ × List α) × List β :=
  drain handle sep st.1 (st.2 ++ piece)

def feedAll : σ × List α → List (List α) → (σ × List α) × List β
  | st, [] => (st, [])
  | st, piece :: pieces =>
    let r := feed handle sep st piece
    let t := feedAll r.1 pieces
    (t.1, r.2 ++ t.2)

variable {sep} {handle}

/-! ## One buffer -/

theorem drain_open {s : σ} {buf : List α} (h : sep ∉ buf) : drain handle sep s buf = ((s, buf), []) := by
  unfold drain
  rw [if_neg h]

theorem drain_line {s : σ} {line rest : List α} (h : sep ∉ line) :
    drain handle sep s (line ++ sep :: rest) =
      ((drain handle sep (handle s line).1 rest).1,
        (handle s line).2 ++ (drain handle sep (handle s line).1 rest).2) := by
  have htake : (line ++ sep :: rest).takeWhile (· ≠ sep) = line := by
    rw [List.takeWhile_append_of_pos]
    · simp
    · intro x hx
      have : x ≠ sep := fun e => h (e ▸ hx)
      simpa using this
  have hdrop : (line ++ sep :: rest).drop (line.length + 1) = rest := by
    rw [List.drop_append]
    simp
  rw [drain, if_pos (by simp), htake, hdrop]

/-- A buffer is its first line and what follows, or an unfinished line. -/
theorem line_or_open (sep : α) (buf : List α) :
    sep ∉ buf ∨ ∃ line rest, sep ∉ line ∧ buf = line ++ sep :: rest := by
  by_cases h : sep ∈ buf
  · obtain ⟨line, rest, heq, hline⟩ := List.eq_append_cons_of_mem h
    exact .inr ⟨line, rest, hline, heq⟩
  · exact .inl h

/-- Whole lines are handled, the rest is kept. -/
theorem drain_lines {s : σ} {lines : List (List α)} {tail : List α}
    (hlines : ∀ line ∈ lines, sep ∉ line) (htail : sep ∉ tail) :
    drain handle sep s (lines.flatMap (· ++ [sep]) ++ tail) =
      (((handleAll handle s lines).1, tail), (handleAll handle s lines).2) := by
  induction lines generalizing s with
  | nil => exact drain_open htail
  | cons line lines ih =>
    have heq : (line :: lines).flatMap (· ++ [sep]) ++ tail =
        line ++ sep :: (lines.flatMap (· ++ [sep]) ++ tail) := by simp
    rw [heq, drain_line (hlines line List.mem_cons_self),
      ih fun l hl => hlines l (List.mem_cons_of_mem _ hl)]
    rfl

theorem drain_rest (s : σ) (buf : List α) : sep ∉ (drain handle sep s buf).1.2 := by
  induction hn : buf.length using Nat.strongRecOn generalizing s buf with
  | ind n ih =>
    rcases line_or_open sep buf with h | ⟨line, rest, hline, rfl⟩
    · rw [drain_open h]
      exact h
    · rw [drain_line hline]
      refine ih rest.length ?_ _ _ rfl
      rw [← hn, List.length_append, List.length_cons]
      omega

/-- **What comes in two pieces is handled as one.** -/
theorem drain_append (s : σ) (buf more : List α) :
    drain handle sep s (buf ++ more) =
      ((feed handle sep (drain handle sep s buf).1 more).1,
        (drain handle sep s buf).2 ++ (feed handle sep (drain handle sep s buf).1 more).2) := by
  induction hn : buf.length using Nat.strongRecOn generalizing s buf with
  | ind n ih =>
    rcases line_or_open sep buf with h | ⟨line, rest, hline, rfl⟩
    · rw [drain_open h]
      rfl
    · have hlt : rest.length < n := by
        rw [← hn, List.length_append, List.length_cons]
        omega
      rw [List.append_assoc, List.cons_append, drain_line hline, drain_line hline,
        ih rest.length hlt _ _ rfl, List.append_assoc]

/-! ## Pieces -/

theorem feedAll_flatten {st : σ × List α} (h : sep ∉ st.2) (pieces : List (List α)) :
    feedAll handle sep st pieces = feed handle sep st pieces.flatten := by
  induction pieces generalizing st with
  | nil =>
    unfold feed
    rw [List.flatten_nil, List.append_nil, drain_open h]
    rfl
  | cons piece pieces ih =>
    have hone : feed handle sep st (piece :: pieces).flatten =
        drain handle sep st.1 (st.2 ++ piece ++ pieces.flatten) := by
      unfold feed
      rw [List.flatten_cons, List.append_assoc]
    rw [hone, drain_append]
    simp only [feedAll]
    have hrest : sep ∉ (feed handle sep st piece).1.2 := drain_rest _ _
    rw [ih hrest]
    rfl

/-- **However a text of whole lines is cut**, each line is handled once and in order. -/
theorem feedAll_eq {s : σ} {lines pieces : List (List α)} (hlines : ∀ line ∈ lines, sep ∉ line)
    (h : pieces.flatten = lines.flatMap (· ++ [sep])) :
    feedAll handle sep (s, []) pieces =
      (((handleAll handle s lines).1, []), (handleAll handle s lines).2) := by
  rw [feedAll_flatten (by simp), h]
  unfold feed
  have hrest : drain handle sep s (lines.flatMap (· ++ [sep]) ++ []) = _ :=
    drain_lines hlines List.not_mem_nil
  rwa [List.append_nil] at hrest

end LineFeed

end Muster
