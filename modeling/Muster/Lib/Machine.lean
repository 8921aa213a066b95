import Mathlib.Data.List.Basic
import Mathlib.Logic.Relation

/-!
# State machines

A machine takes a label in a state, or refuses it.  `Run ok s₀` are the states
reached from `s₀` by labels that `ok` admits in the state they are taken in, and
`Run.inv` is the one induction over them.

`trace check` plays a list of labels, each admitted by a computable `check`; its end
is a state of the run (`Run.trace`), so that a concrete run is an evaluation.

`Goes next` is the machine left to `next`, which chooses each label: where it stops is
where it goes from any point on the way (`Goes.stops`).
-/

namespace Muster

structure Machine (S L : Type) where
  step : S → L → Option S

namespace Machine

variable {S L : Type} (M : Machine S L)

/-- Reached from `s₀` by labels admitted by `ok` where they are taken. -/
inductive Run (ok : S → L → Prop) (s₀ : S) : S → Prop
  | start : Run ok s₀ s₀
  | next {s s' : S} {l : L} : Run ok s₀ s → ok s l → M.step s l = some s' → Run ok s₀ s'

/-- Take the labels in order, each checked where it is taken. -/
def trace (check : S → L → Bool) : S → List L → Option S
  | s, [] => some s
  | s, l :: ls => if check s l then (M.step s l).bind fun s' => trace check s' ls else none

variable {M} {ok : S → L → Prop} {s₀ s s' : S}

/-- **Invariant rule.** -/
theorem Run.inv (I : S → Prop) (h : M.Run ok s₀ s) (hstart : I s₀)
    (hstep : ∀ s l s', I s → ok s l → M.step s l = some s' → I s') : I s := by
  induction h with
  | start => exact hstart
  | next _ hl hs ih => exact hstep _ _ _ ih hl hs

theorem Run.trace {check : S → L → Bool} (hcheck : ∀ s l, check s l = true → ok s l) {ls : List L}
    (h : M.Run ok s₀ s) (hs : M.trace check s ls = some s') : M.Run ok s₀ s' := by
  induction ls generalizing s with
  | nil =>
    cases hs
    exact h
  | cons l ls ih =>
    unfold Machine.trace at hs
    split at hs
    · next hl =>
      obtain ⟨t, ht, hrest⟩ := Option.bind_eq_some_iff.1 hs
      exact ih (.next h (hcheck s l hl) ht) hrest
    · cases hs

/-! ## Left to itself -/

/-- One step, by the label that `next` chooses. -/
def Chosen (M : Machine S L) (next : S → Option L) (s s' : S) : Prop :=
  ∃ l, next s = some l ∧ M.step s l = some s'

/-- Any number of chosen steps. -/
abbrev Goes (M : Machine S L) (next : S → Option L) : S → S → Prop :=
  Relation.ReflTransGen (M.Chosen next)

variable {next : S → Option L} {t : S}

theorem Chosen.unique (h : M.Chosen next s s') (h' : M.Chosen next s t) : s' = t := by
  obtain ⟨l, hl, hs⟩ := h
  obtain ⟨l', hl', ht⟩ := h'
  cases hl.symm.trans hl'
  exact Option.some.inj (hs.symm.trans ht)

theorem Goes.stops (h : M.Goes next s t) (hstop : next t = none) (h' : M.Goes next s s') :
    M.Goes next s' t := by
  induction h' using Relation.ReflTransGen.head_induction_on with
  | refl => exact h
  | @head s₁ s₂ hstep _ ih =>
    rcases Relation.ReflTransGen.cases_head_iff.1 h with rfl | ⟨u, hu, hrest⟩
    · obtain ⟨l, hl, -⟩ := hstep
      cases hstop.symm.trans hl
    · cases hstep.unique hu
      exact ih hrest

end Machine

end Muster
