import Muster.Lib.Prog

/-!
# What a program can raise

`p.Raises P`: whatever the server answers, an exception of `p` satisfies `P`.
-/

namespace Muster

namespace Prog

variable {C : Type} {R : C → Type} {ε α β S : Type} {P : ε → Prop}

def Raises (P : ε → Prop) : Prog C R ε α → Prop
  | .ret _ => True
  | .throw e => P e
  | .call _ k => ∀ r, (k r).Raises P

theorem raises_bind {p : Prog C R ε α} {f : α → Prog C R ε β} (hp : p.Raises P)
    (hf : ∀ a, (f a).Raises P) : (p >>= f).Raises P := by
  induction p with
  | ret a => exact hf a
  | throw e => exact hp
  | call c k ih => exact fun r => ih r (hp r)

theorem raises_cmd (c : C) : (cmd c : Prog C R ε (R c)).Raises P := fun _ => trivial

/-- A check raises what it raises. -/
theorem raises_lift {x : Except ε α} {f : α → Prog C R ε β} (hx : ∀ e, x = .error e → P e)
    (hf : ∀ a, x = .ok a → (f a).Raises P) : (ofExcept x >>= f).Raises P := by
  cases x with
  | ok a => exact hf a rfl
  | error e => exact hx e rfl

theorem Raises.of_run {exec : (c : C) → S → S × R c} {p : Prog C R ε α} (h : p.Raises P) {s : S} {e : ε}
    (hrun : (p.run exec s).1 = .error e) : P e := by
  induction p generalizing s with
  | ret a => cases hrun
  | throw e' =>
    cases hrun
    exact h
  | call c k ih => exact ih _ (h _) hrun

end Prog

end Muster
