import Muster.Lib.Prog

/-!
# Programs that are cut off

`cut n` is the state in which a program stops that never gets beyond its first `n`
commands: the connection breaks, or the process dies.  What every command keeps is kept
(`cut_keeps`), a sequence is cut in its first part or in its second (`cut_bind`), and a cut
that comes late enough is none (`cut_length`).
-/

namespace Muster

namespace Prog

variable {C : Type} {R : C → Type} {ε α β S : Type} (exec : (c : C) → S → S × R c)

def cut : Nat → Prog C R ε α → S → S
  | 0, _, s => s
  | _ + 1, .ret _, s => s
  | _ + 1, .throw _, s => s
  | n + 1, .call c k, s => cut n (k (exec c s).2) (exec c s).1

/-- The number of commands of a run. -/
def length : Prog C R ε α → S → Nat
  | .ret _, _ => 0
  | .throw _, _ => 0
  | .call c k, s => (k (exec c s).2).length (exec c s).1 + 1

@[simp] theorem cut_zero (p : Prog C R ε α) (s : S) : p.cut exec 0 s = s := by
  cases p <;> rfl

@[simp] theorem cut_ret (n : Nat) (a : α) (s : S) : (ret a : Prog C R ε α).cut exec n s = s := by
  cases n <;> rfl

@[simp] theorem cut_throw (n : Nat) (e : ε) (s : S) : (throw e : Prog C R ε α).cut exec n s = s := by
  cases n <;> rfl

@[simp] theorem cut_call (n : Nat) (c : C) (k : R c → Prog C R ε α) (s : S) :
    (call c k).cut exec (n + 1) s = (k (exec c s).2).cut exec n (exec c s).1 := rfl

/-- **A cut that comes late is none.** -/
theorem cut_length (p : Prog C R ε α) (s : S) {n : Nat} (h : p.length exec s ≤ n) :
    p.cut exec n s = (p.run exec s).2 := by
  induction p generalizing s n with
  | ret a => exact cut_ret exec n a s
  | throw e => exact cut_throw exec n e s
  | call c k ih =>
    cases n with
    | zero => cases h
    | succ n => exact ih _ _ (Nat.le_of_succ_le_succ h)

/-- **What every command keeps is kept wherever the program is cut.** -/
theorem cut_keeps {I : S → Prop} {Φ : Log C R → C → Prop}
    (hexec : ∀ l c s, Φ l c → I s → I (exec c s).1) {p : Prog C R ε α} {l : Log C R}
    (hp : p.Ensures Φ (fun _ _ => True) l) {s : S} (hs : I s) (n : Nat) : I (p.cut exec n s) := by
  induction p generalizing s l n with
  | ret a =>
    rw [cut_ret]
    exact hs
  | throw e =>
    rw [cut_throw]
    exact hs
  | call c k ih =>
    cases n with
    | zero => exact hs
    | succ n => exact ih _ (hp.2 _) (hexec l c s hp.1 hs) n

/-- **A sequence is cut in its first part or in its second.** -/
theorem cut_bind (p : Prog C R ε α) (f : α → Prog C R ε β) (s : S) (n : Nat) :
    (p >>= f).cut exec n s = p.cut exec n s ∨
    ∃ a m, (p.run exec s).1 = .ok a ∧ n = p.length exec s + m ∧
      (p >>= f).cut exec n s = (f a).cut exec m (p.run exec s).2 := by
  induction p generalizing s n with
  | ret a => exact .inr ⟨a, n, rfl, (Nat.zero_add n).symm, rfl⟩
  | throw e => exact .inl (by rw [throw_bind, cut_throw, cut_throw])
  | call c k ih =>
    cases n with
    | zero => exact .inl rfl
    | succ n =>
      rcases ih (exec c s).2 (exec c s).1 n with h | ⟨a, m, ha, hn, h⟩
      · exact .inl h
      · exact .inr ⟨a, m, ha, by rw [length, hn]; omega, h⟩

/-- What holds wherever the first part is cut, and the second after the first. -/
theorem cut_bind_of {J : S → Prop} {p : Prog C R ε α} {f : α → Prog C R ε β} {s : S}
    (hp : ∀ m, J (p.cut exec m s))
    (hf : ∀ a, (p.run exec s).1 = .ok a → ∀ m, J ((f a).cut exec m (p.run exec s).2)) (n : Nat) :
    J ((p >>= f).cut exec n s) := by
  rcases cut_bind exec p f s n with h | ⟨a, m, ha, -, h⟩
  · rw [h]
    exact hp n
  · rw [h]
    exact hf a ha m

theorem cut_lift_of {J : S → Prop} {x : Except ε α} {f : α → Prog C R ε β} {s : S} (hs : J s)
    (hf : ∀ a, x = .ok a → ∀ m, J ((f a).cut exec m s)) (n : Nat) :
    J ((ofExcept x >>= f).cut exec n s) := by
  cases x with
  | ok a => exact hf a rfl n
  | error e =>
    show J ((throw e : Prog C R ε β).cut exec n s)
    rw [cut_throw]
    exact hs

end Prog

end Muster
