import Mathlib.Data.List.Basic

/-!
# Programs that talk to a server

A `Prog C R ε α` issues commands `c : C` one at a time, goes on with the reply
(`R c`), and ends with a value of `α` or an exception of `ε`.  Between two
commands a program does nothing observable, so a command is the unit at which
programs interleave.

* `run exec p s`: the program alone against a server `exec`.
* `visits sel exec p s`: the states in which it issues a command of `sel`.
* `p.Ensures Φ Q l`: whatever the server answers, every command `p` issues
  satisfies `Φ` of the replies seen so far, and `p` ends in `Q`.  `l` is the log
  of the commands already issued, oldest first.
* `Alike exec P p Q`: two runs of `p`, from states related by `P`, end alike.

All are compositional (`run_bind`, `ensures_bind`, `Alike.bind`), so a handler is
reasoned about helper by helper.
-/

namespace Muster

/-- A program: a tree of commands branching on replies. -/
inductive Prog (C : Type) (R : C → Type) (ε α : Type) where
  | ret (a : α)
  | throw (e : ε)
  | call (c : C) (k : R c → Prog C R ε α)

namespace Prog

variable {C : Type} {R : C → Type} {ε α β S : Type}

protected def bind : Prog C R ε α → (α → Prog C R ε β) → Prog C R ε β
  | .ret a, f => f a
  | .throw e, _ => .throw e
  | .call c k, f => .call c fun r => (k r).bind f

instance : Monad (Prog C R ε) where
  pure := .ret
  bind := Prog.bind

/-- A computation that issues nothing. -/
def ofExcept : Except ε α → Prog C R ε α
  | .ok a => .ret a
  | .error e => .throw e

instance : MonadLift (Except ε) (Prog C R ε) := ⟨ofExcept⟩

/-- Issue one command. -/
def cmd (c : C) : Prog C R ε (R c) := .call c .ret

@[simp] theorem pure_eq (a : α) : (pure a : Prog C R ε α) = .ret a := rfl

@[simp] theorem ret_bind (a : α) (f : α → Prog C R ε β) : (Prog.ret a >>= f) = f a := rfl

@[simp] theorem throw_bind (e : ε) (f : α → Prog C R ε β) :
    (Prog.throw e >>= f) = Prog.throw e := rfl

@[simp] theorem call_bind (c : C) (k : R c → Prog C R ε α) (f : α → Prog C R ε β) :
    (Prog.call c k >>= f) = .call c fun r => k r >>= f := rfl

@[simp] theorem cmd_bind (c : C) (f : R c → Prog C R ε β) :
    (cmd c >>= f : Prog C R ε β) = .call c f := rfl

instance : LawfulMonad (Prog C R ε) := LawfulMonad.mk' _
  (fun p => by
    induction p with
    | ret a => rfl
    | throw e => rfl
    | call c k ih => exact congrArg (Prog.call c) (funext ih))
  (fun a f => rfl)
  (fun p f g => by
    induction p with
    | ret a => rfl
    | throw e => rfl
    | call c k ih => exact congrArg (Prog.call c) (funext ih))

/-! ## Alone -/

/-- The result of the program run without interleaving, and the final state. -/
def run (exec : (c : C) → S → S × R c) : Prog C R ε α → S → Except ε α × S
  | .ret a, s => (.ok a, s)
  | .throw e, s => (.error e, s)
  | .call c k, s => (k (exec c s).2).run exec (exec c s).1

section
variable (exec : (c : C) → S → S × R c)

@[simp] theorem run_ret (a : α) (s : S) : (Prog.ret a : Prog C R ε α).run exec s = (.ok a, s) := rfl

@[simp] theorem run_throw (e : ε) (s : S) :
    (Prog.throw e : Prog C R ε α).run exec s = (.error e, s) := rfl

@[simp] theorem run_call (c : C) (k : R c → Prog C R ε α) (s : S) :
    (Prog.call c k).run exec s = (k (exec c s).2).run exec (exec c s).1 := rfl

theorem run_bind (p : Prog C R ε α) (f : α → Prog C R ε β) (s : S) :
    (p >>= f).run exec s =
      match p.run exec s with
      | (.ok a, s') => (f a).run exec s'
      | (.error e, s') => (.error e, s') := by
  induction p generalizing s with
  | ret a => rfl
  | throw e => rfl
  | call c k ih => exact ih _ _

theorem run_map (f : α → β) (p : Prog C R ε α) (s : S) :
    (f <$> p).run exec s = ((p.run exec s).1.map f, (p.run exec s).2) := by
  rw [← bind_pure_comp, run_bind]
  rcases p.run exec s with ⟨a | e, s'⟩ <;> rfl

/-- A helper that succeeds without touching the state only hands over its value. -/
theorem run_bind_of_ok {p : Prog C R ε α} {s s' : S} {a : α} (h : p.run exec s = (.ok a, s'))
    (f : α → Prog C R ε β) : (p >>= f).run exec s = (f a).run exec s' := by
  rw [run_bind, h]

theorem run_bind_of_error {p : Prog C R ε α} {s s' : S} {e : ε} (h : p.run exec s = (.error e, s'))
    (f : α → Prog C R ε β) : (p >>= f).run exec s = (.error e, s') := by
  rw [run_bind, h]

end

/-- The states in which the program, run without interleaving, issues a command of `sel`. -/
def visits (sel : C → Bool) (exec : (c : C) → S → S × R c) : Prog C R ε α → S → List S
  | .ret _, _ => []
  | .throw _, _ => []
  | .call c k, s =>
    let rest := (k (exec c s).2).visits sel exec (exec c s).1
    if sel c then s :: rest else rest

/-! ## Whatever the server answers -/

/-- The commands issued so far with their replies, oldest first. -/
abbrev Log (C : Type) (R : C → Type) := List ((c : C) × R c)

/-- Every command satisfies `Φ` of the log before it, and the end satisfies `Q`. -/
def Ensures (Φ : Log C R → C → Prop) (Q : Except ε α → Log C R → Prop) :
    Prog C R ε α → Log C R → Prop
  | .ret a, l => Q (.ok a) l
  | .throw e, l => Q (.error e) l
  | .call c k, l => Φ l c ∧ ∀ r, (k r).Ensures Φ Q (l ++ [⟨c, r⟩])

section
variable {c : C} {Φ Ψ : Log C R → C → Prop} {Q Q' : Except ε α → Log C R → Prop}

@[simp] theorem ensures_ret (a : α) (l : Log C R) :
    (Prog.ret a : Prog C R ε α).Ensures Φ Q l ↔ Q (.ok a) l := Iff.rfl

@[simp] theorem ensures_throw (e : ε) (l : Log C R) :
    (Prog.throw e : Prog C R ε α).Ensures Φ Q l ↔ Q (.error e) l := Iff.rfl

@[simp] theorem ensures_ofExcept (x : Except ε α) (l : Log C R) :
    (ofExcept x : Prog C R ε α).Ensures Φ Q l ↔ Q x l := by
  cases x <;> exact Iff.rfl

@[simp] theorem ensures_call (c : C) (k : R c → Prog C R ε α) (l : Log C R) :
    (Prog.call c k).Ensures Φ Q l ↔ Φ l c ∧ ∀ r, (k r).Ensures Φ Q (l ++ [⟨c, r⟩]) := Iff.rfl

theorem ensures_bind {Q : Except ε β → Log C R → Prop} (p : Prog C R ε α)
    (f : α → Prog C R ε β) (l : Log C R) :
    (p >>= f).Ensures Φ Q l ↔
      p.Ensures Φ (fun x l' => match x with
        | .ok a => (f a).Ensures Φ Q l'
        | .error e => Q (.error e) l') l := by
  induction p generalizing l with
  | ret a => exact Iff.rfl
  | throw e => exact Iff.rfl
  | call c k ih =>
    simp only [call_bind, ensures_call]
    exact and_congr_right fun _ => forall_congr' fun r => ih r _

theorem Ensures.mono {p : Prog C R ε α} {l : Log C R} (h : p.Ensures Φ Q l)
    (hΦ : ∀ l c, Φ l c → Ψ l c) (hQ : ∀ x l, Q x l → Q' x l) : p.Ensures Ψ Q' l := by
  induction p generalizing l with
  | ret a => exact hQ _ _ h
  | throw e => exact hQ _ _ h
  | call c k ih => exact ⟨hΦ _ _ h.1, fun r => ih r (h.2 r)⟩

/-- Sequencing: what the first part ends with is what the second starts from. -/
theorem Ensures.bind {Q : Except ε β → Log C R → Prop} {p : Prog C R ε α}
    {f : α → Prog C R ε β} {l : Log C R} {Q₁ : Except ε α → Log C R → Prop}
    (h : p.Ensures Φ Q₁ l) (hok : ∀ a l', Q₁ (.ok a) l' → (f a).Ensures Φ Q l')
    (herr : ∀ e l', Q₁ (.error e) l' → Q (.error e) l') : (p >>= f).Ensures Φ Q l := by
  rw [ensures_bind]
  refine h.mono (fun _ _ => id) fun x l' hx => ?_
  cases x with
  | ok a => exact hok a l' hx
  | error e => exact herr e l' hx

@[simp] theorem ensures_cmd {Q : Except ε (R c) → Log C R → Prop} (l : Log C R) :
    (cmd c : Prog C R ε (R c)).Ensures Φ Q l ↔ Φ l c ∧ ∀ r, Q (.ok r) (l ++ [⟨c, r⟩]) := Iff.rfl

theorem ensures_map {Q : Except ε β → Log C R → Prop} (f : α → β) (p : Prog C R ε α)
    (l : Log C R) : (f <$> p).Ensures Φ Q l ↔ p.Ensures Φ (fun x => Q (x.map f)) l := by
  rw [← bind_pure_comp, ensures_bind]
  constructor <;> intro h <;> refine h.mono (fun _ _ => id) fun x l hx => ?_ <;>
    cases x <;> exact hx

theorem ensures_true (p : Prog C R ε α) (l : Log C R) :
    p.Ensures (fun _ _ => True) (fun _ _ => True) l := by
  induction p generalizing l with
  | ret a => trivial
  | throw e => trivial
  | call c k ih => exact ⟨trivial, fun r => ih r _⟩

/-- What every command keeps of the log holds of the log throughout. -/
theorem Ensures.keeps {I : Log C R → Prop} {p : Prog C R ε α} {l : Log C R} (h : p.Ensures Φ Q l)
    (hl : I l) (hstep : ∀ l c r, Φ l c → I l → I (l ++ [⟨c, r⟩])) :
    p.Ensures (fun l c => Φ l c ∧ I l) (fun x l => Q x l ∧ I l) l := by
  induction p generalizing l with
  | ret a => exact ⟨h, hl⟩
  | throw e => exact ⟨h, hl⟩
  | call c k ih => exact ⟨⟨h.1, hl⟩, fun r => ih r (h.2 r) (hstep l c r h.1 hl)⟩

/-- The log a program ends with extends the one it started with. -/
theorem Ensures.extends {p : Prog C R ε α} {l : Log C R} (h : p.Ensures Φ Q l) :
    p.Ensures (fun l' c => Φ l' c ∧ l <+: l') (fun x l' => Q x l' ∧ l <+: l') l :=
  h.keeps (List.prefix_refl l) fun _ _ _ _ hl => hl.trans (List.prefix_append _ _)

/-- Every entry it adds to the log is a command it sends. -/
theorem Ensures.logged {p : Prog C R ε α} {l : Log C R} (h : p.Ensures Φ Q l) :
    p.Ensures Φ (fun x l' => Q x l' ∧ ∀ y ∈ l', y ∈ l ∨ ∃ l'', Φ l'' y.1) l := by
  have hkeeps := h.keeps (I := fun l' => ∀ y ∈ l', y ∈ l ∨ ∃ l'', Φ l'' y.1) (fun y hy => .inl hy) ?_
  · exact hkeeps.mono (fun _ _ h => h.1) fun _ _ => id
  · intro l' c r hc hl y hy
    rcases List.mem_append.1 hy with hy | hy
    · exact hl y hy
    · rw [List.mem_singleton.1 hy]
      exact .inr ⟨l', hc⟩

end

/-- **Frame.**  A run whose every command keeps `I` keeps `I`. -/
theorem run_keeps (exec : (c : C) → S → S × R c) {I : S → Prop} {Φ : Log C R → C → Prop}
    (hexec : ∀ l c s, Φ l c → I s → I (exec c s).1) {p : Prog C R ε α} {l : Log C R}
    (hp : p.Ensures Φ (fun _ _ => True) l) {s : S} (hs : I s) : I (p.run exec s).2 := by
  induction p generalizing s l with
  | ret a => exact hs
  | throw e => exact hs
  | call c k ih => exact ih _ (hp.2 _) (hexec l c s hp.1 hs)

/-- And every state it visits satisfies `I`. -/
theorem visits_keeps (sel : C → Bool) (exec : (c : C) → S → S × R c) {I : S → Prop}
    {Φ : Log C R → C → Prop} (hexec : ∀ l c s, Φ l c → I s → I (exec c s).1)
    {p : Prog C R ε α} {l : Log C R} (hp : p.Ensures Φ (fun _ _ => True) l) {s s' : S} (hs : I s)
    (h : s' ∈ p.visits sel exec s) : I s' := by
  induction p generalizing s l with
  | ret a => cases h
  | throw e => cases h
  | call c k ih =>
    have hnext : s' ∈ (k (exec c s).2).visits sel exec (exec c s).1 → I s' :=
      fun h => ih _ (hp.2 _) (hexec l c s hp.1 hs) h
    unfold visits at h
    dsimp only at h
    split at h
    · rcases List.mem_cons.1 h with rfl | h
      · exact hs
      · exact hnext h
    · exact hnext h

/-! ## Two runs -/

section
variable {exec : (c : C) → S → S × R c} {P : S → S → Prop}

/-- From states related by `P` the program ends alike, in states related by `P`, and a
value it returns satisfies `Q`. -/
def Alike (exec : (c : C) → S → S × R c) (P : S → S → Prop) (p : Prog C R ε α) (Q : α → Prop) :
    Prop :=
  ∀ s t, P s t → (p.run exec s).1 = (p.run exec t).1 ∧ P (p.run exec s).2 (p.run exec t).2 ∧
    ∀ a, (p.run exec s).1 = .ok a → Q a

theorem alike_ret {Q : α → Prop} {a : α} (h : Q a) : Alike exec P (.ret a : Prog C R ε α) Q :=
  fun _ _ hst => ⟨rfl, hst, fun _ ha => by cases ha; exact h⟩

theorem alike_throw {Q : α → Prop} (e : ε) : Alike exec P (.throw e : Prog C R ε α) Q :=
  fun _ _ hst => ⟨rfl, hst, nofun⟩

theorem alike_ofExcept (x : Except ε α) :
    Alike exec P (ofExcept x : Prog C R ε α) fun a => x = .ok a := by
  cases x with
  | ok a => exact alike_ret rfl
  | error e => exact alike_throw e

theorem alike_cmd {c : C}
    (h : ∀ s t, P s t → (exec c s).2 = (exec c t).2 ∧ P (exec c s).1 (exec c t).1) :
    Alike exec P (cmd c : Prog C R ε (R c)) fun _ => True :=
  fun s t hst => ⟨congrArg Except.ok (h s t hst).1, (h s t hst).2, fun _ _ => trivial⟩

theorem Alike.bind {p : Prog C R ε α} {f : α → Prog C R ε β} {Q : α → Prop} {Q' : β → Prop}
    (hp : Alike exec P p Q) (hf : ∀ a, Q a → Alike exec P (f a) Q') :
    Alike exec P (p >>= f) Q' := by
  intro s t hst
  obtain ⟨hres, hnext, hQ⟩ := hp s t hst
  rw [run_bind, run_bind]
  generalize p.run exec s = rs at hres hnext hQ ⊢
  generalize p.run exec t = rt at hres hnext ⊢
  obtain ⟨xs, s'⟩ := rs
  obtain ⟨xt, t'⟩ := rt
  obtain rfl : xs = xt := hres
  cases xs with
  | ok a => exact hf a (hQ a rfl) s' t' hnext
  | error e => exact ⟨rfl, hnext, nofun⟩

end

end Prog

end Muster
