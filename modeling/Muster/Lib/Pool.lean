import Muster.Lib.Prog

/-!
# A pool of programs on one server

Any number of programs run against one server state, one command at a time, in
any order (`Label.step i`); new programs start at any time (`Label.spawn op`),
and the environment moves on its own (`Label.env e`: clock, eviction, …).  `hist`
records every executed command with its reply and the state it was executed in.

`Reach ok s₀` are the worlds reached from `s₀` by labels that `ok` admits in the
world they are taken in.  Three rules:

* `reach_ensures`: what a program guarantees whatever the server answers
  (`Prog.Ensures`), it guarantees in the pool, for the replies it has had there;
* `reach_inv`: an invariant of state and history that every command and every
  environment step keeps holds in every reachable world.  The command
  may be assumed to satisfy what `reach_ensures` gives for it;
* `Reach.forward`: what every command and every environment step only moves forward
  has moved forward from each event to the next.
-/

namespace Muster

/-- An executed command: who, on behalf of which operation, what, the answer,
and the state before. -/
structure Event (C : Type) (R : C → Type) (ω S : Type) where
  pid : Nat
  op : ω
  cmd : C
  reply : R cmd
  pre : S

structure Proc (C : Type) (R : C → Type) (ε α ω : Type) where
  op : ω
  prog : Prog C R ε α

structure World (C : Type) (R : C → Type) (ε α ω S : Type) where
  st : S
  procs : List (Proc C R ε α ω)
  hist : List (Event C R ω S)

inductive Label (ω E : Type) where
  | spawn (op : ω)
  | step (i : Nat)
  | env (e : E)

/-- Server, environment and the program of each operation. -/
structure Pool (C : Type) (R : C → Type) (ε α ω S E : Type) where
  exec : (c : C) → S → S × R c
  env : E → S → S
  body : ω → Prog C R ε α

variable {C : Type} {R : C → Type} {ε α ω S E : Type}

namespace Event

/-- The event as a log entry of process `i`, if it is one of its own. -/
def entry (i : Nat) (e : Event C R ω S) : Option ((c : C) × R c) :=
  if e.pid = i then some ⟨e.cmd, e.reply⟩ else none

/-- The part of a history that is process `i`'s own: its commands with their replies. -/
def logOf (hist : List (Event C R ω S)) (i : Nat) : Prog.Log C R := hist.filterMap (·.entry i)

theorem mem_logOf_iff {hist : List (Event C R ω S)} {i : Nat} {x : (c : C) × R c} :
    x ∈ logOf hist i ↔ ∃ e ∈ hist, e.pid = i ∧ (⟨e.cmd, e.reply⟩ : (c : C) × R c) = x := by
  simp only [logOf, List.mem_filterMap, entry]
  constructor
  · rintro ⟨e, he, hx⟩
    split at hx
    · next hi => exact ⟨e, he, hi, Option.some.inj hx⟩
    · cases hx
  · rintro ⟨e, he, hi, rfl⟩
    exact ⟨e, he, if_pos hi⟩

theorem logOf_append_self (hist : List (Event C R ω S)) (i : Nat) (op : ω) (cmd : C) (r : R cmd)
    (s : S) : logOf (hist ++ [⟨i, op, cmd, r, s⟩]) i = logOf hist i ++ [⟨cmd, r⟩] := by
  simp [logOf, entry]

theorem logOf_append_other (hist : List (Event C R ω S)) {i j : Nat} (h : i ≠ j) (op : ω) (cmd : C)
    (r : R cmd) (s : S) : logOf (hist ++ [⟨i, op, cmd, r, s⟩]) j = logOf hist j := by
  simp [logOf, entry, h]

theorem mem_logOf_append {hist : List (Event C R ω S)} {i j : Nat} {op : ω} {cmd : C} {r : R cmd}
    {s : S} {x : (c : C) × R c} : x ∈ logOf (hist ++ [⟨i, op, cmd, r, s⟩]) j ↔
      x ∈ logOf hist j ∨ (i = j ∧ x = ⟨cmd, r⟩) := by
  by_cases h : i = j
  · subst h
    rw [logOf_append_self, List.mem_append, List.mem_singleton]
    simp
  · rw [logOf_append_other _ h]
    simp [h]

/-- The events behind a log, in the order of the history. -/
theorem logOf_eq_map_filter (hist : List (Event C R ω S)) (i : Nat) :
    logOf hist i = (hist.filter fun e => e.pid = i).map fun e => ⟨e.cmd, e.reply⟩ := by
  induction hist with
  | nil => rfl
  | cons e hist ih =>
    by_cases h : e.pid = i
    · rw [List.filter_cons_of_pos (by simpa using h), List.map_cons, ← ih]
      simp [logOf, entry, h]
    · rw [List.filter_cons_of_neg (by simpa using h), ← ih]
      simp [logOf, entry, h]

end Event

namespace World

/-- The world before anything has started. -/
def start (s : S) : World C R ε α ω S := ⟨s, [], []⟩

/-- The commands process `i` has executed, with their replies. -/
def log (c : World C R ε α ω S) (i : Nat) : Prog.Log C R := Event.logOf c.hist i

/-- What process `i` has ended with, if it has. -/
def result (c : World C R ε α ω S) (i : Nat) : Option (Except ε α) :=
  match c.procs[i]? with
  | some ⟨_, .ret a⟩ => some (.ok a)
  | some ⟨_, .throw e⟩ => some (.error e)
  | _ => none

end World

namespace Pool

variable (P : Pool C R ε α ω S E)

def next (c : World C R ε α ω S) : Label ω E → World C R ε α ω S
  | .spawn op => { c with procs := c.procs ++ [⟨op, P.body op⟩] }
  | .step i =>
    match c.procs[i]? with
    | some ⟨op, .call cmd k⟩ =>
      { st := (P.exec cmd c.st).1
        procs := c.procs.set i ⟨op, k (P.exec cmd c.st).2⟩
        hist := c.hist ++ [⟨i, op, cmd, (P.exec cmd c.st).2, c.st⟩] }
    | _ => c
  | .env e => { c with st := P.env e c.st }

/-- Reached from `s₀` by labels admitted by `ok` where they are taken. -/
inductive Reach (ok : World C R ε α ω S → Label ω E → Prop) (s₀ : S) :
    World C R ε α ω S → Prop
  | start : Reach ok s₀ (.start s₀)
  | next {c : World C R ε α ω S} {l : Label ω E} : Reach ok s₀ c → ok c l → Reach ok s₀ (P.next c l)

/-- Take the labels in order. -/
def follow (c : World C R ε α ω S) (ls : List (Label ω E)) : World C R ε α ω S :=
  ls.foldl P.next c

/-- What `next` does on a step, said once: nothing, or one command of one process. -/
theorem next_step_cases (c : World C R ε α ω S) (i : Nat) :
    P.next c (.step i) = c ∨
    ∃ op cmd k, c.procs[i]? = some ⟨op, .call cmd k⟩ ∧
      P.next c (.step i) =
        { st := (P.exec cmd c.st).1
          procs := c.procs.set i ⟨op, k (P.exec cmd c.st).2⟩
          hist := c.hist ++ [⟨i, op, cmd, (P.exec cmd c.st).2, c.st⟩] } := by
  simp only [Pool.next]
  split
  · next op cmd k hi => exact .inr ⟨op, cmd, k, hi, rfl⟩
  · exact .inl rfl

variable {P}

/-- A call that has ended stays so. -/
theorem result_next {c : World C R ε α ω S} {i : Nat} {out : Except ε α}
    (h : c.result i = some out) (l : Label ω E) : (P.next c l).result i = some out := by
  have hlt : i < c.procs.length := by
    by_contra hi
    simp [World.result, List.getElem?_eq_none (Nat.le_of_not_lt hi)] at h
  cases l with
  | spawn op =>
    show World.result ⟨c.st, c.procs ++ [⟨op, P.body op⟩], c.hist⟩ i = some out
    rw [← h]
    simp only [World.result, List.getElem?_append_left hlt]
  | env e => exact h
  | step j =>
    rcases next_step_cases P c j with hn | ⟨op, cmd, k, hj, hn⟩
    · rw [hn]; exact h
    · have hij : j ≠ i := by
        rintro rfl
        simp [World.result, hj] at h
      rw [hn, ← h]
      simp only [World.result, List.getElem?_set_ne hij]

/-- A process keeps its operation. -/
theorem op_next {c : World C R ε α ω S} {i : Nat} {p : Proc C R ε α ω}
    (h : c.procs[i]? = some p) (l : Label ω E) :
    ∃ p', (P.next c l).procs[i]? = some p' ∧ p'.op = p.op := by
  have hlt := (List.getElem?_eq_some_iff.1 h).1
  cases l with
  | spawn op => exact ⟨p, (List.getElem?_append_left hlt).trans h, rfl⟩
  | env e => exact ⟨p, h, rfl⟩
  | step j =>
    rcases next_step_cases P c j with hn | ⟨op, cmd, k, hj, hn⟩
    · exact ⟨p, by rw [hn]; exact h, rfl⟩
    · rw [hn]
      by_cases hij : j = i
      · subst hij
        rw [hj] at h
        cases h
        exact ⟨_, List.getElem?_set_self hlt, rfl⟩
      · exact ⟨p, (List.getElem?_set_ne hij).trans h, rfl⟩

theorem Reach.follow {ok : World C R ε α ω S → Label ω E → Prop} {s₀ : S}
    {c : World C R ε α ω S} (hc : P.Reach ok s₀ c) {ls : List (Label ω E)}
    (h : ∀ c, ∀ l ∈ ls, ok c l) : P.Reach ok s₀ (P.follow c ls) := by
  induction ls generalizing c with
  | nil => exact hc
  | cons l ls ih =>
    exact ih (.next hc (h _ l List.mem_cons_self)) fun c l' hl' => h c l' (List.mem_cons_of_mem _ hl')

/-- Whether a check admits every label of a run, where it is taken. -/
def admits (P : Pool C R ε α ω S E) (check : World C R ε α ω S → Label ω E → Bool) :
    World C R ε α ω S → List (Label ω E) → Bool
  | _, [] => true
  | c, l :: ls => check c l && admits P check (P.next c l) ls

theorem Reach.follow_of_admits {ok : World C R ε α ω S → Label ω E → Prop} {s₀ : S}
    {check : World C R ε α ω S → Label ω E → Bool} (hcheck : ∀ c l, check c l = true → ok c l)
    {c : World C R ε α ω S} (hc : P.Reach ok s₀ c) {ls : List (Label ω E)}
    (h : P.admits check c ls = true) : P.Reach ok s₀ (P.follow c ls) := by
  induction ls generalizing c with
  | nil => exact hc
  | cons l ls ih =>
    obtain ⟨hl, hrest⟩ := (Bool.and_eq_true_iff).1 h
    exact ih (.next hc (hcheck c l hl)) hrest

section
variable {ok : World C R ε α ω S → Label ω E → Prop} {s₀ : S} {c : World C R ε α ω S}

theorem Reach.mono {ok' : World C R ε α ω S → Label ω E → Prop} (hok : ∀ c l, ok c l → ok' c l)
    (h : P.Reach ok s₀ c) : P.Reach ok' s₀ c := by
  induction h with
  | start => exact .start
  | next _ hl ih => exact .next ih (hok _ _ hl)

/-- Every event belongs to a process of the pool, under its own operation. -/
theorem Reach.proc_of_mem_hist (h : P.Reach ok s₀ c) :
    ∀ e ∈ c.hist, ∃ p, c.procs[e.pid]? = some p ∧ p.op = e.op := by
  induction h with
  | start => intro e he; cases he
  | @next c l _ _ ih =>
    have hold : ∀ e ∈ c.hist, ∃ p, (P.next c l).procs[e.pid]? = some p ∧ p.op = e.op := by
      intro e he
      obtain ⟨p, hp, hop⟩ := ih e he
      obtain ⟨p', hp', hop'⟩ := op_next hp l
      exact ⟨p', hp', hop'.trans hop⟩
    cases l with
    | spawn op => exact hold
    | env x => exact hold
    | step i =>
      rcases next_step_cases P c i with hn | ⟨op, cmd, k, hi, hn⟩
      · rw [hn] at hold ⊢
        exact hold
      · rw [hn] at hold ⊢
        intro e he
        rcases List.mem_append.1 he with he | he
        · exact hold e he
        · rw [List.mem_singleton.1 he]
          exact ⟨_, List.getElem?_set_self (List.getElem?_eq_some_iff.1 hi).1, rfl⟩

/-- Every process is running an operation that was admitted. -/
theorem Reach.admitted (h : P.Reach ok s₀ c) :
    ∀ (i : Nat) (p : Proc C R ε α ω), c.procs[i]? = some p → ∃ c', ok c' (.spawn p.op) := by
  induction h with
  | start => intro i p hp; simp [World.start] at hp
  | @next c l _ hl ih =>
    intro i p hp
    cases l with
    | spawn op =>
      have hp' : (c.procs ++ [⟨op, P.body op⟩])[i]? = some p := hp
      rcases List.mem_append.1 (List.mem_of_getElem? hp') with hm | hm
      · obtain ⟨j, hj⟩ := List.getElem?_of_mem hm
        exact ih j p hj
      · rw [List.mem_singleton.1 hm]
        exact ⟨c, hl⟩
    | env e => exact ih i p hp
    | step j =>
      rcases next_step_cases P c j with hn | ⟨op, cmd, k, hj, hn⟩
      · rw [hn] at hp; exact ih i p hp
      · rw [hn] at hp
        by_cases hij : j = i
        · subst hij
          rw [List.getElem?_set_self (List.getElem?_eq_some_iff.1 hj).1] at hp
          cases hp
          exact ih j ⟨op, .call cmd k⟩ hj
        · rw [List.getElem?_set_ne hij] at hp
          exact ih i p hp

/-- A process that is about to start has no history. -/
theorem Reach.log_eq_nil (h : P.Reach ok s₀ c) {i : Nat} (hi : c.procs[i]? = none) :
    c.log i = [] := by
  rw [World.log, Event.logOf, List.filterMap_eq_nil_iff]
  intro e he
  obtain ⟨p, hp, -⟩ := h.proc_of_mem_hist e he
  refine if_neg ?_
  intro hei
  rw [hei, hi] at hp
  cases hp

/-- **Local rule.**  What the program of each admitted operation ensures for
arbitrary replies holds of every process, for the replies it has had. -/
theorem reach_ensures {Φ : ω → Prog.Log C R → C → Prop}
    {Q : ω → Except ε α → Prog.Log C R → Prop} (h : P.Reach ok s₀ c)
    (hbody : ∀ c op, ok c (.spawn op) → (P.body op).Ensures (Φ op) (Q op) []) :
    ∀ i (p : Proc C R ε α ω), c.procs[i]? = some p → p.prog.Ensures (Φ p.op) (Q p.op) (c.log i) := by
  induction h with
  | start => intro i p hp; simp [World.start] at hp
  | @next c l hc hl ih =>
    intro i p hp
    cases l with
    | spawn op =>
      have hp' : (c.procs ++ [⟨op, P.body op⟩])[i]? = some p := hp
      have hlog : (P.next c (.spawn op)).log i = c.log i := rfl
      rw [hlog]
      rcases Nat.lt_or_ge i c.procs.length with hi | hi
      · rw [List.getElem?_append_left hi] at hp'
        exact ih i p hp'
      · rw [List.getElem?_append_right hi] at hp'
        rw [hc.log_eq_nil (List.getElem?_eq_none hi)]
        obtain ⟨hlt, rfl⟩ := List.getElem?_eq_some_iff.1 hp'
        have h0 : i - c.procs.length = 0 := by
          simp only [List.length_singleton] at hlt; omega
        simp only [h0, List.getElem_singleton]
        exact hbody c op hl
    | env e => exact ih i p hp
    | step j =>
      rcases next_step_cases P c j with hn | ⟨op, cmd, k, hj, hn⟩
      · rw [hn] at hp ⊢; exact ih i p hp
      · rw [hn] at hp ⊢
        by_cases hij : j = i
        · subst hij
          rw [List.getElem?_set_self (List.getElem?_eq_some_iff.1 hj).1] at hp
          cases hp
          rw [World.log, Event.logOf_append_self]
          exact (ih j _ hj).2 (P.exec cmd c.st).2
        · rw [List.getElem?_set_ne hij] at hp
          rw [World.log, Event.logOf_append_other _ hij]
          exact ih i p hp

/-- What a process has ended with is an end its program ensures. -/
theorem reach_result {Q : ω → Except ε α → Prog.Log C R → Prop} (h : P.Reach ok s₀ c)
    (hbody : ∀ c op, ok c (.spawn op) → (P.body op).Ensures (fun _ _ => True) (Q op) []) {i : Nat}
    {out : Except ε α} (hr : c.result i = some out) :
    ∃ p, c.procs[i]? = some p ∧ Q p.op out (c.log i) := by
  unfold World.result at hr
  split at hr
  · next op a hp =>
    cases hr
    exact ⟨_, hp, reach_ensures h hbody i _ hp⟩
  · next op e hp =>
    cases hr
    exact ⟨_, hp, reach_ensures h hbody i _ hp⟩
  · cases hr

/-- **Global rule.**  An invariant of state and history kept by every admitted
command and environment step. -/
theorem reach_inv {Φ : ω → Prog.Log C R → C → Prop} (I : S → List (Event C R ω S) → Prop)
    (h : P.Reach ok s₀ c)
    (hbody : ∀ c op, ok c (.spawn op) → (P.body op).Ensures (Φ op) (fun _ _ => True) [])
    (hstart : I s₀ [])
    (hcmd : ∀ (c : World C R ε α ω S) i op cmd k, P.Reach ok s₀ c → I c.st c.hist →
      ok c (.step i) → c.procs[i]? = some ⟨op, .call cmd k⟩ → Φ op (c.log i) cmd →
      I (P.exec cmd c.st).1 (c.hist ++ [⟨i, op, cmd, (P.exec cmd c.st).2, c.st⟩]))
    (henv : ∀ (c : World C R ε α ω S) e, I c.st c.hist → ok c (.env e) →
      I (P.env e c.st) c.hist) :
    I c.st c.hist := by
  induction h with
  | start => exact hstart
  | @next c l hc hl ih =>
    cases l with
    | spawn op => exact ih
    | env e => exact henv c e ih hl
    | step i =>
      rcases next_step_cases P c i with hn | ⟨op, cmd, k, hi, hn⟩
      · rw [hn]; exact ih
      · rw [hn]
        exact hcmd c i op cmd k hc ih hl hi (reach_ensures hc hbody i _ hi).1

/-- **Rule for what only moves forward.**  Where every command and every environment step takes
the state to one that is `T`-above it, the state after an event is below the state before any
later event, and below the present one. -/
theorem Reach.forward {Φ : ω → Prog.Log C R → C → Prop} {T : S → S → Prop} (h : P.Reach ok s₀ c)
    (hbody : ∀ c op, ok c (.spawn op) → (P.body op).Ensures (Φ op) (fun _ _ => True) [])
    (hrefl : ∀ s, T s s) (htrans : ∀ s t u, T s t → T t u → T s u)
    (hcmd : ∀ (c : World C R ε α ω S) i op cmd k, P.Reach ok s₀ c → ok c (.step i) →
      c.procs[i]? = some ⟨op, .call cmd k⟩ → Φ op (c.log i) cmd → T c.st (P.exec cmd c.st).1)
    (henv : ∀ (c : World C R ε α ω S) e, P.Reach ok s₀ c → ok c (.env e) → T c.st (P.env e c.st)) :
    c.hist.Pairwise (fun e e' => T (P.exec e.cmd e.pre).1 e'.pre) ∧
      ∀ e ∈ c.hist, T (P.exec e.cmd e.pre).1 c.st := by
  induction h with
  | start => exact ⟨.nil, by simp [World.start]⟩
  | @next c l hc hl ih =>
    obtain ⟨hpair, hlast⟩ := ih
    cases l with
    | spawn op => exact ⟨hpair, hlast⟩
    | env x => exact ⟨hpair, fun e he => htrans _ _ _ (hlast e he) (henv c x hc hl)⟩
    | step i =>
      rcases next_step_cases P c i with hn | ⟨op, cmd, k, hi, hn⟩
      · rw [hn]; exact ⟨hpair, hlast⟩
      · rw [hn]
        have hmove := hcmd c i op cmd k hc hl hi (reach_ensures hc hbody i _ hi).1
        refine ⟨?_, ?_⟩
        · refine List.pairwise_append.2 ⟨hpair, List.pairwise_singleton _ _, ?_⟩
          intro e he e' he'
          rw [List.mem_singleton.1 he']
          exact hlast e he
        · intro e he
          rcases List.mem_append.1 he with he | he
          · exact htrans _ _ _ (hlast e he) hmove
          · rw [List.mem_singleton.1 he]
            exact hrefl _

/-- What holds of every command where it is executed holds of every event. -/
theorem Reach.forall_hist {Φ : ω → Prog.Log C R → C → Prop} {I : Event C R ω S → Prop}
    (h : P.Reach ok s₀ c)
    (hbody : ∀ c op, ok c (.spawn op) → (P.body op).Ensures (Φ op) (fun _ _ => True) [])
    (hcmd : ∀ (c : World C R ε α ω S) i op cmd, ok c (.step i) → Φ op (c.log i) cmd →
      I ⟨i, op, cmd, (P.exec cmd c.st).2, c.st⟩) : ∀ e ∈ c.hist, I e := by
  refine reach_inv (fun _ hist => ∀ e ∈ hist, I e) h hbody (by simp) ?_ fun _ _ ih _ => ih
  intro c i op cmd k _ ih hl _ hsends e he
  rcases List.mem_append.1 he with he | he
  · exact ih e he
  · rw [List.mem_singleton.1 he]
    exact hcmd c i op cmd hl hsends

/-- Every reply on record is what the server answered. -/
theorem Reach.reply (h : P.Reach ok s₀ c) : ∀ e ∈ c.hist, e.reply = (P.exec e.cmd e.pre).2 :=
  h.forall_hist (fun _ _ _ => Prog.ensures_true _ _) fun _ _ _ _ _ _ => rfl

/-- A log entry is an event, answered from the state it was executed in. -/
theorem Reach.event_of_mem_log (h : P.Reach ok s₀ c) {i : Nat} {cmd : C} {r : R cmd}
    (hx : (⟨cmd, r⟩ : (c : C) × R c) ∈ c.log i) :
    ∃ e ∈ c.hist, e.pid = i ∧ e.cmd = cmd ∧ (P.exec cmd e.pre).2 = r := by
  obtain ⟨e, he, hpid, heq⟩ := Event.mem_logOf_iff.1 hx
  have hr := h.reply e he
  obtain ⟨pid, op, cmd', r', pre⟩ := e
  cases heq
  exact ⟨_, he, hpid, rfl, hr.symm⟩

/-- The log of a process is events of the run, in the order of the run. -/
theorem Reach.events_of_log (h : P.Reach ok s₀ c) (i : Nat) :
    ∃ evs : List (Event C R ω S), evs.Sublist c.hist ∧ (∀ e ∈ evs, e.pid = i) ∧
      c.log i = evs.map fun e => ⟨e.cmd, (P.exec e.cmd e.pre).2⟩ := by
  refine ⟨c.hist.filter fun e => e.pid = i, List.filter_sublist, ?_, ?_⟩
  · intro e he
    simpa using (List.mem_filter.1 he).2
  · rw [World.log, Event.logOf_eq_map_filter]
    refine List.map_congr_left ?_
    intro e he
    rw [h.reply e (List.mem_of_mem_filter he)]

/-- Every event is a command its operation sends. -/
theorem Reach.sends {Φ : ω → Prog.Log C R → C → Prop} (h : P.Reach ok s₀ c)
    (hbody : ∀ c op, ok c (.spawn op) → (P.body op).Ensures (Φ op) (fun _ _ => True) []) :
    ∀ e ∈ c.hist, ∃ l, Φ e.op l e.cmd :=
  h.forall_hist hbody fun _ _ _ _ _ hsends => ⟨_, hsends⟩

end

end Pool

end Muster
