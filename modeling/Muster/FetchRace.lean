import Muster.Traffic

/-!
# Overlapping fetches

A fetch reads the cursor (GET), then its page (XRANGE), then moves the cursor
(SET), in three commands.  Two overlapping fetches of one agent both read from
the same cursor and return the same message, and the slower one moves the cursor
back (`overlapping_fetches_return_twice`).

They are exact as long as nothing moves the cursor between a fetch's GET and its
SET (`AckFresh`): pages that were acknowledged are then disjoint intervals of ids,
and the cursor is at the end of the last one (`Acked`).
-/

namespace Muster

/-- Requests and streams of any agents; no reaper. -/
def Served : Moment → Label Call Env → Prop
  | _, .spawn op => op.served
  | _, _ => True

theorem served_ne_reapOnce {op : Call} {w : Moment} (h : Served w (.spawn op)) : op ≠ .reapOnce := by
  rintro rfl
  exact h

/-- `call` is a fetch request of the agent with address `a`. -/
def FetchOf (a : PyStr) (call : Call) : Prop :=
  ∃ ident header args sender, call = .rpc ident header (lit "fetch") args ∧
    parseAgentHeader ident.userId header = .ok sender ∧ sender.text = a

/-- Process `i` is a fetch of `a`'s that has returned `ms`. -/
def Returned (w : Moment) (a : PyStr) (i : Nat) (ms : List Message) : Prop :=
  w.result i = some (.ok (.response (.fetch ms))) ∧
    ∃ p, w.procs[i]? = some p ∧ FetchOf a p.op

/-- At a fetch's SET the stored cursor is still what its GET was answered. -/
def AckFresh (a : PyStr) (w : Moment) (l : Label Call Env) : Prop :=
  ∀ i op id k, l = .step i → w.procs[i]? = some ⟨op, .call (.set a id) k⟩ →
    sent (.get a) (w.st.cursor a) ∈ w.log i

/-- Pages acknowledged so far are at or below the cursor, and no two overlap. -/
structure Acked (a : PyStr) (st : Db) (hist : List Ev) : Prop where
  cursor : st.Permanent (.cursor a)
  page : ∀ i after n es, sent (.xrange a after n) es ∈ Event.logOf hist i →
    (∀ e ∈ es, Stream.past after e.id = true) ∧ es.Pairwise fun x y => x.id < y.id
  below : ∀ i, ∀ e, ReadBy a (Event.logOf hist i) e → ∃ c, st.cursor a = some c ∧ e.id ≤ c
  once : ∀ i j e e', i ≠ j → ReadBy a (Event.logOf hist i) e → ReadBy a (Event.logOf hist j) e' →
    e.id ≠ e'.id

section
variable {a : PyStr} {st : Db} {hist : List Ev}

theorem Acked.start {s₀ : Db} (hcur : s₀.Permanent (.cursor a)) : Acked a s₀ [] where
  cursor := hcur
  page i after n es h := by simp [Event.logOf] at h
  below i e h := by
    obtain ⟨_, _, _, _, hp, -⟩ := h
    simp [Event.logOf] at hp
  once i j e e' _ h := by
    obtain ⟨_, _, _, _, hp, -⟩ := h
    simp [Event.logOf] at hp

/-! ## One command -/

section
variable (srv : Server) (h : Acked a st hist) (i : Nat) (op : Call)
include h

/-- A command that leaves the cursor alone and is not a page. -/
theorem Acked.frame {c : Cmd} (hcur : .cursor a ∉ c.writes) (hpage : ∀ after n, c ≠ .xrange a after n) :
    Acked a (exec srv c st).1 (hist ++ [⟨i, op, c, (exec srv c st).2, st⟩]) := by
  have hset : ∀ id, c ≠ .set a id := by
    rintro id rfl
    exact hcur (by simp [Cmd.writes])
  refine ⟨fun v hv => h.cursor v (by rwa [exec_other srv c st hcur] at hv), ?_, ?_, ?_⟩
  · intro j after n es hp
    rcases Event.mem_logOf_append.1 hp with hp | ⟨-, hp⟩
    · exact h.page j after n es hp
    · exact absurd (congrArg Sigma.fst hp).symm (hpage after n)
  · intro j e hr
    rw [cursor_exec_other srv hcur]
    exact h.below j e (hr.of_append hpage hset)
  · intro j k e e' hjk hj hk
    exact h.once j k e e' hjk (hj.of_append hpage hset) (hk.of_append hpage hset)

/-- A page, by a process that has done no SET yet. -/
theorem Acked.xrange (after : Option StreamId) (n : Nat)
    (hlog : Event.logOf hist i = [sent (.get a) after]) :
    Acked a (exec srv (.xrange a after n) st).1
      (hist ++ [⟨i, op, .xrange a after n, (st.stream a).range after n, st⟩]) := by
  have hold : ∀ j e, ReadBy a (Event.logOf
      (hist ++ [⟨i, op, .xrange a after n, (st.stream a).range after n, st⟩]) j) e →
      ReadBy a (Event.logOf hist j) e := by
    intro j e hr
    by_cases hij : i = j
    · subst hij
      obtain ⟨_, _, _, _, -, -, hs⟩ := hr
      rw [Event.logOf_append_self, hlog] at hs
      simp at hs
    · rwa [Event.logOf_append_other _ hij] at hr
  refine ⟨h.cursor, ?_, fun j e hr => h.below j e (hold j e hr),
    fun j k e e' hjk hj hk => h.once j k e e' hjk (hold j e hj) (hold k e' hk)⟩
  intro j after' n' es hp
  rcases Event.mem_logOf_append.1 hp with hp | ⟨-, hp⟩
  · exact h.page j after' n' es hp
  · cases hp
    exact ⟨fun e he => (Stream.mem_of_mem_range he).2, Stream.range_sorted _ _ _⟩

/-- SET while the stored cursor is what the fetch started from: its page is all above
what was acknowledged before. -/
theorem Acked.set {n : Nat} {es : List Entry} {last : Entry}
    (hlog : Event.logOf hist i =
      [sent (.get a) (st.cursor a), sent (.xrange a (st.cursor a) n) es])
    (hl : es.getLast? = some last) :
    Acked a (exec srv (.set a last.id) st).1 (hist ++ [⟨i, op, .set a last.id, (), st⟩]) := by
  obtain ⟨hpast, hsorted⟩ := h.page i (st.cursor a) n es (by rw [hlog]; simp)
  -- an entry of a page acknowledged now is on this page, or was acknowledged before
  have hread : ∀ j e, ReadBy a (Event.logOf (hist ++ [⟨i, op, .set a last.id, (), st⟩]) j) e →
      (j = i ∧ e ∈ es) ∨ (j ≠ i ∧ ReadBy a (Event.logOf hist j) e) := by
    intro j e hr
    by_cases hij : i = j
    · subst hij
      obtain ⟨after, n', es', id, hp, he, -⟩ := hr
      rw [Event.logOf_append_self, hlog] at hp
      simp only [sent, List.cons_append, List.nil_append, List.mem_cons, Sigma.mk.injEq,
        reduceCtorEq, false_and, List.not_mem_nil, or_false, false_or] at hp
      obtain ⟨hc, hp⟩ := hp
      cases hc
      cases hp
      exact .inl ⟨rfl, he⟩
    · rw [Event.logOf_append_other _ hij] at hr
      exact .inr ⟨fun e => hij e.symm, hr⟩
  have hlt : ∀ j e e', e ∈ es → ReadBy a (Event.logOf hist j) e' → e'.id < e.id := by
    intro j e e' he hr
    obtain ⟨c, hc, hle⟩ := h.below j e' hr
    have hp := hpast e he
    rw [hc] at hp
    exact hle.trans_lt (of_decide_eq_true hp)
  have hmax : ∀ e ∈ es, e.id ≤ last.id := fun e he => Stream.le_getLast hsorted hl he
  refine ⟨h.cursor.exec rfl srv (by simp), ?_,
    fun j e hr => ⟨last.id, cursor_exec_set srv _, ?_⟩, ?_⟩
  · intro j after' n' es' hp
    rcases Event.mem_logOf_append.1 hp with hp | ⟨-, hp⟩
    · exact h.page j after' n' es' hp
    · cases hp
  · rcases hread j e hr with ⟨-, he⟩ | ⟨-, hr⟩
    · exact hmax e he
    · exact (hlt j last e (List.mem_of_getLast? hl) hr).le
  · intro j k e e' hjk hj hk
    rcases hread j e hj with ⟨rfl, he⟩ | ⟨-, hj⟩
    · rcases hread k e' hk with ⟨rfl, -⟩ | ⟨-, hk⟩
      · exact absurd rfl hjk
      · exact (hlt k e e' he hk).ne'
    · rcases hread k e' hk with ⟨-, he'⟩ | ⟨-, hk⟩
      · exact (hlt j e' e he' hj).ne
      · exact h.once j k e e' hjk hj hk

end

end

/-! ## Every run -/

section
variable [Python] (cfg : Config) (srv : Server) {a : PyStr} {s₀ : Db} {w : Moment}

/-- Runs in which every SET of `a`'s cursor is fresh. -/
def Fresh (a : PyStr) (w : Moment) (l : Label Call Env) : Prop := Served w l ∧ AckFresh a w l

theorem reach_acked (h : (service cfg srv).Reach (Fresh a) s₀ w) (hcur : s₀.Permanent (.cursor a)) :
    Acked a w.st w.hist := by
  refine Pool.reach_inv (Acked a) h (service_sends cfg srv) (.start hcur) ?_ ?_
  · intro w i op cmd k hr hI hok hp hc
    obtain ⟨w', hserved, -⟩ := hr.admitted i _ hp
    have hne := served_ne_reapOnce hserved
    by_cases hset : .cursor a ∈ cmd.writes
    · obtain ⟨id, rfl⟩ := hc.writes_cursor hne hset
      have hfresh := hok.2 i op id k rfl hp
      obtain ⟨limit, hf⟩ := hc.set
      generalize hlog : w.log i = l at hf hfresh
      generalize hcmd : Cmd.set a id = c at hf
      cases hf with
      | set cur es last hl =>
        cases hcmd
        have : w.st.cursor a = cur := by simpa using hfresh
        subst this
        exact hI.set srv i op hlog hl
      | _ => cases hcmd
    · by_cases hpage : ∃ after n, cmd = .xrange a after n
      · obtain ⟨after, n, rfl⟩ := hpage
        exact hI.xrange srv i op after n hc.xrange
      · exact hI.frame srv i op hset fun after n e => hpage ⟨after, n, e⟩
  · intro w e hI _
    refine ⟨hI.cursor.env e, hI.page, ?_, hI.once⟩
    intro i x hx
    show ∃ c, (e.apply w.st).cursor a = some c ∧ _
    rw [cursor_env hI.cursor e]
    exact hI.below i x hx

/-- What a fetch returns was on its page, and the page was acknowledged. -/
theorem readBy_of_returned {ok : Moment → Label Call Env → Prop}
    (h : (service cfg srv).Reach ok s₀ w) {i : Nat} {ms : List Message} (hr : Returned w a i ms) :
    ∀ m ∈ ms, ∃ e, ReadBy a (w.log i) e ∧ m = Message.of e := by
  obtain ⟨hres, p, hp, ident, header, args, sender, hop, hs, rfl⟩ := hr
  have hbody : ∀ (w : Moment) op, ok w (.spawn op) → ((service cfg srv).body op).Ensures
      (fun _ _ => True) (fun out l => op = p.op → ∀ r, out = .ok (.response r) →
        ∃ limit es, FetchEnds sender.text limit (.ok es) l ∧ r = .fetch (es.map Message.of)) [] := by
    intro w op _
    by_cases ho : op = p.op
    · rw [ho, hop]
      refine (Prog.ensures_map _ _ _).2
        ((rpc_fetch_ensures cfg args hs).mono (fun _ _ _ => trivial) ?_)
      intro out l hout _ r hr
      cases out with
      | error e => cases hr
      | ok r' => cases hr; exact hout r rfl
    · exact (Call.body_ensures cfg op).mono (fun _ _ _ => trivial) fun _ _ _ e => absurd e ho
  obtain ⟨p', hp', hQ⟩ := Pool.reach_result h hbody hres
  obtain rfl : p = p' := Option.some.inj (hp.symm.trans hp')
  obtain ⟨limit, es, hend, hms⟩ := hQ rfl _ rfl
  cases hms
  intro m hm
  obtain ⟨e, he, rfl⟩ := List.mem_map.1 hm
  refine ⟨e, ?_, rfl⟩
  generalize hlog : w.log i = l at hend
  generalize hout : (Except.ok es : Except PyExn (List Entry)) = out at hend
  cases hend with
  | refused cur => cases hout
  | empty cur => cases hout; cases he
  | page cur es' last now =>
    cases hout
    exact ⟨cur, limit.toNat, es', last.id, by simp, List.mem_of_mem_filter he, by simp⟩

/-- A step of a fresh run leaves the cursor where it is, or moves it up. -/
theorem cursor_le_next (h : (service cfg srv).Reach (Fresh a) s₀ w)
    (hcur : s₀.Permanent (.cursor a)) {l : Label Call Env} (hl : Fresh a w l) {c : StreamId}
    (hc : w.st.cursor a = some c) :
    ∃ c', ((service cfg srv).next w l).st.cursor a = some c' ∧ c ≤ c' := by
  have hI := reach_acked cfg srv h hcur
  cases l with
  | spawn op => exact ⟨c, hc, le_rfl⟩
  | env e => exact ⟨c, (cursor_env hI.cursor e).trans hc, le_rfl⟩
  | step i =>
    rcases Pool.next_step_cases (service cfg srv) w i with hn | ⟨op, cmd, k, hi, hn⟩
    · exact ⟨c, by rw [hn, hc], le_rfl⟩
    · rw [hn]
      obtain ⟨w', hserved, -⟩ := h.admitted i _ hi
      have hsends := (Pool.reach_ensures h (service_sends cfg srv) i _ hi).1
      by_cases hset : .cursor a ∈ cmd.writes
      · obtain ⟨id, rfl⟩ := hsends.writes_cursor (served_ne_reapOnce hserved) hset
        refine ⟨id, cursor_exec_set srv id, ?_⟩
        -- the page is past the stored cursor, and `id` is on it
        have hfresh := hl.2 i op id k rfl hi
        obtain ⟨limit, hf⟩ := hsends.set
        generalize hlog : w.log i = l at hf hfresh
        generalize hcmd : Cmd.set a id = c at hf
        cases hf with
        | set cur es last hlast =>
          cases hcmd
          obtain rfl : w.st.cursor a = cur := by simpa using hfresh
          have hpast := (hI.page i (w.st.cursor a) limit.toNat es
            (by rw [World.log] at hlog; rw [hlog]; simp)).1 last (List.mem_of_getLast? hlast)
          rw [hc] at hpast
          exact (of_decide_eq_true hpast).le
        | _ => cases hcmd
      · exact ⟨c, (cursor_exec_other srv hset).trans hc, le_rfl⟩

/-- **Each message is returned once, while every SET is fresh.**  No two fetches return
the same message, and the cursor never moves to a smaller id. -/
theorem fresh_fetches_return_once (h : (service cfg srv).Reach (Fresh a) s₀ w)
    (hcur : s₀.Permanent (.cursor a)) :
    (∀ i j ms ms', i ≠ j → Returned w a i ms → Returned w a j ms' →
      ∀ m ∈ ms, ∀ m' ∈ ms', m.msgId ≠ m'.msgId) ∧
    ∀ l, Fresh a w l → ∀ c, w.st.cursor a = some c →
      ∃ c', ((service cfg srv).next w l).st.cursor a = some c' ∧ c ≤ c' := by
  constructor
  · intro i j ms ms' hij hi hj m hm m' hm'
    obtain ⟨e, he, rfl⟩ := readBy_of_returned cfg srv h hi m hm
    obtain ⟨e', he', rfl⟩ := readBy_of_returned cfg srv h hj m' hm'
    exact (reach_acked cfg srv h hcur).once i j e e' hij he he'
  · intro l hl c hc
    exact cursor_le_next cfg srv h hcur hl hc

end

/-! ## Two fetches at a time -/

def overlapUser : Identity Member := ⟨lit "u", []⟩

def overlapTo : Args := [(lit "to", .str (lit "x")), (lit "body", .str (lit "hi"))]

/-- Two agents connect, `y` sends `x` two messages; `x` starts a fetch of one message, and
before its SET a whole fetch of twenty runs. -/
def overlapPrefix : List (Label Call Env) :=
  [.spawn (.registerAgent ⟨lit "u", lit "h", lit "r", lit "p", lit "x"⟩ [] .null 604800),
    .step 0, .step 0,
    .spawn (.registerAgent ⟨lit "u", lit "h", lit "r", lit "p", lit "y"⟩ [] .null 604800),
    .step 1, .step 1,
    .spawn (.rpc overlapUser (lit "h/r/p/y") (lit "chat") overlapTo),
    .spawn (.rpc overlapUser (lit "h/r/p/y") (lit "chat") overlapTo)] ++
  List.replicate 9 (.step 2) ++ List.replicate 9 (.step 3) ++
  [.spawn (.rpc overlapUser (lit "h/r/p/x") (lit "fetch") [(lit "limit", .int 1)]),
    .spawn (.rpc overlapUser (lit "h/r/p/x") (lit "fetch") []),
    .step 4, .step 4, .step 5, .step 5, .step 5, .step 5]

def overlap (ls : List (Label Call Env)) : Moment :=
  (@service Python.plain Config.defaults Server.plain).follow (.start (.empty 5000)) (overlapPrefix ++ ls)

theorem overlap_reach (ls : List (Label Call Env)) (h : ∀ l ∈ ls, ∃ i, l = .step i) :
    (@service Python.plain Config.defaults Server.plain).Reach Served (.empty 5000) (overlap ls) := by
  refine Pool.Reach.follow .start ?_
  intro w l hl
  rcases List.mem_append.1 hl with hl | hl
  · simp only [overlapPrefix, List.mem_append, List.mem_cons, List.not_mem_nil, or_false,
      List.mem_replicate, List.append_assoc] at hl
    rcases hl with (rfl | rfl | rfl | rfl | rfl | rfl | rfl | rfl) | ⟨-, rfl⟩ | ⟨-, rfl⟩ |
      (rfl | rfl | rfl | rfl | rfl | rfl | rfl | rfl) <;> trivial
  · obtain ⟨i, rfl⟩ := h l hl
    trivial

theorem overlapping_fetches_return_twice :
    (@service Python.plain Config.defaults Server.plain).Reach Served (.empty 5000)
      (overlap [.step 4, .step 4]) ∧
    (∃ ms ms', Returned (overlap [.step 4, .step 4]) (lit "u/h/r/p/x") 4 ms ∧
      Returned (overlap [.step 4, .step 4]) (lit "u/h/r/p/x") 5 ms' ∧ ∃ m ∈ ms, m ∈ ms') ∧
    (overlap []).st.cursor (lit "u/h/r/p/x") = some (toLex (5000, 1)) ∧
    (overlap [.step 4]).st.cursor (lit "u/h/r/p/x") = some (toLex (5000, 0)) := by
  have hfetch : ∀ args, FetchOf (lit "u/h/r/p/x") (.rpc overlapUser (lit "h/r/p/x") (lit "fetch") args) :=
    fun args => ⟨overlapUser, lit "h/r/p/x", args,
      ⟨lit "u", lit "h", lit "r", lit "p", lit "x"⟩, rfl, rfl, rfl⟩
  refine ⟨overlap_reach _ (by simp), ⟨_, _, ⟨rfl, _, rfl, hfetch _⟩, ⟨rfl, _, rfl, hfetch _⟩,
    _, List.mem_cons_self, List.mem_cons_self⟩, rfl, rfl⟩

/-- One message in `x`'s inbox. -/
def mailedStore : Db :=
  (exec Server.plain (.xadd (lit "u/h/r/p/x") [] 5 65 1000) (.empty 5000)).1

def overlapFetch : Label Call Env := .spawn (.rpc overlapUser (lit "h/r/p/x") (lit "fetch") [])

theorem fresh_step {a : PyStr} {w : Moment} {i : Nat} {op : Call} {c : Cmd} {k : c.Reply → M Outcome}
    (hp : w.procs[i]? = some ⟨op, .call c k⟩)
    (h : ∀ id, c = .set a id → sent (.get a) (w.st.cursor a) ∈ w.log i) : Fresh a w (.step i) := by
  refine ⟨trivial, ?_⟩
  intro j op' id k' hj hp'
  cases hj
  rw [hp] at hp'
  cases hp'
  exact h id rfl

theorem fresh_spawn {a : PyStr} {w : Moment} {op : Call} (h : Served w (.spawn op)) :
    Fresh a w (.spawn op) :=
  ⟨h, fun _ _ _ _ hl => by cases hl⟩

/-- One whole fetch after the other. -/
theorem fresh_fetches_return_once_inTurn :
    let svc := @service Python.plain Config.defaults Server.plain
    let w := svc.follow (.start mailedStore) [overlapFetch, .step 0, .step 0, .step 0, .step 0,
      overlapFetch, .step 1, .step 1]
    (∀ i j ms ms', i ≠ j → Returned w (lit "u/h/r/p/x") i ms → Returned w (lit "u/h/r/p/x") j ms' →
      ∀ m ∈ ms, ∀ m' ∈ ms', m.msgId ≠ m'.msgId) ∧
    ∀ l, Fresh (lit "u/h/r/p/x") w l → ∀ c, w.st.cursor (lit "u/h/r/p/x") = some c →
      ∃ c', (svc.next w l).st.cursor (lit "u/h/r/p/x") = some c' ∧ c ≤ c' := by
  refine @fresh_fetches_return_once Python.plain Config.defaults Server.plain (lit "u/h/r/p/x")
    mailedStore _ ?_ (fun _ hv => by cases hv)
  have h0 : (@service Python.plain Config.defaults Server.plain).Reach (Fresh (lit "u/h/r/p/x"))
      mailedStore _ := .next (l := overlapFetch) .start (fresh_spawn trivial)
  have h1 := h0.next (fresh_step (i := 0) rfl nofun)
  have h2 := h1.next (fresh_step (i := 0) rfl nofun)
  have h3 := h2.next (fresh_step (i := 0) rfl fun _ _ => List.mem_cons_self)
  have h4 := h3.next (fresh_step (i := 0) rfl nofun)
  have h5 := h4.next (l := overlapFetch) (fresh_spawn trivial)
  exact (h5.next (fresh_step (i := 1) rfl nofun)).next (fresh_step (i := 1) rfl nofun)

end Muster
