import Muster.Traffic

/-!
# Nothing is skipped by the read cursor

Fetches and appends interleave command by command.  `Covers` is the invariant:

* a page that was read has every entry between its start and its last entry;
* a cursor value, stored now or once answered to a GET, has every entry at or
  below it on the page of some fetch that has done its SET.

A page starts at a cursor value its own fetch was answered, so SET to the page's
last entry keeps the second part, also when it moves the cursor back.  XADD keeps
both: a new id is above every id a page or the cursor has had.
-/

namespace Muster

/-- Fetches and appends, at any inboxes, and the environment. -/
def MailRun : Moment → Label Call Env → Prop
  | _, .spawn (.fetchUnread _ limit) => 1 ≤ limit
  | _, .spawn (.appendMessage _ _ _ _) => True
  | _, .spawn _ => False
  | _, _ => True

structure Covers (a : PyStr) (st : Db) (hist : List Ev) : Prop where
  inbox : st.Permanent (.inbox a)
  cursor : st.Permanent (.cursor a)
  page : ∀ i after n es last, sent (.xrange a after n) es ∈ Event.logOf hist i →
    es.getLast? = some last → last.id ≤ (st.stream a).last ∧
      ∀ e ∈ st.inbox a, Stream.past after e.id = true → e.id ≤ last.id → e ∈ es
  seen : ∀ c, (st.cursor a = some c ∨ ∃ i, sent (.get a) (some c) ∈ Event.logOf hist i) →
    c ≤ (st.stream a).last ∧ ∀ e ∈ st.inbox a, e.id ≤ c → ∃ i, ReadBy a (Event.logOf hist i) e

section
variable {a : PyStr} {st : Db} {hist : List Ev}

theorem Covers.start {s₀ : Db} (hin : s₀.Permanent (.inbox a)) (hcur : s₀.keys (.cursor a) = none) :
    Covers a s₀ [] where
  inbox := hin
  cursor v hv := by rw [hcur] at hv; cases hv
  page i after n es last h := by simp [Event.logOf] at h
  seen c h := by
    rcases h with h | ⟨i, h⟩
    · simp [Db.cursor, Keyspace.get, Keyspace.look, hcur] at h
    · simp [Event.logOf] at h

/-- An entry that no fetch has read is past every cursor that has been read. -/
theorem Covers.past {e : Entry} (h : Covers a st hist) {i : Nat} {cur : Option StreamId}
    (hget : sent (.get a) cur ∈ Event.logOf hist i) (he : e ∈ st.inbox a)
    (hunread : ∀ i, ¬ ReadBy a (Event.logOf hist i) e) : Stream.past cur e.id = true := by
  cases cur with
  | none => rfl
  | some c =>
    refine decide_eq_true (lt_of_not_ge ?_)
    intro hle
    obtain ⟨j, hj⟩ := (h.seen c (.inr ⟨i, hget⟩)).2 e he hle
    exact hunread j hj

/-! ## One command -/

section
variable (srv : Server) (h : Covers a st hist) (i : Nat) (op : Call)
include h

/-- Commands that neither write the two keys nor read them for a fetch. -/
theorem Covers.frame {c : Cmd} (hin : .inbox a ∉ c.writes) (hcur : .cursor a ∉ c.writes)
    (hget : c ≠ .get a) (hpage : ∀ after n, c ≠ .xrange a after n) :
    Covers a (exec srv c st).1 (hist ++ [⟨i, op, c, (exec srv c st).2, st⟩]) where
  inbox v hv := h.inbox v (by rwa [exec_other srv c st hin] at hv)
  cursor v hv := h.cursor v (by rwa [exec_other srv c st hcur] at hv)
  page j after n es last hp hl := by
    simp only [Db.inbox, stream_exec_other srv hin]
    rcases Event.mem_logOf_append.1 hp with hp | ⟨-, hp⟩
    · exact h.page j after n es last hp hl
    · exact absurd (congrArg Sigma.fst hp).symm (hpage after n)
  seen c' hc' := by
    simp only [Db.inbox, stream_exec_other srv hin]
    have hc : st.cursor a = some c' ∨ ∃ i, sent (.get a) (some c') ∈ Event.logOf hist i := by
      rcases hc' with hc' | ⟨j, hc'⟩
      · exact .inl (by rwa [cursor_exec_other srv hcur] at hc')
      · rcases Event.mem_logOf_append.1 hc' with hc' | ⟨-, hc'⟩
        · exact .inr ⟨j, hc'⟩
        · exact absurd (congrArg Sigma.fst hc').symm hget
    refine ⟨(h.seen c' hc).1, ?_⟩
    intro e he hle
    obtain ⟨j, hj⟩ := (h.seen c' hc).2 e he hle
    exact ⟨j, hj.append _⟩

theorem Covers.get :
    Covers a (exec srv (.get a) st).1 (hist ++ [⟨i, op, .get a, st.cursor a, st⟩]) where
  inbox := h.inbox
  cursor := h.cursor
  page j after n es last hp hl := by
    rcases Event.mem_logOf_append.1 hp with hp | ⟨-, hp⟩
    · exact h.page j after n es last hp hl
    · cases hp
  seen c hc := by
    have hc' : st.cursor a = some c ∨ ∃ i, sent (.get a) (some c) ∈ Event.logOf hist i := by
      rcases hc with hc | ⟨j, hc⟩
      · exact .inl hc
      · rcases Event.mem_logOf_append.1 hc with hc | ⟨-, hc⟩
        · exact .inr ⟨j, hc⟩
        · -- the reply is the stored cursor
          simp only [sent, Sigma.mk.injEq, heq_eq_eq, true_and] at hc
          exact .inl hc.symm
    refine ⟨(h.seen c hc').1, ?_⟩
    intro e he hle
    obtain ⟨j, hj⟩ := (h.seen c hc').2 e he hle
    exact ⟨j, hj.append _⟩

theorem Covers.xrange (after : Option StreamId) (n : Nat) :
    Covers a (exec srv (.xrange a after n) st).1
      (hist ++ [⟨i, op, .xrange a after n, (st.stream a).range after n, st⟩]) where
  inbox := h.inbox
  cursor := h.cursor
  page j after' n' es last hp hl := by
    rcases Event.mem_logOf_append.1 hp with hp | ⟨-, hp⟩
    · exact h.page j after' n' es last hp hl
    · cases hp
      refine ⟨(st.stream a).le_last _ ?_, ?_⟩
      · exact (Stream.mem_of_mem_range (List.mem_of_getLast? hl)).1
      · intro e he hpast hle
        exact Stream.mem_range_of_le_last hl he hpast hle
  seen c hc := by
    have hc' : st.cursor a = some c ∨ ∃ i, sent (.get a) (some c) ∈ Event.logOf hist i := by
      refine hc.imp id fun ⟨j, hc⟩ => ⟨j, ?_⟩
      rcases Event.mem_logOf_append.1 hc with hc | ⟨-, hc⟩
      · exact hc
      · cases hc
    refine ⟨(h.seen c hc').1, ?_⟩
    intro e he hle
    obtain ⟨j, hj⟩ := (h.seen c hc').2 e he hle
    exact ⟨j, hj.append _⟩

/-- SET to the last entry of the page the fetch has just read. -/
theorem Covers.set {after : Option StreamId} {n : Nat} {es : List Entry} {last : Entry}
    (hlog : Event.logOf hist i = [sent (.get a) after, sent (.xrange a after n) es])
    (hl : es.getLast? = some last) :
    Covers a (exec srv (.set a last.id) st).1 (hist ++ [⟨i, op, .set a last.id, (), st⟩]) := by
  have hin : Key.inbox a ∉ (Cmd.set a last.id).writes := by simp [Cmd.writes]
  have hpage := h.page i after n es last (by rw [hlog]; simp) hl
  have hself : ∀ e ∈ es, ReadBy a
      (Event.logOf (hist ++ [⟨i, op, .set a last.id, (), st⟩]) i) e := by
    intro e he
    rw [Event.logOf_append_self, hlog]
    exact ⟨after, n, es, last.id, by simp, he, by simp⟩
  refine ⟨fun v hv => h.inbox v (by rwa [exec_other srv _ st hin] at hv),
    h.cursor.exec rfl srv (by simp), ?_, ?_⟩
  · intro j after' n' es' last' hp hl'
    simp only [Db.inbox, stream_exec_other srv hin]
    rcases Event.mem_logOf_append.1 hp with hp | ⟨-, hp⟩
    · exact h.page j after' n' es' last' hp hl'
    · cases hp
  · intro c hc
    simp only [Db.inbox, stream_exec_other srv hin]
    rcases hc with hc | ⟨j, hc⟩
    · rw [cursor_exec_set] at hc
      cases hc
      refine ⟨hpage.1, ?_⟩
      intro e he hle
      by_cases hpast : Stream.past after e.id = true
      · exact ⟨i, hself e (hpage.2 e he hpast hle)⟩
      · -- at or below where the page started: a cursor value this fetch was answered
        cases after with
        | none => exact absurd rfl hpast
        | some c =>
          have hle' : e.id ≤ c := by
            simp only [Stream.past, decide_eq_true_eq] at hpast
            exact not_lt.1 hpast
          obtain ⟨j, hj⟩ := (h.seen c (.inr ⟨i, by rw [hlog]; simp⟩)).2 e he hle'
          exact ⟨j, hj.append _⟩
    · have hc' : sent (.get a) (some c) ∈ Event.logOf hist j := by
        rcases Event.mem_logOf_append.1 hc with hc | ⟨-, hc⟩
        · exact hc
        · cases hc
      refine ⟨(h.seen c (.inr ⟨j, hc'⟩)).1, ?_⟩
      intro e he hle
      obtain ⟨j', hj'⟩ := (h.seen c (.inr ⟨j, hc'⟩)).2 e he hle
      exact ⟨j', hj'.append _⟩

/-- A new entry is above every cursor value and every page. -/
theorem Covers.xadd (fields : Fields) (ts expiresAt : Int) (maxlen : Nat) (r : StreamId) :
    Covers a (exec srv (.xadd a fields ts expiresAt maxlen) st).1
      (hist ++ [⟨i, op, .xadd a fields ts expiresAt maxlen, r, st⟩]) := by
  have hlt : (st.stream a).last < srv.nextId st.now (st.stream a).last := srv.lt_nextId _ _
  have hcur : Key.cursor a ∉ (Cmd.xadd a fields ts expiresAt maxlen).writes := by simp [Cmd.writes]
  -- entries at or below an id handed out before are old entries
  have hold : ∀ id ≤ (st.stream a).last, ∀ e,
      e ∈ ((st.stream a).add srv st.now fields ts expiresAt).entries → e.id ≤ id →
      e ∈ st.inbox a := by
    intro id hid e he hle
    rcases Stream.mem_add.1 he with he | rfl
    · exact he
    · exact absurd (hle.trans hid) (not_le_of_gt hlt)
  refine ⟨h.inbox.exec rfl srv (by simp), ?_, ?_, ?_⟩
  · intro v hv
    rw [exec_other srv _ st hcur] at hv
    exact h.cursor v hv
  · intro j after n es last hp hl
    simp only [Db.inbox, stream_exec_xadd]
    have hp' : sent (.xrange a after n) es ∈ Event.logOf hist j := by
      rcases Event.mem_logOf_append.1 hp with hp | ⟨-, hp⟩
      · exact hp
      · cases hp
    obtain ⟨hle, hmem⟩ := h.page j after n es last hp' hl
    exact ⟨hle.trans hlt.le, fun e he hpast hle' =>
      hmem e (hold _ hle e he hle') hpast hle'⟩
  · intro c hc
    simp only [Db.inbox, stream_exec_xadd]
    have hc' : st.cursor a = some c ∨ ∃ i, sent (.get a) (some c) ∈ Event.logOf hist i := by
      rcases hc with hc | ⟨j, hc⟩
      · exact .inl (by rwa [cursor_exec_other srv hcur] at hc)
      · refine .inr ⟨j, ?_⟩
        rcases Event.mem_logOf_append.1 hc with hc | ⟨-, hc⟩
        · exact hc
        · cases hc
    obtain ⟨hle, hmem⟩ := h.seen c hc'
    refine ⟨hle.trans hlt.le, ?_⟩
    intro e he hle'
    obtain ⟨j, hj⟩ := hmem e (hold _ hle e he hle') hle'
    exact ⟨j, hj.append _⟩

omit h in
theorem Covers.env (h : Covers a st hist) (e : Env) : Covers a (e.apply st) hist where
  inbox := h.inbox.env e
  cursor := h.cursor.env e
  page i after n es last hp hl := by
    obtain ⟨hlast, hsub⟩ := stream_env h.inbox e
    rw [hlast]
    exact ⟨(h.page i after n es last hp hl).1, fun x hx =>
      (h.page i after n es last hp hl).2 x (hsub x hx)⟩
  seen c hc := by
    obtain ⟨hlast, hsub⟩ := stream_env h.inbox e
    rw [hlast]
    rw [cursor_env h.cursor e] at hc
    exact ⟨(h.seen c hc).1, fun x hx => (h.seen c hc).2 x (hsub x hx)⟩

omit h in
/-- Whatever is sent outside a reaper pass. -/
theorem Covers.command {cfg : Config} {op : Call} {c : Cmd} (h : Covers a st hist)
    (hop : op ≠ .reapOnce) (hc : op.Sends cfg (Event.logOf hist i) c) :
    Covers a (exec srv c st).1 (hist ++ [⟨i, op, c, (exec srv c st).2, st⟩]) := by
  cases c with
  | get b =>
    by_cases hb : b = a
    · subst hb
      exact h.get srv i op
    · exact h.frame srv i op (by simp [Cmd.writes]) (by simp [Cmd.writes]) (by simp [hb]) (by simp)
  | xrange b after n =>
    by_cases hb : b = a
    · subst hb
      exact h.xrange srv i op after n
    · exact h.frame srv i op (by simp [Cmd.writes]) (by simp [Cmd.writes]) (by simp) (by simp [hb])
  | set b id =>
    by_cases hb : b = a
    · subst hb
      obtain ⟨limit, hf⟩ := hc.set
      generalize hlog : Event.logOf hist i = l at hf
      generalize hset : Cmd.set b id = c at hf
      cases hf with
      | set cur es last hl =>
        cases hset
        exact h.set srv i op hlog hl
      | _ => cases hset
    · exact h.frame srv i op (by simp [Cmd.writes]) (by simpa [Cmd.writes] using Ne.symm hb) (by simp)
        (by simp)
  | xadd b fields ts expiresAt maxlen =>
    by_cases hb : b = a
    · subst hb
      exact h.xadd srv i op fields ts expiresAt maxlen _
    · exact h.frame srv i op (by simpa [Cmd.writes] using Ne.symm hb) (by simp [Cmd.writes]) (by simp)
        (by simp)
  | del ks => exact absurd hc.del.1 hop
  | expire k secs =>
    obtain ⟨kind, b, rfl⟩ := hc.expire
    exact h.frame srv i op (by simp [Cmd.writes]) (by simp [Cmd.writes]) (by simp) (by simp)
  | _ => exact h.frame srv i op (by simp [Cmd.writes]) (by simp [Cmd.writes]) (by simp) (by simp)

end

end

/-! ## Every run -/

theorem FetchEnds.delivers {a : PyStr} {limit : Int} {out : Except PyExn (List Entry)} {l : Log} {b : PyStr}
    {after : Option StreamId} {n : Nat} {es : List Entry} {e : Entry}
    (h : FetchEnds a limit out l) (hp : sent (.xrange b after n) es ∈ l) (he : e ∈ es) :
    ∃ es', out = .ok es' ∧
      (e ∈ es' ∨ ∃ now, sent .time now ∈ l ∧ e.expiresAt ≤ (now / 1000 : Nat)) := by
  cases h with
  | refused cur => simp at hp
  | empty cur =>
    simp only [sent, List.mem_cons, Sigma.mk.injEq, reduceCtorEq, false_and, List.not_mem_nil,
      or_false, false_or] at hp
    obtain ⟨hc, hp⟩ := hp
    cases hc
    cases hp
    cases he
  | page cur es' last now =>
    simp only [sent, List.mem_cons, Sigma.mk.injEq, reduceCtorEq, false_and, List.not_mem_nil,
      or_false, false_or] at hp
    obtain ⟨hc, hp⟩ := hp
    cases hc
    cases hp
    refine ⟨_, rfl, ?_⟩
    by_cases hexp : ((now / 1000 : Nat) : Int) < e.expiresAt
    · exact .inl (List.mem_filter.2 ⟨he, decide_eq_true hexp⟩)
    · exact .inr ⟨now, by simp, not_lt.1 hexp⟩

section
variable [Python] (cfg : Config) (srv : Server) {a : PyStr} {s₀ : Db} {w : Moment}

/-- Runs without the reaper. -/
theorem reach_covers_of {ok : Moment → Label Call Env → Prop}
    (h : (service cfg srv).Reach ok s₀ w) (hok : ∀ w op, ok w (.spawn op) → op ≠ .reapOnce)
    (hin : s₀.Permanent (.inbox a)) (hcur : s₀.keys (.cursor a) = none) : Covers a w.st w.hist := by
  refine Pool.reach_inv (Covers a) h (service_sends cfg srv) (.start hin hcur) ?_
    fun w e hI _ => hI.env e
  intro w i op cmd k hr hI _ hp hc
  obtain ⟨w', hspawn⟩ := hr.admitted i _ hp
  exact hI.command srv i (hok w' op hspawn) hc

theorem reach_covers (h : (service cfg srv).Reach MailRun s₀ w) (hin : s₀.Permanent (.inbox a))
    (hcur : s₀.keys (.cursor a) = none) : Covers a w.st w.hist := by
  refine reach_covers_of cfg srv h ?_ hin hcur
  rintro w op hspawn rfl
  exact hspawn

/-- However its remaining commands are answered, process `i` returns `e` unless it has
found it expired. -/
def Delivers (w : Moment) (i : Nat) (e : Entry) : Prop :=
  ∃ p, w.procs[i]? = some p ∧ p.prog.Ensures (fun _ _ => True) (fun out l =>
    ∃ es, out = .ok (.entries es) ∧
      (e ∈ es ∨ ∃ now, sent .time now ∈ l ∧ e.expiresAt ≤ (now / 1000 : Nat))) (w.log i)

/-- A process that has read past `a`'s inbox with SET is one of `a`'s fetches. -/
theorem fetch_of_readBy (h : (service cfg srv).Reach MailRun s₀ w) {i : Nat} {e : Entry}
    (hr : ReadBy a (w.log i) e) :
    ∃ p limit, w.procs[i]? = some p ∧ p.op = .fetchUnread a limit := by
  obtain ⟨after, n, es, id, -, -, hset⟩ := hr
  obtain ⟨ev, hev, rfl, hcmd⟩ := Event.mem_logOf_iff.1 hset
  obtain ⟨p, hp, hop⟩ := h.proc_of_mem_hist ev hev
  obtain ⟨l, hl⟩ := h.sends (service_sends cfg srv) ev hev
  obtain ⟨w', hok⟩ := h.admitted _ p hp
  rw [← hop, show ev.cmd = .set a id from congrArg Sigma.fst hcmd] at hl
  cases ho : p.op with
  | fetchUnread b limit =>
    rw [ho] at hl
    cases hl with
    | set => exact ⟨p, limit, hp, ho⟩
  | appendMessage => rw [ho] at hl; cases hl
  | _ => rw [ho] at hok; exact absurd hok (by simp [MailRun])

theorem delivers_of_readBy (h : (service cfg srv).Reach MailRun s₀ w) {i : Nat} {e : Entry}
    (hr : ReadBy a (w.log i) e) : Delivers w i e := by
  obtain ⟨p, limit, hp, hop⟩ := fetch_of_readBy cfg srv h hr
  obtain ⟨after, n, es, -, hpage, he, -⟩ := hr
  refine ⟨p, hp, ?_⟩
  have hens := Pool.reach_ensures (Φ := fun _ _ _ => True)
    (Q := fun op out l => ∀ b limit, op = .fetchUnread b limit →
      ∃ out', out = out'.map .entries ∧ FetchEnds b limit out' l) h (fun w op _ => ?_) i p hp
  · refine hens.extends.mono (fun _ _ _ => trivial) ?_
    rintro out l ⟨hQ, hsub⟩
    obtain ⟨out', rfl, hend⟩ := hQ a limit hop
    obtain ⟨es', rfl, hes⟩ := hend.delivers (hsub.subset hpage) he
    exact ⟨es', rfl, hes⟩
  · by_cases hf : ∃ b limit, op = .fetchUnread b limit
    · obtain ⟨b, limit, rfl⟩ := hf
      refine (Prog.ensures_map _ _ _).2
        ((fetchUnread_ensures b limit).mono (fun _ _ _ => trivial) ?_)
      intro out l hend b' limit' heq
      cases heq
      exact ⟨out, rfl, hend⟩
    · exact (Call.body_ensures cfg op).mono (fun _ _ _ => trivial)
        fun _ _ _ b limit heq => absurd ⟨b, limit, heq⟩ hf

/-- **No mail is skipped by the read cursor.**  Whatever the interleaving, an entry
at or below the stored cursor is on the page of a fetch of this inbox that has done
its SET, and that fetch returns the entry unless it has found it expired. -/
theorem cursor_skips_nothing (h : (service cfg srv).Reach MailRun s₀ w)
    (hin : s₀.Permanent (.inbox a)) (hcur : s₀.keys (.cursor a) = none) {c : StreamId}
    (hc : w.st.cursor a = some c) {e : Entry} (he : e ∈ w.st.inbox a) (hle : e.id ≤ c) :
    ∃ i p limit, w.procs[i]? = some p ∧ p.op = .fetchUnread a limit ∧ ReadBy a (w.log i) e ∧
      Delivers w i e := by
  obtain ⟨i, hr⟩ := ((reach_covers cfg srv h hin hcur).seen c (.inl hc)).2 e he hle
  obtain ⟨p, limit, hp, hop⟩ := fetch_of_readBy cfg srv h hr
  exact ⟨i, p, limit, hp, hop, hr, delivers_of_readBy cfg srv h hr⟩

end

/-- One append, then a fetch up to its SET. -/
def mailDemo : Moment :=
  (@service Python.plain Config.defaults Server.plain).follow (.start (.empty 5000))
    [.spawn (.appendMessage (lit "u/h/r/p/s") [] 1000 60), .step 0, .step 0,
      .spawn (.fetchUnread (lit "u/h/r/p/s") 20), .step 1, .step 1, .step 1]

theorem mailDemo_reach :
    (@service Python.plain Config.defaults Server.plain).Reach MailRun (.empty 5000) mailDemo := by
  refine Pool.Reach.follow .start ?_
  intro w l hl
  simp only [List.mem_cons, List.not_mem_nil, or_false] at hl
  rcases hl with rfl | rfl | rfl | rfl | rfl | rfl | rfl <;> simp [MailRun]

theorem cursor_skips_nothing_mailDemo : ∃ i p limit, mailDemo.procs[i]? = some p ∧
    p.op = .fetchUnread (lit "u/h/r/p/s") limit ∧
    ReadBy (lit "u/h/r/p/s") (mailDemo.log i) ⟨toLex (5000, 0), [], 5, 65⟩ ∧
    Delivers mailDemo i ⟨toLex (5000, 0), [], 5, 65⟩ := by
  have hin : mailDemo.st.inbox (lit "u/h/r/p/s") = [⟨toLex (5000, 0), [], 5, 65⟩] := rfl
  exact @cursor_skips_nothing Python.plain Config.defaults Server.plain (lit "u/h/r/p/s") (.empty 5000)
    mailDemo mailDemo_reach (fun _ hv => by cases hv) rfl (c := toLex (5000, 0)) rfl
    ⟨toLex (5000, 0), [], 5, 65⟩ (by rw [hin]; exact List.mem_singleton_self _) le_rfl

end Muster
