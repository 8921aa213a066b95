import Muster.FetchRace
import Muster.Posted

/-!
# What the fetch tool shows

A fetch takes a page of the inbox.  If its answer arrives, the agent reads a line for each
message of the page that has not expired by then; if it does not, the page is read by no one,
unless the request was cut off before its third command, which moves the cursor.  MAXLEN takes
unread mail as well, from the front.  What was unread at first and has arrived since is, in
order, these pages and what is unread at last (`mail_in_eq_mail_out`).
-/

namespace Muster

/-! ## Texts -/

def Message.line (m : Message) : PyStr :=
  lit "[" ++ m.ts ++ lit "] " ++ (if m.important = true then lit "❗ " else []) ++ lit "from " ++
    m.sender ++ (if m.subject = [] then [] else lit " [" ++ m.subject ++ lit "]") ++ lit ": " ++ m.body

/-- What the agent reads of its mail. -/
def listing (ms : List Message) : PyStr :=
  if ms = [] then lit "No unread messages."
  else lit "Unread messages (now marked read):\n" ++ (lit "\n").intercalate (ms.map Message.line)

/-- A line of the plugin's tool. -/
def Message.bullet (m : Message) : PyStr :=
  lit "• " ++ (if m.important = true then lit "❗ " else []) ++ lit "from " ++ m.sender ++
    (if m.subject = [] then [] else lit " [" ++ m.subject ++ lit "]") ++ lit ": " ++ m.body

/-- What the session reads of its mail. -/
def bullets (ms : List Message) : PyStr :=
  if ms = [] then lit "No unread messages." else (lit "\n").intercalate (ms.map Message.bullet)

section
variable [Python]

theorem mailLine_json (m : Message) : mailLine m.json = .ok m.line := by
  have hsubject : (Json.str m.subject).truthy = !(m.subject == []) := by
    cases m.subject <;> rfl
  simp +decide only [mailLine, Message.json, Relay.getOr, lookup_dict_cons, get_dict_cons, if_false,
    if_true, Option.getD_some, Json.truthy]
  unfold Message.line
  by_cases hs : m.subject = [] <;> simp [hs, Json.text]

theorem mailLines_json (ms : List Message) :
    (ms.map Message.json).mapM mailLine = .ok (ms.map Message.line) := by
  induction ms with
  | nil => rfl
  | cons m ms ih =>
    rw [List.map_cons, List.mapM_cons, mailLine_json, ih]
    rfl

/-- **The tool shows every message of an answer**, on a line of its own. -/
theorem fetchText_fetch (ms : List Message) : fetchText (Response.fetch ms).json = .ok (listing ms) := by
  have hitem : (Response.fetch ms).json.item "messages" = .ok (.arr (ms.map Message.json)) :=
    item_dict (by simp +decide only [lookup_dict_cons, if_false, if_true])
  unfold fetchText
  rw [hitem]
  cases ms with
  | nil => rfl
  | cons m ms =>
    show (((m :: ms).map Message.json).mapM mailLine >>= fun lines => _) = _
    rw [mailLines_json]
    rfl

end

section
variable [JsNumbers]

theorem mailLineJs_json (m : Message) : mailLineJs m.json = some m.bullet := by
  simp +decide only [mailLineJs, subjectJs, Message.json, Json.jsField, Json.template, lookup_dict_cons,
    get_dict_cons, if_false, if_true, Json.jsString]
  unfold Message.bullet
  by_cases hs : m.subject = [] <;> cases hi : m.important <;> simp [hs, Json.jsTruthy]

/-- The tool of the plugin does so too. -/
theorem fetchTextJs_fetch (ms : List Message) : fetchTextJs (Response.fetch ms).json = some (bullets ms) := by
  have hfield : (Response.fetch ms).json.jsField "messages" = .arr (ms.map Message.json) := by
    simp +decide only [Response.json, Json.jsField, get_dict_cons, if_false, if_true]
  have hlines : ∀ xs : List Message, (xs.map Message.json).mapM mailLineJs = some (xs.map Message.bullet) := by
    intro xs
    induction xs with
    | nil => rfl
    | cons m xs ih =>
      rw [List.map_cons, List.mapM_cons, mailLineJs_json, ih]
      rfl
  unfold fetchTextJs
  rw [hfield]
  cases ms with
  | nil => rfl
  | cons m ms =>
    show Option.map _ (((m :: ms).map Message.json).mapM mailLineJs) = _
    rw [hlines]
    rfl

end

/-! ## A fetch -/

/-- The cursor is set to the end of the page. -/
def Takes (srv : Server) (a : PyStr) (page : List Entry) (s t : Db) : Prop :=
  (page = [] ∧ t = s) ∨ ∃ n last, page = (s.unread a).take n ∧ page.getLast? = some last ∧
    t = (exec srv (.set a last.id) s).1

/-- No id handed out later will be below the cursor. -/
def Db.Bounded (s : Db) (a : PyStr) : Prop := ∀ c, s.cursor a = some c → c ≤ (s.stream a).last

section
variable {srv : Server} {a : PyStr} {page : List Entry} {s t : Db}

theorem Takes.unread (h : Takes srv a page s t) : s.unread a = page ++ t.unread a := by
  rcases h with ⟨rfl, rfl⟩ | ⟨n, last, rfl, hlast, rfl⟩
  · rfl
  · rw [unread_set srv s a n hlast, List.take_append_drop]

theorem Takes.bounded (h : Takes srv a page s t) (hs : s.Bounded a) : t.Bounded a := by
  rcases h with ⟨-, rfl⟩ | ⟨n, last, rfl, hlast, rfl⟩
  · exact hs
  · intro c hc
    rw [cursor_exec_set] at hc
    cases hc
    rw [stream_exec_other srv (by simp [Cmd.writes])]
    have hmem := List.mem_of_mem_take (List.mem_of_getLast? hlast)
    exact (s.stream a).le_last last (List.mem_of_mem_filter hmem)

theorem Takes.fetchUnread {limit : Int} (h : 1 ≤ limit) :
    Takes srv a (s.page a limit) s ((fetchUnread a limit).run (exec srv) s).2 := by
  rw [fetchUnread_run srv s a h]
  cases hl : (s.page a limit).getLast? with
  | none => exact .inl ⟨List.getLast?_eq_none_iff.1 hl, rfl⟩
  | some last => exact .inr ⟨_, last, rfl, hl, rfl⟩

theorem entriesPastCursor_cut (limit : Int) (n : Nat) : (entriesPastCursor a limit).cut (exec srv) n s = s := by
  cases n with
  | zero => rfl
  | succ n =>
    show (if limit < 1 then _ else _ : M (List Entry)).cut (exec srv) n s = s
    split
    · exact Prog.cut_throw (exec srv) n _ s
    · cases n with
      | zero => rfl
      | succ n => exact Prog.cut_ret (exec srv) n _ s

theorem entriesPastCursor_length {limit : Int} (h : 1 ≤ limit) :
    (entriesPastCursor a limit).length (exec srv) s = 2 := by
  show (if limit < 1 then _ else _ : M (List Entry)).length (exec srv) s + 1 = 2
  rw [if_neg (by omega)]
  rfl

/-- Cut off, a fetch has taken its page or nothing; nothing before its third command. -/
theorem fetchUnread_cut (limit : Int) (n : Nat) :
    ∃ page, Takes srv a page s ((fetchUnread a limit).cut (exec srv) n s) ∧ (page ≠ [] → 3 ≤ n) := by
  rcases Prog.cut_bind (exec srv) (entriesPastCursor a limit) _ s n with h | ⟨es, m, hes, hn, h⟩
  · refine ⟨[], .inl ⟨rfl, ?_⟩, by simp⟩
    unfold fetchUnread
    rw [h, entriesPastCursor_cut]
  · unfold fetchUnread
    rw [h]
    by_cases hlimit : limit < 1
    · have hrefused : ((entriesPastCursor a limit).run (exec srv) s).1 = .error .dataError := by
        show ((if limit < 1 then _ else _ : M (List Entry)).run (exec srv) s).1 = _
        rw [if_pos hlimit]
        rfl
      rw [hrefused] at hes
      cases hes
    · rw [entriesPastCursor_run srv s a (by omega)] at hes ⊢
      rw [entriesPastCursor_length (by omega)] at hn
      cases hes
      cases hl : (s.page a limit).getLast? with
      | none =>
        refine ⟨[], .inl ⟨rfl, ?_⟩, by simp⟩
        exact Prog.cut_ret (exec srv) m _ s
      | some last =>
        cases m with
        | zero => exact ⟨[], .inl ⟨rfl, rfl⟩, by simp⟩
        | succ m =>
          refine ⟨s.page a limit, .inr ⟨_, last, rfl, hl, ?_⟩, fun _ => by omega⟩
          cases m with
          | zero => rfl
          | succ m => exact Prog.cut_ret (exec srv) m _ _

end

section
variable [Python] {srv : Server} {sender : Address} {args : Args} {s t : Db}

/-- A fetch that is answered shows what is left of its page. -/
theorem opFetch_outcome {out : Except PyExn Response}
    (hrun : (opFetch sender args).run (exec srv) s = (out, t)) :
    (∃ e : PyExn, out = .error e ∧ t = s ∧ e.answer = ⟨500, none⟩) ∨
    ∃ page, out = .ok (.fetch ((unexpired s.sec page).map Message.of)) ∧ Takes srv sender.text page s t := by
  rw [opFetch_run_eq] at hrun
  cases hlimit : pyInt ((Json.get args "limit").or (.int 20)) with
  | error e =>
    rw [hlimit] at hrun
    cases hrun
    refine .inl ⟨e, rfl, rfl, ?_⟩
    unfold pyInt at hlimit
    split at hlimit <;> cases hlimit <;> rfl
  | ok n =>
    rw [hlimit] at hrun
    dsimp only at hrun
    by_cases h : min n 100 < 1
    · rw [fetchUnread_refused srv s sender.text h] at hrun
      cases hrun
      exact .inl ⟨_, rfl, rfl, rfl⟩
    · have htakes : Takes srv sender.text (s.page sender.text (min n 100)) s
          ((fetchUnread sender.text (min n 100)).run (exec srv) s).2 := .fetchUnread (by omega)
      rw [(fetchUnread_spec srv s sender.text (by omega)).1] at hrun
      cases hrun
      exact .inr ⟨_, rfl, htakes⟩

variable (srv sender args s) in
theorem opFetch_cut (n : Nat) :
    ∃ page, Takes srv sender.text page s ((opFetch sender args).cut (exec srv) n s) ∧ (page ≠ [] → 3 ≤ n) := by
  have hsame : ∃ page, Takes srv sender.text page s s ∧ (page ≠ [] → 3 ≤ n) :=
    ⟨[], .inl ⟨rfl, rfl⟩, by simp⟩
  unfold opFetch
  cases pyInt ((Json.get args "limit").or (.int 20)) with
  | error e =>
    show ∃ page, Takes srv sender.text page s ((Prog.throw e : M Response).cut (exec srv) n s) ∧ _
    rw [Prog.cut_throw]
    exact hsame
  | ok limit =>
    have hcut : Prog.cut (exec srv) n (fetchUnread sender.text (min limit 100) >>= fun msgs =>
        (pure (Response.fetch (msgs.map Message.of)) : M Response)) s =
        (fetchUnread sender.text (min limit 100)).cut (exec srv) n s := by
      rcases Prog.cut_bind (exec srv) (fetchUnread sender.text (min limit 100))
        (fun msgs => (pure (Response.fetch (msgs.map Message.of)) : M Response)) s n with
        h | ⟨es, m, hes, hn, h⟩
      · exact h
      · rw [h, Prog.cut_length (exec srv) (fetchUnread sender.text (min limit 100)) s (n := n) (by omega)]
        exact Prog.cut_ret (exec srv) m _ _
    show ∃ page, Takes srv sender.text page s (Prog.cut (exec srv) n
      (fetchUnread sender.text (min limit 100) >>= _) s) ∧ _
    rw [hcut]
    exact fetchUnread_cut (min limit 100) n

end

/-! ## Steps -/

/-- The client speaks for the agent `a`. -/
def Client.Is (c : Client) (a : PyStr) : Prop :=
  ∃ ident sender, c.resolved = .ok ident ∧ parseAgentHeader ident.userId c.header = .ok sender ∧
    sender.text = a

/-- A fetch of `a`'s whose page the tool does not show: its answer is lost, but not before the
cursor is set, or it is another program's. -/
inductive Unseen (a : PyStr) : ToolStep → Prop
  | lost {c : Client} {args : Args} {name : PyStr} {n : Nat} (ha : c.Is a) (hn : 3 ≤ n) :
    Unseen a (.fetch c args (.lost name n))
  | elsewhere {op : Call} (hop : FetchOf a op) : Unseen a (.call op)

/-- What a step takes off the unread mail of `a` in `s`, and what becomes of it. -/
inductive StepPage (a : PyStr) (s : Db) : ToolStep → Option PyStr → List Entry → Prop
  | idle {x : ToolStep} {text : Option PyStr} (htext : ∀ c args, x = .fetch c args .answered → c.Is a →
    text = some (lit "non-JSON answer (500)")) : StepPage a s x text []
  | shown {c : Client} {args : Args} {page : List Entry} (ha : c.Is a) :
    StepPage a s (.fetch c args .answered) (some (listing ((unexpired s.sec page).map Message.of))) page
  | unseen {x : ToolStep} {text : Option PyStr} {page : List Entry} (hx : Unseen a x) :
    StepPage a s x text page
  | evicted {n : Nat} {page : List Entry} : StepPage a s (.env (.evict a n)) none page

section
variable [Python] {cfg : Config} {srv : Server} {a : PyStr} {s : Db}

/-- A fetch by the tool. -/
theorem fetch_takes {c : Client} (ha : c.Is a) (args : Args) (fate : Fate) :
    ∃ page, StepPage a s (.fetch c args fate) ((ToolStep.fetch c args fate).run cfg srv s).1 page ∧
      Takes srv a page s ((ToolStep.fetch c args fate).run cfg srv s).2 := by
  obtain ⟨ident, sender, hident, hsender, rfl⟩ := ha
  have his : c.Is sender.text := ⟨ident, sender, hident, hsender, rfl⟩
  have hdispatch : ∀ args, dispatch cfg ident sender args (lit "fetch") = opFetch sender args := by
    intro args
    unfold dispatch
    rw [if_neg (by decide), if_pos rfl]
  unfold ToolStep.run callFetch callTool callBus serve serveCut
  dsimp only [fetchRequest]
  rw [hident]
  cases fate with
  | lost name n =>
    dsimp only
    rw [rpcRoute_client, rpc, hsender]
    dsimp only
    rw [hdispatch]
    obtain ⟨page, htakes, hn⟩ := opFetch_cut srv sender
      (dict [("limit", (args.lookup (lit "limit")).getD (.int 20))]) s n
    refine ⟨page, ?_, htakes⟩
    by_cases hpage : page = []
    · rw [hpage]
      exact .idle fun _ _ h => by cases h
    · exact .unseen (.lost his (hn hpage))
  | answered =>
    dsimp only
    rw [rpcRoute_client, rpc, hsender]
    dsimp only
    rw [hdispatch]
    obtain ⟨out, t, hrun⟩ : ∃ out t, (opFetch sender (dict [("limit",
        (args.lookup (lit "limit")).getD (.int 20))])).run (exec srv) s = (out, t) := ⟨_, _, rfl⟩
    rw [hrun]
    rcases opFetch_outcome hrun with ⟨e, rfl, rfl, he⟩ | ⟨page, rfl, htakes⟩
    · refine ⟨[], .idle fun _ _ _ _ => ?_, .inl ⟨rfl, rfl⟩⟩
      show shimText c.url (clientRpc e.answer >>= fetchText) = _
      rw [he]
      exact shimText_stopped c.url fetchText
    · refine ⟨page, ?_, htakes⟩
      have htext : shimText c.url (clientRpc (answerOf (.ok (.fetch ((unexpired s.sec page).map
          Message.of)))) >>= fetchText) = some (listing ((unexpired s.sec page).map Message.of)) := by
        show shimText c.url (fetchText (Response.fetch _).json) = _
        rw [fetchText_fetch]
        rfl
      rw [htext]
      exact .shown his

variable (cfg srv s) in
/-- A fetch by another program. -/
theorem call_takes {op : Call} (hop : FetchOf a op) :
    ∃ page, Takes srv a page s ((ToolStep.call op).run cfg srv s).2 := by
  obtain ⟨ident, header, args, sender, rfl, hsender, rfl⟩ := hop
  have hrpc : rpc cfg ident header (lit "fetch") args = opFetch sender args := by
    unfold rpc dispatch
    rw [hsender]
    dsimp only
    rw [if_neg (by decide), if_pos rfl]
  show ∃ page, Takes srv sender.text page s
    ((Outcome.response <$> rpc cfg ident header (lit "fetch") args : M Outcome).run (exec srv) s).2
  rw [Prog.run_map, hrpc]
  obtain ⟨out, t, hrun⟩ : ∃ out t, (opFetch sender args).run (exec srv) s = (out, t) := ⟨_, _, rfl⟩
  rw [hrun]
  rcases opFetch_outcome hrun with ⟨e, -, rfl, -⟩ | ⟨page, -, htakes⟩
  · exact ⟨[], .inl ⟨rfl, rfl⟩⟩
  · exact ⟨page, htakes⟩

omit [Python] in
/-- What is no fetch of `a`'s leaves its cursor. -/
theorem Call.Sends.not_cursor {op : Call} {l : Log} {c : Cmd} (h : op.Sends cfg l c) (hop : op.served)
    (hno : ¬ FetchOf a op) : .cursor a ∉ c.writes := by
  intro hw
  obtain ⟨id, rfl⟩ := h.writes_cursor (by rintro rfl; exact hop) hw
  cases op with
  | rpc ident header op args =>
    obtain ⟨sender, hsender, h⟩ := h
    obtain ⟨limit, rfl, hfetch⟩ | h | ⟨_, h⟩ | h | ⟨_, _, _, _, _, h⟩ | ⟨_, _, h⟩ := h.cases_fetch
    · refine hno ⟨ident, header, args, sender, rfl, hsender, ?_⟩
      cases hfetch
      rfl
    all_goals cases h
  | registerAgent | touchPresence => obtain h | ⟨_, h⟩ := h <;> cases h
  | clearPresence => cases h
  | unreadCount => cases h
  | _ => cases hop

/-- The step asks for the mail of `a`. -/
def ToolStep.Fetches (a : PyStr) (x : ToolStep) : Prop :=
  (∃ c args fate, x = .fetch c args fate ∧ c.Is a) ∨ ∃ op, x = .call op ∧ FetchOf a op

variable (srv) in
/-- A step that asks for the mail of others leaves the cursor of `a`. -/
theorem step_cursor {x : ToolStep} (hx : x.Sound cfg) (hno : ¬ x.Fetches a) (hcur : s.Permanent (.cursor a)) :
    (x.run cfg srv s).2.cursor a = s.cursor a := by
  have hexec : ∀ op : Call, op.served → ¬ FetchOf a op → ∀ l c u, op.Sends cfg l c →
      u.now = s.now ∧ u.keys (.cursor a) = s.keys (.cursor a) →
      (exec srv c u).1.now = s.now ∧ (exec srv c u).1.keys (.cursor a) = s.keys (.cursor a) :=
    fun op hop hfetch l c u hc hu =>
      ⟨(exec_now srv c u).trans hu.1, (exec_other srv c u (hc.not_cursor hop hfetch)).trans hu.2⟩
  have hcongr : ∀ t : Db, t.now = s.now ∧ t.keys (.cursor a) = s.keys (.cursor a) → t.cursor a = s.cursor a :=
    fun t h => cursor_congr h.1 h.2
  have htool : ∀ {c : Client} {op : String} {request : Except BusExn Args}
      {render : Json → Except BusExn PyStr} {fate : Fate},
      (∀ ident args, c.resolved = .ok ident → ¬ FetchOf a (.rpc ident c.header (lit op) args)) →
      (callTool cfg srv c.resolved c.url c.header op request render fate s).2.cursor a = s.cursor a :=
    fun hnot => hcongr _ (callTool_keeps
      (I := fun u => u.now = s.now ∧ u.keys (.cursor a) = s.keys (.cursor a)) _
      (fun ident hident args => hexec _ trivial (hnot ident args hident)) ⟨rfl, rfl⟩)
  have hother : ∀ {op : String} {ident : Identity Member} {header : PyStr} {args : Args},
      lit op ≠ lit "fetch" → ¬ FetchOf a (.rpc ident header (lit op) args) := by
    rintro op ident header args hop ⟨_, _, _, _, h, -⟩
    exact hop (Call.rpc.inj h).2.2.1
  cases x with
  | chat c args fate => exact htool fun _ _ _ => hother (by decide)
  | fetch c args fate =>
    refine htool ?_
    rintro ident _ hident ⟨_, _, _, sender, h, hsender, hsa⟩
    cases h
    exact hno (.inl ⟨c, args, fate, rfl, ident, sender, hident, hsender, hsa⟩)
  | announce c args fate => exact htool fun _ _ _ => hother (by decide)
  | call op =>
    exact hcongr _ (body_run_keeps srv s cfg op (I := fun u => u.now = s.now ∧
      u.keys (.cursor a) = s.keys (.cursor a)) (hexec op hx.1 fun h => hno (.inr ⟨op, rfl, h⟩)) ⟨rfl, rfl⟩)
  | env e => exact cursor_env hcur e

variable (cfg srv s) in
/-- A step that asks for the mail of `a` takes a page of it. -/
theorem step_takes {x : ToolStep} (hx : x.Fetches a) :
    ∃ page, StepPage a s x (x.run cfg srv s).1 page ∧ Takes srv a page s (x.run cfg srv s).2 := by
  rcases hx with ⟨c, args, fate, rfl, ha⟩ | ⟨op, rfl, hop⟩
  · exact fetch_takes ha args fate
  · obtain ⟨page, htakes⟩ := call_takes cfg srv s hop
    exact ⟨page, .unseen (.elsewhere hop), htakes⟩

omit [Python] in
/-- Mail that arrives is unread. -/
theorem unread_append {t : Db} {new : List Entry} (hcur : t.cursor a = s.cursor a) (hb : s.Bounded a)
    (hadded : t.inbox a = s.inbox a ++ new) (hfresh : ∀ e ∈ new, (s.stream a).last < e.id) :
    t.unread a = s.unread a ++ new := by
  have hpast : ∀ e ∈ new, Stream.past (s.cursor a) e.id = true := by
    intro e he
    cases hc : s.cursor a with
    | none => rfl
    | some c => exact decide_eq_true ((hb c hc).trans_lt (hfresh e he))
  unfold Db.unread
  rw [hadded, hcur, List.filter_append, List.filter_eq_self.2 hpast]

omit [Python] in
/-- What is evicted goes off the front of the unread mail. -/
theorem unread_drop {t : Db} {n : Nat} (hcur : t.cursor a = s.cursor a)
    (hinbox : t.inbox a = (s.inbox a).drop n) :
    s.unread a = ((s.inbox a).take n).filter (fun e => Stream.past (s.cursor a) e.id) ++ t.unread a := by
  unfold Db.unread
  rw [hcur, hinbox, ← List.filter_append, List.take_append_drop]

/-- Mail arrives with ids that are handed out in order. -/
structure Ordered (a : PyStr) (s t : Db) (new : List Entry) : Prop where
  sorted : new.Pairwise fun e e' => e.id < e'.id
  fresh : ∀ e ∈ new, (s.stream a).last < e.id ∧ e.id ≤ (t.stream a).last
  last : (s.stream a).last ≤ (t.stream a).last

omit [Python] in
theorem Ordered.nothing {t : Db} (h : (t.stream a).last = (s.stream a).last) : Ordered a s t [] :=
  ⟨.nil, List.forall_mem_nil _, h.ge⟩

omit [Python] in
/-- What comes in at one inbox in a step. -/
theorem StepPosts.arrives {x : ToolStep} {text : Option PyStr} {t : Db} (h : StepPosts x text s t)
    (a : PyStr) : ∃ new, Ordered a s t new ∧
      (t.inbox a = s.inbox a ++ new ∨
        new = [] ∧ ∃ n, x = .env (.evict a n) ∧ t.inbox a = (s.inbox a).drop n) := by
  have hnothing : t.stream a = s.stream a → ∃ new, Ordered a s t new ∧ (t.inbox a = s.inbox a ++ new ∨
      new = [] ∧ ∃ n, x = .env (.evict a n) ∧ t.inbox a = (s.inbox a).drop n) := by
    intro hsame
    refine ⟨[], .nothing (congrArg Stream.last hsame), .inl ?_⟩
    rw [List.append_nil]
    exact congrArg Stream.entries hsame
  cases h with
  | silent _ hsame => exact hnothing (hsame a)
  | @evicted b n hx _ hstream =>
    by_cases ha : a = b
    · subst ha
      have hown := hstream a
      rw [if_pos rfl] at hown
      have hlast : (t.stream a).last = (s.stream a).last := by
        rw [hown]
        rfl
      exact ⟨[], .nothing hlast, .inr ⟨rfl, n, hx, congrArg Stream.entries hown⟩⟩
    · exact hnothing ((hstream a).trans (if_neg ha))
  | @posted c args fate b e _ _ _ hothers hadded hfresh =>
    by_cases ha : a = b
    · subst ha
      have hmem : e ∈ t.inbox a := by
        rw [hadded]
        exact List.mem_append_right _ (List.mem_singleton_self e)
      have hle : e.id ≤ (t.stream a).last := Stream.le_last _ e hmem
      exact ⟨[e], ⟨List.pairwise_singleton _ _, List.forall_mem_singleton.2 ⟨hfresh, hle⟩,
        hfresh.le.trans hle⟩, .inl hadded⟩
    · exact hnothing (hothers a ha)

variable (srv) in
/-- **One step**: what arrives is added at the end of the unread mail, what is fetched or evicted is
taken off its beginning. -/
theorem step_page {x : ToolStep} (hx : x.Sound cfg) (hkept : s.Kept) (hcur : s.Permanent (.cursor a))
    (hb : s.Bounded a) : ∃ new page, StepPage a s x (x.run cfg srv s).1 page ∧
      Arrives a s (x.run cfg srv s).2 new ∧ Ordered a s (x.run cfg srv s).2 new ∧
      ((∀ n, x ≠ .env (.evict a n)) → (x.run cfg srv s).2.inbox a = s.inbox a ++ new) ∧
      s.unread a ++ new = page ++ (x.run cfg srv s).2.unread a ∧ (x.run cfg srv s).2.Bounded a := by
  have hposts := step_posts srv hx hkept
  by_cases hfetches : x.Fetches a
  · obtain ⟨page, hpage, htakes⟩ := step_takes cfg srv s hfetches
    have hsame : (x.run cfg srv s).2.stream a = s.stream a := by
      cases hposts with
      | silent _ hsame => exact hsame a
      | evicted henv =>
        subst henv
        rcases hfetches with ⟨_, _, _, h, -⟩ | ⟨_, h, -⟩ <;> cases h
      | posted hchat =>
        subst hchat
        rcases hfetches with ⟨_, _, _, h, -⟩ | ⟨_, h, -⟩ <;> cases h
    have hinbox : (x.run cfg srv s).2.inbox a = s.inbox a ++ [] := by
      rw [List.append_nil]
      exact congrArg Stream.entries hsame
    refine ⟨[], page, hpage, .inl hinbox, .nothing (congrArg Stream.last hsame), fun _ => hinbox, ?_,
      htakes.bounded hb⟩
    rw [List.append_nil]
    exact htakes.unread
  · have hsame := step_cursor srv hx hfetches hcur
    obtain ⟨new, hordered, harrives⟩ := hposts.arrives a
    have hbounded : (x.run cfg srv s).2.Bounded a := by
      intro c hc
      rw [hsame] at hc
      exact (hb c hc).trans hordered.last
    rcases harrives with hadded | ⟨rfl, n, rfl, hdrop⟩
    · exact ⟨new, [], .idle fun c args h ha => absurd (.inl ⟨c, args, _, h, ha⟩) hfetches, .inl hadded,
        hordered, fun _ => hadded,
        (unread_append hsame hb hadded fun e he => (hordered.fresh e he).1).symm, hbounded⟩
    · refine ⟨[], ((s.inbox a).take n).filter (fun e => Stream.past (s.cursor a) e.id), .evicted,
        .inr ⟨rfl, n, hdrop⟩, hordered, fun hno => absurd rfl (hno n), ?_, hbounded⟩
      rw [List.append_nil]
      exact unread_drop hsame hdrop

end

/-! ## Runs -/

section
variable [Python]

end

/-- The agent of `busyTarget`, with the key of `devClient`. -/
def readClient : Client := ⟨.ok ⟨lit "u", []⟩, lit "http://x", lit "h/r/p/x"⟩

/-- Nobody has fetched. -/
theorem busyStore_cursor (a : PyStr) : busyStore.Permanent (.cursor a) ∧ busyStore.Bounded a := by
  have hnone : busyStore.keys (.cursor a) = none := rfl
  constructor
  · intro v hv
    rw [hnone] at hv
    cases hv
  · intro c hc
    rw [Db.cursor, Keyspace.get, Keyspace.look, hnone] at hc
    cases hc

end Muster
