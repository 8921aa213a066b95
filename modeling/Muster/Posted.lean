import Muster.Delivered

/-!
# What the tools report over a run

Any number of clients, whose calls may be lost anywhere on their way.  What has been added
to the inboxes are the chats of some of their calls, in order, and of no call more than one.
Among them is every chat that was reported as delivered, at the address and under the id of
the report; a chat that was answered otherwise is not (`reports_account_for_mail`).  What
leaves an inbox is what MAXLEN evicts, from its front.
-/

namespace Muster

/-- A client, and what the server makes of its key. -/
structure Client where
  resolved : Except AuthExn (Identity Member)
  url : PyStr
  header : PyStr

inductive ToolStep where
  | chat (c : Client) (args : Args) (fate : Fate)
  | fetch (c : Client) (args : Args) (fate : Fate)
  | announce (c : Client) (args : Args) (fate : Fate)
  /-- whatever else the service does -/
  | call (op : Call)
  /-- the clock, and evictions -/
  | env (e : Env)

/-- What the agent reads, and what is left on the server. -/
def ToolStep.run [Python] (cfg : Config) (srv : Server) : ToolStep → Db → Option PyStr × Db
  | .chat c args fate, s => callChat cfg srv c.resolved c.url c.header args fate s
  | .fetch c args fate, s => callFetch cfg srv c.resolved c.url c.header args fate s
  | .announce c args fate, s => callAnnounce cfg srv c.resolved c.url c.header args fate s
  | .call op, s => (none, ((op.body cfg).run (exec srv) s).2)
  | .env e, s => (none, e.apply s)

def runTools [Python] (cfg : Config) (srv : Server) : List ToolStep → Db → List (Option PyStr) × Db
  | [], s => ([], s)
  | x :: xs, s =>
    let r := x.run cfg srv s
    let rest := runTools cfg srv xs r.2
    (r.1 :: rest.1, rest.2)

/-- The clients' keys are resolved by the server; chats are sent by the tool only. -/
def ToolStep.Sound [Python] (cfg : Config) : ToolStep → Prop
  | .chat c _ _ => Resolves cfg c.resolved
  | .fetch c _ _ => Resolves cfg c.resolved
  | .announce c _ _ => Resolves cfg c.resolved
  | .call op => op.served ∧ ∀ ident header args, op ≠ .rpc ident header (lit "chat") args
  | .env _ => True

def ReportsDelivery (text : PyStr) : Prop := lit "Delivered to " <+: text

/-- The chat of a call, as an entry. -/
def Posts (c : Client) (args : Args) (e : Entry) : Prop :=
  ∃ ident sender now, c.resolved = .ok ident ∧ parseAgentHeader ident.userId c.header = .ok sender ∧
    Sent.of e = ⟨e.id, sender.text, (Json.get args "body").asStr, (Json.get args "subject").asStr,
      (Json.get args "important").truthy, now⟩

/-- Mail comes in at the end of the inbox of `a`, or some is evicted from its front. -/
def Arrives (a : PyStr) (s t : Db) (new : List Entry) : Prop :=
  t.inbox a = s.inbox a ++ new ∨ new = [] ∧ ∃ n, t.inbox a = (s.inbox a).drop n

/-- The message is added to the inbox of `a`, and none to another. -/
structure Adds (a : PyStr) (e : Entry) (s t : Db) : Prop where
  added : t.inbox a = s.inbox a ++ [e]
  others : ∀ b, b ≠ a → t.inbox b = s.inbox b

/-- The entries that a run from `s` adds, with their inboxes. -/
inductive Posted [Python] (cfg : Config) (srv : Server) :
    Db → List ToolStep → List (PyStr × Entry) → Prop
  | nil {s : Db} : Posted cfg srv s [] []
  | silent {s : Db} {x : ToolStep} {xs : List ToolStep} {posts : List (PyStr × Entry)}
    (htext : ∀ t, (x.run cfg srv s).1 = some t → ¬ ReportsDelivery t)
    (hinbox : ∀ a, Arrives a s (x.run cfg srv s).2 [])
    (hrest : Posted cfg srv (x.run cfg srv s).2 xs posts) : Posted cfg srv s (x :: xs) posts
  | delivered {s : Db} {c : Client} {args : Args} {a : PyStr} {status : Status} {e : Entry}
    {xs : List ToolStep} {posts : List (PyStr × Entry)} (he : Posts c args e)
    (htext : ((ToolStep.chat c args .answered).run cfg srv s).1 = some (deliveryReport a status e.id))
    (hadds : Adds a e s ((ToolStep.chat c args .answered).run cfg srv s).2)
    (hrest : Posted cfg srv ((ToolStep.chat c args .answered).run cfg srv s).2 xs posts) :
    Posted cfg srv s (.chat c args .answered :: xs) ((a, e) :: posts)
  | unheard {s : Db} {c : Client} {args : Args} {name t a : PyStr} {n : Nat} {e : Entry}
    {xs : List ToolStep} {posts : List (PyStr × Entry)} (he : Posts c args e)
    (htext : ((ToolStep.chat c args (.lost name n)).run cfg srv s).1 = some t)
    (hno : ¬ ReportsDelivery t) (hadds : Adds a e s ((ToolStep.chat c args (.lost name n)).run cfg srv s).2)
    (hrest : Posted cfg srv ((ToolStep.chat c args (.lost name n)).run cfg srv s).2 xs posts) :
    Posted cfg srv s (.chat c args (.lost name n) :: xs) ((a, e) :: posts)

/-- Those of one inbox. -/
def postsTo (a : PyStr) (posts : List (PyStr × Entry)) : List Entry :=
  (posts.filter (·.1 = a)).map (·.2)

/-! ## Texts -/

theorem not_reportsDelivery {c : CodePoint} {rest : PyStr} (h : c ≠ 68) : ¬ ReportsDelivery (c :: rest) := by
  rintro ⟨t, ht⟩
  exact h (List.cons.inj ht).1.symm

theorem not_reportsDelivery_of_refusing {t : PyStr} (h : refusing t = true) : ¬ ReportsDelivery t := by
  cases t with
  | nil => cases h
  | cons c t =>
    refine not_reportsDelivery ?_
    rintro rfl
    cases h

/-- Raised by the client itself. -/
def BusExn.Own (e : BusExn) : Prop := ∃ name, e = .other name

theorem item_own {j : Json} {key : String} {e : BusExn} (h : j.item key = .error e) : e.Own := by
  unfold Json.item at h
  split at h
  · split at h
    · cases h
    · cases h
      exact ⟨_, rfl⟩
  · cases h
    exact ⟨_, rfl⟩

theorem mailLines_own [Python] {ms : List Json} {e : BusExn} (h : ms.mapM mailLine = .error e) : e.Own := by
  induction ms with
  | nil => cases h
  | cons m ms ih =>
    rw [List.mapM_cons] at h
    cases hm : mailLine m with
    | error e' =>
      rw [hm] at h
      cases h
      unfold mailLine at hm
      split at hm
      · cases hm
      · cases hm
        exact ⟨_, rfl⟩
    | ok line =>
      rw [hm] at h
      cases hms : ms.mapM mailLine with
      | error e' =>
        rw [hms] at h
        cases h
        exact ih hms
      | ok lines =>
        rw [hms] at h
        cases h

/-- What a tool makes of an answer: no report of a delivery, and an exception of its own. -/
structure Reads (render : Json → Except BusExn PyStr) : Prop where
  text : ∀ j t, render j = .ok t → ¬ ReportsDelivery t
  own : ∀ j e, render j = .error e → e.Own

theorem reads_fetch [Python] : Reads fetchText where
  text := by
    intro j t h
    unfold fetchText at h
    cases hmsgs : j.item "messages" with
    | error e =>
      rw [hmsgs] at h
      cases h
    | ok msgs =>
      rw [hmsgs] at h
      dsimp only [bind, Except.bind] at h
      split at h
      · split at h
        · next ms _ =>
          cases hlines : ms.mapM mailLine with
          | error e =>
            rw [hlines] at h
            cases h
          | ok lines =>
            rw [hlines] at h
            cases h
            exact not_reportsDelivery (c := 85) (by decide)
        · cases h
        · cases h
        · cases h
      · cases h
        exact not_reportsDelivery (c := 78) (by decide)
  own := by
    intro j e h
    unfold fetchText at h
    cases hmsgs : j.item "messages" with
    | error e' =>
      rw [hmsgs] at h
      cases h
      exact item_own hmsgs
    | ok msgs =>
      rw [hmsgs] at h
      dsimp only [bind, Except.bind] at h
      split at h
      · split at h
        · next ms _ =>
          cases hlines : ms.mapM mailLine with
          | error e' =>
            rw [hlines] at h
            cases h
            exact mailLines_own hlines
          | ok lines =>
            rw [hlines] at h
            cases h
        · cases h
          exact ⟨_, rfl⟩
        · cases h
          exact ⟨_, rfl⟩
        · cases h
          exact ⟨_, rfl⟩
      · cases h

theorem reads_announce [Python] : Reads announceText where
  text := by
    intro j t h
    unfold announceText at h
    cases hn : j.item "recipients" with
    | error e =>
      rw [hn] at h
      cases h
    | ok n =>
      rw [hn] at h
      cases h
      exact not_reportsDelivery (c := 65) (by decide)
  own := by
    intro j e h
    unfold announceText at h
    cases hn : j.item "recipients" with
    | error e' =>
      rw [hn] at h
      cases h
      exact item_own hn
    | ok n =>
      rw [hn] at h
      cases h

theorem announceRequest_own {args : Args} {e : BusExn} (h : announceRequest args = .error e) : e.Own := by
  unfold announceRequest at h
  cases hscope : (Json.obj args).item "scope" with
  | error e' =>
    rw [hscope] at h
    cases h
    exact item_own hscope
  | ok scope =>
    cases hproject : (Json.obj args).item "project" with
    | error e' =>
      rw [hscope, hproject] at h
      cases h
      exact item_own hproject
    | ok project =>
      cases hbody : (Json.obj args).item "body" with
      | error e' =>
        rw [hscope, hproject, hbody] at h
        cases h
        exact item_own hbody
      | ok body =>
        rw [hscope, hproject, hbody] at h
        cases h

section
variable [Python] {cfg : Config} {srv : Server} {resolved : Except AuthExn (Identity Member)}

theorem shimText_own (url : PyStr) {e : BusExn} (h : e.Own) :
    ∃ t, shimText url (.error e) = some t ∧ ¬ ReportsDelivery t := by
  obtain ⟨name, rfl⟩ := h
  obtain ⟨t, ht, hrefusing⟩ := offline_refusing url name
  exact ⟨t, ht, not_reportsDelivery_of_refusing hrefusing⟩

/-- The tools that deliver nothing do not say they have. -/
theorem callTool_text (hres : Resolves cfg resolved) (url header : PyStr) (op : String)
    {request : Except BusExn Args} (hrequest : ∀ e, request = .error e → e.Own)
    {render : Json → Except BusExn PyStr} (hrender : Reads render) (fate : Fate) (s : Db) :
    ∀ t, (callTool cfg srv resolved url header op request render fate s).1 = some t →
      ¬ ReportsDelivery t := by
  have hown : ∀ e : BusExn, e.Own → ∀ t, shimText url (.error e) = some t → ¬ ReportsDelivery t := by
    intro e he t ht
    obtain ⟨t', ht', hno⟩ := shimText_own url he
    rw [ht] at ht'
    cases ht'
    exact hno
  intro t ht
  unfold callTool at ht
  cases request with
  | error e => exact hown e (hrequest e rfl) t ht
  | ok args =>
    dsimp only at ht
    cases fate with
    | lost name n => exact hown _ ⟨name, rfl⟩ t ht
    | answered =>
      rcases serve_refusal cfg srv hres header (some (.obj (dict [("op", .str (lit op)),
        ("args", .obj args)]))) s with ⟨r, hr⟩ | hr
      · unfold callBus at ht
        dsimp only at ht
        rw [hr] at ht
        replace ht : shimText url (render r.json) = some t := ht
        cases hrendered : render r.json with
        | ok text =>
          rw [hrendered] at ht
          cases ht
          exact hrender.text _ _ hrendered
        | error e =>
          rw [hrendered] at ht
          exact hown e (hrender.own _ _ hrendered) t ht
      · obtain ⟨t', ht', hrefusing⟩ := shimText_refuses hr url render
        replace ht : shimText url (clientRpc _ >>= render) = some t := ht
        rw [ht'] at ht
        cases ht
        exact not_reportsDelivery_of_refusing hrefusing

/-! ## The server -/

/-- What every command of the request keeps is kept, whether its answer comes or not. -/
theorem callBus_keeps {I : Db → Prop} {header : PyStr} {op : String} {args : Args} (fate : Fate) {s : Db}
    (hexec : ∀ ident, resolved = .ok ident → ∀ l c u,
      (Call.rpc ident header (lit op) args).Sends cfg l c → I u → I (exec srv c u).1) (hs : I s) :
    I (callBus cfg srv resolved header op args fate s).2 := by
  cases resolved with
  | error e => cases fate <;> exact hs
  | ok ident =>
    have hensures := rpc_ensures cfg ident header (lit op) args
    cases fate with
    | answered =>
      show I ((rpcRoute cfg ident header _).run (exec srv) s).2
      rw [rpcRoute_client]
      exact Prog.run_keeps (exec srv) (hexec ident rfl) hensures hs
    | lost name n =>
      show I ((rpcRoute cfg ident header _).cut (exec srv) n s)
      rw [rpcRoute_client]
      exact Prog.cut_keeps (exec srv) (hexec ident rfl) hensures hs n

theorem callTool_keeps {I : Db → Prop} {url header : PyStr} {op : String} {request : Except BusExn Args}
    {render : Json → Except BusExn PyStr} (fate : Fate) {s : Db}
    (hexec : ∀ ident, resolved = .ok ident → ∀ args l c u,
      (Call.rpc ident header (lit op) args).Sends cfg l c → I u → I (exec srv c u).1) (hs : I s) :
    I (callTool cfg srv resolved url header op request render fate s).2 := by
  unfold callTool
  cases request with
  | error e => exact hs
  | ok args => exact callBus_keeps fate (fun ident h => hexec ident h args) hs

omit [Python] in
/-- Calls that are no chats append nothing. -/
theorem Call.Sends.not_inbox {op : Call} {l : Log} {c : Cmd} (h : op.Sends cfg l c) (hop : op.served)
    (hchat : ∀ ident header args, op ≠ .rpc ident header (lit "chat") args) (a : PyStr) :
    .inbox a ∉ c.writes := by
  cases op with
  | rpc ident header op args =>
    obtain ⟨sender, -, h⟩ := h
    cases h with
    | chat hop => exact absurd (hop ▸ rfl) (hchat ident header args)
    | fetch limit hop h => cases h <;> simp [Cmd.writes]
    | roster hop h => cases c <;> simp_all [Cmd.ReadsDirectory, Cmd.writes]
    | announce hop h =>
      cases h with
      | directory h => cases c <;> simp_all [Cmd.ReadsDirectory, Cmd.writes]
      | rate h => cases c <;> simp_all [RateSends, Cmd.writes]
      | publish => simp [Cmd.writes]
  | registerAgent | touchPresence => obtain rfl | ⟨_, rfl⟩ := h <;> simp [Cmd.writes]
  | clearPresence =>
    obtain rfl := h
    simp [Cmd.writes]
  | unreadCount => cases h <;> simp [Cmd.writes]
  | _ => cases hop

omit [Python] in
theorem SameInboxes.stream {s t : Db} (h : SameInboxes s t) (hnow : t.now = s.now) (a : PyStr) :
    t.stream a = s.stream a := stream_congr hnow (h a)

/-- No inbox goes by itself. -/
def Db.Kept (s : Db) : Prop := ∀ a, s.Permanent (.inbox a)

omit [Python] in
theorem Db.Permanent.sends {op : Call} {l : Log} {c : Cmd} {u : Db} {k : Key} (hk : k.lasting = true)
    (hc : op.Sends cfg l c) (hu : u.Permanent k) : (Muster.exec srv c u).1.Permanent k := by
  refine hu.exec hk srv fun secs he => ?_
  obtain ⟨kind, b, rfl⟩ := Call.Sends.expire (he ▸ hc)
  cases hk

/-- What every call keeps, and the environment, a step keeps. -/
theorem ToolStep.run_keeps {I : Db → Prop} (x : ToolStep) {s : Db}
    (hexec : ∀ op l c u, Call.Sends cfg op l c → I u → I (exec srv c u).1)
    (henv : ∀ e, x = .env e → I (e.apply s)) (hs : I s) : I (x.run cfg srv s).2 := by
  cases x with
  | chat c args fate => exact callTool_keeps fate (fun _ _ _ _ _ _ => hexec _ _ _ _) hs
  | fetch c args fate => exact callTool_keeps fate (fun _ _ _ _ _ _ => hexec _ _ _ _) hs
  | announce c args fate => exact callTool_keeps fate (fun _ _ _ _ _ _ => hexec _ _ _ _) hs
  | call op => exact body_run_keeps srv s cfg op (hexec op) hs
  | env e => exact henv e rfl

theorem ToolStep.run_permanent {k : Key} (hk : k.lasting = true) (x : ToolStep) {s : Db}
    (hs : s.Permanent k) : (x.run cfg srv s).2.Permanent k :=
  x.run_keeps (I := fun u => u.Permanent k) (fun _ _ _ _ hc hu => hu.sends hk hc)
    (fun e _ => hs.env e) hs

/-- What a step adds: nothing, or the chat of a call. -/
inductive StepPosts (x : ToolStep) (text : Option PyStr) (s t : Db) : Prop
  | silent (htext : ∀ t, text = some t → ¬ ReportsDelivery t) (hsame : ∀ a, t.stream a = s.stream a) :
    StepPosts x text s t
  | evicted {b : PyStr} {n : Nat} (hx : x = .env (.evict b n)) (htext : text = none)
    (hstream : ∀ a, t.stream a = if a = b then (s.stream a).evict n else s.stream a) :
    StepPosts x text s t
  | posted {c : Client} {args : Args} {fate : Fate} {a : PyStr} {e : Entry} (hx : x = .chat c args fate)
    (he : Posts c args e)
    (htext : (fate = .answered ∧ ∃ status, text = some (deliveryReport a status e.id)) ∨
      ∃ name n t', fate = .lost name n ∧ text = some t' ∧ ¬ ReportsDelivery t')
    (hothers : ∀ b, b ≠ a → t.stream b = s.stream b) (hadded : t.inbox a = s.inbox a ++ [e])
    (hfresh : (s.stream a).last < e.id) : StepPosts x text s t

variable (srv) in
/-- A tool other than the chat adds nothing, and does not say it has. -/
theorem StepPosts.of_tool {x : ToolStep} (hres : Resolves cfg resolved) (url header : PyStr) {op : String}
    (hop : lit op ≠ lit "chat") {request : Except BusExn Args} (hrequest : ∀ e, request = .error e → e.Own)
    {render : Json → Except BusExn PyStr} (hrender : Reads render) (fate : Fate) (s : Db) :
    StepPosts x (callTool cfg srv resolved url header op request render fate s).1 s
      (callTool cfg srv resolved url header op request render fate s).2 := by
  refine .silent (callTool_text hres url header op hrequest hrender fate s) (SameInboxes.stream ?_ ?_)
  · refine callTool_keeps (I := SameInboxes s) fate (fun ident _ args l c u hc hu => ?_) fun _ => rfl
    exact hu.exec srv (hc.not_inbox trivial fun _ _ _ h => hop (Call.rpc.inj h).2.2.1)
  · exact callTool_keeps (I := fun u => u.now = s.now) fate
      (fun _ _ _ _ c u _ hu => (exec_now srv c u).trans hu) rfl

/-- **One step**: one chat is added to one inbox, or none to any. -/
theorem step_posts (srv : Server) {x : ToolStep} (hx : x.Sound cfg) {s : Db} (hkept : s.Kept) :
    StepPosts x (x.run cfg srv s).1 s (x.run cfg srv s).2 := by
  cases x with
  | chat c args fate =>
    have hnow : (callChat cfg srv c.resolved c.url c.header args fate s).2.now = s.now :=
      callTool_keeps (I := fun u => u.now = s.now) fate (fun _ _ _ _ c u _ hu => (exec_now srv c u).trans hu) rfl
    obtain ⟨text, htext, hreport⟩ := chat_report cfg srv hx c.url c.header args fate s
    show StepPosts _ (callChat cfg srv c.resolved c.url c.header args fate s).1 s _
    rw [htext]
    cases hreport with
    | @delivered ident sender target e hident hsender hvisible hstored =>
      exact .posted rfl ⟨ident, sender, s.sec, hident, hsender, hstored.message⟩
        (.inl ⟨rfl, target.status, rfl⟩) (fun b hb => stream_congr hnow (hstored.others b hb))
        hstored.appended hstored.fresh
    | refused hrefusing hsame =>
      refine .silent ?_ (hsame.stream hnow)
      rintro t ⟨⟩
      exact not_reportsDelivery_of_refusing hrefusing
    | @unheard ident sender target e name text n hident hsender hvisible hstored hrefusing =>
      exact .posted rfl ⟨ident, sender, s.sec, hident, hsender, hstored.message⟩
        (.inr ⟨name, n, text, rfl, rfl, not_reportsDelivery_of_refusing hrefusing⟩)
        (fun b hb => stream_congr hnow (hstored.others b hb)) hstored.appended hstored.fresh
  | fetch c args fate =>
    exact .of_tool srv hx c.url c.header (by decide) (fun e he => by cases he) reads_fetch fate s
  | announce c args fate =>
    exact .of_tool srv hx c.url c.header (by decide) (fun e he => announceRequest_own he) reads_announce
      fate s
  | call op =>
    obtain ⟨hop, hchat⟩ := hx
    refine .silent (by simp [ToolStep.run]) (SameInboxes.stream (fun a => ?_) (run_now srv _ s))
    exact body_run_keys srv s cfg op fun l c hc => hc.not_inbox hop hchat a
  | env e =>
    cases e with
    | tick d => exact .silent (by simp [ToolStep.run]) fun a => stream_tick (hkept a) d
    | evict b n => exact .evicted rfl rfl fun a => stream_evict (hkept a) b n

/-- **What the tools report accounts for the mail.**  What is added to the inboxes are chats of the
calls, as reported; it is all there, or what has been evicted is missing from the front. -/
theorem reports_account_for_mail (cfg : Config) (srv : Server) {s : Db} (hkept : s.Kept)
    {steps : List ToolStep} (hsound : ∀ x ∈ steps, x.Sound cfg) :
    ∃ posts, Posted cfg srv s steps posts ∧
      ∀ a, (runTools cfg srv steps s).2.inbox a <:+ s.inbox a ++ postsTo a posts ∧
        ((∀ n, .env (.evict a n) ∉ steps) →
          (runTools cfg srv steps s).2.inbox a = s.inbox a ++ postsTo a posts) := by
  induction steps generalizing s with
  | nil =>
    have hnil : ∀ a, s.inbox a = s.inbox a ++ postsTo a [] := fun a => (List.append_nil _).symm
    exact ⟨[], .nil, fun a => ⟨⟨[], hnil a⟩, fun _ => hnil a⟩⟩
  | cons x steps ih =>
    obtain ⟨hx, hsteps⟩ := List.forall_mem_cons.1 hsound
    obtain ⟨posts, hposted, hinbox⟩ := ih (fun a => x.run_permanent rfl (hkept a)) hsteps
    have hrun : ∀ a, (runTools cfg srv (x :: steps) s).2.inbox a =
        (runTools cfg srv steps (x.run cfg srv s).2).2.inbox a := fun _ => rfl
    -- what a step adds goes before what the others do
    have hadd : ∀ {a new}, (x.run cfg srv s).2.inbox a = s.inbox a ++ new →
        (runTools cfg srv (x :: steps) s).2.inbox a <:+ s.inbox a ++ (new ++ postsTo a posts) ∧
        ((∀ n, .env (.evict a n) ∉ x :: steps) →
          (runTools cfg srv (x :: steps) s).2.inbox a = s.inbox a ++ (new ++ postsTo a posts)) := by
      intro a new hnew
      rw [hrun, ← List.append_assoc, ← hnew]
      exact ⟨(hinbox a).1, fun hno => (hinbox a).2 fun n hn => hno n (List.mem_cons_of_mem _ hn)⟩
    cases step_posts srv hx hkept with
    | silent htext hsame =>
      have hnothing : ∀ a, (x.run cfg srv s).2.inbox a = s.inbox a ++ [] := by
        intro a
        rw [List.append_nil]
        exact congrArg Stream.entries (hsame a)
      exact ⟨posts, .silent htext (fun a => .inl (hnothing a)) hposted, fun a => hadd (hnothing a)⟩
    | @evicted b n hx htext hstream =>
      have hdrop : ∀ a, (x.run cfg srv s).2.inbox a =
          if a = b then (s.inbox a).drop n else s.inbox a := by
        intro a
        unfold Db.inbox
        rw [hstream]
        split <;> rfl
      refine ⟨posts, .silent ?_ (fun a => ?_) hposted, fun a => ?_⟩
      · rw [htext]
        rintro t ⟨⟩
      · by_cases ha : a = b
        · exact .inr ⟨rfl, n, by rw [hdrop, if_pos ha]⟩
        · exact .inl (by rw [hdrop, if_neg ha, List.append_nil])
      · by_cases ha : a = b
        · subst ha
          refine ⟨?_, fun hno => absurd (hx ▸ List.mem_cons_self) (hno n)⟩
          rw [hrun]
          refine (hinbox a).1.trans ?_
          rw [hdrop, if_pos rfl]
          exact ⟨(s.inbox a).take n, by rw [← List.append_assoc, List.take_append_drop]⟩
        · exact @hadd a [] (by rw [hdrop, if_neg ha, List.append_nil])
    | @posted c args fate a e hx he htext hothers hadded hfresh =>
      subst hx
      have hadds : Adds a e s ((ToolStep.chat c args fate).run cfg srv s).2 :=
        ⟨hadded, fun b hb => congrArg Stream.entries (hothers b hb)⟩
      refine ⟨(a, e) :: posts, ?_, fun b => ?_⟩
      · rcases htext with ⟨rfl, status, htext⟩ | ⟨name, n, t, rfl, htext, hno⟩
        · exact .delivered he htext hadds hposted
        · exact .unheard he htext hno hadds hposted
      · unfold postsTo
        by_cases hb : b = a
        · subst hb
          rw [List.filter_cons_of_pos (by simp)]
          exact hadd hadded
        · rw [List.filter_cons_of_neg (by simpa using fun h => hb h.symm)]
          exact @hadd b [] (by rw [hadds.others b hb, List.append_nil])

end

theorem busyStore_kept : busyStore.Kept := by
  intro a v hv
  have hnone : busyStore.keys (.inbox a) = none := rfl
  rw [hnone] at hv
  cases hv

def devClient : Client := ⟨.ok ⟨lit "u", []⟩, lit "http://x", lit "h/r/p/s"⟩

/-- A chat that is answered, then one whose answer is lost. -/
def lostSteps : List ToolStep :=
  [.chat devClient busyArgs .answered, .chat devClient busyArgs (.lost (lit "ReadTimeout") 99)]

theorem devClient_resolves [Python] : Resolves devConfig devClient.resolved :=
  ⟨id, lit "dev-key", 0, .unreachable, 0, fun _ => none, rfl⟩

theorem reports_account_for_mail_lost :
    let _ : Python := Python.plain
    ∃ posts, Posted devConfig .plain busyStore lostSteps posts ∧
      ∀ a, (runTools devConfig .plain lostSteps busyStore).2.inbox a <:+
          busyStore.inbox a ++ postsTo a posts ∧
        ((∀ n, .env (.evict a n) ∉ lostSteps) →
          (runTools devConfig .plain lostSteps busyStore).2.inbox a =
            busyStore.inbox a ++ postsTo a posts) := by
  intro _
  refine reports_account_for_mail devConfig .plain busyStore_kept ?_
  rintro x (_ | ⟨_, _ | ⟨_, ⟨⟩⟩⟩)
  · exact devClient_resolves
  · exact devClient_resolves

end Muster
