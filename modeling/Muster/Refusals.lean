import Muster.Auth
import Muster.Lib.Machine

/-!
# Refusals and the identity cache

Any number of calls of `resolve` on one key, their answers processed in any order.
A refusal drops the cached identity, but an answer that is on its way already comes
back: a success whose request was sent before the refusal and that is processed
after it fills the cache again, and the next call is served from it
(`stale_success_served`).

While no such success is processed (`NoStaleSuccess`), nothing is served after a
refusal without a request of its own (`refusals_never_served`).
-/

namespace Muster

/-- A call in progress has sent its request and waits; or it has ended. -/
inductive Lookup where
  | asking
  | done (r : Except AuthExn (Identity Json))

inductive LookupEvent where
  /-- call `i` sends its request -/
  | asked (i : Nat)
  /-- the answer to call `i` is processed: status 400, 401 or 403 -/
  | refused (i : Nat)
  /-- the answer to call `i` is processed: an identity -/
  | accepted (i : Nat)
  /-- call `i` returns what the cache had -/
  | served (i : Nat) (ident : Identity Json)

/-- The authenticator and every call on the key so far. -/
structure Lookups where
  now : Int
  cache : AuthCache
  calls : List Lookup
  hist : List LookupEvent

inductive LookupStep where
  | call
  | answer (i : Nat) (answer : Answer)
  | tick (d : Nat)

section
variable (sha256 : PyStr → PyStr) (cfg : Config) (key : PyStr)

variable [Python]

def Lookups.step (s : Lookups) : LookupStep → Option Lookups
  | .call =>
    match resolveStart sha256 cfg key s.now s.cache with
    | none => some { s with calls := s.calls ++ [.asking], hist := s.hist ++ [.asked s.calls.length] }
    | some r =>
      some { s with
        calls := s.calls ++ [.done r]
        -- an identity that is not a static key's is the cache's
        hist := match r, cfg.staticKeys.lookup key with
          | .ok ident, none => s.hist ++ [.served s.calls.length ident]
          | _, _ => s.hist }
  | .answer i answer =>
    match s.calls[i]? with
    | some .asking =>
      let (r, cache) := resolveFinish sha256 cfg key answer s.now s.cache
      some { s with
        cache := cache
        calls := s.calls.set i (.done r)
        hist := if answer.refusal then s.hist ++ [.refused i]
          else match r with
            | .ok _ => s.hist ++ [.accepted i]
            | .error _ => s.hist }
    | _ => none
  | .tick d => some { s with now := s.now + d }

/-- The calls of `resolve` on one key. -/
def lookups : Machine Lookups LookupStep := ⟨Lookups.step sha256 cfg key⟩

end

/-- Since the last refusal somebody asked again, and was accepted. -/
def Redeemed (hist : List LookupEvent) : Prop :=
  ∀ before j since, hist = before ++ .refused j :: since →
    ∃ i, [LookupEvent.asked i, .accepted i].Sublist since

/-- Whatever is served from the cache, every refusal before it was redeemed. -/
def RefusalsHold (hist : List LookupEvent) : Prop :=
  ∀ before i ident since, hist = before ++ .served i ident :: since → Redeemed before

/-- Call `i` asked before a refusal. -/
def AskedBeforeRefusal (hist : List LookupEvent) (i : Nat) : Prop :=
  ∃ j, [LookupEvent.asked i, .refused j].Sublist hist

/-- No success is processed whose request was sent before a refusal that has been processed;
or nothing is cached for any time. -/
def NoStaleSuccess [Python] (cfg : Config) (s : Lookups) (l : LookupStep) : Prop :=
  ∀ i answer, l = .answer i answer → answer.Success cfg → 0 < cfg.authCacheTtl →
    ¬ AskedBeforeRefusal s.hist i

/-! ## Histories -/

section
variable {hist : List LookupEvent}

theorem append_singleton_eq {α : Type} {l a b : List α} {x y : α} (h : l ++ [x] = a ++ y :: b) :
    (∃ b', b = b' ++ [x] ∧ l = a ++ y :: b') ∨ (b = [] ∧ x = y ∧ l = a) := by
  rcases List.eq_nil_or_concat b with rfl | ⟨b', z, rfl⟩
  · obtain ⟨rfl, hxy⟩ := List.append_inj' h rfl
    exact .inr ⟨rfl, List.head_eq_of_cons_eq hxy, rfl⟩
  · rw [List.concat_eq_append, ← List.cons_append, ← List.append_assoc] at h
    obtain ⟨rfl, hxz⟩ := List.append_inj' h rfl
    rw [List.concat_eq_append, List.head_eq_of_cons_eq hxz]
    exact .inl ⟨b', rfl, rfl⟩

theorem Redeemed.append (h : Redeemed hist) {e : LookupEvent} (he : ∀ j, e ≠ .refused j) :
    Redeemed (hist ++ [e]) := by
  intro before j since heq
  rcases append_singleton_eq heq with ⟨since', rfl, hs⟩ | ⟨-, rfl, -⟩
  · obtain ⟨i, hi⟩ := h before j since' hs
    exact ⟨i, hi.trans (List.sublist_append_left _ _)⟩
  · exact absurd rfl (he j)

/-- A success that was not asked for before any refusal redeems them all. -/
theorem Redeemed.accepted {i : Nat} (hasked : .asked i ∈ hist) (hfresh : ¬ AskedBeforeRefusal hist i) :
    Redeemed (hist ++ [.accepted i]) := by
  intro before j since heq
  rcases append_singleton_eq heq with ⟨since', rfl, rfl⟩ | ⟨-, hx, -⟩
  · refine ⟨i, ?_⟩
    rcases List.mem_append.1 hasked with hm | hm
    · refine absurd ⟨j, ?_⟩ hfresh
      exact (List.singleton_sublist.2 hm).append ((List.nil_sublist since').cons_cons _)
    · rcases List.mem_cons.1 hm with hm | hm
      · cases hm
      · exact (List.singleton_sublist.2 hm).append (.refl [LookupEvent.accepted i])
  · cases hx

theorem RefusalsHold.append (h : RefusalsHold hist) {e : LookupEvent}
    (he : ∀ i ident, e = .served i ident → Redeemed hist) : RefusalsHold (hist ++ [e]) := by
  intro before i ident since heq
  rcases append_singleton_eq heq with ⟨since', rfl, hs⟩ | ⟨-, rfl, rfl⟩
  · exact h before i ident since' hs
  · exact he i ident rfl

end

/-! ## Every run -/

/-- Who waits has asked; what the cache holds, nothing before it has refused for good. -/
structure Honest (sha256 : PyStr → PyStr) (key : PyStr) (s : Lookups) : Prop where
  asking : ∀ i, s.calls[i]? = some .asking → .asked i ∈ s.hist
  cached : ∀ ident freshUntil, s.cache (sha256 key) = some (ident, freshUntil) →
    s.now < freshUntil → Redeemed s.hist
  hold : RefusalsHold s.hist

section
variable [Python] (sha256 : PyStr → PyStr) (cfg : Config) (key : PyStr) {s s' : Lookups}

/-- A call starts: it asks, or ends at once. -/
theorem Honest.call (h : Honest sha256 key s)
    (hs : (lookups sha256 cfg key).step s .call = some s') : Honest sha256 key s' := by
  simp only [lookups, Lookups.step] at hs
  split at hs
  · cases hs
    refine ⟨?_, fun _ _ hc hlt => (h.cached _ _ hc hlt).append nofun, h.hold.append nofun⟩
    intro i hi
    rcases Nat.lt_trichotomy i s.calls.length with hlt | rfl | hgt
    · rw [List.getElem?_append_left hlt] at hi
      exact List.mem_append_left _ (h.asking i hi)
    · simp
    · rw [List.getElem?_eq_none (by simp; omega)] at hi
      cases hi
  · next r hr =>
    cases hs
    have hcall : ∀ i, (s.calls ++ [Lookup.done r])[i]? = some .asking → .asked i ∈ s.hist := by
      intro i hi
      rcases Nat.lt_trichotomy i s.calls.length with hlt | rfl | hgt
      · rw [List.getElem?_append_left hlt] at hi
        exact h.asking i hi
      · simp at hi
      · rw [List.getElem?_eq_none (by simp; omega)] at hi
        cases hi
    split
    · next ident hstatic =>
      rcases resolveStart_ok hr with hsome | ⟨-, freshUntil, hc, hlt⟩
      · rw [hstatic] at hsome
        cases hsome
      have hred := h.cached ident freshUntil hc hlt
      refine ⟨fun i hi => List.mem_append_left _ (hcall i hi), fun _ _ _ _ => hred.append nofun, ?_⟩
      exact h.hold.append fun _ _ _ => hred
    · exact ⟨hcall, h.cached, h.hold⟩

/-- An answer is processed. -/
theorem Honest.answer (h : Honest sha256 key s) {i : Nat} {answer : Answer}
    (hok : answer.Success cfg → 0 < cfg.authCacheTtl → ¬ AskedBeforeRefusal s.hist i)
    (hs : (lookups sha256 cfg key).step s (.answer i answer) = some s') : Honest sha256 key s' := by
  simp only [lookups, Lookups.step] at hs
  split at hs
  · next hi =>
    cases hs
    have hcall : ∀ r j, (s.calls.set i (.done r))[j]? = some .asking → .asked j ∈ s.hist := by
      intro r j hj
      by_cases hij : i = j
      · subst hij
        rw [List.getElem?_set_self (List.getElem?_eq_some_iff.1 hi).1] at hj
        cases hj
      · rw [List.getElem?_set_ne hij] at hj
        exact h.asking j hj
    rcases resolveFinish_cases sha256 cfg key s.now s.cache answer with
      ⟨href, e, hr⟩ | ⟨href, hsucc, ident, hr⟩ | ⟨href, e, hr⟩
    · rw [if_pos href, hr]
      refine ⟨fun j hj => List.mem_append_left _ (hcall _ j hj), ?_, h.hold.append nofun⟩
      intro ident freshUntil hsome
      exact absurd ((Function.update_self (sha256 key) none s.cache).symm.trans hsome) nofun
    · rw [if_neg (by rw [href]; simp), hr]
      refine ⟨fun j hj => List.mem_append_left _ (hcall _ j hj), ?_, h.hold.append nofun⟩
      intro ident' freshUntil hsome hlt
      have hnew : some (ident, s.now + cfg.authCacheTtl * 1000) = some (ident', freshUntil) :=
        (Function.update_self (sha256 key) _ s.cache).symm.trans hsome
      cases hnew
      have hlt' : s.now < s.now + cfg.authCacheTtl * 1000 := hlt
      have httl : 0 < cfg.authCacheTtl := by omega
      exact .accepted (h.asking i hi) (hok hsucc httl)
    · rw [if_neg (by rw [href]; simp), hr]
      exact ⟨hcall _, h.cached, h.hold⟩
  · cases hs

/-- **A refusal is never undone by the cache**, while no success that was asked for before a
refusal is processed after it: whatever is served from the cache, since the last refusal
somebody has asked again and was accepted. -/
theorem refusals_never_served {s₀ : Lookups} (h₀ : s₀.calls = [] ∧ s₀.hist = [])
    (h : (lookups sha256 cfg key).Run (NoStaleSuccess cfg) s₀ s) : RefusalsHold s.hist := by
  refine (h.inv (Honest sha256 key) ?_ ?_).hold
  · refine ⟨?_, ?_, ?_⟩
    · intro i hi
      rw [h₀.1] at hi
      cases hi
    · intro _ _ _ _ before j since heq
      rw [h₀.2] at heq
      simp at heq
    · intro before i ident since heq
      rw [h₀.2] at heq
      simp at heq
  · intro s l s' hI hok hs
    cases l with
    | call => exact hI.call sha256 cfg key hs
    | answer i answer => exact hI.answer sha256 cfg key (hok i answer rfl) hs
    | tick d =>
      cases hs
      refine ⟨hI.asking, ?_, hI.hold⟩
      intro ident freshUntil hc hlt
      have hlt' : s.now + d < freshUntil := hlt
      exact hI.cached ident freshUntil hc (by omega)

end

/-! ## A success behind a refusal -/

def lookupsStart : Lookups := ⟨0, fun _ => none, [], []⟩

/-- Two calls ask; the key is refused to the second; then the answer to the first comes in, and
a third call is served from the cache. -/
theorem stale_success_served : ∃ s,
    (@lookups id Config.asking (lit "k") Python.plain).Run (fun _ _ => True) lookupsStart s ∧
    ¬ RefusalsHold s.hist := by
  have htrace : (@lookups id Config.asking (lit "k") Python.plain).trace (fun _ _ => true) lookupsStart
      [.call, .call, .answer 1 (.http 403 (.error .valueError)), .answer 0 (vouchFor "u" ["g"]), .call] = some _ := rfl
  refine ⟨_, Machine.Run.trace (fun _ _ _ => trivial) .start htrace, ?_⟩
  intro hold
  obtain ⟨i, hi⟩ := hold [.asked 0, .asked 1, .refused 1, .accepted 0] 2 ⟨lit "u", [.str (lit "g")]⟩ []
    rfl [.asked 0, .asked 1] 1 [.accepted 0] rfl
  have hlen := hi.length_le
  simp at hlen

theorem not_askedBeforeRefusal :
    ¬ AskedBeforeRefusal [.asked 0, .refused 0, .asked 1] 1 := by
  rintro ⟨j, h⟩
  cases h with
  | cons _ h =>
    cases h with
    | cons _ h =>
      cases h with
      | cons _ h => cases h
      | cons_cons _ h => cases h

/-- The key is refused, asked for again and accepted, and then served from the cache. -/
theorem refusals_never_served_inTurn : ∃ s : Lookups, RefusalsHold s.hist ∧
    ∃ ident, s.hist = [.asked 0, .refused 0, .asked 1, .accepted 1, .served 2 ident] := by
  let M := @lookups id Config.asking (lit "k") Python.plain
  have h1 : M.Run (@NoStaleSuccess Python.plain Config.asking) lookupsStart _ :=
    Machine.Run.start.next (l := .call) (fun _ _ h => by cases h) rfl
  have h2 := h1.next (l := .answer 0 (.http 403 (.error .valueError))) (fun _ _ h hsucc => by
    cases h
    obtain ⟨_, _, _, h, -⟩ := hsucc
    cases h) rfl
  have h3 := h2.next (l := .call) (fun _ _ h => by cases h) rfl
  have h4 := h3.next (l := .answer 1 (vouchFor "u" ["g"])) (fun _ _ h _ _ => by
    cases h
    exact not_askedBeforeRefusal) rfl
  have h5 := h4.next (l := .call) (fun _ _ h => by cases h) rfl
  exact ⟨_, @refusals_never_served Python.plain id Config.asking (lit "k") _ _ ⟨rfl, rfl⟩ h5, _, rfl⟩

end Muster
