import Muster.Principals

/-!
# Answers of the resolver

A key that is neither static nor cached is vouched for by the resolver's answer alone.
`resolve` refuses it with AuthError where the resolver is not reached, refuses the key or
has failed; what is left is taken for a success, whatever its status is, and read as JSON
outside any `try`.  So an answer that is not JSON escapes as ValueError, which a stream's
ping does not handle, one that is nested too deep as RecursionError, and a key that is not
ASCII is never sent.  An answer that is no success, a redirect or a 404, may produce an
identity and fill the cache (`resolver_answers_open`).  `resolver_fails_closed_iff` says for
which answers none of this happens.
-/

namespace Muster

/-- The document holds both configured fields. -/
def HoldsFields (cfg : Config) (data : Json) : Prop :=
  (∃ user, dig data (fieldPath cfg.userField) = .ok user) ∧
    ∃ groups, dig data (fieldPath cfg.groupsField) = .ok groups

/-- AuthError and nothing new in the cache, or an identity from a success that holds both
fields. -/
def FailedClosed (cfg : Config) (answer : Answer) (cache : AuthCache)
    (out : Except AuthExn (Identity Json) × AuthCache) : Prop :=
  (∃ status code message, out.1 = .error (.authError status code message) ∧
    ∀ kh entry, out.2 kh = some entry → cache kh = some entry) ∨
  ∃ ident status data, out.1 = .ok ident ∧ answer = .http status (.ok data) ∧
    (200 ≤ status ∧ status < 300) ∧ HoldsFields cfg data

/-- The answers the code is made for: no answer, a refusal, a failure, or JSON that comes with a
success or lacks the fields. -/
def Answer.Expected [Python] (cfg : Config) : Answer → Prop
  | .unreachable => True
  | .raised => False
  | .http status body => status = 400 ∨ status = 401 ∨ status = 403 ∨ 500 ≤ status ∨
    ∃ data, body = .ok data ∧ ((200 ≤ status ∧ status < 300) ∨ ∃ e, identityOf cfg data = .error e)

section
variable [Python] {sha256 : PyStr → PyStr} {cfg : Config} {key : PyStr} {now later : Int}
  {cache : AuthCache} {answer : Answer}

theorem holdsFields_of_identityOf {data : Json} {ident : Identity Json}
    (h : identityOf cfg data = .ok ident) : HoldsFields cfg data := by
  obtain ⟨user, groups, ⟨hu, hg, -⟩, -⟩ := identityOf_ok_iff.1 h
  exact ⟨⟨user, hu⟩, groups, hg⟩

omit [Python] in
/-- An error that leaves or empties the cache. -/
theorem FailedClosed.refused {status : Nat} {code message : PyStr} {cache' : AuthCache}
    (h : ∀ kh entry, cache' kh = some entry → cache kh = some entry) :
    FailedClosed cfg answer cache (.error (.authError status code message), cache') :=
  .inl ⟨status, code, message, rfl, h⟩

/-- What an answer makes of the call. -/
theorem resolveFinish_failedClosed_iff :
    FailedClosed cfg answer cache (resolveFinish sha256 cfg key answer later cache) ↔
      answer.Expected cfg := by
  cases answer with
  | unreachable => exact iff_of_true (.refused fun _ _ => id) trivial
  | raised =>
    refine iff_of_false ?_ id
    rintro (⟨_, _, _, h, -⟩ | ⟨_, _, _, h, -⟩) <;> cases h
  | http status body =>
    unfold resolveFinish Answer.Expected
    dsimp only
    by_cases hr : status = 400 ∨ status = 401 ∨ status = 403
    · rw [if_pos hr]
      refine iff_of_true (.refused ?_) (by tauto)
      intro kh entry h
      by_cases hk : kh = sha256 key
      · subst hk
        rw [Function.update_self] at h
        cases h
      · rwa [Function.update_of_ne hk] at h
    · rw [if_neg hr]
      by_cases h5 : 500 ≤ status
      · rw [if_pos h5]
        exact iff_of_true (.refused fun _ _ => id) (by tauto)
      · rw [if_neg h5]
        cases body with
        | error e =>
          refine iff_of_false ?_ ?_
          · rintro (⟨_, _, _, h, -⟩ | ⟨_, _, _, h, -⟩) <;> cases h
          · rintro (h | h | h | h | ⟨_, h, -⟩)
            · exact hr (.inl h)
            · exact hr (.inr (.inl h))
            · exact hr (.inr (.inr h))
            · exact h5 h
            · cases h
        | ok data =>
          cases hi : identityOf cfg data with
          | error e =>
            simp only [hi]
            refine iff_of_true (.refused fun _ _ => id) ?_
            exact .inr (.inr (.inr (.inr ⟨data, rfl, .inr ⟨e, hi⟩⟩)))
          | ok ident =>
            simp only [hi]
            constructor
            · rintro (⟨_, _, _, h, -⟩ | ⟨_, st, d, -, h, h2, -⟩)
              · cases h
              · cases h
                exact .inr (.inr (.inr (.inr ⟨data, rfl, .inl h2⟩)))
            · rintro (h | h | h | h | ⟨d, hd, h⟩)
              · exact absurd (.inl h) hr
              · exact absurd (.inr (.inl h)) hr
              · exact absurd (.inr (.inr h)) hr
              · exact absurd h h5
              · cases hd
                rcases h with h2 | ⟨e, he⟩
                · exact .inr ⟨ident, status, data, rfl, rfl, h2, holdsFields_of_identityOf hi⟩
                · rw [hi] at he
                  cases he

/-- **When `resolve` fails closed.**  On a key that is neither static nor cached it raises AuthError
and adds nothing to the cache, or vouches by a success that holds both fields, if and only if there
is no key or no resolver, or the resolver is not reached, refuses or fails, or answers with JSON
that comes with a success or lacks the fields. -/
theorem resolver_fails_closed_iff (hstatic : cfg.staticKeys.lookup key = none)
    (huncached : ∀ ident freshUntil, cache (sha256 key) = some (ident, freshUntil) → freshUntil ≤ now) :
    FailedClosed cfg answer cache (resolve sha256 cfg key now answer later cache) ↔
      key = [] ∨ cfg.resolverUrl = none ∨ answer.Expected cfg := by
  unfold resolve
  by_cases hkey : key = []
  · have hstart : resolveStart sha256 cfg key now cache =
        some (.error (.authError 401 (lit "unauthorized") (lit "missing x-muster-api-key"))) :=
      if_pos hkey
    rw [hstart]
    exact iff_of_true (.refused fun _ _ => id) (.inl hkey)
  · have hstart : resolveStart sha256 cfg key now cache = if cfg.resolverUrl = none then
        some (.error (.authError 401 (lit "unauthorized")
          (lit "no resolver configured and key not in static keys")))
        else none := by
      unfold resolveStart
      rw [if_neg hkey, hstatic]
      cases hc : cache (sha256 key) with
      | none => cases cfg.resolverUrl <;> rfl
      | some entry =>
        refine (if_neg (not_lt_of_ge (huncached _ _ hc))).trans ?_
        cases cfg.resolverUrl <;> rfl
    rw [hstart]
    cases hurl : cfg.resolverUrl with
    | none => exact iff_of_true (.refused fun _ _ => id) (.inr (.inl rfl))
    | some url =>
      rw [or_iff_right hkey, or_iff_right (by simp)]
      exact resolveFinish_failedClosed_iff

end

/-! ## Two answers it is not made for -/

/-- A 404 whose body has the fields. -/
def strayAnswer : Answer :=
  .http 404 (.ok (.obj (dict [("user_id", .str (lit "eve")), ("teams", .arr [])])))

/-- What `resolve` makes of an answer, with an empty cache. -/
def askedOnce (answer : Answer) : Except AuthExn (Identity Json) × AuthCache :=
  @resolve id Config.asking (lit "k") Python.plain 0 answer 0 fun _ => none

def notJson : Answer := .http 200 (.error .valueError)

/-- A success that is not JSON raises ValueError; a 404 with the fields vouches for the key, and is
kept in the cache. -/
theorem resolver_answers_open :
    ((askedOnce notJson).1 = .error (.jsonError .valueError) ∧
      ¬ FailedClosed Config.asking notJson (fun _ => none) (askedOnce notJson)) ∧
    (askedOnce strayAnswer).1 = .ok ⟨lit "eve", []⟩ ∧
    (askedOnce strayAnswer).2 (lit "k") = some (⟨lit "eve", []⟩, 60000) ∧
    ¬ FailedClosed Config.asking strayAnswer (fun _ => none) (askedOnce strayAnswer) := by
  refine ⟨⟨rfl, ?_⟩, rfl, rfl, ?_⟩
  · rintro (⟨_, _, _, h, -⟩ | ⟨_, _, _, h, -⟩) <;> cases h
  · rintro (⟨_, _, _, h, -⟩ | ⟨_, _, _, -, h, h2, -⟩)
    · cases h
    · cases h
      omega

theorem resolver_fails_closed_iff_asking :
    FailedClosed Config.asking .unreachable (fun _ => none) (askedOnce .unreachable) ↔
      lit "k" = [] ∨ Config.asking.resolverUrl = none ∨ @Answer.Expected Python.plain Config.asking .unreachable :=
  @resolver_fails_closed_iff Python.plain id Config.asking (lit "k") 0 0 (fun _ => none) .unreachable rfl
    fun _ _ h => by cases h

end Muster
