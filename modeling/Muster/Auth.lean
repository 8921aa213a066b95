import Muster.Config

/-!
# Delegated auth (`auth.py`)

The caller's key goes to an external resolver, and what it answers is cached.
`resolve` waits once, for that answer, so it comes in two halves: `resolveStart` up
to the request, `resolveFinish` from the answer on.  `sha256` is the digest under
which keys are cached; clocks are in milliseconds.
-/

namespace Muster

/-- What `resp.json()` raises. -/
inductive JsonError where
  /-- the body is not JSON -/
  | valueError
  /-- it is nested too deep -/
  | recursionError

inductive AuthExn where
  /-- `AuthError` -/
  | authError (status : Nat) (code message : PyStr)
  | jsonError (e : JsonError)
  /-- of the HTTP client, but no `httpx.HTTPError` -/
  | clientError

/-- What subscripting and `tuple` raise. -/
inductive LookupError where
  | keyError
  | typeError
  deriving DecidableEq

/-- `path.split(".")`. -/
def fieldPath (path : PyStr) : List PyStr := path.splitOn 46

/-- `_dig`. -/
def dig (obj : Json) : List PyStr → Except LookupError Json
  | [] => .ok obj
  | part :: path =>
    match obj with
    | .obj kvs =>
      match kvs.lookup part with
      | some v => dig v path
      | none => .error .keyError
    | _ => .error .typeError

/-- `tuple(x)`: the characters of a string, the keys of a dict. -/
def pyTuple : Json → Except LookupError (List Json)
  | .str s => .ok (s.map fun c => .str [c])
  | .arr xs => .ok xs
  | .obj kvs => .ok (kvs.map fun kv => .str kv.1)
  | _ => .error .typeError

/-- What the HTTP client comes back with. -/
inductive Answer where
  /-- `httpx.HTTPError` -/
  | unreachable
  /-- another exception: a key that is not ASCII cannot be sent -/
  | raised
  | http (status : Nat) (body : Except JsonError Json)

/-- The resolver's answer for a key of `user`, under the default field names. -/
def vouchFor (user : String) (groups : List String) : Answer :=
  .http 200 (.ok (.obj (dict [("user_id", .str (lit user)),
    ("teams", .arr (groups.map fun g => .str (lit g)))])))

/-- Identities by hashed key, with the time until which they are fresh. -/
abbrev AuthCache := PyStr → Option (Identity Json × Int)

section
variable (sha256 : PyStr → PyStr) (cfg : Config) (key : PyStr)

/-- What `resolve` ends with before it asks the resolver; `none` if it asks. -/
def resolveStart (now : Int) (cache : AuthCache) : Option (Except AuthExn (Identity Json)) :=
  let ask := match cfg.resolverUrl with
    | none => some (.error (.authError 401 (lit "unauthorized")
        (lit "no resolver configured and key not in static keys")))
    | some _ => none
  if key = [] then
    some (.error (.authError 401 (lit "unauthorized") (lit "missing x-muster-api-key")))
  else
    match cfg.staticKeys.lookup key with
    | some ident => some (.ok ident)
    | none =>
      match cache (sha256 key) with
      | some (ident, freshUntil) => if now < freshUntil then some (.ok ident) else ask
      | none => ask

variable [Python]

/-- `Identity(str(_dig(…)), tuple(_dig(…) or ()))`. -/
def identityOf (data : Json) : Except LookupError (Identity Json) := do
  let user ← dig data (fieldPath cfg.userField)
  let groups ← dig data (fieldPath cfg.groupsField)
  let groups ← pyTuple (groups.or (.arr []))
  -- a value that `json()` could parse is not too deep for `str`
  return ⟨user.text, groups⟩

def resolveFinish (answer : Answer) (now : Int) (cache : AuthCache) :
    Except AuthExn (Identity Json) × AuthCache :=
  match answer with
  | .unreachable =>
    (.error (.authError 503 (lit "resolver_unavailable") (lit "identity resolver unreachable")), cache)
  | .raised => (.error .clientError, cache)
  | .http status body =>
    if status = 400 ∨ status = 401 ∨ status = 403 then
      -- a refusal is never served from the cache
      (.error (.authError 401 (lit "unauthorized") (lit "key refused by identity resolver")),
        Function.update cache (sha256 key) none)
    else if 500 ≤ status then
      (.error (.authError 503 (lit "resolver_unavailable")
        (lit "resolver answered " ++ PyStr.strNat status)), cache)
    else
      match body with
      | .error e => (.error (.jsonError e), cache)
      | .ok data =>
        match identityOf cfg data with
        | .error _ => (.error (.authError 502 (lit "resolver_schema")
            (lit "resolver response missing user/groups fields")), cache)
        | .ok ident =>
          (.ok ident,
            Function.update cache (sha256 key) (some (ident, now + cfg.authCacheTtl * 1000)))

/-- `resolve`, asked at `now` and answered at `later`. -/
def resolve (now : Int) (answer : Answer) (later : Int) (cache : AuthCache) :
    Except AuthExn (Identity Json) × AuthCache :=
  match resolveStart sha256 cfg key now cache with
  | some r => (r, cache)
  | none => resolveFinish sha256 cfg key answer later cache

end

/-! ## What `resolve` does with the cache -/

/-- The refusals of `resolve`. -/
def Answer.refusal : Answer → Bool
  | .http status _ => status = 400 ∨ status = 401 ∨ status = 403
  | _ => false

/-- The resolver vouches for the key. -/
def Answer.Success [Python] (cfg : Config) (answer : Answer) : Prop :=
  ∃ status data ident, answer = .http status (.ok data) ∧ answer.refusal = false ∧ status < 500 ∧
    identityOf cfg data = .ok ident

section
variable {sha256 : PyStr → PyStr} {cfg : Config} {key : PyStr} {now : Int} {cache : AuthCache}

/-- Without asking: the identity of a static key, or a fresh one from the cache. -/
theorem resolveStart_ok {ident : Identity Json}
    (h : resolveStart sha256 cfg key now cache = some (.ok ident)) :
    cfg.staticKeys.lookup key = some ident ∨ cfg.staticKeys.lookup key = none ∧
      ∃ freshUntil, cache (sha256 key) = some (ident, freshUntil) ∧ now < freshUntil := by
  have hask : (match cfg.resolverUrl with
      | none => some (.error (.authError 401 (lit "unauthorized")
        (lit "no resolver configured and key not in static keys")))
      | some _ => none : Option (Except AuthExn (Identity Json))) ≠ some (.ok ident) := by
    cases cfg.resolverUrl <;> simp
  unfold resolveStart at h
  dsimp only at h
  split at h
  · cases h
  · split at h
    · next static hs =>
      cases h
      exact .inl hs
    · next hs =>
      refine .inr ⟨hs, ?_⟩
      split at h
      · next cached freshUntil hc =>
        split at h
        · next hlt =>
          cases h
          exact ⟨freshUntil, hc, hlt⟩
        · exact absurd h hask
      · exact absurd h hask

/-- **What an answer makes of the cache**: a refusal empties the key's entry, a success fills it,
anything else leaves it. -/
theorem resolveFinish_cases [Python] (sha256 : PyStr → PyStr) (cfg : Config) (key : PyStr) (now : Int)
    (cache : AuthCache) (answer : Answer) :
    (answer.refusal = true ∧ ∃ e, resolveFinish sha256 cfg key answer now cache =
      (.error e, Function.update cache (sha256 key) none)) ∨
    (answer.refusal = false ∧ answer.Success cfg ∧
      ∃ ident, resolveFinish sha256 cfg key answer now cache =
        (.ok ident, Function.update cache (sha256 key) (some (ident, now + cfg.authCacheTtl * 1000)))) ∨
    (answer.refusal = false ∧ ∃ e, resolveFinish sha256 cfg key answer now cache = (.error e, cache)) := by
  cases answer with
  | unreachable => exact .inr (.inr ⟨rfl, _, rfl⟩)
  | raised => exact .inr (.inr ⟨rfl, _, rfl⟩)
  | http status body =>
    by_cases hr : status = 400 ∨ status = 401 ∨ status = 403
    · refine .inl ⟨decide_eq_true hr, .authError 401 (lit "unauthorized")
        (lit "key refused by identity resolver"), ?_⟩
      simp only [resolveFinish, if_pos hr]
    · have href : (Answer.http status body).refusal = false := decide_eq_false hr
      refine .inr ?_
      by_cases h5 : 500 ≤ status
      · refine .inr ⟨href, .authError 503 (lit "resolver_unavailable")
          (lit "resolver answered " ++ PyStr.strNat status), ?_⟩
        simp only [resolveFinish, if_neg hr, if_pos h5]
      · cases body with
        | error e =>
          refine .inr ⟨href, .jsonError e, ?_⟩
          simp only [resolveFinish, if_neg hr, if_neg h5]
        | ok data =>
          cases hi : identityOf cfg data with
          | error e =>
            refine .inr ⟨href, .authError 502 (lit "resolver_schema")
              (lit "resolver response missing user/groups fields"), ?_⟩
            simp only [resolveFinish, if_neg hr, if_neg h5, hi]
          | ok ident =>
            refine .inl ⟨href, ⟨status, data, ident, rfl, href, by omega, hi⟩, ident, ?_⟩
            simp only [resolveFinish, if_neg hr, if_neg h5, hi]

end

end Muster
