import Muster.Auth
import Muster.Lib.Member
import Muster.Lib.PyRepr

/-!
# Distinct principals

Two keys that the resolver vouches for, with any JSON bodies.  `Distinct` is what
keeps their users apart: user ids are equal only for equal user values, groups
only for equal elements of both lists, and malformed answers are refused.  It holds
exactly where `Separate` does (`principals_distinct_iff`): the code does not refuse
a null user value, takes any falsy value, string or dict for the groups, prints user
values of different types alike, and takes `1`, `1.0` and `true` for one group.
-/

namespace Muster

/-- A call of `resolve` that asks the resolver and is answered 2xx, in JSON. -/
structure Resolution (sha256 : PyStr → PyStr) (cfg : Config) where
  key : PyStr
  now : Int
  later : Int
  cache : AuthCache
  status : Nat
  data : Json
  asks : resolveStart sha256 cfg key now cache = none
  success : 200 ≤ status ∧ status < 300

/-- What the call ends with. -/
def Resolution.result [Python] {sha256 : PyStr → PyStr} {cfg : Config} (x : Resolution sha256 cfg) :
    Except AuthExn (Identity Json) :=
  (resolve sha256 cfg x.key x.now (.http x.status (.ok x.data)) x.later x.cache).1

section
variable (cfg : Config) (data : Json)

/-- The user value is null, or the groups value is neither null nor a list. -/
def Malformed : Prop :=
  dig data (fieldPath cfg.userField) = .ok .null ∨
    ∃ g, dig data (fieldPath cfg.groupsField) = .ok g ∧ g ≠ .null ∧ ∀ xs, g ≠ .arr xs

/-- `tuple(g or ())` goes through. -/
def Json.iterable (g : Json) : Bool :=
  !g.truthy || match g with
    | .str _ | .arr _ | .obj _ => true
    | _ => false

/-- The answer has a user value and a groups value that can be made a tuple. -/
def Taken (user groups : Json) : Prop :=
  dig data (fieldPath cfg.userField) = .ok user ∧ dig data (fieldPath cfg.groupsField) = .ok groups ∧
    groups.iterable = true

end

/-- `u` is a string, and the text of `v`, which is none. -/
def Alias [Python] (u v : Json) : Prop := ∃ s, u = .str s ∧ (∀ t, v ≠ .str t) ∧ v.text = s

/-- The two answers name their users and groups apart, or are refused. -/
structure Distinct (cfg : Config) (d₁ d₂ : Json) (r₁ r₂ : Except AuthExn (Identity Json)) : Prop where
  users : ∀ i₁ i₂, r₁ = .ok i₁ → r₂ = .ok i₂ → i₁.userId = i₂.userId → ∃ v, v ≠ .null ∧
    dig d₁ (fieldPath cfg.userField) = .ok v ∧ dig d₂ (fieldPath cfg.userField) = .ok v
  groups : ∀ i₁ i₂, r₁ = .ok i₁ → r₂ = .ok i₂ → ∀ a ∈ i₁.groups, ∀ b ∈ i₂.groups,
    a.sameMember b = true → a = b ∧ ∃ xs ys, dig d₁ (fieldPath cfg.groupsField) = .ok (.arr xs) ∧
      dig d₂ (fieldPath cfg.groupsField) = .ok (.arr ys) ∧ a ∈ xs ∧ b ∈ ys
  refused₁ : Malformed cfg d₁ → ∃ status code message, r₁ = .error (.authError status code message)
  refused₂ : Malformed cfg d₂ → ∃ status code message, r₂ = .error (.authError status code message)

/-- When that is so, of the answers alone. -/
structure Separate [Python] (cfg : Config) (d₁ d₂ : Json) : Prop where
  wellFormed₁ : ∀ u g, Taken cfg d₁ u g → u ≠ .null ∧ (g = .null ∨ ∃ xs, g = .arr xs)
  wellFormed₂ : ∀ u g, Taken cfg d₂ u g → u ≠ .null ∧ (g = .null ∨ ∃ xs, g = .arr xs)
  users : ∀ u g v k, Taken cfg d₁ u g → Taken cfg d₂ v k → ¬ Alias u v ∧ ¬ Alias v u
  groups : ∀ u xs v ys, Taken cfg d₁ u (.arr xs) → Taken cfg d₂ v (.arr ys) →
    ∀ a ∈ xs, ∀ b ∈ ys, a.sameMember b = true → a = b

/-! ## What is accepted -/

theorem pyTuple_or_iff {g : Json} :
    (∃ gs, pyTuple (g.or (.arr [])) = .ok gs) ↔ g.iterable = true := by
  unfold Json.or Json.iterable
  cases ht : g.truthy with
  | false => exact ⟨fun _ => rfl, fun _ => ⟨[], rfl⟩⟩
  | true =>
    cases g with
    | str | arr | obj => exact ⟨fun _ => rfl, fun _ => ⟨_, rfl⟩⟩
    | _ => exact ⟨nofun, nofun⟩

theorem pyTuple_or_arr (xs : List Json) : pyTuple ((Json.arr xs).or (.arr [])) = .ok xs := by
  cases xs <;> rfl

/-- Without a list there are no groups. -/
theorem eq_arr_of_mem {g : Json} {gs : List Json} {a : Json} (hg : g = .null ∨ ∃ xs, g = .arr xs)
    (ht : pyTuple (g.or (.arr [])) = .ok gs) (ha : a ∈ gs) : g = .arr gs := by
  rcases hg with rfl | ⟨xs, rfl⟩
  · cases ht
    cases ha
  · rw [pyTuple_or_arr] at ht
    rw [Except.ok.inj ht]

section
variable [Python] {sha256 : PyStr → PyStr} {cfg : Config}

/-- An answer is accepted if it is taken; the identity is the text of the one value and
the members of the other. -/
theorem identityOf_ok_iff {data : Json} {i : Identity Json} : identityOf cfg data = .ok i ↔
    ∃ u g, Taken cfg data u g ∧ i.userId = u.text ∧ pyTuple (g.or (.arr [])) = .ok i.groups := by
  unfold identityOf Taken
  constructor
  · intro h
    cases hu : dig data (fieldPath cfg.userField) with
    | error e => rw [hu] at h; cases h
    | ok u =>
      rw [hu] at h
      cases hg : dig data (fieldPath cfg.groupsField) with
      | error e => rw [hg] at h; cases h
      | ok g =>
        rw [hg] at h
        cases ht : pyTuple (g.or (.arr [])) with
        | error e =>
          change (pyTuple (g.or (.arr [])) >>= _) = _ at h
          rw [ht] at h
          cases h
        | ok gs =>
          change (pyTuple (g.or (.arr [])) >>= _) = _ at h
          rw [ht] at h
          cases h
          exact ⟨u, g, ⟨rfl, rfl, pyTuple_or_iff.1 ⟨gs, ht⟩⟩, rfl, ht⟩
  · rintro ⟨u, g, ⟨hu, hg, -⟩, huser, hgroups⟩
    rw [hu, hg]
    show (pyTuple (g.or (.arr [])) >>= _) = _
    rw [hgroups]
    obtain ⟨userId, groups⟩ := i
    exact congrArg (fun x => Except.ok (Identity.mk x groups)) huser.symm

def schemaError : AuthExn := .authError 502 (lit "resolver_schema")
  (lit "resolver response missing user/groups fields")

theorem result_eq (x : Resolution sha256 cfg) :
    x.result = match identityOf cfg x.data with
      | .ok i => .ok i
      | .error _ => .error schemaError := by
  have h : ¬ (x.status = 400 ∨ x.status = 401 ∨ x.status = 403) := by have := x.success; omega
  have h' : ¬ 500 ≤ x.status := by have := x.success; omega
  unfold Resolution.result resolve
  rw [x.asks]
  simp only [resolveFinish, h, h', if_false]
  cases identityOf cfg x.data <;> rfl

theorem result_ok_iff {x : Resolution sha256 cfg} {i : Identity Json} : x.result = .ok i ↔
    ∃ u g, Taken cfg x.data u g ∧ i.userId = u.text ∧ pyTuple (g.or (.arr [])) = .ok i.groups := by
  rw [← identityOf_ok_iff, result_eq]
  cases identityOf cfg x.data with
  | error e => exact ⟨nofun, nofun⟩
  | ok j => exact ⟨fun h => by cases h; rfl, fun h => by cases h; rfl⟩

theorem result_of_taken {x : Resolution sha256 cfg} {u g : Json} (h : Taken cfg x.data u g) :
    ∃ i, x.result = .ok i ∧ i.userId = u.text ∧ pyTuple (g.or (.arr [])) = .ok i.groups := by
  obtain ⟨gs, hgs⟩ := pyTuple_or_iff.2 h.2.2
  exact ⟨⟨u.text, gs⟩, result_ok_iff.2 ⟨u, g, h, rfl, hgs⟩, rfl, hgs⟩

/-! ## One answer -/

/-- Malformed answers are refused if no malformed one is taken. -/
theorem refused_iff (x : Resolution sha256 cfg) :
    (Malformed cfg x.data → ∃ status code message,
      x.result = .error (.authError status code message)) ↔
    ∀ u g, Taken cfg x.data u g → u ≠ .null ∧ (g = .null ∨ ∃ xs, g = .arr xs) := by
  constructor
  · intro h u g ht
    obtain ⟨i, hi, -⟩ := result_of_taken ht
    have hwell : ¬ Malformed cfg x.data := by
      intro hm
      obtain ⟨status, code, message, hr⟩ := h hm
      rw [hi] at hr
      cases hr
    refine ⟨fun hu => hwell (.inl (hu ▸ ht.1)), ?_⟩
    by_contra hg
    exact hwell (.inr ⟨g, ht.2.1, fun e => hg (.inl e), fun xs e => hg (.inr ⟨xs, e⟩)⟩)
  · intro h hm
    cases hr : x.result with
    | error e =>
      rw [result_eq] at hr
      cases hi : identityOf cfg x.data with
      | ok i => rw [hi] at hr; cases hr
      | error e' =>
        rw [hi] at hr
        cases hr
        exact ⟨_, _, _, rfl⟩
    | ok i =>
      obtain ⟨u, g, ht, -⟩ := result_ok_iff.1 hr
      obtain ⟨hu, hg⟩ := h u g ht
      rcases hm with hm | ⟨g', hg', hnull, harr⟩
      · rw [ht.1] at hm
        exact absurd (Except.ok.inj hm) hu
      · rw [ht.2.1] at hg'
        cases hg'
        rcases hg with rfl | ⟨xs, rfl⟩
        · exact absurd rfl hnull
        · exact absurd rfl (harr xs)

/-! ## Two answers -/

/-- Texts of values are equal only for equal values, or for a string and its alias. -/
theorem eq_of_text_eq {u v : Json} (h : u.text = v.text) (huv : ¬ Alias u v) (hvu : ¬ Alias v u) :
    u = v := by
  by_cases hu : ∃ s, u = .str s
  · obtain ⟨s, rfl⟩ := hu
    by_cases hv : ∃ t, v = .str t
    · obtain ⟨t, rfl⟩ := hv
      exact congrArg Json.str h
    · exact absurd ⟨s, rfl, fun t e => hv ⟨t, e⟩, h.symm⟩ huv
  · by_cases hv : ∃ t, v = .str t
    · obtain ⟨t, rfl⟩ := hv
      exact absurd ⟨t, rfl, fun s e => hu ⟨s, e⟩, h⟩ hvu
    · exact Json.text_injective (fun s e => hu ⟨s, e⟩) (fun t e => hv ⟨t, e⟩) h

variable {x y : Resolution sha256 cfg}

/-- What keeping two answers apart asks of them. -/
theorem Distinct.separate (h : Distinct cfg x.data y.data x.result y.result) :
    Separate cfg x.data y.data := by
  refine ⟨(refused_iff x).1 h.refused₁, (refused_iff y).1 h.refused₂, ?_, ?_⟩
  · intro u g v k hu hv
    obtain ⟨i, hi, hiu, -⟩ := result_of_taken hu
    obtain ⟨j, hj, hju, -⟩ := result_of_taken hv
    -- one value where the two texts are equal
    have hone : u.text = v.text → u = v := by
      intro e
      obtain ⟨w, -, hw, hw'⟩ := h.users i j hi hj (by rw [hiu, hju, e])
      rw [hu.1] at hw
      rw [hv.1] at hw'
      rw [Except.ok.inj hw, Except.ok.inj hw']
    constructor
    · rintro ⟨s, rfl, hne, hs⟩
      exact hne s (hone hs.symm).symm
    · rintro ⟨s, rfl, hne, hs⟩
      exact hne s (hone hs)
  · intro u xs v ys hu hv a ha b hb hab
    obtain ⟨i, hi, -, hig⟩ := result_of_taken hu
    obtain ⟨j, hj, -, hjg⟩ := result_of_taken hv
    rw [pyTuple_or_arr] at hig hjg
    cases Except.ok.inj hig
    cases Except.ok.inj hjg
    exact (h.groups i j hi hj a ha b hb hab).1

theorem Separate.distinct (h : Separate cfg x.data y.data) :
    Distinct cfg x.data y.data x.result y.result := by
  refine ⟨?_, ?_, (refused_iff x).2 h.wellFormed₁, (refused_iff y).2 h.wellFormed₂⟩
  · intro i j hi hj hij
    obtain ⟨u, g, hu, hiu, -⟩ := result_ok_iff.1 hi
    obtain ⟨v, k, hv, hjv, -⟩ := result_ok_iff.1 hj
    obtain ⟨huv, hvu⟩ := h.users u g v k hu hv
    obtain rfl := eq_of_text_eq (by rw [← hiu, ← hjv, hij]) huv hvu
    exact ⟨u, (h.wellFormed₁ u g hu).1, hu.1, hv.1⟩
  · intro i j hi hj a ha b hb hab
    obtain ⟨u, g, hu, -, hig⟩ := result_ok_iff.1 hi
    obtain ⟨v, k, hv, -, hjk⟩ := result_ok_iff.1 hj
    obtain rfl := eq_arr_of_mem (h.wellFormed₁ u g hu).2 hig ha
    obtain rfl := eq_arr_of_mem (h.wellFormed₂ v k hv).2 hjk hb
    exact ⟨h.groups u _ v _ hu hv a ha b hb hab, _, _, hu.2.1, hv.2.1, ha, hb⟩

/-- **When principals are kept apart.** -/
theorem principals_distinct_iff (x y : Resolution sha256 cfg) :
    Distinct cfg x.data y.data x.result y.result ↔ Separate cfg x.data y.data :=
  ⟨Distinct.separate, Separate.distinct⟩

end

/-- A resolver is configured; the rest is as it comes. -/
def resolverConfig : Config := { Config.defaults with resolverUrl := some (lit "http://resolver") }

/-- The resolver's 200 to a key, in two of the default fields. -/
def answered (key : String) (user groups : Json)
    (h : resolveStart id resolverConfig (lit key) 0 (fun _ => none) = none) :
    Resolution id resolverConfig where
  key := lit key
  now := 0
  later := 100
  cache _ := none
  status := 200
  data := .obj (dict [("user_id", user), ("teams", groups)])
  asks := h
  success := by decide

/-- A null user and the user `None` become one. -/
theorem null_user_merges :
    let x := answered "k1" .null (.arr []) rfl
    let y := answered "k2" (.str (lit "None")) (.arr []) rfl
    (@Resolution.result Python.plain _ _ x = .ok ⟨lit "None", []⟩ ∧
      @Resolution.result Python.plain _ _ y = .ok ⟨lit "None", []⟩) ∧
    ¬ Distinct resolverConfig x.data y.data (@Resolution.result Python.plain _ _ x)
      (@Resolution.result Python.plain _ _ y) := by
  intro x y
  have hx : @Resolution.result Python.plain _ _ x = .ok ⟨lit "None", []⟩ := rfl
  refine ⟨⟨hx, rfl⟩, ?_⟩
  intro h
  obtain ⟨status, code, message, hr⟩ := h.refused₁ (.inl rfl)
  rw [hx] at hr
  cases hr

end Muster
