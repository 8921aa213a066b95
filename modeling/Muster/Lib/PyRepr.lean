import Muster.Lib.Json

/-!
# `repr` is injective

A printed value can be read back, also in front of other text: `Splits f` says that
`f` can be split off the front of any text that follows it as lists and dicts have
it, that is up to a delimiter.  Each part of a value is printed so: an escaped
character (`readChar` reads it back), a string up to its closing quote, a number up
to a delimiter, a list or dict up to its bracket (`sep_append_inj`).

So `str` of a value determines it, among the values that are not strings
(`Json.text_injective`).
-/

namespace Muster

namespace PyStr

/-! ## Escaped characters -/

def hexVal (c : CodePoint) : Nat := if c < 58 then c.val - 48 else c.val - 87

/-- The number whose last digits are `s`. -/
def readHex (s : PyStr) : Nat := s.foldl (fun n c => 16 * n + hexVal c) 0

/-- The first character of an escaped text, and what is left. -/
def readChar : PyStr → Option (CodePoint × PyStr)
  | [] => none
  | [c] => some (c, [])
  | c :: e :: s =>
    if c = 92 then
      if e = 116 then some (9, s)
      else if e = 110 then some (10, s)
      else if e = 114 then some (13, s)
      else if e = 120 then some (Fin.ofNat _ (readHex (s.take 2)), s.drop 2)
      else if e = 117 then some (Fin.ofNat _ (readHex (s.take 4)), s.drop 4)
      else if e = 85 then some (Fin.ofNat _ (readHex (s.take 8)), s.drop 8)
      else some (e, s)
    else some (c, e :: s)

theorem hexVal_hexChar : ∀ n < 16, hexVal (hexChar n) = n := by decide

theorem length_hex (w n : Nat) : (hex w n).length = w := by
  induction w generalizing n with
  | zero => rfl
  | succ w ih => simp [hex, ih]

theorem readHex_hex {w n : Nat} (h : n < 16 ^ w) : readHex (hex w n) = n := by
  induction w generalizing n with
  | zero =>
    have : n = 0 := by simpa using h
    rw [this]
    rfl
  | succ w ih =>
    have hdiv : n / 16 < 16 ^ w := by
      rw [Nat.div_lt_iff_lt_mul (by decide), ← Nat.pow_succ]
      exact h
    have ih' : (hex w (n / 16)).foldl (fun n c => 16 * n + hexVal c) 0 = n / 16 := ih hdiv
    unfold readHex hex
    rw [List.foldl_append, ih']
    simp only [List.foldl_cons, List.foldl_nil, hexVal_hexChar _ (Nat.mod_lt n (by decide : 16 > 0))]
    omega

/-- A hexadecimal escape reads back. -/
theorem take_hex_append {w : Nat} {c : CodePoint} (h : c.val < 16 ^ w) (r : PyStr) :
    (Fin.ofNat 0x110000 (readHex ((hex w c ++ r).take w)), (hex w c ++ r).drop w) = (c, r) := by
  have hw : (hex w c.val).length = w := length_hex w c
  rw [List.take_append_of_le_length hw.ge, List.take_of_length_le hw.le, readHex_hex h,
    List.drop_append_of_le_length hw.ge, List.drop_of_length_le hw.le, List.nil_append]
  simp

theorem readChar_plain {c : CodePoint} (h : c ≠ 92) (r : PyStr) : readChar (c :: r) = some (c, r) := by
  cases r with
  | nil => rfl
  | cons e r => exact if_neg h

theorem readChar_reprChar [Python] {q : CodePoint} (hq : q = 39 ∨ q = 34) (c : CodePoint) (r : PyStr) :
    readChar (reprChar q c ++ r) = some (c, r) := by
  unfold reprChar
  split
  · next h =>
    have hc : c = 39 ∨ c = 34 ∨ c = 92 := by
      rcases h with rfl | rfl
      · exact hq.imp id .inl
      · exact .inr (.inr rfl)
    rcases hc with rfl | rfl | rfl <;> rfl
  · next h =>
    have hplain : c ≠ 92 := fun e => h (.inr e)
    split
    · next e => subst e; rfl
    · split
      · next e => subst e; rfl
      · split
        · next e => subst e; rfl
        · split
          · next hlt =>
            have : c.val < 16 ^ 2 := by
              rcases hlt with hlt | rfl
              · exact lt_trans (Fin.lt_def.1 hlt) (by decide)
              · decide
            exact congrArg some (take_hex_append this r)
          · split
            · exact readChar_plain hplain r
            · split
              · next hlt => exact congrArg some (take_hex_append (Fin.lt_def.1 hlt) r)
              · split
                · next hlt => exact congrArg some (take_hex_append (Fin.lt_def.1 hlt) r)
                · exact congrArg some (take_hex_append (lt_trans c.isLt (by decide)) r)

/-- No escaped text starts with the closing quote. -/
theorem reprChar_head [Python] {q : CodePoint} (hq : q = 39 ∨ q = 34) (c : CodePoint) :
    ∃ a l, reprChar q c = a :: l ∧ a ≠ q := by
  have hne : (92 : CodePoint) ≠ q := by rcases hq with rfl | rfl <;> decide
  unfold reprChar
  split
  · exact ⟨_, _, rfl, hne⟩
  · next h =>
    have hcq : c ≠ q := fun e => h (.inl e)
    split_ifs
    · exact ⟨_, _, rfl, hne⟩
    · exact ⟨_, _, rfl, hne⟩
    · exact ⟨_, _, rfl, hne⟩
    · exact ⟨_, _, rfl, hne⟩
    · exact ⟨_, _, rfl, hcq⟩
    · exact ⟨_, _, rfl, hne⟩
    · exact ⟨_, _, rfl, hne⟩
    · exact ⟨_, _, rfl, hne⟩

/-! ## Strings -/

theorem body_append_inj [Python] {q : CodePoint} (hq : q = 39 ∨ q = 34) (s t r r' : PyStr)
    (h : s.flatMap (reprChar q) ++ q :: r = t.flatMap (reprChar q) ++ q :: r') :
    s = t ∧ r = r' := by
  have hend : ∀ (c : CodePoint) (t r r' : PyStr),
      q :: r ≠ (c :: t).flatMap (reprChar q) ++ q :: r' := by
    intro c t r r' h
    obtain ⟨a, l, hl, hne⟩ := reprChar_head hq c
    rw [List.flatMap_cons, hl] at h
    exact hne (List.cons.inj h).1.symm
  induction s generalizing t with
  | nil =>
    cases t with
    | nil => exact ⟨rfl, (List.cons.inj h).2⟩
    | cons c t => exact absurd h (hend c t r r')
  | cons c s ih =>
    cases t with
    | nil => exact absurd h.symm (hend c s r' r)
    | cons d t =>
      rw [List.flatMap_cons, List.flatMap_cons, List.append_assoc, List.append_assoc] at h
      have hread := congrArg readChar h
      rw [readChar_reprChar hq, readChar_reprChar hq] at hread
      obtain ⟨rfl, hrest⟩ := Prod.mk.inj (Option.some.inj hread)
      obtain ⟨rfl, rfl⟩ := ih t hrest
      exact ⟨rfl, rfl⟩

theorem reprQuote_cases (s : PyStr) : reprQuote s = 39 ∨ reprQuote s = 34 := by
  unfold reprQuote
  split
  · exact .inr rfl
  · exact .inl rfl

theorem repr_append_inj [Python] {s t r r' : PyStr} (h : repr s ++ r = repr t ++ r') : s = t ∧ r = r' := by
  simp only [repr, List.cons_append, List.append_assoc, List.nil_append, List.cons.injEq] at h
  obtain ⟨hq, h⟩ := h
  rw [← hq] at h
  exact body_append_inj (reprQuote_cases s) s t r r' h

/-! ## Integers -/

theorem digits_map_digitChar (l : List Nat) (h : ∀ d ∈ l, d < 10) :
    PyFloat.digits (l.reverse.map digitChar) = Nat.ofDigits 10 l := by
  unfold PyFloat.digits
  induction l with
  | nil => rfl
  | cons d l ih =>
    have hd : (digitChar d).val = 48 + d := by
      have := h d List.mem_cons_self
      exact Nat.mod_eq_of_lt (by omega)
    rw [List.reverse_cons, List.map_append, List.foldl_append,
      ih fun e he => h e (List.mem_cons_of_mem _ he), Nat.ofDigits_cons]
    simp only [List.map_cons, List.map_nil, List.foldl_cons, List.foldl_nil, hd]
    omega

/-- A printed natural number reads back. -/
theorem digits_strNat (n : Nat) : PyFloat.digits (strNat n) = n := by
  unfold strNat
  split
  · next h => rw [h]; rfl
  · rw [digits_map_digitChar _ fun d hd => Nat.digits_lt_base (by decide) hd, Nat.ofDigits_digits]

theorem isDigit_digitChar {d : Nat} (h : d < 10) : isDigit (digitChar d) = true := by
  have : ∀ d < 10, isDigit (digitChar d) = true := by decide
  exact this d h

theorem isDigit_of_mem_strNat {n : Nat} {c : CodePoint} (h : c ∈ strNat n) : isDigit c = true := by
  unfold strNat at h
  split at h
  · rw [List.mem_singleton.1 h]; rfl
  · obtain ⟨d, hd, rfl⟩ := List.mem_map.1 h
    exact isDigit_digitChar (Nat.digits_lt_base (by decide) (List.mem_reverse.1 hd))

theorem strNat_ne_nil (n : Nat) : strNat n ≠ [] := by
  unfold strNat
  split
  · exact List.cons_ne_nil _ _
  · next h => simpa [Nat.digits_eq_nil_iff_eq_zero] using h

theorem strInt_injective {m n : Int} (h : strInt m = strInt n) : m = n := by
  have hnat : ∀ {a b : Nat}, strNat a = strNat b → a = b := fun {a b} h => by
    rw [← digits_strNat a, h, digits_strNat]
  -- no natural number prints with a sign
  have hsign : ∀ a b : Nat, strNat a ≠ 45 :: strNat b := by
    intro a b h
    have := isDigit_of_mem_strNat (n := a) (c := 45) (h ▸ List.mem_cons_self)
    exact absurd this (by decide)
  cases m with
  | ofNat a =>
    cases n with
    | ofNat b => exact congrArg Int.ofNat (hnat h)
    | negSucc b => exact absurd h (hsign a (b + 1))
  | negSucc a =>
    cases n with
    | ofNat b => exact absurd h.symm (hsign b (a + 1))
    | negSucc b =>
      have := hnat (List.cons.inj h).2
      exact congrArg Int.negSucc (by omega)

end PyStr

/-! ## Tokens -/

/-- Neither a quote nor a bracket nor a comma. -/
def isPlain (c : CodePoint) : Bool :=
  !(c == 34 || c == 39 || c == 44 || c == 91 || c == 93 || c == 123 || c == 125)

/-- The text that follows a printed value: nothing, or a delimiter. -/
def Delimited (r : PyStr) : Prop := ∀ c ∈ r.head?, isPlain c = false

theorem plain_append_inj {a b r s : PyStr} (ha : a.all isPlain = true) (hb : b.all isPlain = true)
    (hr : Delimited r) (hs : Delimited s) (h : a ++ r = b ++ s) : a = b ∧ r = s := by
  have hstop : ∀ {c : CodePoint} {t r : PyStr}, isPlain c = true → Delimited r → r ≠ c :: t := by
    rintro c t r hc hr rfl
    rw [hr c rfl] at hc
    cases hc
  induction a generalizing b with
  | nil =>
    cases b with
    | nil => exact ⟨rfl, h⟩
    | cons d b => exact absurd h (hstop (List.all_eq_true.1 hb d List.mem_cons_self) hr)
  | cons c a ih =>
    cases b with
    | nil => exact absurd h.symm (hstop (List.all_eq_true.1 ha c List.mem_cons_self) hs)
    | cons d b =>
      obtain ⟨rfl, hrest⟩ := List.cons.inj h
      rw [List.all_cons, Bool.and_eq_true] at ha hb
      obtain ⟨rfl, rfl⟩ := ih ha.2 hb.2 hrest
      exact ⟨rfl, rfl⟩

theorem isPlain_of_isDigit {c : CodePoint} (h : PyStr.isDigit c = true) : isPlain c = true := by
  have hc : 48 ≤ c.val ∧ c.val ≤ 57 := by simpa [PyStr.isDigit, Fin.le_def] using h
  obtain ⟨v, hv⟩ := c
  obtain ⟨hlo, hhi⟩ := hc
  dsimp only at hlo hhi
  interval_cases v <;> rfl

theorem strInt_cases (n : Int) : ∃ k, PyStr.strInt n = PyStr.strNat k ∨ PyStr.strInt n = 45 :: PyStr.strNat k := by
  cases n with
  | ofNat k => exact ⟨k, .inl rfl⟩
  | negSucc k => exact ⟨k + 1, .inr rfl⟩

namespace PyFloat

/-- All digits is no decimal. -/
theorem isDecimal_digits {t : PyStr} (h : ∀ c ∈ t, PyStr.isDigit c = true) : isDecimal t = false := by
  unfold isDecimal
  rw [List.dropWhile_eq_nil_iff.2 h, Bool.and_false]

theorem isText_plain {t : PyStr} (h : isText t = true) : t.all isPlain = true := by
  refine isText_all ?_ h
  rintro c (hc | hc)
  · exact isPlain_of_isDigit hc
  · have hmarks : (lit "+-.aefin").all isPlain = true := rfl
    exact List.all_eq_true.1 hmarks c hc

/-- An integer, printed, is no float. -/
theorem isText_strInt (n : Int) : isText (PyStr.strInt n) = false := by
  obtain ⟨k, hk⟩ := strInt_cases n
  have hdigits : ∀ c ∈ PyStr.strNat k, PyStr.isDigit c = true := fun c hc =>
    PyStr.isDigit_of_mem_strNat hc
  have hdec := isDecimal_digits hdigits
  have hinf : PyStr.strNat k ≠ lit "inf" := fun e =>
    absurd (hdigits 105 (by rw [e]; decide)) (by decide)
  have hnan : PyStr.strNat k ≠ lit "nan" := fun e =>
    absurd (hdigits 110 (by rw [e]; decide)) (by decide)
  cases hs : PyStr.strNat k with
  | nil => exact absurd hs (PyStr.strNat_ne_nil k)
  | cons c r =>
    have hc : c ≠ 45 := by
      rintro rfl
      exact absurd (hdigits 45 (by rw [hs]; exact List.mem_cons_self)) (by decide)
    rw [hs] at hk hdec hinf hnan
    rcases hk with hk | hk
    · rw [hk]
      simp [isText, hc, hdec, hinf, hnan]
    · rw [hk]
      have hnan' : (45 :: c :: r : PyStr) ≠ lit "nan" := by
        intro e
        have : (45 : CodePoint) = 110 := (List.cons.inj e).1
        exact absurd this (by decide)
      simp [isText, hdec, hinf, hnan']

theorem text_ne_strInt (x : PyFloat) (n : Int) : x.text ≠ PyStr.strInt n := by
  intro h
  have hx := x.printed
  rw [h, isText_strInt] at hx
  cases hx

end PyFloat

namespace Json

/-! ## Numbers and words -/

theorem strNat_plain (k : Nat) : (PyStr.strNat k).all isPlain = true :=
  List.all_eq_true.2 fun _ hc => isPlain_of_isDigit (PyStr.isDigit_of_mem_strNat hc)

/-- The words are no numbers. -/
theorem number_ne_word {w : PyStr} (hw : w ∈ [lit "None", lit "True", lit "False"]) :
    (∀ n, PyStr.strInt n ≠ w) ∧ ∀ x : PyFloat, x.text ≠ w := by
  have hletter : ∃ c ∈ w, PyStr.isDigit c = false ∧ c ≠ 45 := by
    simp only [List.mem_cons, List.not_mem_nil, or_false] at hw
    rcases hw with rfl | rfl | rfl <;> exact ⟨101, by decide, by decide, by decide⟩
  have hfloat : ∀ w ∈ [lit "None", lit "True", lit "False"], PyFloat.isText w = false := by decide
  constructor
  · rintro n rfl
    obtain ⟨c, hc, hd, hne⟩ := hletter
    have hdig : ∀ k, c ∉ PyStr.strNat k := by
      intro k hk
      rw [PyStr.isDigit_of_mem_strNat hk] at hd
      cases hd
    obtain ⟨k, hk | hk⟩ := strInt_cases n
    · rw [hk] at hc
      exact hdig k hc
    · rw [hk] at hc
      exact (List.mem_cons.1 hc).elim hne (hdig k)
  · rintro x rfl
    have hx := x.printed
    rw [hfloat _ hw] at hx
    cases hx

variable [Python]

/-! ## Values without brackets or quotes -/

/-- Which kind of value a printed text is, by its first character. -/
def lead (c : CodePoint) : Nat :=
  if isPlain c then 0
  else if c = 39 ∨ c = 34 then 1
  else if c = 91 then 2
  else if c = 123 then 3
  else 4

/-- 0: `None`, a boolean or a number; 1: a string; 2: a list; 3: a dict. -/
def kind : Json → Nat
  | str _ => 1
  | arr _ => 2
  | obj _ => 3
  | _ => 0

theorem repr_scalar_plain {x : Json} (h : x.kind = 0) : x.repr.all isPlain = true ∧ x.repr ≠ [] := by
  cases x with
  | null => exact ⟨rfl, List.cons_ne_nil _ _⟩
  | bool b => cases b <;> exact ⟨rfl, List.cons_ne_nil _ _⟩
  | int n =>
    obtain ⟨k, hk | hk⟩ := strInt_cases n
    · rw [repr, hk]
      exact ⟨strNat_plain k, PyStr.strNat_ne_nil k⟩
    · rw [repr, hk, List.all_cons, strNat_plain k]
      exact ⟨rfl, List.cons_ne_nil _ _⟩
  | float x =>
    refine ⟨PyFloat.isText_plain x.printed, ?_⟩
    intro h
    have hx := x.printed
    rw [show x.text = [] from h] at hx
    cases hx
  | _ => cases h

theorem repr_lead (x : Json) : ∃ c l, x.repr = c :: l ∧ lead c = x.kind := by
  have hscalar : x.kind = 0 → ∃ c l, x.repr = c :: l ∧ lead c = x.kind := by
    intro h
    obtain ⟨hplain, hne⟩ := repr_scalar_plain h
    obtain ⟨c, l, hcl⟩ := List.exists_cons_of_ne_nil hne
    rw [hcl, List.all_cons, Bool.and_eq_true] at hplain
    exact ⟨c, l, hcl, by rw [h, lead, if_pos hplain.1]⟩
  cases x with
  | str s =>
    refine ⟨_, _, rfl, ?_⟩
    rcases PyStr.reprQuote_cases s with hq | hq <;> rw [hq] <;> rfl
  | arr xs => exact ⟨91, _, rfl, rfl⟩
  | obj kvs => exact ⟨123, _, rfl, rfl⟩
  | _ => exact hscalar rfl

theorem kind_eq_of_append {x y : Json} {r s : PyStr} (h : x.repr ++ r = y.repr ++ s) :
    x.kind = y.kind := by
  obtain ⟨c, l, hx, hc⟩ := repr_lead x
  obtain ⟨d, m, hy, hd⟩ := repr_lead y
  rw [hx, hy] at h
  rw [← hc, ← hd, (List.cons.inj h).1]

/-- The word a value prints as, if it is no number. -/
theorem repr_word (b : Bool) : repr null = lit "None" ∧ repr (bool b) = (if b then lit "True" else lit "False") ∧
    repr (bool b) ∈ [lit "None", lit "True", lit "False"] := by
  cases b <;> exact ⟨rfl, rfl, by simp [repr]⟩

theorem repr_scalar_inj {x y : Json} (hx : x.kind = 0) (hy : y.kind = 0) (h : x.repr = y.repr) :
    x = y := by
  have hnone : ∀ b, repr null ≠ repr (bool b) := by
    have : lit "None" ≠ lit "True" ∧ lit "None" ≠ lit "False" := by decide
    intro b
    cases b
    · exact this.2
    · exact this.1
  have hbool : repr (bool true) ≠ repr (bool false) := by
    have : lit "True" ≠ lit "False" := by decide
    exact this
  obtain ⟨hnint, hnfloat⟩ := number_ne_word (w := repr null) List.mem_cons_self
  have hb := fun b => number_ne_word (repr_word b).2.2
  cases x with
  | null =>
    cases y with
    | null => rfl
    | bool b => exact absurd h (hnone b)
    | int n => exact absurd h.symm (hnint n)
    | float y => exact absurd h.symm (hnfloat y)
    | _ => cases hy
  | bool b =>
    cases y with
    | null => exact absurd h.symm (hnone b)
    | bool b' =>
      cases b <;> cases b'
      · rfl
      · exact absurd h.symm hbool
      · exact absurd h hbool
      · rfl
    | int n => exact absurd h.symm ((hb b).1 n)
    | float y => exact absurd h.symm ((hb b).2 y)
    | _ => cases hy
  | int m =>
    cases y with
    | null => exact absurd h (hnint m)
    | bool b => exact absurd h ((hb b).1 m)
    | int n => rw [PyStr.strInt_injective h]
    | float y => exact absurd h.symm (y.text_ne_strInt m)
    | _ => cases hy
  | float x =>
    cases y with
    | null => exact absurd h (hnfloat x)
    | bool b => exact absurd h ((hb b).2 x)
    | int n => exact absurd h (x.text_ne_strInt n)
    | float y =>
      obtain ⟨t, ht⟩ := x
      obtain ⟨u, hu⟩ := y
      obtain rfl : t = u := h
      rfl
    | _ => cases hy
  | _ => cases hx

/-! ## Lists and dicts -/

/-- What `f` prints can be split off the front of any text that a delimiter starts. -/
def Splits {α : Type} (f : α → PyStr) (x : α) : Prop :=
  ∀ y r s, Delimited r → Delimited s → f x ++ r = f y ++ s → x = y ∧ r = s

omit [Python] in
theorem sep_append_inj {α : Type} {f : α → PyStr} {close : CodePoint} (hclose : isPlain close = false)
    (hcomma : close ≠ 44) (hhead : ∀ y, ∃ c l, f y = c :: l ∧ c ≠ close) (xs ys : List α)
    (hxs : ∀ x ∈ xs, Splits f x) {r s : PyStr}
    (h : sep (lit ", ") (xs.map f) ++ close :: r = sep (lit ", ") (ys.map f) ++ close :: s) :
    xs = ys ∧ r = s := by
  -- what follows the first element
  have hcons : ∀ (x : α) (xs : List α) (r : PyStr), sep (lit ", ") ((x :: xs).map f) ++ close :: r =
      f x ++ bif xs.isEmpty then close :: r else 44 :: 32 :: (sep (lit ", ") (xs.map f) ++ close :: r) := by
    intro x xs r
    cases xs with
    | nil => rfl
    | cons x' xs => simp [sep, lit]
  have hdelim : ∀ (xs : List α) (r : PyStr), Delimited (bif xs.isEmpty then close :: r
      else 44 :: 32 :: (sep (lit ", ") (xs.map f) ++ close :: r)) := by
    intro xs r c hc
    cases xs with
    | nil => cases hc; exact hclose
    | cons x xs => cases hc; rfl
  have hend : ∀ (y : α) (ys : List α) (r s : PyStr),
      close :: r ≠ sep (lit ", ") ((y :: ys).map f) ++ close :: s := by
    intro y ys r s h
    obtain ⟨c, l, hc, hne⟩ := hhead y
    rw [hcons, hc] at h
    exact hne (List.cons.inj h).1.symm
  induction xs generalizing ys with
  | nil =>
    cases ys with
    | nil => exact ⟨rfl, (List.cons.inj h).2⟩
    | cons y ys => exact absurd h (hend y ys r s)
  | cons x xs ih =>
    cases ys with
    | nil => exact absurd h.symm (hend x xs s r)
    | cons y ys =>
      rw [hcons, hcons] at h
      obtain ⟨rfl, hrest⟩ := hxs x List.mem_cons_self y _ _ (hdelim xs r) (hdelim ys s) h
      cases xs with
      | nil =>
        cases ys with
        | nil => exact ⟨rfl, (List.cons.inj hrest).2⟩
        | cons y' ys => exact absurd (List.cons.inj hrest).1 hcomma
      | cons x' xs =>
        cases ys with
        | nil => exact absurd (List.cons.inj hrest).1.symm hcomma
        | cons y' ys =>
          obtain ⟨hxs', rfl⟩ := ih _ (fun x hx => hxs x (List.mem_cons_of_mem _ hx))
            (List.cons.inj (List.cons.inj hrest).2).2
          exact ⟨by rw [hxs'], rfl⟩

theorem reprs_eq_map (xs : List Json) : reprs xs = xs.map repr := by
  induction xs with
  | nil => rfl
  | cons x xs ih => exact congrArg (x.repr :: ·) ih

/-- `repr(k): repr(v)`. -/
def reprField (kv : PyStr × Json) : PyStr := PyStr.repr kv.1 ++ lit ": " ++ repr kv.2

theorem reprFields_eq_map (kvs : List (PyStr × Json)) : reprFields kvs = kvs.map reprField := by
  induction kvs with
  | nil => rfl
  | cons kv kvs ih => exact congrArg (reprField kv :: ·) ih

theorem splits_reprField {kv : PyStr × Json} (h : Splits repr kv.2) : Splits reprField kv := by
  intro kw r s hr hs heq
  unfold reprField at heq
  simp only [List.append_assoc] at heq
  obtain ⟨hk, hrest⟩ := PyStr.repr_append_inj heq
  obtain ⟨hv, hrs⟩ := h _ _ _ hr hs (List.append_cancel_left hrest)
  exact ⟨Prod.ext hk hv, hrs⟩

theorem splits_scalar {x : Json} (hx : x.kind = 0) : Splits repr x := by
  intro y r s hr hs h
  have hy : y.kind = 0 := kind_eq_of_append h ▸ hx
  obtain ⟨hrepr, hrs⟩ := plain_append_inj (repr_scalar_plain hx).1 (repr_scalar_plain hy).1 hr hs h
  exact ⟨repr_scalar_inj hx hy hrepr, hrs⟩

theorem splits_str (a : PyStr) : Splits repr (str a) := by
  intro y r s _ _ h
  have hkind := kind_eq_of_append h
  cases y with
  | str b =>
    obtain ⟨rfl, rfl⟩ := PyStr.repr_append_inj h
    exact ⟨rfl, rfl⟩
  | _ => cases hkind

theorem splits_arr {xs : List Json} (hxs : ∀ x ∈ xs, Splits repr x) : Splits repr (arr xs) := by
  intro y r s _ _ h
  have hkind := kind_eq_of_append h
  have hhead : ∀ y : Json, ∃ c l, y.repr = c :: l ∧ c ≠ 93 := by
    intro y
    obtain ⟨c, l, hy, hc⟩ := repr_lead y
    refine ⟨c, l, hy, ?_⟩
    rintro rfl
    cases y <;> cases hc
  cases y with
  | arr ys =>
    simp only [repr, reprs_eq_map, List.append_assoc] at h
    obtain ⟨rfl, rfl⟩ := sep_append_inj rfl (by decide) hhead xs ys hxs (List.append_cancel_left h)
    exact ⟨rfl, rfl⟩
  | _ => cases hkind

theorem splits_obj {kvs : List (PyStr × Json)} (hkvs : ∀ kv ∈ kvs, Splits repr kv.2) :
    Splits repr (obj kvs) := by
  intro y r s _ _ h
  have hkind := kind_eq_of_append h
  have hhead : ∀ kv : PyStr × Json, ∃ c l, reprField kv = c :: l ∧ c ≠ 125 := by
    intro kv
    refine ⟨_, _, rfl, ?_⟩
    rcases PyStr.reprQuote_cases kv.1 with hq | hq <;> rw [hq] <;> decide
  cases y with
  | obj kws =>
    simp only [repr, reprFields_eq_map, List.append_assoc] at h
    obtain ⟨rfl, rfl⟩ := sep_append_inj rfl (by decide) hhead kvs kws
      (fun kv hkv => splits_reprField (hkvs kv hkv)) (List.append_cancel_left h)
    exact ⟨rfl, rfl⟩
  | _ => cases hkind

/-- **A printed value ends where it ends**, whatever follows. -/
theorem splits_repr (x : Json) : Splits repr x := by
  induction x using ind with
  | null => exact splits_scalar rfl
  | bool b => exact splits_scalar rfl
  | int n => exact splits_scalar rfl
  | float x => exact splits_scalar rfl
  | str s => exact splits_str s
  | arr xs ih => exact splits_arr ih
  | obj kvs ih => exact splits_obj ih

theorem repr_injective : Function.Injective repr := fun x y h =>
  (splits_repr x y [] [] nofun nofun (by rw [h])).1

/-- `str` of two values that are not strings is the same only if the values are. -/
theorem text_injective {x y : Json} (hx : ∀ s, x ≠ str s) (hy : ∀ s, y ≠ str s)
    (h : x.text = y.text) : x = y := by
  have htext : ∀ {x : Json}, (∀ s, x ≠ str s) → x.text = x.repr := by
    intro x hx
    cases x with
    | str s => exact absurd rfl (hx s)
    | _ => rfl
  rw [htext hx, htext hy] at h
  exact repr_injective h

end Json

end Muster
