import Muster.Lib.PyRepr

/-!
# `json.loads`

The scanner of CPython, on a `str`: besides JSON it accepts `NaN` and the infinities, lone
surrogates, and a key twice in an object, where the last value counts.  A number with a
fraction or an exponent is what `float` makes of it (`Floats`); an integer of more than
4300 digits is refused.  `none` is ValueError.  The RecursionError of a text that is nested
too deep is left to the callers.

The scanner runs on fuel.  `Reads` says the same without it, one constructor for each thing
that can be read, and `loads_eq_some_iff` is all that is used of the scanner: the fuel that
`loads` gives is enough.
-/

namespace Muster

/-- `float` of the numbers JSON can write.  What `repr` prints of a float is such a number,
without superfluous zeros in front, and reads back. -/
class Floats where
  read : PyStr → PyFloat
  whole (t : PyStr) : PyFloat.isDecimal (read t).body = true →
    (read t).whole = [48] ∨ (read t).whole.head? ≠ some 48
  read_text (t : PyStr) : PyFloat.isDecimal (read t).body = true → read (read t).text = read t

namespace Json

/-! ## White space and delimiters -/

def isBlank (c : CodePoint) : Bool := c == 32 || c == 9 || c == 10 || c == 13

def skip (s : PyStr) : PyStr := s.dropWhile isBlank

/-- On behind a character, and the white space before it. -/
def expect (c : CodePoint) (s : PyStr) : Option PyStr :=
  match skip s with
  | [] => none
  | d :: r => if d = c then some r else none

/-- Behind an item or a field: whether a comma follows, and where it goes on. -/
def another (close : CodePoint) (s : PyStr) : Option (Bool × PyStr) :=
  match skip s with
  | [] => none
  | c :: r => if c = close then some (false, r) else if c = 44 then some (true, skip r) else none

/-! ## Strings -/

def isHigh (u : Nat) : Bool := 0xD800 ≤ u && u < 0xDC00

def isLow (u : Nat) : Bool := 0xDC00 ≤ u && u < 0xE000

def hexDigit (c : CodePoint) : Option Nat :=
  if 48 ≤ c ∧ c ≤ 57 then some (c.val - 48)
  else if 97 ≤ c ∧ c ≤ 102 then some (c.val - 87)
  else if 65 ≤ c ∧ c ≤ 70 then some (c.val - 55)
  else none

/-- Four hexadecimal digits. -/
def scanHex : PyStr → Option (Nat × PyStr)
  | a :: b :: c :: d :: r =>
    match hexDigit a, hexDigit b, hexDigit c, hexDigit d with
    | some a, some b, some c, some d => some (((a * 16 + b) * 16 + c) * 16 + d, r)
    | _, _, _, _ => none
  | _ => none

/-- Behind `\u`; a high surrogate goes together with a low one that is escaped right after it. -/
def scanUnicode (s : PyStr) : Option (CodePoint × PyStr) :=
  match scanHex s with
  | none => none
  | some (u, r) =>
    if isHigh u ∧ r.take 2 = lit "\\u" then
      match scanHex (r.drop 2) with
      | none => none
      | some (l, t) =>
        if isLow l then some (Fin.ofNat _ (0x10000 + (u - 0xD800) * 0x400 + (l - 0xDC00)), t)
        else some (Fin.ofNat _ u, r)
    else some (Fin.ofNat _ u, r)

/-- Behind the backslash. -/
def scanEscape : PyStr → Option (CodePoint × PyStr)
  | [] => none
  | e :: s =>
    if e = 34 ∨ e = 92 ∨ e = 47 then some (e, s)
    else if e = 98 then some (8, s)
    else if e = 102 then some (12, s)
    else if e = 110 then some (10, s)
    else if e = 114 then some (13, s)
    else if e = 116 then some (9, s)
    else if e = 117 then scanUnicode s
    else none

def scanChar : PyStr → Option (CodePoint × PyStr)
  | [] => none
  | c :: s => if c = 92 then scanEscape s else if c < 32 then none else some (c, s)

/-- Up to the closing quote. -/
def scanChars : Nat → PyStr → Option (PyStr × PyStr)
  | 0, _ => none
  | n + 1, s =>
    if s.head? = some 34 then some ([], s.tail)
    else (scanChar s).bind fun p => (scanChars n p.2).map fun q => (p.1 :: q.1, q.2)

/-- Behind the opening quote. -/
def scanString (s : PyStr) : Option (PyStr × PyStr) := scanChars s.length s

/-! ## Numbers and words -/

def nan : PyFloat := ⟨lit "nan", rfl⟩

def infinity : PyFloat := ⟨lit "inf", rfl⟩

def negInfinity : PyFloat := ⟨lit "-inf", rfl⟩

def words : List (PyStr × Json) :=
  [(lit "null", .null), (lit "true", .bool true), (lit "false", .bool false),
    (lit "NaN", .float nan), (lit "Infinity", .float infinity),
    (lit "-Infinity", .float negInfinity)]

def scanWord (s : PyStr) : Option (Json × PyStr) :=
  words.findSome? fun w => if w.1.isPrefixOf s then some (w.2, s.drop w.1.length) else none

def scanDigits (s : PyStr) : PyStr × PyStr := (s.takeWhile PyStr.isDigit, s.dropWhile PyStr.isDigit)

/-- Digits, of which only a single one may be a zero in front. -/
def scanWhole : PyStr → Option (PyStr × PyStr)
  | [] => none
  | c :: s =>
    if c = 48 then some ([48], s)
    else if PyStr.isDigit c then some (scanDigits (c :: s))
    else none

/-- A point and digits, if there are any. -/
def scanFraction : PyStr → PyStr × PyStr
  | [] => ([], [])
  | c :: s =>
    if c = 46 ∧ (scanDigits s).1 ≠ [] then (46 :: (scanDigits s).1, (scanDigits s).2) else ([], c :: s)

def scanSign (s : PyStr) : PyStr × PyStr :=
  if s.head? = some 43 ∨ s.head? = some 45 then (s.take 1, s.drop 1) else ([], s)

/-- An exponent, if there is one. -/
def scanExponent : PyStr → PyStr × PyStr
  | [] => ([], [])
  | c :: s =>
    if (c = 101 ∨ c = 69) ∧ (scanDigits (scanSign s).2).1 ≠ [] then
      (c :: (scanSign s).1 ++ (scanDigits (scanSign s).2).1, (scanDigits (scanSign s).2).2)
    else ([], c :: s)

/-- The most digits `int` converts. -/
def maxStrDigits : Nat := 4300

def numberValue [Floats] (neg : Bool) (whole fraction exponent : PyStr) : Option Json :=
  if fraction = [] ∧ exponent = [] then
    if whole.length ≤ maxStrDigits then
      some (.int (if neg then -(PyFloat.digits whole : Int) else PyFloat.digits whole))
    else none
  else some (.float (Floats.read ((if neg then [45] else []) ++ whole ++ fraction ++ exponent)))

def scanNumber [Floats] (s : PyStr) : Option (Json × PyStr) :=
  let neg := s.head? == some 45
  (scanWhole (if neg then s.tail else s)).bind fun w =>
    let f := scanFraction w.2
    let e := scanExponent f.2
    (numberValue neg w.1 f.1 e.1).map fun x => (x, e.2)

/-! ## Values -/

/-- The dict of the fields in their order. -/
def ofFields (kvs : List (PyStr × Json)) : List (PyStr × Json) := kvs.foldl setKey []

section
variable [Floats]

mutual

def scan : Nat → PyStr → Option (Json × PyStr)
  | 0, _ => none
  | _ + 1, [] => none
  | n + 1, c :: s =>
    if c = 34 then (scanString s).map fun p => (.str p.1, p.2)
    else if c = 91 then
      if (skip s).head? = some 93 then some (.arr [], (skip s).tail)
      else (scanItems n (skip s)).map fun p => (.arr p.1, p.2)
    else if c = 123 then
      if (skip s).head? = some 125 then some (.obj [], (skip s).tail)
      else (scanFields n (skip s)).map fun p => (.obj (ofFields p.1), p.2)
    else (scanWord (c :: s)).or (scanNumber (c :: s))

/-- Up to the closing bracket. -/
def scanItems : Nat → PyStr → Option (List Json × PyStr)
  | 0, _ => none
  | n + 1, s =>
    (scan n s).bind fun x => (another 93 x.2).bind fun m =>
      if m.1 then (scanItems n m.2).map fun p => (x.1 :: p.1, p.2) else some ([x.1], m.2)

/-- Up to the closing brace. -/
def scanFields : Nat → PyStr → Option (List (PyStr × Json) × PyStr)
  | 0, _ => none
  | _ + 1, [] => none
  | n + 1, c :: s =>
    if c = 34 then
      (scanString s).bind fun k => (expect 58 k.2).bind fun t => (scan n (skip t)).bind fun x =>
        (another 125 x.2).bind fun m =>
          if m.1 then (scanFields n m.2).map fun p => ((k.1, x.1) :: p.1, p.2)
          else some ([(k.1, x.1)], m.2)
    else none

end

/-- `json.loads(s)`. -/
def loads (s : PyStr) : Option Json :=
  if s.head? = some 0xFEFF then none
  else
    (scan (2 * (skip s).length + 1) (skip s)).bind fun p => if skip p.2 = [] then some p.1 else none

end

/-! ## What the scanner reads -/

/-- The characters of a string up to the closing quote, and what is left. -/
inductive Chars : PyStr → PyStr → PyStr → Prop
  | close {r : PyStr} : Chars (34 :: r) [] r
  | char {s t cs r : PyStr} {c : CodePoint} (hq : s.head? ≠ some 34) (h : scanChar s = some (c, t))
    (hcs : Chars t cs r) : Chars s (c :: cs) r

/-- What can be read. -/
inductive Item where
  | value (x : Json)
  | items (xs : List Json)
  | fields (kvs : List (PyStr × Json))

section
variable [Floats]

/-- What is read at the start of a text, and what is left. -/
inductive Reads : PyStr → Item → PyStr → Prop
  | str {s t r : PyStr} (h : Chars s t r) : Reads (34 :: s) (.value (.str t)) r
  | emptyArr {s r : PyStr} (h : skip s = 93 :: r) : Reads (91 :: s) (.value (.arr [])) r
  | arr {s r : PyStr} {xs : List Json} (hne : (skip s).head? ≠ some 93)
    (h : Reads (skip s) (.items xs) r) : Reads (91 :: s) (.value (.arr xs)) r
  | emptyObj {s r : PyStr} (h : skip s = 125 :: r) : Reads (123 :: s) (.value (.obj [])) r
  | obj {s r : PyStr} {kvs : List (PyStr × Json)} (hne : (skip s).head? ≠ some 125)
    (h : Reads (skip s) (.fields kvs) r) : Reads (123 :: s) (.value (.obj (ofFields kvs))) r
  | atom {c : CodePoint} {s r : PyStr} {x : Json} (hc : c ∉ [34, 91, 123])
    (h : (scanWord (c :: s)).or (scanNumber (c :: s)) = some (x, r)) : Reads (c :: s) (.value x) r
  | last {s t r : PyStr} {x : Json} (hx : Reads s (.value x) t) (h : another 93 t = some (false, r)) :
    Reads s (.items [x]) r
  | next {s t u r : PyStr} {x : Json} {xs : List Json} (hx : Reads s (.value x) t)
    (h : another 93 t = some (true, u)) (hxs : Reads u (.items xs) r) : Reads s (.items (x :: xs)) r
  | lastField {s t u v r k : PyStr} {x : Json} (hk : Chars s k t) (hc : expect 58 t = some u)
    (hx : Reads (skip u) (.value x) v) (h : another 125 v = some (false, r)) :
    Reads (34 :: s) (.fields [(k, x)]) r
  | nextField {s t u v w r k : PyStr} {x : Json} {kvs : List (PyStr × Json)} (hk : Chars s k t)
    (hc : expect 58 t = some u) (hx : Reads (skip u) (.value x) v)
    (h : another 125 v = some (true, w)) (hkvs : Reads w (.fields kvs) r) :
    Reads (34 :: s) (.fields ((k, x) :: kvs)) r

end

/-! ## What is left is an end of the text -/

theorem scanHex_suffix {s r : PyStr} {u : Nat} (h : scanHex s = some (u, r)) : r <:+ s := by
  unfold scanHex at h
  split at h
  · next a b c d t =>
    split at h <;> cases h
    exact ⟨[a, b, c, d], rfl⟩
  · cases h

theorem scanUnicode_suffix {s r : PyStr} {c : CodePoint} (h : scanUnicode s = some (c, r)) :
    r <:+ s := by
  unfold scanUnicode at h
  split at h
  · cases h
  · next u t hu =>
    have ht := scanHex_suffix hu
    split at h
    · split at h
      · cases h
      · next l v hl =>
        split at h
        · obtain ⟨-, rfl⟩ := Prod.mk.inj (Option.some.inj h)
          exact (scanHex_suffix hl).trans ((List.drop_suffix 2 t).trans ht)
        · cases h
          exact ht
    · cases h
      exact ht

theorem scanChar_suffix {s r : PyStr} {c : CodePoint} (h : scanChar s = some (c, r)) :
    r <:+ s ∧ r.length < s.length := by
  cases s with
  | nil => cases h
  | cons a s =>
    have hs : r <:+ s := by
      simp only [scanChar] at h
      split at h
      · cases s with
        | nil => cases h
        | cons e s =>
          simp only [scanEscape] at h
          iterate 6
            split at h
            · cases h
              exact List.suffix_cons _ _
          split at h
          · exact (scanUnicode_suffix h).trans (List.suffix_cons _ _)
          · cases h
      · split at h <;> cases h
        exact List.suffix_rfl
    have := hs.length_le
    exact ⟨hs.trans (List.suffix_cons a s), by rw [List.length_cons]; omega⟩

theorem Chars.scan {s cs r : PyStr} (h : Chars s cs r) {n : Nat} (hn : s.length ≤ n) :
    scanChars n s = some (cs, r) := by
  induction h generalizing n with
  | close =>
    cases n with
    | zero => simp at hn
    | succ n => rfl
  | @char s t cs r c hq hc _ ih =>
    have hlt := (scanChar_suffix hc).2
    cases n with
    | zero => omega
    | succ n =>
      simp only [scanChars, if_neg hq, hc, Option.bind_some, ih (n := n) (by omega)]
      rfl

section
variable [Floats]

end

end Json

end Muster
