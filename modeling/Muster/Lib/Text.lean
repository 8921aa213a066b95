import Mathlib

/-!
# Python `str`

A `str` is its code points, lone surrogates included.  `split`/`join` on `/` are
Mathlib's `splitOn`/`intercalate`; what follows them here is the rest of the
string functions the server uses: `encode`, `strip`, `splitlines`, `repr`, `str`
of an integer and `int` of a string.

What depends on the interpreter comes from `Python`: its Unicode tables beyond ASCII
(`isprintable` and decimal digits), and how deep `repr` and FastAPI's encoder go into
nested lists and dicts before they raise RecursionError.
-/

namespace Muster

abbrev CodePoint := Fin 0x110000

abbrev PyStr := List CodePoint

instance CodePoint.instNeZero : NeZero 0x110000 := ⟨by decide⟩

instance PyStr.instLawfulBEq : LawfulBEq PyStr := inferInstance

/-- A literal of the source. -/
def lit (s : String) : PyStr := s.toList.map fun c => Fin.ofNat _ c.toNat

/-- The Unicode tables beyond ASCII, and the limits on recursion. -/
class Python where
  printable : CodePoint → Bool
  decimal : CodePoint → Option (Fin 10)
  reprDepth : Nat
  encodeDepth : Nat
  /-- far more than an answer has without the metadata in it -/
  encodeDepth_ge : 16 ≤ encodeDepth

/-- Tables without any printable or decimal code point beyond ASCII. -/
@[reducible] def Python.plain : Python where
  printable _ := false
  decimal _ := none
  reprDepth := 900
  encodeDepth := 900
  encodeDepth_ge := by decide

namespace PyStr

/-! ## Segments -/

def slash : CodePoint := 47

/-- `s.split("/")`. -/
def split (s : PyStr) : List PyStr := s.splitOn slash

/-- `"/".join(xs)`. -/
def join (xs : List PyStr) : PyStr := [slash].intercalate xs

theorem join_split (s : PyStr) : join (split s) = s := List.intercalate_splitOn _

theorem split_join {xs : List PyStr} (h : ∀ x ∈ xs, slash ∉ x) (hne : xs ≠ []) :
    split (join xs) = xs := List.splitOn_intercalate _ h hne

theorem slash_not_mem_of_mem_split {s x : PyStr} (h : x ∈ split s) : slash ∉ x := by
  unfold split at h
  induction s generalizing x with
  | nil => simp at h; simp [h]
  | cons c s ih =>
    rw [List.splitOn_cons_eq_if_modifyHead] at h
    split at h
    · rcases List.mem_cons.1 h with rfl | h
      · simp
      · exact ih h
    · next hc =>
      cases hs : s.splitOn slash with
      | nil => exact absurd hs (by simp)
      | cons y ys =>
        rw [hs] at h ih
        rcases List.mem_cons.1 h with rfl | h
        · have hy := ih List.mem_cons_self
          have hne : slash ≠ c := fun e => hc (by simp [e])
          simp [hy, hne]
        · exact ih (List.mem_cons_of_mem _ h)

theorem split_slash (u v : PyStr) : split (u ++ slash :: v) = split u ++ split v :=
  List.splitOn_append_cons_self ..

theorem split_of_noSlash {s : PyStr} (h : slash ∉ s) : split s = [s] := by
  have hjoin : join [s] = s := by simp [join]
  have hsplit : split (join [s]) = [s] := split_join (by simpa using h) (List.cons_ne_nil _ _)
  rwa [hjoin] at hsplit

theorem split_ne_nil (s : PyStr) : split s ≠ [] := List.splitOn_ne_nil _ _

/-! ## Bytes -/

/-- The bytes of one code point in UTF-8; a lone surrogate has no encoding. -/
def utf8Size (c : CodePoint) : Option Nat :=
  if c < 0x80 then some 1
  else if c < 0x800 then some 2
  else if 0xD800 ≤ c ∧ c < 0xE000 then none
  else if c < 0x10000 then some 3
  else some 4

/-- `len(s.encode())`, where `s` can be encoded. -/
def encodeLen (s : PyStr) : Option Nat := (s.mapM utf8Size).map List.sum

/-! ## Lines -/

def isSpace (c : CodePoint) : Bool :=
  (9 ≤ c && c ≤ 13) || (28 ≤ c && c ≤ 32) || c == 0x85 || c == 0xA0 || c == 0x1680 ||
    (0x2000 ≤ c && c ≤ 0x200A) || c == 0x2028 || c == 0x2029 || c == 0x202F || c == 0x205F ||
    c == 0x3000

/-- `s.strip()`. -/
def strip (s : PyStr) : PyStr := ((s.dropWhile isSpace).reverse.dropWhile isSpace).reverse

def isLineBreak (c : CodePoint) : Bool :=
  (10 ≤ c && c ≤ 13) || (28 ≤ c && c ≤ 30) || c == 0x85 || c == 0x2028 || c == 0x2029

/-- `s.splitlines()[0]`, of a string that is not empty. -/
def firstLine (s : PyStr) : PyStr := s.takeWhile fun c => !isLineBreak c

/-- `s.splitlines()` in the middle of `line`; `cr` where a `\r` has just ended one, and a
`\n` still belongs to it. -/
def splitLinesFrom (line : PyStr) (cr : Bool) : PyStr → List PyStr
  | [] => if line = [] then [] else [line]
  | c :: s =>
    if cr ∧ c = 10 then splitLinesFrom line false s
    else if isLineBreak c then line :: splitLinesFrom [] (c = 13) s
    else splitLinesFrom (line ++ [c]) false s

/-- `s.splitlines()`. -/
def splitLines (s : PyStr) : List PyStr := splitLinesFrom [] false s

/-! ## Integers -/

def digitChar (d : Nat) : CodePoint := Fin.ofNat _ (48 + d)

def strNat (n : Nat) : PyStr :=
  if n = 0 then [digitChar 0] else (Nat.digits 10 n).reverse.map digitChar

/-- `str(n)`. -/
def strInt : Int → PyStr
  | .ofNat n => strNat n
  | .negSucc n => lit "-" ++ strNat (n + 1)

def isDigit (c : CodePoint) : Bool := 48 ≤ c && c ≤ 57

/-- The value of a digit `int()` accepts. -/
def digitVal [Python] (c : CodePoint) : Option Nat :=
  if isDigit c then some (c.val - 48) else (Python.decimal c).map (·.val)

/-- Digits, with single underscores between them. -/
def digitsVal [Python] (acc : Nat) : PyStr → Option Nat
  | [] => some acc
  | [c] => (digitVal c).map (acc * 10 + ·)
  | c :: d :: s =>
    match digitVal c with
    | none => none
    | some v => if d = 95 then (if s = [] then none else digitsVal (acc * 10 + v) s)
      else digitsVal (acc * 10 + v) (d :: s)

/-- The whitespace `int()` takes off: the ASCII separators, which `strip()` takes off too, stay. -/
def isIntSpace (c : CodePoint) : Bool := isSpace c && !(28 ≤ c && c ≤ 31)

/-- What `int()` reads as a number. -/
def stripInt (s : PyStr) : PyStr := ((s.dropWhile isIntSpace).reverse.dropWhile isIntSpace).reverse

/-- `int(s)`; `none` is ValueError, which more than 4300 digits are as well. -/
def toInt [Python] (s : PyStr) : Option Int :=
  if 4300 < (stripInt s).countP fun c => (digitVal c).isSome then none
  else
    match stripInt s with
    | [] => none
    | c :: t =>
      if c = 45 then (if t = [] then none else (digitsVal 0 t).map fun n => -(n : Int))
      else if c = 43 then (if t = [] then none else (digitsVal 0 t).map Int.ofNat)
      else (digitsVal 0 (c :: t)).map Int.ofNat

/-! ## `repr` -/

def hexChar (n : Nat) : CodePoint := if n < 10 then Fin.ofNat _ (48 + n) else Fin.ofNat _ (87 + n)

/-- `n` in hexadecimal, the last `w` digits. -/
def hex : (w n : Nat) → PyStr
  | 0, _ => []
  | w + 1, n => hex w (n / 16) ++ [hexChar (n % 16)]

def reprChar [Python] (q c : CodePoint) : PyStr :=
  if c = q ∨ c = 92 then [92, c]
  else if c = 9 then lit "\\t"
  else if c = 10 then lit "\\n"
  else if c = 13 then lit "\\r"
  else if c < 32 ∨ c = 127 then lit "\\x" ++ hex 2 c
  else if c < 127 ∨ Python.printable c then [c]
  else if c < 0x100 then lit "\\x" ++ hex 2 c
  else if c < 0x10000 then lit "\\u" ++ hex 4 c
  else lit "\\U" ++ hex 8 c

/-- Double quotes only where that saves escaping a single quote. -/
def reprQuote (s : PyStr) : CodePoint := if 39 ∈ s ∧ 34 ∉ s then 34 else 39

/-- `repr(s)`. -/
def repr [Python] (s : PyStr) : PyStr :=
  reprQuote s :: s.flatMap (reprChar (reprQuote s)) ++ [reprQuote s]

end PyStr

end Muster
