import Muster.Lib.Text

/-!
# JSON values as Python holds them

What `json.loads` returns.  An integer and a float are different values; a float
is kept as the text `repr` prints for it, which determines it (the shortest
decimal that reads back as the same float), with `nan` and the infinities, which
`json.loads` also accepts.  An object keeps its keys in order.

`str` and `repr` of a value, truth, `int()` and the `.get` of an object are the
operations the server applies to values it has not checked.
-/

namespace Muster

namespace PyFloat

/-- `e+16`, `e-05`: a sign and at least two digits. -/
def isExponent : PyStr → Bool
  | e :: s :: ds => e == 101 && (s == 43 || s == 45) && 2 ≤ ds.length && ds.all PyStr.isDigit
  | _ => false

/-- Digits with a point and digits, or an exponent, or both. -/
def isDecimal (t : PyStr) : Bool :=
  t.takeWhile PyStr.isDigit != [] &&
    match t.dropWhile PyStr.isDigit with
    | [] => false
    | c :: r =>
      if c = 46 then
        r.takeWhile PyStr.isDigit != [] &&
          (r.dropWhile PyStr.isDigit == [] || isExponent (r.dropWhile PyStr.isDigit))
      else isExponent (c :: r)

/-- The texts `repr` prints for a float. -/
def isText (t : PyStr) : Bool :=
  t == lit "nan" ||
    match t with
    | [] => false
    | c :: r => if c = 45 then r == lit "inf" || isDecimal r else t == lit "inf" || isDecimal t

end PyFloat

structure PyFloat where
  text : PyStr
  printed : PyFloat.isText text = true
  deriving DecidableEq

namespace PyFloat

/-! A text of a float consists of digits and of the signs and letters of numbers. -/

section
variable {p : CodePoint → Bool} (h : ∀ c, PyStr.isDigit c = true ∨ c ∈ lit "+-.aefin" → p c = true)
include h

theorem takeWhile_all (t : PyStr) : (t.takeWhile PyStr.isDigit).all p = true :=
  List.all_eq_true.2 fun c hc => h c (.inl (List.mem_takeWhile_imp hc))

theorem isExponent_all {t : PyStr} (ht : isExponent t = true) : t.all p = true := by
  unfold isExponent at ht
  split at ht
  · next e s ds =>
    simp only [Bool.and_eq_true, Bool.or_eq_true, beq_iff_eq] at ht
    obtain ⟨⟨⟨rfl, hs⟩, -⟩, hds⟩ := ht
    have hds' : ds.all p = true :=
      List.all_eq_true.2 fun c hc => h c (.inl (List.all_eq_true.1 hds c hc))
    rw [List.all_cons, List.all_cons, hds', h 101 (.inr (by decide))]
    rcases hs with rfl | rfl
    · rw [h 43 (.inr (by decide))]; rfl
    · rw [h 45 (.inr (by decide))]; rfl
  · cases ht

theorem isDecimal_all {t : PyStr} (ht : isDecimal t = true) : t.all p = true := by
  unfold isDecimal at ht
  rw [← List.takeWhile_append_dropWhile (p := PyStr.isDigit) (l := t), List.all_append,
    takeWhile_all h, Bool.true_and]
  rw [Bool.and_eq_true] at ht
  cases hd : t.dropWhile PyStr.isDigit with
  | nil => rfl
  | cons c r =>
    rw [hd] at ht
    dsimp only at ht
    split at ht
    · next hc =>
      subst hc
      rw [Bool.and_eq_true, Bool.or_eq_true, beq_iff_eq] at ht
      rw [List.all_cons, ← List.takeWhile_append_dropWhile (p := PyStr.isDigit) (l := r),
        List.all_append, takeWhile_all h, h 46 (.inr (by decide))]
      rcases ht.2.2 with ht | ht
      · rw [ht]; rfl
      · rw [isExponent_all h ht]; rfl
    · exact isExponent_all h ht.2

theorem isText_all {t : PyStr} (ht : isText t = true) : t.all p = true := by
  have hword : ∀ {w : PyStr}, w.all (lit "+-.aefin").contains = true → w.all p = true := by
    intro w hw
    refine List.all_eq_true.2 fun c hc => h c (.inr ?_)
    exact List.contains_iff_mem.1 (List.all_eq_true.1 hw c hc)
  unfold isText at ht
  rw [Bool.or_eq_true, beq_iff_eq] at ht
  rcases ht with rfl | ht
  · exact hword rfl
  · cases t with
    | nil => rfl
    | cons c r =>
      dsimp only at ht
      split at ht
      · next hc =>
        subst hc
        rw [List.all_cons, h 45 (.inr (by decide)), Bool.true_and]
        rw [Bool.or_eq_true, beq_iff_eq] at ht
        rcases ht with rfl | ht
        · exact hword rfl
        · exact isDecimal_all h ht
      · rw [Bool.or_eq_true, beq_iff_eq] at ht
        rcases ht with ht | ht
        · rw [ht]
          exact hword rfl
        · exact isDecimal_all h ht

end

end PyFloat

inductive Json where
  | null
  | bool (b : Bool)
  | int (n : Int)
  | float (x : PyFloat)
  | str (s : PyStr)
  | arr (xs : List Json)
  | obj (kvs : List (PyStr × Json))

/-- A dict display. -/
def dict (kvs : List (String × Json)) : List (PyStr × Json) := kvs.map fun kv => (lit kv.1, kv.2)

namespace PyFloat

def neg (x : PyFloat) : Bool := x.text.head? == some 45

/-- The text without its sign. -/
def body (x : PyFloat) : PyStr := if x.neg then x.text.tail else x.text

def digits (s : PyStr) : Nat := s.foldl (fun n c => 10 * n + (c.val - 48)) 0

/-- Digits before the point, digits after it, and the exponent of a finite float. -/
def whole (x : PyFloat) : PyStr := x.body.takeWhile PyStr.isDigit

def fraction (x : PyFloat) : PyStr :=
  match x.body.dropWhile PyStr.isDigit with
  | c :: r => if c = 46 then r.takeWhile PyStr.isDigit else []
  | [] => []

def exponent (x : PyFloat) : Int :=
  match x.body.dropWhile (· ≠ 101) with
  | _ :: s :: ds => if s = 45 then -(digits ds : Int) else digits ds
  | _ => 0

def isZero (x : PyFloat) : Bool :=
  PyFloat.isDecimal x.body && digits (x.whole ++ x.fraction) == 0

/-- The number the text of a finite float writes, without its sign. -/
def decimal (x : PyFloat) : ℚ :=
  (digits (x.whole ++ x.fraction) : ℚ) * (10 : ℚ) ^ (x.exponent - x.fraction.length)

/-- Halves go to the even neighbour. -/
def roundEven (q : ℚ) : Int :=
  let r := q - q.floor
  if r < 1 / 2 then q.floor
  else if 1 / 2 < r then q.floor + 1
  else if q.floor % 2 = 0 then q.floor else q.floor + 1

/-- The double nearest to `q`: 53 bits, none below `2 ^ (-1074)`. -/
def nearest (q : ℚ) : ℚ :=
  let e : Int := Nat.log2 q.num.natAbs - Nat.log2 q.den - 52
  let e := if q < (2 : ℚ) ^ (e + 52) then e - 1 else e
  let ulp : ℚ := (2 : ℚ) ^ max e (-1074)
  roundEven (q / ulp) * ulp

/-- The exact value of a finite float. -/
def value (x : PyFloat) : ℚ := if x.neg then -nearest x.decimal else nearest x.decimal

/-- `int(x)` of a finite float: towards zero. -/
def trunc (x : PyFloat) : Int :=
  if x.neg then -(nearest x.decimal).floor else (nearest x.decimal).floor

end PyFloat

namespace Json

/-- Induction over the items of lists and the values of objects. -/
@[elab_as_elim]
theorem ind {P : Json → Prop} (null : P .null) (bool : ∀ b, P (.bool b)) (int : ∀ n, P (.int n))
    (float : ∀ x, P (.float x)) (str : ∀ s, P (.str s))
    (arr : ∀ xs, (∀ x ∈ xs, P x) → P (.arr xs))
    (obj : ∀ kvs, (∀ kv ∈ kvs, P kv.2) → P (.obj kvs)) : ∀ x, P x
  | .null => null
  | .bool b => bool b
  | .int n => int n
  | .float x => float x
  | .str s => str s
  | .arr xs => arr xs fun x _ => ind null bool int float str arr obj x
  | .obj kvs => obj kvs fun kv _ => ind null bool int float str arr obj kv.2
termination_by x => sizeOf x
decreasing_by
  · next hx =>
    have := List.sizeOf_lt_of_mem hx
    simp only [Json.arr.sizeOf_spec]
    omega
  · next hkv =>
    have := List.sizeOf_lt_of_mem hkv
    obtain ⟨k, v⟩ := kv
    simp only [Json.obj.sizeOf_spec, Prod.mk.sizeOf_spec] at this ⊢
    omega

/-- `bool(x)`. -/
def truthy : Json → Bool
  | null => false
  | bool b => b
  | int n => n != 0
  | float x => !x.isZero
  | str s => s != []
  | arr xs => !xs.isEmpty
  | obj kvs => !kvs.isEmpty

/-- `x or y`. -/
def or (x y : Json) : Json := if x.truthy then x else y

/-- `d[key] = value`: a key that is there keeps its place. -/
def setKey (d : List (PyStr × Json)) (kv : PyStr × Json) : List (PyStr × Json) :=
  if kv.1 ∈ d.map Prod.fst then d.map fun p => if p.1 = kv.1 then kv else p else d ++ [kv]

/-- Distinct new keys are appended. -/
theorem foldl_setKey {d kvs : List (PyStr × Json)} (h : (d.map Prod.fst ++ kvs.map Prod.fst).Nodup) :
    kvs.foldl setKey d = d ++ kvs := by
  induction kvs generalizing d with
  | nil => exact (List.append_nil d).symm
  | cons kv kvs ih =>
    have hnew : kv.1 ∉ d.map Prod.fst := fun hmem =>
      List.disjoint_of_nodup_append h hmem (by simp)
    rw [List.foldl_cons, setKey, if_neg hnew, ih (by simpa using h), List.append_assoc]
    rfl

theorem or_of_truthy {x y : Json} (h : x.truthy = true) : x.or y = x := if_pos h

theorem or_eq_or (x y : Json) : x.or y = x ∨ x.or y = y := ite_eq_or_eq _ x y

/-- A default that is not true says nothing. -/
theorem truthy_or {x y : Json} (hy : y.truthy = false) : (x.or y).truthy = x.truthy := by
  unfold Json.or
  cases h : x.truthy with
  | true => rw [if_pos rfl, h]
  | false => exact hy

/-- A value that is true is no default that is not. -/
theorem or_eq_left {x y : Json} (h : (x.or y).truthy = true) (hy : y.truthy = false) :
    x.or y = x := by
  refine (or_eq_or x y).resolve_right ?_
  intro heq
  rw [heq, hy] at h
  cases h

/-- `d.get(key)`; absent and `null` are both `None`. -/
def get (d : List (PyStr × Json)) (key : String) : Json := (d.lookup (lit key)).getD null

section
variable [Python]

/-- Text between separators. -/
def sep (s : PyStr) : List PyStr → PyStr
  | [] => []
  | [x] => x
  | x :: xs => x ++ s ++ sep s xs

mutual

/-- `repr(x)`. -/
def repr : Json → PyStr
  | null => lit "None"
  | bool b => if b then lit "True" else lit "False"
  | int n => PyStr.strInt n
  | float x => x.text
  | str s => PyStr.repr s
  | arr xs => lit "[" ++ sep (lit ", ") (reprs xs) ++ lit "]"
  | obj kvs => lit "\x7b" ++ sep (lit ", ") (reprFields kvs) ++ lit "\x7d"

def reprs : List Json → List PyStr
  | [] => []
  | x :: xs => repr x :: reprs xs

def reprFields : List (PyStr × Json) → List PyStr
  | [] => []
  | (k, x) :: kvs => (PyStr.repr k ++ lit ": " ++ repr x) :: reprFields kvs

end

/-- `str(x)`. -/
def text : Json → PyStr
  | str s => s
  | x => repr x

end

mutual

/-- How deep lists and dicts are nested in a value. -/
def nesting : Json → Nat
  | arr xs => nestings xs + 1
  | obj kvs => nestingFields kvs + 1
  | _ => 0

def nestings : List Json → Nat
  | [] => 0
  | x :: xs => max (nesting x) (nestings xs)

def nestingFields : List (PyStr × Json) → Nat
  | [] => 0
  | (_, x) :: kvs => max (nesting x) (nestingFields kvs)

end

/-- What a number is worth, whatever its type. -/
inductive Number where
  | finite (q : ℚ)
  | infinite (neg : Bool)
  deriving DecidableEq

/-- Booleans are numbers; `nan` is worth nothing. -/
def number : Json → Option Number
  | bool b => some (.finite (if b then 1 else 0))
  | int n => some (.finite n)
  | float x =>
    if x.text = lit "nan" then none
    else if x.body = lit "inf" then some (.infinite x.neg)
    else some (.finite x.value)
  | _ => none

/-- The exceptions `int(x)` raises. -/
inductive IntError where
  | typeError
  | valueError
  | overflowError
  deriving DecidableEq

/-- `int(x)`. -/
def toInt [Python] : Json → Except IntError Int
  | null => .error .typeError
  | bool b => .ok (if b then 1 else 0)
  | int n => .ok n
  | float x =>
    if x.text = lit "nan" then .error .valueError
    else if x.body = lit "inf" then .error .overflowError
    else .ok x.trunc
  | str s => match PyStr.toInt s with
    | some n => .ok n
    | none => .error .valueError
  | arr _ => .error .typeError
  | obj _ => .error .typeError

end Json

end Muster
