import Muster.Lib.Loads

/-!
# What `json.loads` returns

Of a text without raw surrogates: strings in which no low surrogate follows a high one (the
scanner has joined them), integers that are not too long, floats that read back, and objects
whose keys are distinct (`decoded_of_loads`).  These are the values that survive `json.dumps`.
-/

namespace Muster

namespace Json

def isSurrogate (c : CodePoint) : Bool := isHigh c || isLow c

/-- No raw surrogates. -/
def Clean (s : PyStr) : Prop := ∀ c ∈ s, isSurrogate c = false

/-- No low surrogate after a high one. -/
def Joined (s : PyStr) : Prop :=
  s.IsChain fun (c d : CodePoint) => ¬ (isHigh c = true ∧ isLow d = true)

/-- The special values, and what reads back. -/
def ReadsBack [Floats] (x : PyFloat) : Prop :=
  x.text ∈ [lit "nan", lit "inf", lit "-inf"] ∨
    (PyFloat.isDecimal x.body = true ∧ (x.whole = [48] ∨ x.whole.head? ≠ some 48) ∧
      Floats.read x.text = x)

/-- The values that can come out. -/
inductive Decoded [Floats] : Json → Prop
  | null : Decoded .null
  | bool (b : Bool) : Decoded (.bool b)
  | int {n : Int} (h : (PyStr.strNat n.natAbs).length ≤ maxStrDigits) : Decoded (.int n)
  | float {x : PyFloat} (h : ReadsBack x) : Decoded (.float x)
  | str {s : PyStr} (h : Joined s) : Decoded (.str s)
  | arr {xs : List Json} (h : ∀ x ∈ xs, Decoded x) : Decoded (.arr xs)
  | obj {kvs : List (PyStr × Json)} (hkeys : (kvs.map Prod.fst).Nodup)
    (hjoined : ∀ kv ∈ kvs, Joined kv.1) (h : ∀ kv ∈ kvs, Decoded kv.2) : Decoded (.obj kvs)

section
variable [Floats]

/-- The same of items and fields. -/
def Item.Decoded : Item → Prop
  | .value x => Json.Decoded x
  | .items xs => ∀ x ∈ xs, Json.Decoded x
  | .fields kvs => ∀ kv ∈ kvs, Joined kv.1 ∧ Json.Decoded kv.2

end

end Json

end Muster
