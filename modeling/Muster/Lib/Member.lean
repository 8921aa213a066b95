import Muster.Lib.Json

/-!
# JSON values up to `==`

Python compares what `json.loads` has returned by what it is worth: numbers of any type by
their values, lists item by item, dicts whatever the order of their keys.  A `Member` is a
value up to this equality, so that `x in xs` is `∈`, and `xs != ys` is `≠`.

A set takes only members that can be hashed, which lists and dicts cannot.
-/

namespace Muster

/-- A value up to `==`.  A list or a dict is a chain, a dict in the order of its keys. -/
inductive Member where
  | null
  | number (x : Json.Number)
  /-- the one `nan` of `json.loads`, which is itself -/
  | nan
  | str (s : PyStr)
  | emptyList
  | item (x rest : Member)
  | emptyDict
  | field (key : PyStr) (x rest : Member)
  deriving DecidableEq

namespace Member

/-- `hash(x)` does not raise TypeError. -/
def hashable : Member → Bool
  | null | number _ | nan | str _ => true
  | emptyList | item _ _ | emptyDict | field _ _ _ => false

/-- A string is a member as it is. -/
instance : Coe PyStr Member := ⟨.str⟩

end Member

namespace Json

mutual

/-- The value up to `==`. -/
def member : Json → Member
  | null => .null
  | bool b => .number (.finite (if b then 1 else 0))
  | int n => .number (.finite n)
  | float x => ((float x).number.map Member.number).getD .nan
  | str s => .str s
  | arr xs => memberItems xs
  | obj kvs =>
    ((memberFields kvs).insertionSort fun a b => a.1 ≤ b.1).foldr (fun kv => .field kv.1 kv.2) .emptyDict

def memberItems : List Json → Member
  | [] => .emptyList
  | x :: xs => .item (member x) (memberItems xs)

def memberFields : List (PyStr × Json) → List (PyStr × Member)
  | [] => []
  | (k, x) :: kvs => (k, member x) :: memberFields kvs

end

/-- `x == y`, of values that can be members of a set: neither lists nor dicts. -/
def sameMember (x y : Json) : Bool := x.member.hashable && x.member == y.member

example : (obj (dict [("a", .int 1), ("b", .null)])).member =
    (obj (dict [("b", .null), ("a", .bool true)])).member := by decide

end Json

end Muster
