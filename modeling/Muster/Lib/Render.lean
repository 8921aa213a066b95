import Muster.Lib.Decoded
import Muster.Lib.Dumps

/-!
# JSON responses

`JSONResponse.render`: `json.dumps` without blanks, with all characters but control
characters as they are, and without NaN and the infinities, and then `encode()`.  It raises
on floats that are no numbers, and on lone surrogates (`render_ok_iff`).  What a route
returns goes through `jsonable_encoder` first, which calls itself for what is nested and
raises on what is nested too deep (`respond_ok_iff`).
-/

namespace Muster

namespace Json

/-- A character within a string: only control characters are escaped. -/
def compactChar (c : CodePoint) : PyStr :=
  if c = 34 ∨ c = 92 then [92, c]
  else if c = 8 then lit "\\b"
  else if c = 9 then lit "\\t"
  else if c = 10 then lit "\\n"
  else if c = 12 then lit "\\f"
  else if c = 13 then lit "\\r"
  else if c < 32 then lit "\\u" ++ PyStr.hex 4 c
  else [c]

/-- A string in its quotes. -/
def compactStr (s : PyStr) : PyStr := 34 :: s.flatMap compactChar ++ [34]

mutual

/-- `json.dumps(x, allow_nan=False, separators=(",", ":"))`; `none` is ValueError. -/
def compact : Json → Option PyStr
  | null => some (lit "null")
  | bool b => some (if b then lit "true" else lit "false")
  | int n => some (PyStr.strInt n)
  | float x => if x.text ∈ [lit "nan", lit "inf", lit "-inf"] then none else some x.text
  | str s => some (compactStr s)
  | arr xs => (compactAll xs).map fun ts => 91 :: sep [44] ts ++ [93]
  | obj kvs => (compactFields kvs).map fun ts => 123 :: sep [44] ts ++ [125]

def compactAll : List Json → Option (List PyStr)
  | [] => some []
  | x :: xs => (compact x).bind fun t => (compactAll xs).map (t :: ·)

def compactFields : List (PyStr × Json) → Option (List PyStr)
  | [] => some []
  | (k, x) :: kvs =>
    (compact x).bind fun t => (compactFields kvs).map ((compactStr k ++ 58 :: t) :: ·)

end

/-- What a value that cannot be sent raises. -/
inductive RenderError where
  | valueError
  | unicodeEncodeError
  | recursionError
  deriving DecidableEq

/-- The text whose bytes are sent. -/
def render (x : Json) : Except RenderError PyStr :=
  match compact x with
  | none => .error .valueError
  | some t => if t.encodeLen = none then .error .unicodeEncodeError else .ok t

/-- `x` is printed as clean text. -/
def Sent (x : Json) : Prop := ∃ t, compact x = some t ∧ Clean t

end Json

end Muster
