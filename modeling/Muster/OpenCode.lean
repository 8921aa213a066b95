import Muster.Shim
import Muster.Lib.Groups
import Muster.Lib.OneLine

/-!
# The roster tool of the OpenCode plugin (`muster-chat.js`)

`fmtRoster` is the shim's, written again in JavaScript.  The groups are the properties of an
object literal, which has those of `Object.prototype` already, and a branch is shown by the
template's conversion to a string.  Both can be a `TypeError`, which is `none`.
-/

namespace Muster

/-- Numbers as JavaScript prints them, on one line. -/
class JsNumbers where
  int : Int → PyStr
  float : PyFloat → PyStr
  int_line (n : Int) : OneLine (int n)
  float_line (x : PyFloat) : OneLine (float x)

/-- The properties an object literal inherits. -/
def objectMembers : List PyStr :=
  [lit "constructor", lit "__defineGetter__", lit "__defineSetter__", lit "hasOwnProperty",
    lit "__lookupGetter__", lit "__lookupSetter__", lit "isPrototypeOf", lit "propertyIsEnumerable",
    lit "toString", lit "valueOf", lit "__proto__", lit "toLocaleString"]

/-- UTF-16, for the order of `sort()`. -/
def utf16 (s : PyStr) : List Nat :=
  s.flatMap fun c =>
    if c.val < 0x10000 then [c.val]
    else [0xD800 + (c.val - 0x10000) / 0x400, 0xDC00 + (c.val - 0x10000) % 0x400]

namespace Json

/-- `Boolean(x)`. -/
def jsTruthy : Json → Bool
  | null => false
  | bool b => b
  | int n => n != 0
  | float x => !x.isZero && !(x.text == lit "nan")
  | str s => s != []
  | arr _ => true
  | obj _ => true

def isNull : Json → Bool
  | null => true
  | _ => false

section
variable [JsNumbers]

mutual

/-- `String(x)`.  An object that has a `toString` of its own, which is no function, cannot be
converted. -/
def jsString : Json → Option PyStr
  | null => some (lit "null")
  | bool b => some (if b then lit "true" else lit "false")
  | int n => some (JsNumbers.int n)
  | float x => some (JsNumbers.float x)
  | str s => some s
  | arr xs => (jsItems xs).map (lit ",").intercalate
  | obj kvs => if lit "toString" ∈ kvs.map Prod.fst then none else some (lit "[object Object]")

/-- What `join` makes of the items of a list. -/
def jsItems : List Json → Option (List PyStr)
  | [] => some []
  | x :: xs => (if x.isNull then some [] else jsString x).bind fun t => (jsItems xs).map (t :: ·)

end

end

mutual

/-- Converted, and to one line. -/
def jsPlain : Json → Bool
  | str s => !(s.contains 10)
  | arr xs => jsAllPlain xs
  | obj kvs => !((kvs.map Prod.fst).contains (lit "toString"))
  | _ => true

def jsAllPlain : List Json → Bool
  | [] => true
  | x :: xs => jsPlain x && jsAllPlain xs

end

end Json

/-! ## The roster -/

/-- `a.meta?.branch`, where `undefined` and `null` are the same. -/
def Row.branch (a : Row) : Json :=
  match a.metadata with
  | .obj metadata => Json.get metadata "branch"
  | _ => .null

def isArrayIndex (key : PyStr) : Bool :=
  key.all PyStr.isDigit && key != [] && (key == lit "0" || key.head? != some 48) &&
    PyFloat.digits key ≤ 4294967294

/-- `Object.entries(d)`: array indices come first, in order. -/
def objectEntries (d : List (PyStr × Nat)) : List (PyStr × Nat) :=
  ((d.filter fun e => isArrayIndex e.1).insertionSort fun x y => PyFloat.digits x.1 ≤ PyFloat.digits y.1) ++
    d.filter fun e => !isArrayIndex e.1

section
variable [JsNumbers] (collate : PyStr → PyStr → Bool) (now : Int)

/-- `fmtAgent`; ages are those of the shim. -/
def fmtAgentJs (a : Row) (showStatus : Bool) : Option PyStr := do
  let branch ← if a.branch.jsTruthy then (a.branch.jsString).map (lit " @" ++ ·) else some []
  return lit "- " ++ a.addr ++ (if showStatus then lit " — " ++ a.status.text else []) ++ branch ++
    if a.status = .offline ∧ a.lastConnect ≠ 0 then
      lit " (last connect " ++ age now a.lastConnect ++ lit " ago)"
    else []

/-- `(byProject[a.project] ||= []).push(a)`, for each row.  What is inherited has no `push`. -/
def groupJs (byProject : List (PyStr × List Row)) : List Row → Option (List (PyStr × List Row))
  | [] => some byProject
  | a :: agents =>
    if a.project ∉ byProject.map Prod.fst ∧ a.project ∈ objectMembers then none
    else groupJs (Groups.push Row.project a byProject) agents

/-- `fmtRoster`; `collate` is `x.localeCompare(y) <= 0`.  The counts of `hidden` are small enough
for a double. -/
def fmtRosterJs (agent : PyStr) (agents : List Row) (hidden : List (PyStr × Nat)) (status : PyStr) :
    Option PyStr := do
  let label := if status = lit "all" then lit "visible" else status
  let byProject ← groupJs [] agents
  let blocks ← ((byProject.map Prod.fst).insertionSort fun x y => utf16 x ≤ utf16 y).mapM fun project => do
    let rows := (Groups.membersOf byProject project).insertionSort fun x y => collate x.addr y.addr
    let lines ← rows.mapM fun a => fmtAgentJs now a (status = lit "all")
    return (project ++ lit ":") :: lines
  let head :=
    if agents = [] then lit "You are \"" ++ agent ++ lit "\". No " ++ label ++ lit " agents visible."
    else lit "You are \"" ++ agent ++ lit "\". " ++ PyStr.strNat agents.length ++ lit " " ++ label ++
      lit " agent(s):"
  let entries := (objectEntries hidden).insertionSort fun x y =>
    y.2 < x.2 ∨ (x.2 = y.2 ∧ collate x.1 y.1 = true)
  let counts := entries.map fun e => e.1 ++ lit " ×" ++ PyStr.strNat e.2
  let foot :=
    if entries = [] then []
    else [(if status = lit "online" then lit "Offline" else lit "Online") ++ lit ": " ++
      (lit " · ").intercalate counts ++
      lit " — muster_roster \x7b\"status\":\"all\"\x7d or \x7b\"project\":\"…\"\x7d to list them"]
  return (lit "\n").intercalate (head :: blocks.flatten ++ foot)

end

/-! ## Branches on one line -/

namespace Json

variable [JsNumbers]

theorem jsItems_plain {xs : List Json} (h : ∀ x ∈ xs, (x.jsPlain = true ↔ ∃ t, x.jsString = some t ∧ OneLine t)) :
    jsAllPlain xs = true ↔ ∃ ts, jsItems xs = some ts ∧ ∀ t ∈ ts, OneLine t := by
  induction xs with
  | nil => exact iff_of_true rfl ⟨[], rfl, List.forall_mem_nil _⟩
  | cons x xs ih =>
    obtain ⟨hx, hxs⟩ := List.forall_mem_cons.1 h
    have hitem : x.jsPlain = true ↔
        ∃ t, (if x.isNull then some [] else x.jsString) = some t ∧ OneLine t := by
      cases x with
      | null => exact iff_of_true rfl ⟨[], rfl, by rintro ⟨⟩⟩
      | _ => exact hx
    rw [jsAllPlain, Bool.and_eq_true, hitem, ih hxs, jsItems]
    cases (if x.isNull then some [] else x.jsString) with
    | none => exact iff_of_false (by rintro ⟨⟨t, ⟨⟩, -⟩, -⟩) (by rintro ⟨ts, ⟨⟩, -⟩)
    | some t =>
      cases jsItems xs with
      | none => exact iff_of_false (by rintro ⟨-, ts, ⟨⟩, -⟩) (by rintro ⟨ts, ⟨⟩, -⟩)
      | some ts =>
        constructor
        · rintro ⟨⟨_, ⟨⟩, ht⟩, _, ⟨⟩, hts⟩
          exact ⟨t :: ts, rfl, List.forall_mem_cons.2 ⟨ht, hts⟩⟩
        · rintro ⟨_, ⟨⟩, hts⟩
          obtain ⟨ht, hts⟩ := List.forall_mem_cons.1 hts
          exact ⟨⟨t, rfl, ht⟩, ts, rfl, hts⟩

/-- What can be shown on one line. -/
theorem jsPlain_iff (x : Json) : x.jsPlain = true ↔ ∃ t, x.jsString = some t ∧ OneLine t := by
  induction x using ind with
  | null => exact iff_of_true rfl ⟨_, rfl, by decide⟩
  | bool b => cases b <;> exact iff_of_true rfl ⟨_, rfl, by decide⟩
  | int n => exact iff_of_true rfl ⟨_, rfl, JsNumbers.int_line n⟩
  | float x => exact iff_of_true rfl ⟨_, rfl, JsNumbers.float_line x⟩
  | str s =>
    have hplain : (str s).jsPlain = true ↔ OneLine s := by simp [jsPlain, OneLine]
    rw [hplain]
    exact ⟨fun h => ⟨s, rfl, h⟩, by rintro ⟨_, ⟨⟩, h⟩; exact h⟩
  | arr xs ih =>
    have hitems := jsItems_plain ih
    have hcomma : OneLine (lit ",") := by decide
    rw [jsPlain, hitems, jsString]
    cases jsItems xs with
    | none => exact iff_of_false (by rintro ⟨ts, ⟨⟩, -⟩) (by rintro ⟨ts, ⟨⟩, -⟩)
    | some ts =>
      constructor
      · rintro ⟨_, ⟨⟩, hts⟩
        exact ⟨_, rfl, (oneLine_intercalate hcomma).2 hts⟩
      · rintro ⟨_, ⟨⟩, ht⟩
        exact ⟨ts, rfl, (oneLine_intercalate hcomma).1 ht⟩
  | obj kvs ih =>
    have hplain : (obj kvs).jsPlain = true ↔ lit "toString" ∉ kvs.map Prod.fst := by simp [jsPlain]
    rw [hplain, jsString]
    by_cases h : lit "toString" ∈ kvs.map Prod.fst
    · rw [if_pos h]
      exact iff_of_false (not_not_intro h) (by rintro ⟨_, ⟨⟩, -⟩)
    · rw [if_neg h]
      exact iff_of_true h ⟨_, rfl, by decide⟩

omit [JsNumbers] in
theorem jsPlain_of_falsy {x : Json} (h : x.jsTruthy = false) : x.jsPlain = true := by
  cases x with
  | str s =>
    obtain rfl : s = [] := by simpa [jsTruthy] using h
    rfl
  | arr xs => cases h
  | obj kvs => cases h
  | _ => rfl

omit [JsNumbers] in
theorem text_line_of_jsPlain [Python] {x : Json} (h : x.jsPlain = true) : OneLine x.text := by
  refine (text_line x).2 ?_
  rintro s rfl
  simpa [jsPlain, OneLine] using h

end Json

end Muster
