import Muster.Lib.Json

/-!
# `json.dumps`

With its default arguments: `", "` and `": "` between the parts, and everything but
printable ASCII escaped, beyond the basic plane as a surrogate pair.  So what it writes is
one line of printable ASCII (`Json.dumps_printable`).
-/

namespace Muster

/-- From the space to the tilde. -/
def isPrintable (c : CodePoint) : Bool := 32 ≤ c && c ≤ 126

namespace Json

/-- A character within a string. -/
def dumpsChar (c : CodePoint) : PyStr :=
  if c = 34 ∨ c = 92 then [92, c]
  else if c = 8 then lit "\\b"
  else if c = 9 then lit "\\t"
  else if c = 10 then lit "\\n"
  else if c = 12 then lit "\\f"
  else if c = 13 then lit "\\r"
  else if isPrintable c then [c]
  else if c < 0x10000 then lit "\\u" ++ PyStr.hex 4 c
  else lit "\\u" ++ PyStr.hex 4 (0xD800 + (c.val - 0x10000) / 0x400) ++
    lit "\\u" ++ PyStr.hex 4 (0xDC00 + (c.val - 0x10000) % 0x400)

/-- A string in its quotes. -/
def dumpsStr (s : PyStr) : PyStr := 34 :: s.flatMap dumpsChar ++ [34]

/-- A float as `repr` has it; what JSON has no number for is a word. -/
def dumpsFloat (x : PyFloat) : PyStr :=
  if x.text = lit "nan" then lit "NaN"
  else if x.text = lit "inf" then lit "Infinity"
  else if x.text = lit "-inf" then lit "-Infinity"
  else x.text

mutual

/-- `json.dumps(x)`. -/
def dumps : Json → PyStr
  | null => lit "null"
  | bool b => if b then lit "true" else lit "false"
  | int n => PyStr.strInt n
  | float x => dumpsFloat x
  | str s => dumpsStr s
  | arr xs => 91 :: sep (lit ", ") (dumpsAll xs) ++ [93]
  | obj kvs => 123 :: sep (lit ", ") (dumpsFields kvs) ++ [125]

def dumpsAll : List Json → List PyStr
  | [] => []
  | x :: xs => dumps x :: dumpsAll xs

def dumpsFields : List (PyStr × Json) → List PyStr
  | [] => []
  | (k, x) :: kvs => (dumpsStr k ++ lit ": " ++ dumps x) :: dumpsFields kvs

end

end Json

/-! ## Printable ASCII -/

/-- Digits are printable. -/
theorem isPrintable_of_isDigit {c : CodePoint} (h : PyStr.isDigit c = true) : isPrintable c = true := by
  simp only [PyStr.isDigit, isPrintable, Bool.and_eq_true, decide_eq_true_eq, Fin.le_def] at *
  exact ⟨le_trans (by decide) h.1, le_trans h.2 (by decide)⟩

namespace PyStr

theorem printable_hex (w n : Nat) : (hex w n).all isPrintable = true := by
  have hchar : ∀ n < 16, isPrintable (hexChar n) = true := by decide
  induction w generalizing n with
  | zero => rfl
  | succ w ih =>
    unfold hex
    rw [List.all_append, ih, List.all_cons, hchar _ (Nat.mod_lt _ (by decide))]
    rfl

/-- Integers are printed in digits, and a sign. -/
theorem printable_strNat (n : Nat) : (strNat n).all isPrintable = true := by
  have hchar : ∀ d < 10, isPrintable (digitChar d) = true := by decide
  unfold strNat
  split
  · rfl
  · refine List.all_eq_true.2 fun c hc => ?_
    obtain ⟨d, hd, rfl⟩ := List.mem_map.1 hc
    exact hchar d (Nat.digits_lt_base (by decide) (List.mem_reverse.1 hd))

theorem printable_strInt (n : Int) : (strInt n).all isPrintable = true := by
  cases n with
  | ofNat n => exact printable_strNat n
  | negSucc n =>
    unfold strInt
    rw [List.all_append, printable_strNat]
    rfl

end PyStr

namespace Json

/-- A character that is not printable is escaped, in printable ones. -/
theorem printable_dumpsChar (c : CodePoint) : (dumpsChar c).all isPrintable = true := by
  unfold dumpsChar
  split
  · next h => rcases h with rfl | rfl <;> rfl
  iterate 5
    split
    · rfl
  split
  · next h => rw [List.all_cons, h]; rfl
  split
  · rw [List.all_append, PyStr.printable_hex]; rfl
  · simp only [List.all_append, PyStr.printable_hex]; rfl

theorem printable_dumpsStr (s : PyStr) : (dumpsStr s).all isPrintable = true := by
  have hs : (s.flatMap dumpsChar).all isPrintable = true := by
    refine List.all_eq_true.2 fun c hc => ?_
    obtain ⟨d, -, hd⟩ := List.mem_flatMap.1 hc
    exact List.all_eq_true.1 (printable_dumpsChar d) c hd
  unfold dumpsStr
  rw [List.cons_append, List.all_cons, List.all_append, hs]
  rfl

/-- A float has digits, signs and letters only. -/
theorem printable_dumpsFloat (x : PyFloat) : (dumpsFloat x).all isPrintable = true := by
  unfold dumpsFloat
  iterate 3
    split
    · rfl
  refine PyFloat.isText_all ?_ x.printed
  rintro c (hc | hc)
  · exact isPrintable_of_isDigit hc
  · have hmarks : (lit "+-.aefin").all isPrintable = true := rfl
    exact List.all_eq_true.1 hmarks c hc

/-- Items that are printable are so with a separator between them. -/
theorem printable_sep {s : PyStr} (hs : s.all isPrintable = true) {xs : List PyStr}
    (h : ∀ x ∈ xs, x.all isPrintable = true) : (sep s xs).all isPrintable = true := by
  induction xs with
  | nil => rfl
  | cons x xs ih =>
    have hx := h x List.mem_cons_self
    have hrest := ih fun y hy => h y (List.mem_cons_of_mem _ hy)
    cases xs with
    | nil => exact hx
    | cons y ys =>
      unfold sep
      rw [List.all_append, List.all_append, hx, hs, hrest]
      rfl

/-- The items are printed one by one. -/
theorem dumpsAll_eq_map (xs : List Json) : dumpsAll xs = xs.map dumps := by
  induction xs with
  | nil => rfl
  | cons x xs ih => exact congrArg _ ih

/-- The fields are printed one by one. -/
theorem dumpsFields_eq_map (kvs : List (PyStr × Json)) :
    dumpsFields kvs = kvs.map fun kv => dumpsStr kv.1 ++ lit ": " ++ kv.2.dumps := by
  induction kvs with
  | nil => rfl
  | cons kv kvs ih => exact congrArg _ ih

/-- **One line of printable ASCII.** -/
theorem dumps_printable (x : Json) : x.dumps.all isPrintable = true := by
  induction x using ind with
  | null => rfl
  | bool b => cases b <;> rfl
  | int n => exact PyStr.printable_strInt n
  | float x => exact printable_dumpsFloat x
  | str s => exact printable_dumpsStr s
  | arr xs ih =>
    have hitems : (sep (lit ", ") (dumpsAll xs)).all isPrintable = true := by
      refine printable_sep rfl ?_
      rw [dumpsAll_eq_map, List.forall_mem_map]
      exact ih
    unfold dumps
    rw [List.cons_append, List.all_cons, List.all_append, hitems]
    rfl
  | obj kvs ih =>
    have hfields : (sep (lit ", ") (dumpsFields kvs)).all isPrintable = true := by
      refine printable_sep rfl ?_
      rw [dumpsFields_eq_map, List.forall_mem_map]
      intro kv hkv
      rw [List.all_append, List.all_append, printable_dumpsStr, ih kv hkv]
      rfl
    unfold dumps
    rw [List.cons_append, List.all_cons, List.all_append, hfields]
    rfl

end Json

end Muster
