import Muster.Lib.Dumps
import Muster.Lib.PyRepr

/-!
# Texts of one line

`repr` escapes the line breaks of strings, so that only the text of a string itself can have
any (`text_line`).
-/

namespace Muster

/-- No line break in it. -/
def OneLine (s : PyStr) : Prop := (10 : CodePoint) ∉ s

instance (s : PyStr) : Decidable (OneLine s) := inferInstanceAs (Decidable (_ ∉ _))

/-- Texts of one line make one line. -/
theorem oneLine_append {s t : PyStr} : OneLine (s ++ t) ↔ OneLine s ∧ OneLine t := by
  unfold OneLine
  rw [List.mem_append, not_or]

theorem oneLine_cons {c : CodePoint} {s : PyStr} : OneLine (c :: s) ↔ 10 ≠ c ∧ OneLine s := by
  unfold OneLine
  rw [List.mem_cons, not_or]

/-- A line break is not printable. -/
theorem oneLine_printable {s : PyStr} (h : s.all isPrintable = true) : OneLine s := by
  intro hmem
  have := List.all_eq_true.1 h 10 hmem
  cases this

/-- Joined, they make one line if each of them is one. -/
theorem oneLine_intercalate {s : PyStr} (hs : OneLine s) {xs : List PyStr} :
    OneLine (s.intercalate xs) ↔ ∀ x ∈ xs, OneLine x := by
  induction xs with
  | nil => exact iff_of_true (by rintro ⟨⟩) (List.forall_mem_nil _)
  | cons x xs ih =>
    rw [List.forall_mem_cons, ← ih]
    cases xs with
    | nil =>
      rw [List.intercalate_singleton]
      exact (and_iff_left (by rintro ⟨⟩)).symm
    | cons y xs => rw [List.intercalate_cons_cons, oneLine_append, oneLine_append, and_iff_left hs]

namespace PyStr

/-- `repr` escapes the line break. -/
theorem reprChar_line [Python] {q : CodePoint} (hq : q ≠ 10) (c : CodePoint) : OneLine (reprChar q c) := by
  have hhex : ∀ w n, OneLine (hex w n) := fun w n => oneLine_printable (printable_hex w n)
  by_cases hc : c = 10
  · rw [hc]
    unfold reprChar
    rw [if_neg (not_or.2 ⟨Ne.symm hq, by decide⟩), if_neg (by decide), if_pos rfl]
    decide
  · have hself : OneLine [c] := fun hmem => hc (List.mem_singleton.1 hmem).symm
    unfold reprChar
    split
    · exact oneLine_cons.2 ⟨by decide, hself⟩
    · split
      · decide
      · split
        · decide
        · split
          · exact oneLine_append.2 ⟨by decide, hhex _ _⟩
          · split
            · exact hself
            · split
              · exact oneLine_append.2 ⟨by decide, hhex _ _⟩
              · split
                · exact oneLine_append.2 ⟨by decide, hhex _ _⟩
                · exact oneLine_append.2 ⟨by decide, hhex _ _⟩

theorem repr_line [Python] (s : PyStr) : OneLine (repr s) := by
  have hq : reprQuote s ≠ 10 := by
    rcases reprQuote_cases s with h | h
    · rw [h]; decide
    · rw [h]; decide
  have hquote : OneLine [reprQuote s] := fun hmem => hq (List.mem_singleton.1 hmem).symm
  have hchars : OneLine (s.flatMap (reprChar (reprQuote s))) := by
    intro hmem
    obtain ⟨c, -, hc⟩ := List.mem_flatMap.1 hmem
    exact reprChar_line hq c hc
  unfold repr
  exact oneLine_append.2 ⟨oneLine_append.2 ⟨hquote, hchars⟩, hquote⟩

end PyStr

/-- A float is printed in digits, signs and letters. -/
theorem PyFloat.text_line (x : PyFloat) : OneLine x.text := by
  refine oneLine_printable (PyFloat.isText_all ?_ x.printed)
  rintro c (hc | hc)
  · exact isPrintable_of_isDigit hc
  · have hmarks : (lit "+-.aefin").all isPrintable = true := rfl
    exact List.all_eq_true.1 hmarks c hc

namespace Json

/-- Items of one line, with a separator of one. -/
theorem sep_line {s : PyStr} (hs : OneLine s) {xs : List PyStr} (h : ∀ x ∈ xs, OneLine x) : OneLine (sep s xs) := by
  induction xs with
  | nil => rintro ⟨⟩
  | cons x xs ih =>
    obtain ⟨hx, hxs⟩ := List.forall_mem_cons.1 h
    cases xs with
    | nil => exact hx
    | cons y xs => exact oneLine_append.2 ⟨oneLine_append.2 ⟨hx, hs⟩, ih hxs⟩

/-- **`repr` of any value is one line.** -/
theorem repr_line [Python] (x : Json) : OneLine x.repr := by
  induction x using ind with
  | null => exact oneLine_printable rfl
  | bool b => cases b <;> exact oneLine_printable rfl
  | int n => exact oneLine_printable (PyStr.printable_strInt n)
  | float x => exact x.text_line
  | str s => exact PyStr.repr_line s
  | arr xs ih =>
    have hitems : ∀ t ∈ reprs xs, OneLine t := by
      rw [reprs_eq_map]
      exact List.forall_mem_map.2 ih
    unfold repr
    exact oneLine_append.2 ⟨oneLine_append.2 ⟨by decide, sep_line (by decide) hitems⟩, by decide⟩
  | obj kvs ih =>
    have hitems : ∀ t ∈ reprFields kvs, OneLine t := by
      rw [reprFields_eq_map]
      refine List.forall_mem_map.2 fun kv hkv => ?_
      exact oneLine_append.2 ⟨oneLine_append.2 ⟨PyStr.repr_line _, by decide⟩, ih kv hkv⟩
    unfold repr
    exact oneLine_append.2 ⟨oneLine_append.2 ⟨by decide, sep_line (by decide) hitems⟩, by decide⟩

/-- Only a string is printed as it is. -/
theorem text_line [Python] (x : Json) : OneLine x.text ↔ ∀ s, x = str s → OneLine s := by
  cases x with
  | str s => exact ⟨fun h t ht => by cases ht; exact h, fun h => h s rfl⟩
  | _ => exact iff_of_true (repr_line _) (by rintro _ ⟨⟩)

end Json

end Muster
