import Docuverse.Tumbler.Basic

namespace Docuverse.Tumbler

section Digits

variable {a b : List UInt64} {d e : UInt64}

theorem isLE_cons_iff :
    (compare (d :: a) (e :: b)).isLE = true ↔ d < e ∨ d = e ∧ (compare a b).isLE = true := by
  rw [List.compare_cons_cons]
  by_cases same : d = e
  · subst same
    rw [Std.ReflOrd.compare_self]
    simp [UInt64.lt_irrefl]
  · by_cases below : d < e
    · simp [Std.compare_eq_lt.mpr below, below]
    · have above : e < d := UInt64.lt_of_le_of_ne (UInt64.not_lt.mp below) (Ne.symm same)
      simp [Std.compare_eq_gt.mpr above, below, same]

theorem lt_cons_iff :
    compare (d :: a) (e :: b) = .lt ↔ d < e ∨ d = e ∧ compare a b = .lt := by
  rw [List.compare_cons_cons, Ordering.then_eq_lt, Std.compare_eq_lt,
    Std.LawfulEqOrd.compare_eq_iff_eq]

/-- Digits are compared in the order of their lists. -/
theorem compare_eq_lt_iff : compare a b = .lt ↔ a < b := by
  induction a generalizing b with
  | nil =>
    cases b with
    | nil => simp
    | cons e b => simp
  | cons d a ih =>
    cases b with
    | nil => simp
    | cons e b => rw [lt_cons_iff, List.cons_lt_cons_iff, ih]

end Digits

theorem lt_iff {t u : Tumbler} : t < u ↔ t.digits < u.digits := by
  rw [← Std.compare_eq_lt, ← compare_eq_lt_iff]
  rfl

/-- A zero at the end counts, though less than any other digit before it. -/
example : (⟨[1, 1]⟩ : Tumbler) < ⟨[1, 1, 0]⟩ ∧ (⟨[1, 1, 0]⟩ : Tumbler) < ⟨[1, 2]⟩ := by decide

end Docuverse.Tumbler
