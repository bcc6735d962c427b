import Docuverse.Proofs.Address.Scope
import Docuverse.Span.Region

namespace Docuverse

instance : Std.IsLinearOrder Address := .of_ord

instance : Std.LawfulOrderMax Address := .of_max_le_iff
  (fun a b c => by
    show (if a ≤ b then b else a) ≤ c ↔ a ≤ c ∧ b ≤ c
    split
    next below => exact ⟨fun bound => ⟨Std.le_trans below bound, bound⟩, And.right⟩
    next above =>
      have below : b ≤ a := Std.le_of_not_ge above
      exact ⟨fun bound => ⟨bound, Std.le_trans below bound⟩, And.left⟩)
  (fun a b => by
    show (if a ≤ b then b else a) = a ∨ (if a ≤ b then b else a) = b
    split
    · exact Or.inr rfl
    · exact Or.inl rfl)

namespace Address

variable {a b : Address} {o : Offset}

theorem compare_add (moved : a.add o = .ok b) :
    compare a b = if o.tumbler.isZero then .eq else .lt :=
  Tumbler.compare_addDigits (add_eq_ok.mp moved)

/-- To move on is never to move back. -/
theorem le_of_add (moved : a.add o = .ok b) : a ≤ b := by
  rw [← Std.isLE_compare, compare_add moved]
  split <;> rfl

theorem lt_of_add (counts : o.tumbler.isZero = false) (moved : a.add o = .ok b) : a < b := by
  rw [← Std.compare_eq_lt, compare_add moved, counts]
  rfl

end Address

namespace Span

variable {s : Span} {x stop : Address}

theorem upper_eq_some : s.upper = some stop ↔ s.stop = .ok stop := by
  rw [upper]
  cases s.stop with
  | error fault => simp [Except.toOption]
  | ok found => simp [Except.toOption]

theorem start_le_stop (stops : s.stop = .ok stop) : s.start ≤ stop := Address.le_of_add stops

/-- A span without a stop goes on past every address. -/
theorem contains_iff :
    s.contains x = true ↔ s.start ≤ x ∧ ∀ stop, s.upper = some stop → x < stop := by
  rw [contains, Region.within, Region.instAddress, Bool.and_eq_true, decide_eq_true_iff]
  cases s.upper with
  | none => simp
  | some stop => simp

theorem contains_of_stop (stops : s.stop = .ok stop) :
    s.contains x = true ↔ s.start ≤ x ∧ x < stop := by
  rw [contains_iff, upper_eq_some.mpr stops]
  simp

/-- A span that is not empty is told by what it holds. -/
theorem bounds_of_contains {low high : Address} (proper : low < high)
    (inside : ∀ x : Address, s.contains x = true ↔ low ≤ x ∧ x < high) :
    s.start = low ∧ s.stop = .ok high := by
  obtain ⟨before, past⟩ := contains_iff.mp ((inside low).mpr ⟨Std.le_refl _, proper⟩)
  have ownStart : s.contains s.start = true :=
    contains_iff.mpr ⟨Std.le_refl _, fun stop bound => Std.lt_of_le_of_lt before (past stop bound)⟩
  have start : s.start = low := Std.le_antisymm before ((inside _).mp ownStart).1
  have outside : ¬ s.contains high = true := fun holds => Std.lt_irrefl ((inside high).mp holds).2
  have reached : s.start ≤ high := Std.le_trans before (Std.le_of_lt proper)
  refine ⟨start, ?_⟩
  cases upper : s.upper with
  | none => exact absurd (contains_iff.mpr ⟨reached, by simp [upper]⟩) outside
  | some stop =>
    have stops := upper_eq_some.mp upper
    have below : stop ≤ high := Std.not_lt.mp fun before =>
      outside ((contains_of_stop stops).mpr ⟨reached, before⟩)
    have above : high ≤ stop := Std.not_lt.mp fun before => by
      have within := (inside stop).mpr ⟨start ▸ start_le_stop stops, before⟩
      exact Std.lt_irrefl ((contains_of_stop stops).mp within).2
    rw [stops, Std.le_antisymm below above]

end Span

namespace VSpan

variable {v : VSpan} {x stop : Address}

theorem stop_eq_ok :
    v.stop = .ok stop ↔ ∃ place, v.span.stop = .ok place ∧ globalize v.doc place = stop :=
  map_eq_ok

/-- Both coordinates tell the same stop. -/
theorem stop_global : v.global.stop = .ok stop ↔ v.stop = .ok stop := by
  rw [stop_eq_ok]
  exact Address.add_globalize

theorem start_le_stop (stops : v.stop = .ok stop) : v.start ≤ stop :=
  Span.start_le_stop (stop_global.mpr stops)

theorem start_lt_stop (counts : v.span.isEmpty = false) (stops : v.stop = .ok stop) :
    v.start < stop := by
  refine Address.lt_of_add ?_ (stop_global.mpr stops)
  show (v.doc.scopeZeros ++ v.span.width.digits).all (· == 0) = false
  rw [List.all_append]
  exact Bool.and_eq_false_imp.mpr fun _ => counts

theorem contains_of_stop (stops : v.stop = .ok stop) :
    v.contains x = true ↔ v.start ≤ x ∧ x < stop :=
  Span.contains_of_stop (stop_global.mpr stops)

end VSpan
end Docuverse
