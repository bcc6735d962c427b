import Docuverse.Proofs.Distance
import Docuverse.Proofs.Span.Containment

namespace Docuverse.Span

variable {a b r s : Span} {stop : Address}

theorem upper_eq_none : s.upper = none ↔ ¬ ∃ stop, s.stop = .ok stop := by
  rw [Option.eq_none_iff_forall_ne_some]
  simp only [ne_eq, upper_eq_some, not_exists]

theorem leastUpper_eq_none : leastUpper a b = none ↔ a.upper = none ∧ b.upper = none := by
  rw [leastUpper]
  cases a.upper <;> cases b.upper <;> simp [Option.merge]

/-- A bound is all that is needed to tell what two spans share. -/
theorem exists_intersect (bound : leastUpper a b = some stop) : ∃ r, a.intersect b = .ok r := by
  simp only [intersect_eq_ok]
  by_cases below : stop ≤ max a.start b.start
  · exact ⟨empty, stop, bound, by rw [if_pos below]⟩
  · obtain ⟨r, told⟩ := exists_between (Std.le_of_not_ge below)
    exact ⟨r, stop, bound, by rw [if_neg below, told]⟩

theorem intersect_eq_error {fault : Fault} :
    a.intersect b = .error fault ↔
      fault = .range (.intersect a b) ∧ a.upper = none ∧ b.upper = none := by
  refine ⟨fun failed => ?_, ?_⟩
  · have unbounded : leastUpper a b = none := by
      rw [Option.eq_none_iff_forall_ne_some]
      intro stop bound
      obtain ⟨r, told⟩ := exists_intersect bound
      rw [failed] at told
      cases told
    obtain ⟨endlessA, endlessB⟩ := leastUpper_eq_none.mp unbounded
    rw [intersect, endlessA, endlessB] at failed
    cases failed
    exact ⟨rfl, endlessA, endlessB⟩
  · rintro ⟨rfl, endlessA, endlessB⟩
    rw [intersect, endlessA, endlessB]

theorem leastUpper_comm : leastUpper a b = leastUpper b a := by
  have comm (s t : Address) : min s t = min t s := Std.Commutative.comm s t
  rw [leastUpper, leastUpper]
  cases a.upper <;> cases b.upper <;> simp [Option.merge, comm]

theorem intersect_comm : a.intersect b = .ok r ↔ b.intersect a = .ok r := by
  have below (s t : Address) : max s t ≤ max t s :=
    Std.max_le_iff.mpr ⟨Std.right_le_max, Std.left_le_max⟩
  have start : max a.start b.start = max b.start a.start := Std.le_antisymm (below _ _) (below _ _)
  rw [intersect_eq_ok, intersect_eq_ok, leastUpper_comm, start]

/-- What is shared and is not empty is not pinched, so that it holds nothing that is not shared. -/
theorem contains_of_intersect (common : a.intersect b = .ok r) (extended : r.isEmpty = false) :
    a.contains r = true ∧ b.contains r = true := by
  have held := contains_start extended
  have free : ¬ Pinched a b := fun pinched => by
    rw [not_contains_of_pinched common pinched] at held
    cases held
  have shared {x : Address} (inside : r.contains x = true) :=
    (contains_of_not_pinched common free).mp inside
  exact ⟨contains_span_of_forall extended fun _ inside => (shared inside).1,
    contains_span_of_forall extended fun _ inside => (shared inside).2⟩

/-- The width of the inner span is recovered from its ends. -/
theorem intersect_of_contains (nested : a.contains b = true) (extended : b.isEmpty = false)
    (stops : b.stop = .ok stop) : a.intersect b = .ok b := by
  obtain ⟨before, within⟩ := contains_span_iff.mp nested
  have start : max a.start b.start = b.start := if_pos before
  have proper : b.start < stop := Address.lt_of_add extended stops
  have bound : leastUpper a b = some stop := by
    rw [leastUpper, upper_eq_some.mpr stops]
    cases upper : a.upper with
    | none => rfl
    | some last =>
      obtain ⟨stop', stops', below⟩ := within last upper
      obtain rfl : stop = stop' := by
        rw [upper_eq_some.mpr stops] at stops'
        exact Option.some.inj stops'
      have least : min stop last = stop := if_pos below
      exact congrArg some ((Std.Commutative.comm last stop).trans least)
  have distance : Tumbler.subDigits stop.digits b.start.digits = some b.width.digits := by
    have counts : b.width.digits.all (· == 0) = false := extended
    rw [Tumbler.subDigits_addDigits (Address.add_eq_ok.mp stops), counts]
    rfl
  refine intersect_eq_ok.mpr ⟨stop, bound, ?_⟩
  rw [start, if_neg (Std.not_le.mpr proper)]
  exact between_eq_ok.mpr ⟨rfl, distance⟩

/-- Where an overlap has a first address, both spans hold it. -/
theorem intersect_of_disjoint (common : a.intersect b = .ok r)
    (disjoint : ∀ x : Address, ¬ (a.contains x = true ∧ b.contains x = true)) : r = empty := by
  obtain ⟨stop, bound, told⟩ := intersect_eq_ok.mp common
  split at told
  · exact told
  next above =>
    refine absurd (contains_both_iff.mpr ⟨Std.le_refl _, fun stop' bound' => ?_⟩) (disjoint _)
    rw [← Option.some.inj (bound.symm.trans bound')]
    exact Std.not_le.mp above

/-- A result fails for want of a stop alone and is the same either way round. If it is not empty it
is inside both spans. An inner span with an extent and a stop is the result itself, and spans apart
give the empty span. -/
theorem intersect_laws (a b : Span) :
    (∀ fault, a.intersect b = .error fault ↔ fault = .range (.intersect a b) ∧
      (¬ ∃ stop, a.stop = .ok stop) ∧ ¬ ∃ stop, b.stop = .ok stop) ∧
    (∀ r, a.intersect b = .ok r ↔ b.intersect a = .ok r) ∧
    (∀ r, a.intersect b = .ok r → r.isEmpty = false →
      a.contains r = true ∧ b.contains r = true) ∧
    (b.isEmpty = false → (∃ stop, b.stop = .ok stop) →
      (a.contains b = true → a.intersect b = .ok b) ∧ b.intersect b = .ok b) ∧
    ∀ r, a.intersect b = .ok r →
      (¬ ∃ x : Address, a.contains x = true ∧ b.contains x = true) → r = empty := by
  refine ⟨fun fault => ?_, fun r => intersect_comm, fun r => contains_of_intersect,
    fun extended ⟨stop, stops⟩ => ?_, fun r common disjoint => ?_⟩
  · rw [← upper_eq_none, ← upper_eq_none]
    exact intersect_eq_error
  · exact ⟨fun nested => intersect_of_contains nested extended stops,
      intersect_of_contains (contains_self b) extended stops⟩
  · exact intersect_of_disjoint common (not_exists.mp disjoint)

/-- An inner span in one without a stop, the same the other way round, two spans without stops and
two spans that only touch. -/
theorem intersect_laws_nested :
    let endless : Span := ⟨.ofDigits [1, 18446744073709551615], .ofDigits [0, 1]⟩
    let inner : Span := ⟨.ofDigits [1, 18446744073709551615, 3], .ofDigits [0, 0, 4, 0]⟩
    let next : Span := ⟨.ofDigits [1, 18446744073709551615, 7, 0], .ofDigits [0, 0, 1]⟩
    endless.contains inner = true ∧ endless.intersect inner = .ok inner ∧
      inner.intersect endless = .ok inner ∧ inner.contains inner = true ∧
      endless.intersect endless = .error (.range (.intersect endless endless)) ∧
      (¬ ∃ x : Address, inner.contains x = true ∧ next.contains x = true) ∧
      inner.intersect next = .ok empty := by
  intro endless inner next
  have nested : endless.contains inner = true := rfl
  have stops : inner.stop = .ok (.ofDigits [1, 18446744073709551615, 7, 0]) := rfl
  have endlessStop : ¬ ∃ stop, endless.stop = .ok stop := by
    rintro ⟨stop, ⟨⟩⟩
  obtain ⟨_, comm, _, absorbs, _⟩ := intersect_laws endless inner
  have common : endless.intersect inner = .ok inner := (absorbs rfl ⟨_, stops⟩).1 nested
  have back := (comm inner).mp common
  obtain ⟨_, _, within, _, _⟩ := intersect_laws inner endless
  obtain ⟨_, _, _, _, disjoint⟩ := intersect_laws inner next
  have apart : ¬ ∃ x : Address, inner.contains x = true ∧ next.contains x = true := by
    rintro ⟨x, before, after⟩
    exact Std.not_lt.mpr (contains_iff.mp after).1 ((contains_of_stop stops).mp before).2
  refine ⟨nested, common, back, (within inner back rfl).1, ?_, apart, ?_⟩
  · exact ((intersect_laws endless endless).1 _).mpr ⟨rfl, endlessStop, endlessStop⟩
  · have bound : leastUpper inner next = some (.ofDigits [1, 18446744073709551615, 7, 0]) := rfl
    obtain ⟨r, told⟩ := exists_intersect bound
    rw [told, disjoint r told apart]

end Docuverse.Span
