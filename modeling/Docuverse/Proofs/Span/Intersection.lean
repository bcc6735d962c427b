import Docuverse.Proofs.Span.Region

namespace Docuverse.Span

variable {a b r : Span} {x : Address}

/-- The bound of what two spans share, without one if neither of them has a bound. -/
def leastUpper (a b : Span) : Option Address := Option.merge min a.upper b.upper

theorem below_leastUpper :
    (∀ stop, leastUpper a b = some stop → x < stop) ↔
      (∀ stop, a.upper = some stop → x < stop) ∧ ∀ stop, b.upper = some stop → x < stop := by
  rw [leastUpper]
  cases a.upper with
  | none => cases b.upper <;> simp [Option.merge]
  | some s =>
    cases b.upper with
    | none => simp [Option.merge]
    | some t =>
      have below : x < min s t ↔ x < s ∧ x < t := by
        rw [← Std.not_le, Std.min_le, not_or, Std.not_le, Std.not_le]
      simp [Option.merge, below]

/-- Both spans hold what lies between the greater start and the least bound. -/
theorem contains_both_iff :
    a.contains x = true ∧ b.contains x = true ↔
      max a.start b.start ≤ x ∧ ∀ stop, leastUpper a b = some stop → x < stop := by
  rw [contains_iff, contains_iff, Std.max_le_iff, below_leastUpper]
  exact and_and_and_comm

theorem between_eq_ok {start stop : Address} :
    between start stop = .ok r ↔
      r.start = start ∧ Tumbler.subDigits stop.digits start.digits = some r.width.digits := by
  rw [← Address.offsetFrom_eq_ok, between, bind_eq_ok]
  refine ⟨?_, ?_⟩
  · rintro ⟨width, distance, told⟩
    cases told
    exact ⟨rfl, distance⟩
  · rintro ⟨rfl, distance⟩
    exact ⟨r.width, distance, rfl⟩

/-- An overlap needs a bound. Where the bound is past the start it is told by its distance. -/
theorem intersect_eq_ok :
    a.intersect b = .ok r ↔ ∃ stop, leastUpper a b = some stop ∧
      if stop ≤ max a.start b.start then r = empty
      else between (max a.start b.start) stop = .ok r := by
  have told (stop : Address) :
      (if stop ≤ max a.start b.start then .ok empty else between (max a.start b.start) stop) =
          Except.ok r ↔
        if stop ≤ max a.start b.start then r = empty
        else between (max a.start b.start) stop = .ok r := by
    split <;> simp [eq_comm]
  rw [intersect, leastUpper]
  cases a.upper <;> cases b.upper <;> simp [Option.merge, told]

/-- A span between two addresses stops at the second, if a width leads there. -/
theorem stop_of_between {start stop : Address} (told : between start stop = .ok r)
    (unpadded : ¬ Tumbler.Pads start.digits stop.digits) : r.stop = .ok stop := by
  obtain ⟨rfl, distance⟩ := between_eq_ok.mp told
  exact Address.add_eq_ok.mpr (Tumbler.addDigits_subDigits unpadded distance)

theorem stop_of_between_of_pads {start stop : Address} (told : between start stop = .ok r)
    (pads : Tumbler.Pads start.digits stop.digits) : r.stop = .ok start := by
  obtain ⟨rfl, distance⟩ := between_eq_ok.mp told
  exact Address.add_eq_ok.mpr (Tumbler.addDigits_subDigits_of_pads pads distance)

theorem not_contains_of_stop_le {s : Span} {stop : Address} (stops : s.stop = .ok stop)
    (below : stop ≤ s.start) : s.contains x = false := by
  rw [Bool.eq_false_iff, ne_eq, contains_of_stop stops]
  intro parts
  exact Std.not_lt.mpr (Std.le_trans below parts.1) parts.2

theorem not_contains_empty : empty.contains x = false := by
  have stops : empty.stop = .ok .nowhere := rfl
  exact not_contains_of_stop_le stops (Std.le_refl _)

/-- The overlap stops at its own start with zeros behind it. -/
def Pinched (a b : Span) : Prop :=
  ∃ stop, leastUpper a b = some stop ∧ Tumbler.Pads (max a.start b.start).digits stop.digits

theorem lt_of_pads {start stop : Address} (pads : Tumbler.Pads start.digits stop.digits) :
    start < stop := by
  obtain ⟨n, zeros⟩ := pads
  have order : compare start stop = compare start.digits stop.digits := rfl
  rw [← Std.compare_eq_lt, order, zeros, Tumbler.compare_append]
  rfl

theorem not_contains_of_pinched (common : a.intersect b = .ok r) (pinched : Pinched a b) :
    r.contains x = false := by
  obtain ⟨stop, bound, pads⟩ := pinched
  obtain ⟨stop', bound', told⟩ := intersect_eq_ok.mp common
  obtain rfl : stop = stop' := Option.some.inj (bound.symm.trans bound')
  rw [if_neg (Std.not_le.mpr (lt_of_pads pads))] at told
  refine not_contains_of_stop_le (stop_of_between_of_pads told pads) ?_
  rw [(between_eq_ok.mp told).1]
  exact Std.le_refl _

theorem contains_of_not_pinched (common : a.intersect b = .ok r) (free : ¬ Pinched a b) :
    r.contains x = true ↔ a.contains x = true ∧ b.contains x = true := by
  obtain ⟨stop, bound, told⟩ := intersect_eq_ok.mp common
  rw [contains_both_iff, bound]
  simp only [Option.some.injEq, forall_eq']
  split at told
  next below =>
    rw [told, not_contains_empty]
    refine iff_of_false Bool.false_ne_true fun parts => ?_
    exact Std.not_lt.mpr (Std.le_trans below parts.1) parts.2
  next above =>
    have stops := stop_of_between told fun pads => free ⟨stop, bound, pads⟩
    rw [contains_of_stop stops, (between_eq_ok.mp told).1]

/-- No span at all holds just what is in a pinched overlap. -/
theorem not_exact_of_pinched (pinched : Pinched a b) :
    ¬ ∀ x : Address, r.contains x = true ↔ a.contains x = true ∧ b.contains x = true := by
  intro exact
  obtain ⟨stop, bound, pads⟩ := pinched
  have inside (x : Address) : r.contains x = true ↔ max a.start b.start ≤ x ∧ x < stop := by
    rw [exact, contains_both_iff, bound]
    simp only [Option.some.injEq, forall_eq']
  obtain ⟨start, stops⟩ := bounds_of_contains (lt_of_pads pads) inside
  rw [← start] at pads
  exact Tumbler.not_pads_of_addDigits (Address.add_eq_ok.mp stops) pads

/-- What is given for two spans holds what both of them hold, if and only if their overlap is not
pinched. What is given for a pinched overlap holds nothing, and no other span would be right. -/
theorem intersect_contains (common : a.intersect b = .ok r) :
    ((∀ x : Address, r.contains x = true ↔ a.contains x = true ∧ b.contains x = true) ↔
        ¬ Pinched a b) ∧
      (Pinched a b → (∀ x : Address, r.contains x = false) ∧
        ∀ s : Span, ¬ ∀ x : Address,
          s.contains x = true ↔ a.contains x = true ∧ b.contains x = true) :=
  ⟨⟨fun exact pinched => not_exact_of_pinched pinched exact,
      fun free _ => contains_of_not_pinched common free⟩,
    fun pinched => ⟨fun _ => not_contains_of_pinched common pinched,
      fun _ => not_exact_of_pinched pinched⟩⟩

/-- The second span goes on past every address. -/
theorem intersect_contains_endless :
    (⟨.ofDigits [1, 2], .ofDigits [0, 3]⟩ : Span).intersect
        ⟨.ofDigits [1, 3], .ofDigits [18446744073709551615]⟩ =
          .ok ⟨.ofDigits [1, 3], .ofDigits [0, 2]⟩ ∧
      ∀ x : Address, (⟨.ofDigits [1, 3], .ofDigits [0, 2]⟩ : Span).contains x = true ↔
        (⟨.ofDigits [1, 2], .ofDigits [0, 3]⟩ : Span).contains x = true ∧
          (⟨.ofDigits [1, 3], .ofDigits [18446744073709551615]⟩ : Span).contains x = true := by
  have common : (⟨.ofDigits [1, 2], .ofDigits [0, 3]⟩ : Span).intersect
      ⟨.ofDigits [1, 3], .ofDigits [18446744073709551615]⟩ =
        .ok ⟨.ofDigits [1, 3], .ofDigits [0, 2]⟩ := rfl
  refine ⟨common, (intersect_contains common).1.mpr ?_⟩
  rintro ⟨stop, bound, n, zeros⟩
  cases bound
  cases n <;> cases zeros

/-- The first span stops at `1.1.0`, just past `1.1`, where the second one starts. -/
theorem intersect_misses_start :
    (⟨.ofDigits [1], .ofDigits [0, 1, 0]⟩ : Span).intersect ⟨.ofDigits [1, 1], .ofDigits [1]⟩ =
        .ok ⟨.ofDigits [1, 1], .ofDigits [0, 0, 0]⟩ ∧
      (⟨.ofDigits [1], .ofDigits [0, 1, 0]⟩ : Span).contains (Address.ofDigits [1, 1]) = true ∧
      (⟨.ofDigits [1, 1], .ofDigits [1]⟩ : Span).contains (Address.ofDigits [1, 1]) = true ∧
      (⟨.ofDigits [1, 1], .ofDigits [0, 0, 0]⟩ : Span).contains (Address.ofDigits [1, 1]) =
        false :=
  ⟨rfl, rfl, rfl, rfl⟩

end Docuverse.Span
