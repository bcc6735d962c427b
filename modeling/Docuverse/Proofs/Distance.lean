import Docuverse.Proofs.Span.Intersection

namespace Docuverse

namespace Tumbler

section Digits

variable {place amount moved high low : List UInt64}

/-- What a place has been moved by is its distance from where it was. -/
theorem subDigits_addDigits (found : addDigits place amount = some moved) :
    subDigits moved place = some (if amount.all (· == 0) then [] else amount) := by
  induction place generalizing amount moved with
  | nil =>
    rw [addDigits_nil_left] at found
    rw [subDigits]
    exact found.symm
  | cons d place ih =>
    cases amount with
    | nil =>
      cases found
      exact subDigits_self (d :: place)
    | cons e amount =>
      rcases addDigits_cons_cases found with ⟨rfl, later, foundLater, rfl⟩ | ⟨counts, room, rfl⟩
      · rw [subDigits, if_pos rfl, ih foundLater, Option.map_some, List.all_cons]
        by_cases all : amount.all (· == 0) = true
        · simp [all]
        · have extended : amount.isEmpty = false := by
            cases amount with
            | nil => exact absurd rfl all
            | cons => rfl
          simp [all, extended]
      · have grown := lt_add counts room
        have changed : d + e ≠ d := (UInt64.ne_of_lt grown).symm
        rw [subDigits, if_neg changed, if_pos grown, UInt64.add_comm, UInt64.add_sub_cancel]
        simp [counts]

/-- There is no distance up to a lower place, and that is all that can be in the way of one. -/
theorem subDigits_eq_none_iff : subDigits high low = none ↔ compare high low = .lt := by
  induction low generalizing high with
  | nil => cases high <;> simp [subDigits]
  | cons l low ih =>
    cases high with
    | nil => simp [subDigits]
    | cons h high =>
      rw [subDigits, List.compare_cons_cons]
      by_cases same : h = l
      · subst same
        rw [if_pos rfl, Option.map_eq_none_iff, ih, Std.ReflOrd.compare_self]
        rfl
      · rw [if_neg same]
        by_cases above : l < h
        · rw [if_pos above, Std.compare_eq_gt.mpr above]
          simp
        · have below : h < l := UInt64.lt_of_le_of_ne (UInt64.not_lt.mp above) same
          rw [if_neg above, Std.compare_eq_lt.mpr below]
          simp

end Digits

section Tumblers

variable {place amount moved high low : Tumbler}

theorem isZero_eq_false_iff : amount.isZero = false ↔ ∃ d ∈ amount.digits, d ≠ 0 := by
  rw [isZero, ← Bool.not_eq_true, all_eq_true_iff_zeros, Zeros]
  simp only [Classical.not_forall, exists_prop, ne_eq]

theorem compare_add (found : place.add amount = .ok moved) :
    compare place moved = if amount.isZero then .eq else .lt :=
  compare_addDigits (add_eq_ok.mp found)

theorem le_of_add (found : place.add amount = .ok moved) : place ≤ moved := by
  rw [← Std.isLE_compare, compare_add found]
  split <;> rfl

/-- A place is moved on by a digit other than zero and by nothing else. -/
theorem lt_iff_of_add (found : place.add amount = .ok moved) :
    place < moved ↔ ∃ d ∈ amount.digits, d ≠ 0 := by
  rw [← Std.compare_eq_lt, compare_add found, ← isZero_eq_false_iff]
  cases amount.isZero <;> simp

theorem sub_of_add (found : place.add amount = .ok moved) :
    moved.sub place = .ok (if amount.isZero then empty else amount) := by
  rw [sub_eq_ok, subDigits_addDigits (add_eq_ok.mp found), isZero]
  split <;> rfl

/-- The one thing in the way of a distance is that it would lead back. -/
theorem sub_eq_error {fault : Fault} :
    high.sub low = .error fault ↔ fault = .range (.sub high low) ∧ high < low := by
  have order : high < low ↔ compare high.digits low.digits = .lt := Std.compare_eq_lt.symm
  rw [order, ← subDigits_eq_none_iff, sub]
  cases subDigits high.digits low.digits with
  | none => simp [eq_comm]
  | some digits => simp

theorem exists_sub_of_le (below : low ≤ high) : ∃ amount, high.sub low = .ok amount := by
  cases distance : high.sub low with
  | ok amount => exact ⟨amount, rfl⟩
  | error fault => exact absurd (sub_eq_error.mp distance).2 (Std.not_lt.mpr below)

end Tumblers

end Tumbler

/-- There is a span between any two addresses in order. -/
theorem Span.exists_between {start stop : Address} (below : start ≤ stop) :
    ∃ s, between start stop = .ok s := by
  have lower : start.tumbler ≤ stop.tumbler := below
  obtain ⟨width, distance⟩ := Tumbler.exists_sub_of_le lower
  exact ⟨⟨start, ⟨width⟩⟩, between_eq_ok.mpr ⟨rfl, Tumbler.sub_eq_ok.mp distance⟩⟩

/-- To subtract undoes an addition, and to add undoes a subtraction unless the higher place is the
lower one with zeros behind it. Then it leads no further than the lower place. -/
theorem Tumbler.add_sub_inverse :
    (∀ place amount moved : Tumbler, place.add amount = .ok moved →
      place ≤ moved ∧ (place < moved ↔ ∃ d ∈ amount.digits, d ≠ 0) ∧
      ((∃ d ∈ amount.digits, d ≠ 0) → moved.sub place = .ok amount) ∧
      ((¬ ∃ d ∈ amount.digits, d ≠ 0) → moved.sub place = .ok empty)) ∧
    (∀ low high : Tumbler,
      (high.sub low = .error (.range (.sub high low)) ↔ high < low) ∧
      (¬ high < low → ∃ amount, high.sub low = .ok amount ∧
        (¬ Pads low.digits high.digits → low.add amount = .ok high) ∧
        (Pads low.digits high.digits → low.add amount = .ok low))) ∧
    ∀ start stop : Address, start ≤ stop → ∃ s, Span.between start stop = .ok s ∧
      (¬ Pads start.digits stop.digits → s.stop = .ok stop) ∧
      (Pads start.digits stop.digits → s.stop = .ok start) := by
  refine ⟨fun place amount moved found => ?_, fun low high => ?_, fun start stop below => ?_⟩
  · refine ⟨le_of_add found, lt_iff_of_add found, ?_⟩
    rw [sub_of_add found, ← isZero_eq_false_iff]
    cases amount.isZero <;> simp
  · refine ⟨by simp [sub_eq_error], fun above => ?_⟩
    obtain ⟨amount, distance⟩ := exists_sub_of_le (Std.not_lt.mp above)
    have digits := sub_eq_ok.mp distance
    exact ⟨amount, distance, fun unpadded => add_eq_ok.mpr (addDigits_subDigits unpadded digits),
      fun pads => add_eq_ok.mpr (addDigits_subDigits_of_pads pads digits)⟩
  · obtain ⟨s, told⟩ := Span.exists_between below
    exact ⟨s, told, Span.stop_of_between told, Span.stop_of_between_of_pads told⟩

/-- A place that is moved at its last level, and the same place with zeros behind it, to which no
distance leads. -/
theorem Tumbler.add_sub_inverse_padded :
    let place : Tumbler := ⟨[1, 5, 7]⟩
    let amount : Tumbler := ⟨[0, 0, 2, 9]⟩
    let moved : Tumbler := ⟨[1, 5, 9, 9]⟩
    let padded : Tumbler := ⟨[1, 5, 7, 0, 0]⟩
    place.add amount = .ok moved ∧ place < moved ∧ moved.sub place = .ok amount ∧
      place.sub moved = .error (.range (.sub place moved)) ∧
      (∃ distance, padded.sub place = .ok distance ∧ place.add distance = .ok place) ∧
      ∃ s, Span.between ⟨place⟩ ⟨padded⟩ = .ok s ∧ s.stop = .ok ⟨place⟩ := by
  intro place amount moved padded
  obtain ⟨added, subtracted, spanned⟩ := add_sub_inverse
  have found : place.add amount = .ok moved := rfl
  have counts : ∃ d ∈ amount.digits, d ≠ 0 := by decide
  have pads : Pads place.digits padded.digits := ⟨1, rfl⟩
  obtain ⟨_, further, back, _⟩ := added place amount moved found
  have above := further.mpr counts
  obtain ⟨distance, told, _, stays⟩ := (subtracted place padded).2 (by decide)
  obtain ⟨s, reaches, _, stops⟩ := spanned ⟨place⟩ ⟨padded⟩ (by decide)
  exact ⟨found, above, back counts, (subtracted moved place).1.mpr above,
    ⟨distance, told, stays pads⟩, ⟨s, reaches, stops pads⟩⟩

end Docuverse
