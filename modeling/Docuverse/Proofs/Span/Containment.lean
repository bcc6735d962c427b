import Docuverse.Proofs.Span.Region

namespace Docuverse

namespace Span

variable {a b s outer inner : Span} {x : Address}

/-- To be inside is to start no earlier, and to stop no later where the outer span stops. -/
theorem contains_span_iff :
    outer.contains inner = true ↔ outer.start ≤ inner.start ∧
      ∀ bound, outer.upper = some bound → ∃ stop, inner.upper = some stop ∧ stop ≤ bound := by
  rw [contains, Region.within, Region.instSpan, Bool.and_eq_true, decide_eq_true_iff]
  cases outer.upper with
  | none => simp
  | some bound => cases inner.upper <;> simp

theorem contains_self (s : Span) : s.contains s = true :=
  contains_span_iff.mpr ⟨Std.le_refl _, fun bound stops => ⟨bound, stops, Std.le_refl _⟩⟩

theorem stop_of_isEmpty (empty : s.isEmpty = true) : s.stop = .ok s.start :=
  Address.add_eq_ok.mpr (Tumbler.addDigits_zeros (Tumbler.all_eq_true_iff_zeros.mp empty))

/-- A span with an extent holds its start, also where it has no stop. -/
theorem contains_start (extended : s.isEmpty = false) : s.contains s.start = true := by
  refine contains_iff.mpr ⟨Std.le_refl _, fun stop bound => ?_⟩
  exact Address.lt_of_add extended (upper_eq_some.mp bound)

theorem forall_not_contains_iff : (∀ x : Address, s.contains x = false) ↔ s.isEmpty = true := by
  refine ⟨fun holdsNone => ?_, fun empty x => ?_⟩
  · cases empty : s.isEmpty with
    | true => rfl
    | false => exact absurd (contains_start empty) (Bool.eq_false_iff.mp (holdsNone s.start))
  · rw [Bool.eq_false_iff, ne_eq, contains_of_stop (stop_of_isEmpty empty)]
    exact fun both => Std.not_lt.mpr both.1 both.2

theorem isEmpty_eq_false_iff : s.isEmpty = false ↔ ∃ d ∈ s.width.digits, d ≠ 0 := by
  have zeros : s.isEmpty = true ↔ Tumbler.Zeros s.width.digits := Tumbler.all_eq_true_iff_zeros
  rw [← Bool.not_eq_true, zeros, Tumbler.Zeros]
  simp only [Classical.not_forall, exists_prop, ne_eq]

/-- If the inner span went on past the stop of the outer one, that stop would be an address of the
inner span alone. -/
theorem contains_span_of_forall (extended : b.isEmpty = false)
    (included : ∀ x : Address, b.contains x = true → a.contains x = true) :
    a.contains b = true := by
  obtain ⟨before, past⟩ := contains_iff.mp (included b.start (contains_start extended))
  refine contains_span_iff.mpr ⟨before, fun bound stops => ?_⟩
  have outside : ¬ a.contains bound = true := fun holds =>
    Std.lt_irrefl ((contains_iff.mp holds).2 bound stops)
  have beyond : ¬ ∀ stop, b.upper = some stop → bound < stop := fun below =>
    outside (included bound (contains_iff.mpr ⟨Std.le_of_lt (past bound stops), below⟩))
  simpa only [Classical.not_forall, exists_prop, Std.not_lt] using beyond

end Span

/-- A kind of regions for which a span around a span holds what that span holds. -/
class LawfulRegion (α : Type) [Region α] : Prop where
  contains_trans {x : α} {inner outer : Span} :
    inner.contains x = true → outer.contains inner = true → outer.contains x = true

export LawfulRegion (contains_trans)

instance : LawfulRegion Address where
  contains_trans {x inner outer} inside nested := by
    obtain ⟨after, below⟩ := Span.contains_iff.mp inside
    obtain ⟨before, within⟩ := Span.contains_span_iff.mp nested
    refine Span.contains_iff.mpr ⟨Std.le_trans before after, fun bound stops => ?_⟩
    obtain ⟨stop, innerStops, le⟩ := within bound stops
    exact Std.lt_of_lt_of_le (below stop innerStops) le

instance : LawfulRegion Span where
  contains_trans {x inner outer} inside nested := by
    obtain ⟨after, below⟩ := Span.contains_span_iff.mp inside
    obtain ⟨before, within⟩ := Span.contains_span_iff.mp nested
    refine Span.contains_span_iff.mpr ⟨Std.le_trans before after, fun bound stops => ?_⟩
    obtain ⟨middle, innerStops, middleBelow⟩ := within bound stops
    obtain ⟨stop, xStops, stopBelow⟩ := below middle innerStops
    exact ⟨stop, xStops, Std.le_trans stopBelow middleBelow⟩

instance : LawfulRegion VSpan where
  contains_trans {x _ _} inside nested := contains_trans (x := x.global) inside nested

namespace VSpec

variable {v : VSpec} {outer : Span}

theorem global_eq : v.global = v.vspans.map VSpan.global := by
  rw [vspans, List.map_map]
  rfl

/-- A vspec is inside a span if it has parts and all of them are. -/
theorem within_iff : outer.contains v = true ↔
    v.global ≠ [] ∧ ∀ part ∈ v.global, outer.contains part = true := by
  rw [Span.contains, Region.within, Region.instVSpec, Bool.and_eq_true, Bool.not_eq_true',
    ← Bool.not_eq_true, List.isEmpty_iff, List.all_eq_true, global_eq, ne_eq, List.map_eq_nil_iff,
    List.forall_mem_map]
  rfl

theorem contains_iff {α : Type} [Region α] {x : α} :
    v.contains x = true ↔ ∃ part ∈ v.global, part.contains x = true :=
  List.any_eq_true

end VSpec

instance : LawfulRegion VSpec where
  contains_trans {v inner outer} inside nested := by
    obtain ⟨parts, all⟩ := VSpec.within_iff.mp inside
    exact VSpec.within_iff.mpr ⟨parts, fun part member => contains_trans (all part member) nested⟩

/-- A region of any kind. -/
inductive AnyRegion
  | address (a : Address)
  | span (s : Span)
  | vspan (v : VSpan)
  | vspec (v : VSpec)

namespace AnyRegion

instance : Region AnyRegion where
  within
    | address a, outer => Region.within a outer
    | span s, outer => Region.within s outer
    | vspan v, outer => Region.within v outer
    | vspec v, outer => Region.within v outer

/-- What each kind of region holds. An address is no extent and holds nothing. -/
def contains {α : Type} [Region α] : AnyRegion → α → Bool
  | address _, _ => false
  | span s, x => s.contains x
  | vspan v, x => v.contains x
  | vspec v, x => v.contains x

instance : LawfulRegion AnyRegion where
  contains_trans {x inner outer} inside nested := by
    cases x with
    | address a => exact contains_trans (x := a) inside nested
    | span s => exact contains_trans (x := s) inside nested
    | vspan v => exact contains_trans (x := v) inside nested
    | vspec v => exact contains_trans (x := v) inside nested

end AnyRegion

/-- Being inside is as good as having all addresses inside, for a span that has any, and is handed
on from region to region. -/
theorem Span.containment_inclusion :
    (∀ a b : Span, (∃ d ∈ b.width.digits, d ≠ 0) →
      (a.contains b = true ↔ ∀ x : Address, b.contains x = true → a.contains x = true)) ∧
    (∀ s : Span, (∀ x : Address, s.contains x = false) ↔ s.isEmpty = true) ∧
    (∀ s : Span, s.contains s = true) ∧
    ∀ (outer : Span) (m x : AnyRegion),
      outer.contains m = true → m.contains x = true → outer.contains x = true := by
  refine ⟨fun a b extended => ?_, fun s => forall_not_contains_iff, contains_self, ?_⟩
  · refine ⟨fun nested x inside => contains_trans inside nested, ?_⟩
    exact contains_span_of_forall (isEmpty_eq_false_iff.mpr extended)
  · intro outer m x nested inside
    cases m with
    | address a => cases inside
    | span s => exact contains_trans inside nested
    | vspan v =>
      have inGlobal : v.global.contains x = true := inside
      exact contains_trans inGlobal nested
    | vspec v =>
      obtain ⟨part, member, inside⟩ := VSpec.contains_iff.mp inside
      exact contains_trans inside ((VSpec.within_iff.mp nested).2 part member)

/-- A span of which the stop would need a digit out of range. -/
def Span.endless : Span := ⟨.ofDigits [1, 18446744073709551615], .ofDigits [0, 1]⟩

/-- A span without a stop inside another one, and a region that is handed on through a vspec. -/
theorem Span.containment_inclusion_endless :
    let later : Span := ⟨.ofDigits [1, 18446744073709551615, 7], .ofDigits [0, 5]⟩
    let pages : VSpec := ⟨.ofDigits [1, 18446744073709551615], [⟨.ofDigits [1], .ofDigits [1]⟩]⟩
    let line : VSpan := ⟨.ofDigits [1, 18446744073709551615],
      ⟨.ofDigits [1, 5], .ofDigits [0, 1]⟩⟩
    endless.upper = none ∧ later.upper = none ∧
      (∀ x : Address, later.contains x = true → endless.contains x = true) ∧
      endless.contains pages = true ∧ pages.contains line = true ∧
      endless.contains line = true := by
  intro later pages line
  obtain ⟨inclusion, _, _, handedOn⟩ := containment_inclusion
  have extended : ∃ d ∈ later.width.digits, d ≠ 0 := by decide
  exact ⟨rfl, rfl, (inclusion endless later extended).mp rfl, rfl, rfl,
    handedOn endless (.vspec pages) (.vspan line) rfl rfl⟩

end Docuverse
