import Docuverse.Proofs.Span.Region

namespace Docuverse

namespace VSpan

variable {v : VSpan} {stop x : Address} {fault : Fault}

/-- A region has a stop in both coordinates or in neither. -/
theorem stop_cases (v : VSpan) :
    (∃ stop, v.stop = .ok stop ∧ v.global.stop = .ok stop) ∨
      ∃ clash clash', v.stop = .error (.range clash) ∧ v.global.stop = .error (.range clash') := by
  cases own : v.span.stop with
  | ok place =>
    have stops : v.stop = .ok (globalize v.doc place) := stop_eq_ok.mpr ⟨place, own, rfl⟩
    exact Or.inl ⟨_, stops, stop_global.mpr stops⟩
  | error fault =>
    have failed : v.stop = .error fault := by
      rw [VSpan.stop, own]
      rfl
    cases outer : v.global.stop with
    | ok stop =>
      rw [stop_global, failed] at outer
      cases outer
    | error fault' =>
      obtain ⟨clash, rfl⟩ := Address.range_of_add own
      obtain ⟨clash', rfl⟩ := Address.range_of_add outer
      exact Or.inr ⟨clash, clash', failed, rfl⟩

theorem upper_global (v : VSpan) : v.global.upper = v.span.upper.map (globalize v.doc) := by
  refine Option.ext fun stop => ?_
  rw [Span.upper_eq_some, stop_global, stop_eq_ok, Option.map_eq_some_iff]
  simp only [Span.upper_eq_some]

/-- A place of a document lies in a region of it if it does so in the document. -/
theorem contains_globalize :
    v.contains (globalize v.doc x) = true ↔ v.span.contains x = true := by
  have bounds : (∀ stop, v.global.upper = some stop → globalize v.doc x < stop) ↔
      ∀ stop, v.span.upper = some stop → x < stop := by
    rw [upper_global]
    cases v.span.upper with
    | none => simp
    | some stop => simp [Address.globalize_lt]
  have start : v.global.start ≤ globalize v.doc x ↔ v.span.start ≤ x := Address.globalize_le
  rw [VSpan.contains, Span.contains_iff, Span.contains_iff, start, bounds]

end VSpan

/-- To compute inside a document and to put the result in its place is to put everything in its
place and to compute there, as to sums, stops, order and containment. -/
theorem Address.globalize_agrees (doc x y : Address) (w : Offset) (s : Span) :
    (∀ z, (globalize doc x).add (globalize doc w) = .ok z ↔
      ∃ sum, x.add w = .ok sum ∧ globalize doc sum = z) ∧
    ((∃ stop, (VSpan.mk doc s).stop = .ok stop ∧ (VSpan.mk doc s).global.stop = .ok stop) ∨
      ∃ clash clash', (VSpan.mk doc s).stop = .error (.range clash) ∧
        (VSpan.mk doc s).global.stop = .error (.range clash')) ∧
    (x < y ↔ globalize doc x < globalize doc y) ∧
    ((VSpan.mk doc s).contains (globalize doc x) = true ↔ s.contains x = true) :=
  ⟨fun _ => add_globalize, VSpan.stop_cases ⟨doc, s⟩, globalize_lt.symm,
    VSpan.contains_globalize⟩

end Docuverse
