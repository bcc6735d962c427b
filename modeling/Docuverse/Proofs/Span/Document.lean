import Docuverse.Proofs.Coordinates
import Docuverse.Proofs.Span.Containment

namespace Docuverse

namespace Address

variable {doc x y : Address} {front low high digits : List UInt64}

/-- What lies between digits that begin alike begins like them. -/
theorem prefix_of_between (above : (compare (front ++ low) digits).isLE)
    (below : (compare digits (front ++ high)).isLE) : front <+: digits := by
  induction front generalizing digits with
  | nil => exact List.nil_prefix
  | cons d front ih =>
    cases digits with
    | nil => cases above
    | cons e digits =>
      rw [List.cons_append, List.compare_cons_cons, Ordering.isLE_then_iff_and,
        Std.isLE_compare] at above below
      obtain rfl : d = e := UInt64.le_antisymm above.1 below.1
      have self : ¬ compare d d = .lt := by simp [Std.ReflOrd.compare_self]
      exact List.cons_prefix_cons.mpr
        ⟨rfl, ih (above.2.resolve_left self) (below.2.resolve_left self)⟩

/-- What comes no earlier than some place of a document is a place of it or comes after it all. -/
theorem inside_or_after (reached : globalize doc x ≤ y) :
    (∃ place, globalize doc place = y) ∨ ∀ place : Address, globalize doc place < y := by
  refine Classical.or_iff_not_imp_right.mpr fun before => ?_
  obtain ⟨place, above⟩ := Classical.not_forall.mp before
  have first : (compare (globalize doc x) y).isLE := Std.isLE_compare.mpr reached
  have last : (compare y (globalize doc place)).isLE := Std.isLE_compare.mpr (Std.not_lt.mp above)
  obtain ⟨rest, whole⟩ : doc.scope <+: y.digits := prefix_of_between first last
  exact ⟨.ofDigits rest, congrArg ofDigits whole⟩

/-- The address after everything in the document: a one stands where the zero would. -/
def after (doc : Address) : Address := .ofDigits (doc.digits ++ [1])

theorem globalize_lt_after (doc x : Address) : globalize doc x < doc.after := by
  have digits : (globalize doc x).digits = doc.digits ++ 0 :: x.digits :=
    List.append_assoc doc.digits [0] x.digits
  have order : compare (globalize doc x).digits doc.after.digits = .lt := by
    rw [digits, after, digits_ofDigits, Tumbler.compare_append_append]
    rfl
  exact Std.compare_eq_lt.mp order

end Address

namespace VSpan

variable {v : VSpan} {x y : Address}

/-- The region has no stop, and the address comes after everything in its document. -/
def Overruns (v : VSpan) (y : Address) : Prop :=
  (∃ clash, v.stop = .error (.range clash)) ∧ ∀ x : Address, globalize v.doc x < y

/-- A region holds the places of its document that its span holds, and all that comes after the
document if it has no stop. If it has one, that is a place of the document. -/
theorem contains_iff_localize :
    v.contains y = true ↔
      (∃ x, localize v.doc y = .ok x ∧ v.span.contains x = true) ∨ v.Overruns y := by
  simp only [Address.localize_eq_ok]
  refine ⟨fun inside => ?_, ?_⟩
  · obtain ⟨reached, bounded⟩ := Span.contains_iff.mp inside
    rcases Address.inside_or_after reached with ⟨place, rfl⟩ | past
    · exact Or.inl ⟨place, rfl, contains_globalize.mp inside⟩
    · rcases stop_cases v with ⟨stop, stops, outer⟩ | ⟨clash, _, endless, _⟩
      · obtain ⟨last, _, rfl⟩ := stop_eq_ok.mp stops
        have before := bounded _ (Span.upper_eq_some.mpr outer)
        exact absurd (past last) (Std.not_lt.mpr (Std.le_of_lt before))
      · exact Or.inr ⟨⟨clash, endless⟩, past⟩
  · rintro (⟨x, rfl, inside⟩ | ⟨⟨clash, endless⟩, past⟩)
    · exact contains_globalize.mpr inside
    · refine Span.contains_iff.mpr ⟨Std.le_of_lt (past v.span.start), fun stop bound => ?_⟩
      rw [Span.upper_eq_some, stop_global, endless] at bound
      cases bound

/-- A region stays inside its document if and only if it has a stop. -/
theorem inside_doc_iff :
    (∀ y : Address, v.contains y = true → ∃ x, localize v.doc y = .ok x) ↔
      ∃ stop, v.stop = .ok stop := by
  refine ⟨fun inside => ?_, fun ⟨stop, stops⟩ y held => ?_⟩
  · rcases stop_cases v with ⟨stop, stops, _⟩ | ⟨clash, _, endless, _⟩
    · exact ⟨stop, stops⟩
    · have held : v.contains v.doc.after = true := contains_iff_localize.mpr
        (Or.inr ⟨⟨clash, endless⟩, Address.globalize_lt_after v.doc⟩)
      obtain ⟨x, found⟩ := inside v.doc.after held
      have past := Address.globalize_lt_after v.doc x
      rw [Address.localize_eq_ok.mp found] at past
      exact absurd past Std.lt_irrefl
  · rcases contains_iff_localize.mp held with ⟨x, found, _⟩ | ⟨⟨clash, endless⟩, _⟩
    · exact ⟨x, found⟩
    · rw [stops] at endless
      cases endless

end VSpan

namespace VSpec

variable {v : VSpec} {y : Address}

/-- A vspec holds what its parts hold. -/
theorem contains_iff_vspans {α : Type} [Region α] {x : α} :
    v.contains x = true ↔ ∃ part ∈ v.vspans, part.contains x = true := by
  rw [contains, global_eq, List.any_map, List.any_eq_true]
  rfl

theorem doc_of_mem_vspans {part : VSpan} (member : part ∈ v.vspans) : part.doc = v.doc := by
  obtain ⟨span, _, rfl⟩ := List.mem_map.mp member
  rfl

theorem contains_iff_localize :
    v.contains y = true ↔
      (∃ x, localize v.doc y = .ok x ∧ ∃ span ∈ v.spans, span.contains x = true) ∨
        ∃ part ∈ v.vspans, part.Overruns y := by
  simp only [contains_iff_vspans, VSpan.contains_iff_localize, and_or_left, exists_or]
  refine or_congr ⟨?_, ?_⟩ Iff.rfl
  · rintro ⟨_, part, x, found, inside⟩
    obtain ⟨span, member, rfl⟩ := List.mem_map.mp part
    exact ⟨x, found, span, member, inside⟩
  · rintro ⟨x, found, span, member, inside⟩
    exact ⟨⟨v.doc, span⟩, List.mem_map_of_mem member, x, found, inside⟩

/-- A vspec stays inside its document if and only if all its parts have stops. -/
theorem inside_doc_iff :
    (∀ y : Address, v.contains y = true → ∃ x, localize v.doc y = .ok x) ↔
      ∀ part ∈ v.vspans, ∃ stop, part.stop = .ok stop := by
  refine ⟨fun inside part member => VSpan.inside_doc_iff.mp fun y held => ?_,
    fun stops y held => ?_⟩
  · rw [doc_of_mem_vspans member]
    exact inside y (contains_iff_vspans.mpr ⟨part, member, held⟩)
  · obtain ⟨part, member, held⟩ := contains_iff_vspans.mp held
    rw [← doc_of_mem_vspans member]
    exact VSpan.inside_doc_iff.mpr (stops part member) y held

end VSpec

/-- What a region of a document holds is localized in the document, unless the region, or a part of
it, has no stop and the address comes after everything in the document. -/
theorem Address.held_iff_localized :
    (∀ doc y : Address, (∃ x, localize doc y = .ok x) ↔ doc.digits ++ [0] <+: y.digits) ∧
    (∀ (v : VSpan) (y : Address), v.contains y = true ↔
      (∃ x, localize v.doc y = .ok x ∧ v.span.contains x = true) ∨ v.Overruns y) ∧
    (∀ (v : VSpec) (y : Address), v.contains y = true ↔
      (∃ x, localize v.doc y = .ok x ∧ ∃ span ∈ v.spans, span.contains x = true) ∨
        ∃ part ∈ v.vspans, part.Overruns y) ∧
    (∀ v : VSpan, (∀ y : Address, v.contains y = true → ∃ x, localize v.doc y = .ok x) ↔
      ∃ stop, v.stop = .ok stop) ∧
    ∀ v : VSpec, (∀ y : Address, v.contains y = true → ∃ x, localize v.doc y = .ok x) ↔
      ∀ part ∈ v.vspans, ∃ stop, part.stop = .ok stop :=
  ⟨fun _ _ => exists_localize_iff, fun _ _ => VSpan.contains_iff_localize,
    fun _ _ => VSpec.contains_iff_localize, fun _ => VSpan.inside_doc_iff,
    fun _ => VSpec.inside_doc_iff⟩

/-- The stop of the region would need a digit out of range. So it holds the address `2`, which is
not in its document `1`. -/
theorem VSpan.overruns_endless :
    let v : VSpan := ⟨.ofDigits [1], ⟨.ofDigits [18446744073709551615], .ofDigits [1]⟩⟩
    let y : Address := .ofDigits [2]
    v.contains y = true ∧ (VSpec.ofVSpan v).contains y = true ∧
      ¬ (∃ x, localize v.doc y = .ok x) ∧ ¬ v.doc.digits ++ [0] <+: y.digits := by
  intro v y
  have outside : ¬ v.doc.digits ++ [0] <+: y.digits := by decide
  exact ⟨rfl, rfl, mt Address.exists_localize_iff.mp outside, outside⟩

end Docuverse
