import Docuverse.Proofs.Tumbler.Order
import Docuverse.SpecSet.Basic

namespace Docuverse

/-- The spans in the order in which they are kept once they have been read. -/
def VSpec.sorted (v : VSpec) : VSpec := .ofSpans v.doc v.spans

def SpecItem.sorted : SpecItem → SpecItem
  | .span s => .span s
  | .vspec v => .vspec v.sorted

def SpecSet.sorted (set : SpecSet) : SpecSet := ⟨set.items.map SpecItem.sorted⟩

def VSpec.IsSorted (v : VSpec) : Prop := v.spans.Pairwise (· ≤ ·)

def SpecSet.IsSorted (set : SpecSet) : Prop := ∀ v, .vspec v ∈ set.items → v.IsSorted

theorem VSpec.isSorted_sorted (v : VSpec) : v.sorted.IsSorted := pairwise_ofSpans v.doc v.spans

theorem SpecSet.isSorted_sorted (set : SpecSet) : set.sorted.IsSorted := by
  intro v member
  obtain ⟨item, _, same⟩ := List.mem_map.mp member
  cases item with
  | span s => cases same
  | vspec w =>
    cases same
    exact w.isSorted_sorted

/-- Spans have one arrangement in ascending order. -/
theorem VSpec.sorted_of_perm {v : VSpec} {spans : List Span} (arranged : v.spans.Perm spans)
    (inOrder : spans.Pairwise (· ≤ ·)) : v.sorted = ⟨v.doc, spans⟩ := by
  have same : (ofSpans v.doc v.spans).spans = spans := by
    have both := (perm_ofSpans v.doc v.spans).trans arranged
    refine List.Perm.eq_of_pairwise ?_ (pairwise_ofSpans v.doc v.spans) inOrder both
    intro a b _ _ below above
    exact Std.LawfulEqOrd.eq_of_compare (Std.OrientedCmp.isLE_antisymm below above)
  rw [← same]
  rfl

theorem VSpec.IsSorted.sorted_eq {v : VSpec} (inOrder : v.IsSorted) : v.sorted = v :=
  sorted_of_perm (List.Perm.refl v.spans) inOrder

theorem SpecSet.IsSorted.sorted_eq {set : SpecSet} (inOrder : set.IsSorted) : set.sorted = set := by
  have same : set.items.map SpecItem.sorted = set.items.map id := by
    refine List.map_congr_left ?_
    intro item member
    cases item with
    | span s => rfl
    | vspec v => exact congrArg SpecItem.vspec (inOrder v member).sorted_eq
  rw [sorted, same, List.map_id]

namespace Span

variable {a b : Span}

instance : Std.IsLinearOrder Span := .of_ord

theorem lt_iff : a < b ↔ a.start < b.start ∨ a.start = b.start ∧ a.width < b.width := by
  simp only [← Std.compare_eq_lt]
  rw [← Std.compare_eq_iff_eq (a := a.start)]
  exact Ordering.then_eq_lt

end Span

/-- Vspecs made of spans are the same if they are of the same spans, in whatever order. -/
theorem VSpec.ofSpans_inj {doc : Address} {spans spans' : List Span} :
    ofSpans doc spans = ofSpans doc spans' ↔ spans'.Perm spans := by
  have kept := perm_ofSpans doc spans
  have kept' := perm_ofSpans doc spans'
  constructor
  · intro same
    rw [same] at kept
    exact kept'.symm.trans kept
  · intro arranged
    have inOrder := pairwise_ofSpans doc spans
    exact (sorted_of_perm (v := ⟨doc, spans'⟩) (arranged.trans kept.symm) inOrder).symm

/-- Spans are in a total order, in which starts are compared digit by digit and then widths, and a
vspec has the spans that it was made of in that order. So it is a form of its own for each
collection of spans. -/
theorem VSpec.ofSpans_canonical :
    Std.IsLinearOrder Span ∧
    (∀ a b : Span, compare a b = .eq ↔ a = b) ∧
    (∀ a b : Span, a < b ↔ a.start.digits < b.start.digits ∨
      a.start = b.start ∧ a.width.digits < b.width.digits) ∧
    ∀ (doc : Address) (spans : List Span),
      (ofSpans doc spans).doc = doc ∧ (ofSpans doc spans).spans.Perm spans ∧
      (ofSpans doc spans).spans.Pairwise (· ≤ ·) ∧
      ∀ spans', ofSpans doc spans = ofSpans doc spans' ↔ spans'.Perm spans := by
  have byDigits (a b : Span) : a < b ↔ a.start.digits < b.start.digits ∨
      a.start = b.start ∧ a.width.digits < b.width.digits := by
    rw [Span.lt_iff]
    exact or_congr Tumbler.lt_iff (and_congr_right fun _ => Tumbler.lt_iff)
  refine ⟨inferInstance, fun _ _ => Std.compare_eq_iff_eq, byDigits, fun doc spans => ?_⟩
  exact ⟨rfl, perm_ofSpans doc spans, pairwise_ofSpans doc spans, fun _ => ofSpans_inj⟩

end Docuverse
