import Docuverse.Address.Scope
import Docuverse.Proofs.Tumbler.Arithmetic
import Mathlib.Data.List.Basic

namespace Docuverse.Address

variable {α : Type} {doc doc' a b x y : Address} {width : Offset} {front : List UInt64}
  {t : Tumbler} {fault : Fault}

theorem scopeZeros_eq (doc : Address) : doc.scopeZeros = List.replicate doc.scope.length 0 := by
  rw [scopeZeros, scope, List.length_append]
  rfl

/-- To move inside a document is to move by the same distance outside, within the same range. -/
theorem add_globalize :
    (globalize doc a).add (globalize doc width) = .ok b ↔
      ∃ sum, a.add width = .ok sum ∧ globalize doc sum = b := by
  have moved : (globalize doc a).add (globalize doc width) = .ok b ↔
      (Tumbler.addDigits a.digits width.digits).map (doc.scope ++ ·) = some b.digits := by
    rw [← Tumbler.addDigits_append, ← scopeZeros_eq]
    exact add_eq_ok
  rw [moved, Option.map_eq_some_iff]
  refine ⟨?_, ?_⟩
  · intro ⟨digits, found, whole⟩
    exact ⟨.ofDigits digits, add_eq_ok.mpr found, congrArg ofDigits whole⟩
  · rintro ⟨sum, found, rfl⟩
    exact ⟨sum.digits, add_eq_ok.mp found, rfl⟩

theorem compare_globalize (doc a b : Address) :
    compare (globalize doc a) (globalize doc b) = compare a b :=
  Tumbler.compare_append_append doc.scope a.digits b.digits

theorem globalize_lt : globalize doc a < globalize doc b ↔ a < b := by
  rw [← Std.compare_eq_lt, compare_globalize, Std.compare_eq_lt]

theorem globalize_le : globalize doc a ≤ globalize doc b ↔ a ≤ b := by
  rw [← Std.isLE_compare, compare_globalize, Std.isLE_compare]

theorem globalize_inj : globalize doc a = globalize doc b ↔ a = b := by
  refine ⟨fun same => ?_, congrArg _⟩
  have digits : doc.scope ++ a.digits = doc.scope ++ b.digits := congrArg digits same
  exact congrArg ofDigits (List.append_cancel_left digits)

/-- What is made of the digits that are left has these digits, and they come after the front. -/
theorem map_takeOff_eq_ok {make : List UInt64 → α} {digits : α → List UInt64} {value : α}
    (whole : Function.LeftInverse make digits) (kept : Function.LeftInverse digits make) :
    make <$> doc.takeOff front t = .ok value ↔ front ++ digits value = t.digits := by
  rw [← List.isPrefixOf?_eq_some_iff_append_eq, takeOff, map_eq_ok]
  cases front.isPrefixOf? t.digits with
  | none => simp
  | some rest =>
    simp only [Except.ok.injEq, Option.some.injEq, exists_eq_left']
    exact ⟨fun made => made ▸ (kept rest).symm, fun left => left ▸ whole value⟩

theorem range_of_takeOff (failed : doc.takeOff front t = .error fault) :
    fault = .range (.localize t doc) := by
  rw [takeOff] at failed
  split at failed
  · cases failed
  · exact (Except.error.inj failed).symm

theorem localize_eq_ok : localize doc y = .ok x ↔ globalize doc x = y :=
  (map_takeOff_eq_ok ofDigits_digits digits_ofDigits).trans ⟨congrArg ofDigits, congrArg digits⟩

theorem range_of_localize (failed : localize doc y = .error fault) :
    fault = .range (.localize y.tumbler doc) :=
  range_of_takeOff (map_eq_error.mp failed)

/-- An address is localized in a document if it begins with the digits of the document and a
zero. -/
theorem exists_localize_iff : (∃ x, localize doc y = .ok x) ↔ doc.digits ++ [0] <+: y.digits := by
  simp only [localize_eq_ok]
  refine ⟨?_, fun ⟨rest, whole⟩ => ⟨.ofDigits rest, congrArg ofDigits whole⟩⟩
  rintro ⟨x, rfl⟩
  exact List.prefix_append doc.scope x.digits

/-- The digits of a document end where those of a place inside it begin, so their number tells the
document. -/
theorem doc_eq_of_globalize (same : globalize doc a = globalize doc' b)
    (level : a.digits.length = b.digits.length) : doc = doc' := by
  have digits : doc.scope ++ a.digits = doc'.scope ++ b.digits := congrArg digits same
  have scopes : doc.scope = doc'.scope := (List.append_inj' digits level).1
  exact congrArg ofDigits (List.append_inj' scopes rfl).1

end Docuverse.Address
