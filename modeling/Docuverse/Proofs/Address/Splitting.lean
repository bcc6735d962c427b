import Docuverse.Address.Scope
import Mathlib.Logic.ExistsUnique

namespace Docuverse.Address

section Digits

variable {digits doc place : List UInt64}

theorem cutAtLastZero_eq_none : cutAtLastZero digits = none ↔ 0 ∉ digits := by
  induction digits with
  | nil => simp [cutAtLastZero]
  | cons d digits ih =>
    rw [cutAtLastZero, List.mem_cons]
    cases later : cutAtLastZero digits with
    | none =>
      have free : 0 ∉ digits := ih.mp later
      by_cases zero : d = 0
      · simp [zero]
      · simp [zero, free, Ne.symm zero]
    | some parts =>
      have found : cutAtLastZero digits ≠ none := by simp [later]
      have inside : 0 ∈ digits := Decidable.not_not.mp (mt ih.mpr found)
      simp [inside]

theorem isSome_cutAtLastZero (zero : 0 ∈ digits) : (cutAtLastZero digits).isSome = true := by
  rw [Option.isSome_iff_ne_none, Ne, cutAtLastZero_eq_none]
  exact not_not_intro zero

/-- A zero in front of digits without one is the last. -/
theorem cutAtLastZero_append (free : 0 ∉ place) :
    cutAtLastZero (doc ++ 0 :: place) = some (doc, place) := by
  induction doc with
  | nil =>
    have last : cutAtLastZero place = none := cutAtLastZero_eq_none.mpr free
    simp [cutAtLastZero, last]
  | cons d doc ih => simp [cutAtLastZero, ih]

theorem cutAtLastZero_eq_some :
    cutAtLastZero digits = some (doc, place) ↔ digits = doc ++ 0 :: place ∧ 0 ∉ place := by
  constructor
  · exact eq_of_cutAtLastZero
  · rintro ⟨rfl, free⟩
    exact cutAtLastZero_append free

end Digits

variable {a doc place : Address} {fault : Fault}

/-- The document and the place inside it, for an address that has a zero to cut at. -/
def parts (a : Address) (zero : 0 ∈ a.digits) : Address × Address :=
  let (doc, place) := (cutAtLastZero a.digits).get (isSome_cutAtLastZero zero)
  (.ofDigits doc, .ofDigits place)

theorem split_eq {a : Address} (zero : 0 ∈ a.digits) : a.split = .ok (a.parts zero) := by
  obtain ⟨cut, found⟩ := Option.isSome_iff_exists.mp (isSome_cutAtLastZero zero)
  simp only [split, parts, found, Option.get_some]

theorem digits_globalize (doc place : Address) :
    (globalize doc place).digits = doc.digits ++ 0 :: place.digits := by
  simp [globalize, scope]

theorem split_eq_error : a.split = .error fault ↔ 0 ∉ a.digits ∧ fault = .range (.split a) := by
  rw [split, ← cutAtLastZero_eq_none]
  cases cutAtLastZero a.digits with
  | none => simp [eq_comm]
  | some parts => simp

theorem ofDigits_eq_iff {digits : List UInt64} : ofDigits digits = a ↔ digits = a.digits :=
  ⟨congrArg Address.digits, congrArg ofDigits⟩

theorem split_eq_ok :
    a.split = .ok (doc, place) ↔ globalize doc place = a ∧ 0 ∉ place.digits := by
  have cut : a.split = .ok (doc, place) ↔
      cutAtLastZero a.digits = some (doc.digits, place.digits) := by
    rw [split]
    cases cutAtLastZero a.digits with
    | none => simp
    | some parts => simp [Prod.ext_iff, ofDigits_eq_iff]
  have whole : globalize doc place = a ↔ a.digits = doc.digits ++ 0 :: place.digits := by
    rw [eq_comm, ← digits_globalize, ← ofDigits_eq_iff, ofDigits_digits]
  rw [cut, cutAtLastZero_eq_some, whole]

theorem exists_split_iff {a : Address} :
    (∃ parts, a.split = .ok parts) ↔ 0 ∈ a.digits := by
  constructor
  · rintro ⟨⟨doc, place⟩, split⟩
    obtain ⟨rfl, _⟩ := split_eq_ok.mp split
    simp [digits_globalize]
  · exact fun zero => ⟨_, split_eq zero⟩

/-- An address with a zero has one reading in which the place has none. -/
theorem existsUnique_parts_iff :
    (∃! parts : Address × Address, globalize parts.1 parts.2 = a ∧ 0 ∉ parts.2.digits) ↔
      0 ∈ a.digits := by
  rw [← exists_split_iff]
  constructor
  · rintro ⟨⟨doc, place⟩, whole, _⟩
    exact ⟨_, split_eq_ok.mpr whole⟩
  · rintro ⟨⟨doc, place⟩, found⟩
    refine ⟨(doc, place), split_eq_ok.mp found, ?_⟩
    rintro ⟨doc', place'⟩ whole
    have same := split_eq_ok.mpr whole
    rw [found] at same
    exact (Except.ok.inj same).symm

/-- An address without a zero is out of range. Any other one comes apart into the document and the
place that make it up and of which the place has no zero, and there are no others. So a place that
was put inside a document is found again just if it has no zero. -/
theorem split_inverts_globalize (a : Address) :
    (a.split = .error (.range (.split a)) ↔ 0 ∉ a.digits) ∧
    ((∃ parts, a.split = .ok parts) ↔ 0 ∈ a.digits) ∧
    ((∃! parts : Address × Address, globalize parts.1 parts.2 = a ∧ 0 ∉ parts.2.digits) ↔
      0 ∈ a.digits) ∧
    (∀ doc place : Address,
      a.split = .ok (doc, place) ↔ globalize doc place = a ∧ 0 ∉ place.digits) ∧
    ∀ doc place : Address,
      (globalize doc place).split = .ok (doc, place) ↔ 0 ∉ place.digits := by
  have fails : a.split = .error (.range (.split a)) ↔ 0 ∉ a.digits := by
    simp [split_eq_error]
  have found (doc place : Address) :
      (globalize doc place).split = .ok (doc, place) ↔ 0 ∉ place.digits := by
    simp [split_eq_ok]
  exact ⟨fails, exists_split_iff, existsUnique_parts_iff, fun doc place => split_eq_ok, found⟩

/-- Of two zeros next to each other, the first belongs to the document. -/
example : (ofDigits [1, 0, 0, 2]).split = .ok (.ofDigits [1, 0], .ofDigits [2]) := rfl

end Docuverse.Address
