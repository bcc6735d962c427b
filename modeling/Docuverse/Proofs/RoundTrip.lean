import Docuverse.Proofs.Wire.Conveyance
import Docuverse.Proofs.Wire.Kind

namespace Docuverse.Wire.Kind

open Reading

/-- How a value of a kind is handed to the writer. A bare count and a dump are never sent. -/
def value? : (kind : Kind) → kind.Val → Option Value
  | number, n => some (.number n)
  | text, s => some (.text s)
  | content, .text s => some (.text s)
  | content, .link a => some (.address a)
  | tumbler, t => some (.address ⟨t⟩)
  | address, a => some (.address a)
  | offset, o => some (.offset o)
  | span, s => some (.span s)
  | vspec, v => some (.vspec v)
  | specSet, set => some (.specSet set)
  | addresses, as => some (.list (as.map .address))
  | count, _ => none
  | dump, _ => none

/-- The value with the spans of each of its vspecs in order. -/
def sorted : (kind : Kind) → kind.Val → kind.Val
  | vspec, v => v.sorted
  | specSet, set => set.sorted
  | number, n => n
  | count, n => n
  | text, s => s
  | content, c => c
  | tumbler, t => t
  | address, a => a
  | offset, o => o
  | span, s => s
  | addresses, as => as
  | dump, d => d

/-- The spans of each vspec are in order. -/
def IsSorted : (kind : Kind) → kind.Val → Prop
  | vspec, v => v.IsSorted
  | specSet, set => set.IsSorted
  | _, _ => True

theorem isSorted_sorted (kind : Kind) (v : kind.Val) : kind.IsSorted (kind.sorted v) := by
  cases kind with
  | vspec => exact VSpec.isSorted_sorted v
  | specSet => exact SpecSet.isSorted_sorted v
  | _ => trivial

theorem sorted_eq {kind : Kind} {v : kind.Val} (inOrder : kind.IsSorted v) : kind.sorted v = v := by
  cases kind with
  | vspec => exact VSpec.IsSorted.sorted_eq inOrder
  | specSet => exact SpecSet.IsSorted.sorted_eq inOrder
  | _ => rfl

theorem conveys_reading {kind : Kind} {v : kind.Val} {value : Value} {limit : Nat}
    (given : kind.value? v = some value) :
    Conveys kind.reading limit value.pieces (kind.sorted v) := by
  cases kind with
  | number => cases given; exact conveys_number v
  | text => cases given; exact conveys_text v
  | content =>
    have conveys : Conveys Reading.content limit (contentPieces v) v := conveys_content v
    cases v with
    | text s => cases given; exact conveys
    | link a => cases given; exact conveys
  | tumbler => cases given; exact conveys_tumbler v
  | address => cases given; exact conveys_address v
  | offset => cases given; exact conveys_offset v
  | span => cases given; exact conveys_span v
  | vspec => cases given; exact conveys_vspec v
  | specSet => cases given; exact conveys_specSet v
  | addresses =>
    cases given
    rw [Value.pieces, piecesAll_map, List.length_map]
    exact conveys_addresses v
  | count => cases given
  | dump => cases given

/-- Let every text of a value be Latin-1 and nothing in it be longer than the limit. Then its bytes
are there, and in front of any others they are read as the value, but for the order of spans, and
nothing else is taken. An exponent that is too large makes them malformed. -/
theorem reading_encode (kind : Kind) (v : kind.Val) {value : Value} {limit : Nat}
    (given : kind.value? v = some value)
    (passable : ∀ piece ∈ value.pieces, piece.IsLatin ∧ piece.Fits limit) :
    value.encode = .ok (written value.pieces) ∧
      (∀ rest ending,
        ((∀ t, .tumbler t ∈ value.pieces → t.exponent ≤ 4096) →
          kind.reading limit ⟨written value.pieces ++ rest, ending⟩ =
            .ok (kind.sorted v) ⟨rest, ending⟩) ∧
        ((∃ t, .tumbler t ∈ value.pieces ∧ 4096 < t.exponent) →
          ∃ what left, kind.reading limit ⟨written value.pieces ++ rest, ending⟩ =
            .error (.malformed what) left)) ∧
      kind.IsSorted (kind.sorted v) ∧ (kind.IsSorted v → kind.sorted v = v) := by
  have encodes := value.encode_eq fun piece member => (passable piece member).1
  refine ⟨encodes, ?_, kind.isSorted_sorted v, sorted_eq⟩
  obtain ⟨accepts, refuses⟩ := conveys_reading given passable
  intro rest ending
  refine ⟨fun small => accepts (legible_iff.mpr small) rest ending, fun large => ?_⟩
  exact refuses (not_legible.mpr large) rest ending

/-- Two spans that are not in order, with tumblers that are empty or zero. -/
def unsorted : VSpec :=
  ⟨.ofDigits [1, 1, 0, 1],
    [⟨.ofDigits [2, 3], .ofDigits [0, 2]⟩, ⟨.ofDigits [], .ofDigits [0, 0]⟩]⟩

theorem reading_encode_unsorted :
    (Value.specSet ⟨[.vspec unsorted]⟩).encode =
        .ok (Latin.ascii "1~v0.1.1.0.1~2~0.2.3~1.2~0~1.0~") ∧
      specSet.reading 9
          ⟨Latin.ascii "1~v0.1.1.0.1~2~0.2.3~1.2~0~1.0~" ++ Latin.ascii "?", .closed⟩ =
        .ok ⟨[.vspec ⟨.ofDigits [1, 1, 0, 1], [⟨.ofDigits [], .ofDigits [0, 0]⟩,
          ⟨.ofDigits [2, 3], .ofDigits [0, 2]⟩]⟩]⟩ ⟨Latin.ascii "?", .closed⟩ := by
  have passable : Passable 9 (Value.specSet ⟨[.vspec unsorted]⟩).pieces := by decide
  have legible : Legible (Value.specSet ⟨[.vspec unsorted]⟩).pieces := by decide
  have bytes : written (Value.specSet ⟨[.vspec unsorted]⟩).pieces =
      Latin.ascii "1~v0.1.1.0.1~2~0.2.3~1.2~0~1.0~" := by
    decide
  have order : unsorted.sorted = ⟨.ofDigits [1, 1, 0, 1], [⟨.ofDigits [], .ofDigits [0, 0]⟩,
      ⟨.ofDigits [2, 3], .ofDigits [0, 2]⟩]⟩ :=
    VSpec.sorted_of_perm (List.Perm.swap _ _ []) (by decide)
  obtain ⟨encoded, found, _⟩ := reading_encode specSet ⟨[.vspec unsorted]⟩ rfl passable
  rw [bytes] at encoded found
  rw [← order]
  exact ⟨encoded, (found (Latin.ascii "?") .closed).1 (legible_iff.mp legible)⟩

end Docuverse.Wire.Kind
