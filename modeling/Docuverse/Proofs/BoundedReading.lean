import Docuverse.Proofs.Enfilade.Parts
import Docuverse.Proofs.Wire.Declared
import Docuverse.Proofs.Wire.Kind

namespace Docuverse

open Wire Wire.Reading

namespace Wire.Kind

/-- Everything that is counted of a value, however deep it lies. -/
def parts : (kind : Kind) → kind.Val → List Part
  | number, _ | count, _ => []
  | text, s => textParts s
  | content, c => contentParts c
  | tumbler, t => [.tumbler t]
  | address, a => [.tumbler a.tumbler]
  | offset, o => [.tumbler o.tumbler]
  | span, s => spanParts s
  | vspec, v => vspecParts v
  | specSet, set => specSetParts set
  | addresses, as => addressParts as
  | dump, d => d.parts

theorem pays_reading (kind : Kind) : Pays kind.reading [] kind.parts := by
  cases kind with
  | number => exact framed_number.pays []
  | count => exact framed_count.pays []
  | text => exact pays_text
  | content => exact pays_content
  | tumbler => exact pays_tumbler
  | address => exact pays_address
  | offset => exact pays_offset
  | span => exact pays_span
  | vspec => exact pays_vspec
  | specSet => exact pays_specSet
  | addresses => exact pays_addresses
  | dump => exact Enfilade.Reading.pays_dump

/-- What is found has no more parts than bytes were taken. Each tumbler of it is named by a chunk
among these bytes, and beside the zeros of an exponent a chunk names a digit with two bytes at
least. If more is declared than there are bytes left, nothing is found. -/
theorem reading_bounded (kind : Kind) (limit : Nat) (inbound : Inbound) :
    (∀ v left, kind.reading limit inbound = .ok v left →
      ∃ taken, inbound.unread = taken ++ left.unread ∧
        (kind.parts v).length ≤ taken.length ∧
        ∀ t, .tumbler t ∈ kind.parts v → t.NamedIn taken ∧
          ∀ chunk, Tumbler.ofExponentForm (Latin.text chunk) = .ok t →
            t.digits.length ≤ 4096 + chunk.length / 2) ∧
    (∀ d : Enfilade.Dump, (dump.parts d).count .crum = d.count) ∧
    ∀ n left, Declares limit kind.reading inbound n left → left.unread.length < n →
      ∃ fault rest, kind.reading limit inbound = .error fault rest := by
  refine ⟨fun v left found => ?_, fun d => d.count_parts, fun n left declares few => ?_⟩
  · obtain ⟨taken, parts, split, covers, same⟩ := kind.pays_reading _ _ _ _ found
    rw [List.nil_append] at same
    refine ⟨taken, split, same.length_eq ▸ covers.length_le, fun t member => ?_⟩
    refine ⟨covers.named (same.mem_iff.mpr member), fun chunk names => ?_⟩
    have short := Tumbler.length_of_ofExponentForm names
    rwa [Latin.text, String.toList_ofList, List.length_map] at short
  · exact declares.fails few

/-- A dump of a crum with two children, the first of which is said to have as many as can be
said. -/
theorem reading_bounded_nested :
    let bytes : Inbound :=
      ⟨Latin.ascii "g1~(0~h2~e1~w0~d0~c2~(0~h1~e1~w0~d0~c18446744073709551615~(0~", .closed⟩
    let left : Inbound := ⟨Latin.ascii "(0~", .closed⟩
    Declares 64 dump.reading bytes 18446744073709551615 left ∧
      ∃ fault rest, dump.reading 64 bytes = .error fault rest := by
  intro bytes left
  let behind (text : String) : Inbound :=
    ⟨Latin.ascii text ++ Latin.ascii "(0~h1~e1~w0~d0~c18446744073709551615~(0~", .closed⟩
  have store : Enfilade.Reading.store 64 bytes = .ok .granf (behind "1~(0~h2~e1~w0~d0~c2~") := rfl
  have present : Reading.number 64 (behind "1~(0~h2~e1~w0~d0~c2~") =
      .ok 1 (behind "(0~h2~e1~w0~d0~c2~") := rfl
  have outer : Enfilade.Reading.label 64 (behind "(0~h2~e1~w0~d0~c2~") =
      .ok ⟨0, 2, .gran, [], []⟩ (behind "c2~") := rfl
  have children : Enfilade.Reading.lettered 'c' "crum child count" Reading.count 64
      (behind "c2~") = .ok (0 + 1 + 1) (behind "") := rfl
  have inner : Enfilade.Reading.label 64 (behind "") =
      .ok ⟨0, 1, .gran, [], []⟩ ⟨Latin.ascii "c18446744073709551615~(0~", .closed⟩ := rfl
  let said : Inbound := ⟨Latin.ascii "18446744073709551615~(0~", .closed⟩
  have number : Reading.number 64 said = .ok 18446744073709551615 left := rfl
  have counts : Enfilade.Reading.lettered 'c' "crum child count" Reading.count 64
      ⟨Latin.ascii "c18446744073709551615~(0~", .closed⟩ = .ok 18446744073709551615 left := by
    have letter : expect 'c'.toUInt8 "crum child count" 64
        ⟨Latin.ascii "c18446744073709551615~(0~", .closed⟩ = .ok () said := rfl
    rw [Enfilade.Reading.lettered, bind_of_ok letter, Reading.count, map_eq_bind, bind_of_ok number]
    rfl
  have child : Declares 64 (Enfilade.Reading.crum 512) (behind "") 18446744073709551615 left :=
    .children inner counts
  have none : items 0 (Enfilade.Reading.crum 512) 64 (behind "") = .ok [] (behind "") := rfl
  have root : Declares 64 (Enfilade.Reading.crum 513) (behind "(0~h2~e1~w0~d0~c2~")
      18446744073709551615 left := .of_child outer children none child
  have declares : Declares 64 dump.reading bytes 18446744073709551615 left := by
    refine .next store (.next present ?_)
    rw [if_neg (by decide)]
    exact .first root
  exact ⟨declares, (reading_bounded dump 64 bytes).2.2 _ _ declares (by decide)⟩

end Wire.Kind
end Docuverse
