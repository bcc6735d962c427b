import Docuverse.Proofs.Enfilade.Framing

namespace Docuverse.Wire

/-- What can be read by its type. -/
inductive Kind where
  | number
  | count
  | text
  | content
  | tumbler
  | address
  | offset
  | span
  | vspec
  | specSet
  | addresses
  | dump
  deriving DecidableEq, Repr

namespace Kind

/-- The values of a kind. -/
abbrev Val : Kind → Type
  | number => UInt64
  | count => Nat
  | text => String
  | content => Content
  | tumbler => Tumbler
  | address => Address
  | offset => Offset
  | span => Span
  | vspec => VSpec
  | specSet => SpecSet
  | addresses => List Address
  | dump => Enfilade.Dump

def reading : (kind : Kind) → Reading kind.Val
  | number => Reading.number
  | count => Reading.count
  | text => Reading.text
  | content => Reading.content
  | tumbler => Reading.tumbler
  | address => Reading.address
  | offset => Reading.offset
  | span => Reading.span
  | vspec => Reading.vspec
  | specSet => Reading.specSet
  | addresses => Reading.addresses
  | dump => Enfilade.Reading.dump

open Reading in
theorem framed_reading (kind : Kind) : Framed kind.reading := by
  cases kind with
  | number => exact framed_number
  | count => exact framed_count
  | text => exact framed_text
  | content => exact framed_content
  | tumbler => exact framed_tumbler
  | address => exact framed_address
  | offset => exact framed_offset
  | span => exact framed_span
  | vspec => exact framed_vspec
  | specSet => exact framed_specSet
  | addresses => exact framed_addresses
  | dump => exact Enfilade.Reading.framed_dump

open Reading in
theorem hungry_reading (kind : Kind) : Hungry kind.reading := by
  cases kind with
  | number => exact hungry_number
  | count => exact hungry_count
  | text => exact hungry_text
  | content => exact hungry_content
  | tumbler => exact hungry_tumbler
  | address => exact hungry_address
  | offset => exact hungry_offset
  | span => exact hungry_span
  | vspec => exact hungry_vspec
  | specSet => exact hungry_specSet
  | addresses => exact hungry_addresses
  | dump => exact Enfilade.Reading.hungry_dump

end Kind
end Docuverse.Wire
