import Docuverse.Proofs.Wire.Chunk

namespace Docuverse.Wire.Reading

variable {α : Type} {item : Reading α} {limit : Nat} {taken : List UInt8}

theorem framed_textBody (context : String) : Framed (textBody context) :=
  framed_count.bind fun n => (framed_raw n context).bind fun bytes => framed_pure (Latin.text bytes)

/-- The length of a text stands before it, and its own bytes are not looked into. -/
theorem accepts_textBody {context : String} {value : String} :
    (textBody context).Accepts limit taken value ↔ ∃ length bytes, taken = length ++ bytes ∧
      count.Accepts limit length bytes.length ∧ bytes.length ≤ limit ∧
      value = Latin.text bytes := by
  rw [textBody, framed_count.accepts_bind]
  refine ⟨?_, ?_⟩
  · intro parts
    obtain ⟨n, length, back, rfl, counted, accepts⟩ := parts
    obtain ⟨bytes, front, empty, rfl, found, last⟩ := (framed_raw n context).accepts_bind.mp accepts
    obtain ⟨rfl, rfl⟩ := accepts_pure.mp last
    obtain ⟨small, rfl, rfl⟩ := accepts_raw.mp found
    exact ⟨length, bytes, by rw [List.append_nil], counted, small, rfl⟩
  · intro parts
    obtain ⟨length, bytes, rfl, counted, small, rfl⟩ := parts
    refine ⟨bytes.length, length, bytes, rfl, counted, ?_⟩
    exact (accepts_raw.mpr ⟨small, rfl, rfl⟩).map Latin.text

theorem hungry_text : Hungry text := (hungry_expect textTag "text").bind _

theorem framed_text : Framed text :=
  (framed_expect textTag "text").bind fun _ => framed_textBody "text"

theorem hungry_address : Hungry address := hungry_tumbler.map _

theorem framed_address : Framed address := framed_tumbler.map _

theorem accepts_address {a : Address} :
    address.Accepts limit taken a ↔ tumbler.Accepts limit taken a.tumbler := by
  rw [address, framed_tumbler.accepts_map]
  refine ⟨?_, ?_⟩
  · intro parts
    obtain ⟨t, accepts, rfl⟩ := parts
    exact accepts
  · intro accepts
    exact ⟨a.tumbler, accepts, rfl⟩

theorem hungry_offset : Hungry offset := hungry_tumbler.map _

theorem framed_offset : Framed offset := framed_tumbler.map _

theorem hungry_content : Hungry content := (hungry_peek "content").bind _

/-- The byte that tells a text from a link is the first one of either. -/
theorem framed_content : Framed content := by
  refine framed_peek_bind "content" (fun first => ?_) (fun first limit value => ?_)
  · split
    · exact framed_text.bind fun text => framed_pure (Content.text text)
    · split
      · exact framed_address.bind fun link => framed_pure (Content.link link)
      · exact framed_throw _
  · split
    · exact (hungry_text.bind _).not_accepts_nil value
    · split
      · exact (hungry_address.bind _).not_accepts_nil value
      · exact not_accepts_throw

theorem hungry_span : Hungry span := hungry_address.bind _

theorem framed_span : Framed span :=
  framed_address.bind fun start => framed_offset.bind fun width => framed_pure (Span.mk start width)

theorem hungry_counted (item : Reading α) : Hungry (counted item) := hungry_count.bind _

theorem framed_counted (framed : Framed item) : Framed (counted item) :=
  framed_count.bind fun n => framed_items framed n

theorem hungry_vspec : Hungry vspec := hungry_address.bind _

theorem Framed.accepts_counted (framed : Framed item) {xs : List α} :
    (counted item).Accepts limit taken xs ↔ ∃ front back, taken = front ++ back ∧
      count.Accepts limit front xs.length ∧ InOrder (item.Accepts limit) back xs := by
  rw [counted, framed_count.accepts_bind]
  refine ⟨?_, ?_⟩
  · intro parts
    obtain ⟨n, front, back, rfl, counted, accepts⟩ := parts
    obtain ⟨rfl, inOrder⟩ := framed.accepts_items.mp accepts
    exact ⟨front, back, rfl, counted, inOrder⟩
  · intro parts
    obtain ⟨front, back, rfl, counted, inOrder⟩ := parts
    exact ⟨xs.length, front, back, rfl, counted, framed.accepts_items.mpr ⟨rfl, inOrder⟩⟩

theorem framed_vspec : Framed vspec :=
  framed_address.bind fun doc => framed_count.bind fun n =>
    (framed_items framed_span n).bind fun spans => framed_pure (VSpec.ofSpans doc spans)

theorem framed_specItem : Framed specItem := by
  refine (framed_byte "specset tag").bind fun tag => ?_
  split
  · exact framed_span.bind fun span => framed_pure (SpecItem.span span)
  · split
    · exact framed_vspec.bind fun vspec => framed_pure (SpecItem.vspec vspec)
    · exact framed_throw _

theorem hungry_specSet : Hungry specSet := (hungry_counted specItem).map _

theorem framed_specSet : Framed specSet := (framed_counted framed_specItem).map _

theorem hungry_addresses : Hungry addresses := hungry_counted address

theorem framed_addresses : Framed addresses := framed_counted framed_address

end Docuverse.Wire.Reading
