import Docuverse.Connection
import Docuverse.Proofs.Tumbler.ExponentForm
import Docuverse.Proofs.Wire.Framing
import Docuverse.Proofs.Wire.Kind

namespace Docuverse

namespace Wire.Reading

/-- Is made of readings of bytes and chunks, one after the other, and finds fault by itself only
with what they have found. -/
inductive Composed : {α : Type} → Reading α → Prop
  | pure {α : Type} (x : α) : Composed (pure x)
  | malformed {α : Type} (what : Malformation) :
      Composed (throw (.malformed what) : Reading α)
  | violation {α : Type} (violation : Violation) :
      Composed (throw (.protocol violation) : Reading α)
  | byte (context : String) : Composed (byte context)
  | peek (context : String) : Composed (peek context)
  | raw (n : Nat) (context : String) : Composed (raw n context)
  | chunk (context : String) : Composed (chunk context)
  | bind {α β : Type} {reading : Reading α} {next : α → Reading β} :
      Composed reading → (∀ x, Composed (next x)) → Composed (reading >>= next)

variable {α β : Type} {reading item : Reading α}

theorem Composed.map (composed : Composed reading) (f : α → β) : Composed (f <$> reading) := by
  rw [map_eq_bind]
  exact composed.bind fun x => .pure (f x)

theorem composed_items (each : Composed item) (n : Nat) : Composed (items n item) := by
  induction n with
  | zero => exact .pure []
  | succ n ih =>
    rw [items_succ]
    exact each.bind fun x => ih.bind fun xs => .pure (x :: xs)

theorem composed_expect (expected : UInt8) (context : String) :
    Composed (expect expected context) := by
  refine (Composed.byte context).bind fun b => ?_
  split
  · exact .malformed _
  · exact .pure ()

/-- What is made of a chunk may be malformed. -/
theorem composed_ofChunk {context : String} {parse : String → Except Fault α}
    (malformed : ∀ {chunk fault}, parse chunk = .error fault → ∃ what, fault = .malformed what) :
    Composed (do ofExcept (parse (← chunk context))) := by
  refine (Composed.chunk context).bind fun chunk => ?_
  cases parsed : parse chunk with
  | ok x => exact .pure x
  | error fault =>
    obtain ⟨what, rfl⟩ := malformed parsed
    exact .malformed what

theorem malformed_of_ofNumeral {chunk : String} {fault : Fault}
    (failed : ofNumeral chunk = .error fault) : ∃ what, fault = .malformed what := by
  rw [ofNumeral] at failed
  split at failed
  · cases failed
  · cases failed
    exact ⟨_, rfl⟩
  · cases failed
    exact ⟨_, rfl⟩

theorem composed_number : Composed number := composed_ofChunk malformed_of_ofNumeral

theorem composed_count : Composed count := composed_number.map UInt64.toNat

theorem composed_tumbler : Composed tumbler := composed_ofChunk fun failed =>
  Tumbler.ofExponentForm_malformed failed

theorem composed_address : Composed address := composed_tumbler.map Address.mk

theorem composed_offset : Composed offset := composed_tumbler.map Offset.mk

theorem composed_counted (each : Composed item) : Composed (counted item) :=
  composed_count.bind fun n => composed_items each n

theorem composed_textBody (context : String) : Composed (textBody context) :=
  composed_count.bind fun n => (Composed.raw n context).bind fun bytes => .pure (Latin.text bytes)

theorem composed_text : Composed text :=
  (composed_expect textTag "text").bind fun _ => composed_textBody "text"

theorem composed_content : Composed content := by
  refine (Composed.peek "content").bind fun first => ?_
  split
  · exact composed_text.bind fun text => .pure (Content.text text)
  · split
    · exact composed_address.bind fun link => .pure (Content.link link)
    · exact .malformed _

theorem composed_span : Composed span :=
  composed_address.bind fun start => composed_offset.bind fun width => .pure (Span.mk start width)

theorem composed_vspec : Composed vspec :=
  composed_address.bind fun doc => composed_count.bind fun n =>
    (composed_items composed_span n).bind fun spans => .pure (VSpec.ofSpans doc spans)

theorem composed_specItem : Composed specItem := by
  refine (Composed.byte "specset tag").bind fun tag => ?_
  split
  · exact composed_span.bind fun span => .pure (SpecItem.span span)
  · split
    · exact composed_vspec.bind fun vspec => .pure (SpecItem.vspec vspec)
    · exact .malformed _

theorem composed_specSet : Composed specSet := (composed_counted composed_specItem).map SpecSet.mk

theorem composed_addresses : Composed addresses := composed_counted composed_address

end Wire.Reading

namespace Enfilade.Reading

open Wire (Reading)
open Wire.Reading

variable {crumReading : Reading Crum}

theorem composed_lettered {α : Type} {value : Reading α} (letter : Char) (context : String)
    (composed : Composed value) : Composed (lettered letter context value) :=
  (composed_expect letter.toUInt8 context).bind fun _ => composed

theorem composed_flavour : Composed flavour := by
  refine composed_number.bind fun code => ?_
  split
  · exact .pure _
  · exact .malformed _

theorem composed_label : Composed label :=
  (composed_lettered '(' "crum" composed_number).bind fun depth =>
    (composed_lettered 'h' "crum height" composed_number).bind fun height =>
      (composed_lettered 'e' "crum enftype" composed_flavour).bind fun flavour =>
        (composed_lettered 'w' "crum widths" (composed_counted composed_tumbler)).bind fun widths =>
          (composed_lettered 'd' "crum displacements" (composed_counted composed_tumbler)).bind
            fun displacements => .pure (Label.mk depth height flavour widths displacements)

theorem composed_orglTree (inside : Composed crumReading) : Composed (orglTree crumReading) := by
  refine (Composed.byte "orgl residency").bind fun residency => ?_
  split
  · exact .pure none
  · split
    · exact inside.bind fun tree => .pure (some tree)
    · exact .malformed _

theorem composed_home (label : Label) : Composed (home label) :=
  ((Composed.byte "bottom crum info").map _).bind fun _ =>
    composed_address.bind fun doc => .pure (Crum.home label doc)

theorem composed_atom (inside : Composed crumReading) (label : Label) (code : UInt64) :
    Composed (atom crumReading label code) := by
  unfold atom
  split
  · exact (composed_expect 't'.toUInt8 "text atom").bind fun _ =>
      (composed_textBody "text atom").bind fun text => .pure (Crum.text label text)
  · split
    · exact (composed_expect 'o'.toUInt8 "orgl atom").bind fun _ =>
        (composed_orglTree inside).bind fun tree => .pure (Crum.orgl label tree.isSome tree)
    · exact .malformed _

theorem composed_bottom (inside : Composed crumReading) (label : Label) :
    Composed (bottom crumReading label) := by
  refine (composed_expect 'i'.toUInt8 "bottom crum").bind fun _ => ?_
  refine (Composed.peek "bottom crum info").bind fun first => ?_
  split
  · exact composed_home label
  · exact composed_number.bind fun code => composed_atom inside label code

theorem composed_body (inside : Composed crumReading) (label : Label) (n : Nat) :
    Composed (body crumReading label n) := by
  unfold body
  split
  · exact composed_bottom inside label
  · exact (composed_items inside n).map _

theorem composed_crum (room : Nat) : Composed (crum room) := by
  induction room with
  | zero => exact .malformed _
  | succ room ih =>
    exact composed_label.bind fun label =>
      (composed_lettered 'c' "crum child count" composed_count).bind fun n =>
        (composed_body ih label n).bind fun found =>
          (composed_expect ')'.toUInt8 "end of crum").bind fun _ => .pure found

theorem composed_store : Composed store := by
  refine (Composed.byte "dump marker").bind fun marker => ?_
  split
  · exact .pure Store.granf
  · split
    · exact .pure Store.spanf
    · exact .malformed _

theorem composed_dump : Composed dump := by
  refine composed_store.bind fun store => composed_number.bind fun present => ?_
  split
  · exact .pure _
  · exact (composed_crum (maxNesting + 1)).bind fun root => .pure (Dump.mk store (some root))

end Enfilade.Reading

open Wire.Reading in
theorem Wire.Kind.composed_reading (kind : Kind) : Composed kind.reading := by
  cases kind with
  | number => exact composed_number
  | count => exact composed_count
  | text => exact composed_text
  | content => exact composed_content
  | tumbler => exact composed_tumbler
  | address => exact composed_address
  | offset => exact composed_offset
  | span => exact composed_span
  | vspec => exact composed_vspec
  | specSet => exact composed_specSet
  | addresses => exact composed_addresses
  | dump => exact Enfilade.Reading.composed_dump

namespace Connection

open Wire.Reading

theorem composed_protocolName : Composed protocolName := by
  refine (Composed.byte _).bind fun _ => (Composed.byte _).bind fun _ => (Composed.byte _).bind
    fun _ => ?_
  dsimp only
  split
  · exact .violation _
  · exact .pure ()

theorem composed_echo (opcode : Opcode) : Composed (echo opcode) := by
  refine (Composed.chunk _).bind fun chunk => ?_
  split
  · split
    · exact .violation _
    · exact .pure ()
  · exact .violation _

end Connection
end Docuverse
