import Docuverse.Proofs.RoundTrip
import Docuverse.Proofs.SortedSpans

namespace Docuverse

namespace Tumbler

/-- Zeros are counted up to the first other digit. -/
theorem exponent_of_ne {d : UInt64} (counts : d ≠ 0) (n : Nat) (digits : List UInt64) :
    exponent ⟨List.replicate n 0 ++ d :: digits⟩ = n := by
  have zeros : ∀ z ∈ List.replicate n (0 : UInt64), (z == 0) = true := by simp
  have stops : (d :: digits).takeWhile (· == 0) = [] :=
    List.takeWhile_cons_of_neg (by simpa using counts)
  rw [exponent, List.takeWhile_append_of_pos zeros, stops]
  simp

end Tumbler

namespace Wire

namespace Piece

/-- Its number is one of 64 bits. A text has a length of 64 bits and is Latin-1. -/
def IsSound : Piece → Prop
  | .number n => n < UInt64.size
  | .text s => (∀ c ∈ s.toList, c.toNat < 256) ∧ s.length < UInt64.size
  | .tumbler _ | .tag _ => True

/-- No chunk of the piece, and no body of a text, is longer than the limit. -/
def HasRoom (limit : Nat) : Piece → Prop
  | .number n => n.repr.length ≤ limit
  | .tumbler t => t.exponentForm.length ≤ limit
  | .text s => s.length.repr.length ≤ limit ∧ s.length ≤ limit
  | .tag _ => True

instance (limit : Nat) : DecidablePred (HasRoom limit)
  | .number n => inferInstanceAs (Decidable (n.repr.length ≤ limit))
  | .tumbler t => inferInstanceAs (Decidable (t.exponentForm.length ≤ limit))
  | .text s => inferInstanceAs (Decidable (s.length.repr.length ≤ limit ∧ s.length ≤ limit))
  | .tag _ => .isTrue trivial

theorem passable_of_sound {piece : Piece} {limit : Nat} (sound : piece.IsSound)
    (room : piece.HasRoom limit) : piece.IsLatin ∧ piece.Fits limit := by
  cases piece with
  | number n => exact ⟨trivial, sound, room⟩
  | tumbler t => exact ⟨trivial, room⟩
  | text s => exact ⟨sound.1, sound.2, room⟩
  | tag b => exact ⟨trivial, trivial⟩

end Piece

namespace Reading

variable {α : Type} {item : Reading α} {limit : Nat} {inbound left : Inbound}

/-- Every piece is sound. -/
def Sound (pieces : List Piece) : Prop := ∀ piece ∈ pieces, piece.IsSound

theorem sound_cons {piece : Piece} {pieces : List Piece} :
    Sound (piece :: pieces) ↔ piece.IsSound ∧ Sound pieces := List.forall_mem_cons

theorem sound_flatMap {xs : List α} {parts : α → List Piece}
    (each : ∀ x ∈ xs, Sound (parts x)) : Sound (xs.flatMap parts) := by
  intro piece member
  obtain ⟨x, inside, part⟩ := List.mem_flatMap.mp member
  exact each x inside piece part

theorem sound_tumbler (t : Tumbler) : Sound [.tumbler t] := by
  simp [Sound, Piece.IsSound]

theorem sound_span (s : Span) : Sound (spanPieces s) := by
  simp [Sound, spanPieces, Piece.IsSound]

theorem sound_of_counted {parts : α → List Piece} {xs : List α}
    (each : ∀ {inbound x left}, item limit inbound = .ok x left → Sound (parts x))
    (found : counted item limit inbound = .ok xs left) :
    Sound (.number xs.length :: xs.flatMap parts) := by
  obtain ⟨range, all⟩ := of_counted each found
  exact sound_cons.mpr ⟨range, sound_flatMap all⟩

theorem sound_of_bytes {bytes : List UInt8} (range : bytes.length < UInt64.size) :
    Sound [.text (Latin.text bytes)] := by
  intro piece member
  rw [List.mem_singleton.mp member]
  refine ⟨fun c inside => ?_, ?_⟩
  · rw [Latin.text, String.toList_ofList] at inside
    obtain ⟨b, _, rfl⟩ := List.mem_map.mp inside
    rw [Latin.toNat_char]
    exact b.toNat_lt
  · rwa [Latin.text, String.length_ofList, List.length_map]

theorem sound_of_text {s : String} (found : text limit inbound = .ok s left) :
    Sound [.text s] := by
  obtain ⟨bytes, rfl, range⟩ := of_text found
  exact sound_of_bytes range

theorem sound_of_vspec {v : VSpec} (found : vspec limit inbound = .ok v left) :
    Sound (vspecPieces v) := by
  obtain ⟨doc, spans, rfl, range⟩ := of_vspec found
  have length : (VSpec.ofSpans doc spans).spans.length = spans.length :=
    (VSpec.perm_ofSpans doc spans).length_eq
  have sound : Sound ((VSpec.ofSpans doc spans).spans.flatMap spanPieces) :=
    sound_flatMap fun s _ => sound_span s
  exact sound_cons.mpr ⟨trivial, sound_cons.mpr ⟨length ▸ range, sound⟩⟩

theorem sound_of_specItem {entry : SpecItem} (found : specItem limit inbound = .ok entry left) :
    Sound (specItemPieces entry) := by
  obtain ⟨s, rfl⟩ | ⟨v, _, inside, rfl⟩ := of_specItem found
  · exact sound_cons.mpr ⟨trivial, sound_span s⟩
  · exact sound_cons.mpr ⟨trivial, sound_of_vspec inside⟩

theorem sound_of_specSet {set : SpecSet} (found : specSet limit inbound = .ok set left) :
    Sound (specSetPieces set) := by
  obtain ⟨range, all⟩ := of_specSet sound_of_specItem found
  exact sound_cons.mpr ⟨range, sound_flatMap all⟩

theorem sound_of_content {c : Content} (found : content limit inbound = .ok c left) :
    Sound (contentPieces c) := by
  obtain ⟨s, _, inside, rfl⟩ | ⟨a, rfl⟩ := of_content found
  · exact sound_of_text inside
  · exact sound_tumbler a.tumbler

end Reading

namespace Kind

open Reading

theorem sound_of_reading {kind : Kind} {v : kind.Val} {value : Value} {limit : Nat}
    {inbound left : Inbound} (given : kind.value? v = some value)
    (found : kind.reading limit inbound = .ok v left) : Sound value.pieces := by
  cases kind with
  | number =>
    cases given
    exact sound_cons.mpr ⟨UInt64.toNat_lt_size v, by simp [Sound]⟩
  | text => cases given; exact sound_of_text found
  | content =>
    have sound := sound_of_content found
    cases v with
    | text s => cases given; exact sound
    | link a => cases given; exact sound
  | tumbler => cases given; exact sound_tumbler v
  | address => cases given; exact sound_tumbler v.tumbler
  | offset => cases given; exact sound_tumbler v.tumbler
  | span => cases given; exact sound_span v
  | vspec => cases given; exact sound_of_vspec found
  | specSet => cases given; exact sound_of_specSet found
  | addresses =>
    cases given
    rw [Value.pieces, piecesAll_map, List.length_map]
    exact sound_of_counted (fun {_ a _} _ => sound_tumbler a.tumbler) found
  | count => cases given
  | dump => cases given

theorem isSorted_of_reading {kind : Kind} {v : kind.Val} {limit : Nat} {inbound left : Inbound}
    (found : kind.reading limit inbound = .ok v left) : kind.IsSorted v := by
  cases kind with
  | vspec => exact isSorted_of_vspec found
  | specSet => exact isSorted_of_specSet found
  | _ => trivial

/-- What has been read can be written, and under a limit with room for its chunks it is read again,
unless a tumbler in it has too many zeros in front. -/
theorem reading_again {kind : Kind} {v : kind.Val} {value : Value} {limit limit' : Nat}
    {inbound left : Inbound} (found : kind.reading limit inbound = .ok v left)
    (given : kind.value? v = some value) (room : ∀ piece ∈ value.pieces, piece.HasRoom limit') :
    ∃ bytes, value.encode = .ok bytes ∧ ∀ rest ending,
      ((∀ t, .tumbler t ∈ value.pieces → t.exponent ≤ 4096) →
        kind.reading limit' ⟨bytes ++ rest, ending⟩ = .ok v ⟨rest, ending⟩) ∧
      ((∃ t, .tumbler t ∈ value.pieces ∧ 4096 < t.exponent) →
        ∃ what left, kind.reading limit' ⟨bytes ++ rest, ending⟩ =
          .error (.malformed what) left) := by
  have sound := sound_of_reading given found
  have passable : Passable limit' value.pieces := fun piece member =>
    Piece.passable_of_sound (sound piece member) (room piece member)
  have encodes := value.encode_eq fun piece member => (passable piece member).1
  obtain ⟨accepts, refuses⟩ := conveys_reading given passable
  rw [sorted_eq (isSorted_of_reading found)] at accepts
  refine ⟨written value.pieces, encodes, fun rest ending => ⟨fun small => ?_, fun large => ?_⟩⟩
  · exact accepts (legible_iff.mpr small) rest ending
  · exact refuses (not_legible.mpr large) rest ending

/-- Spans out of order, with a newline for a terminator, an empty field, and zeros in front of
numbers and at the start of a mantissa. -/
theorem reading_again_respelled :
    let v : VSpec := ⟨.ofDigits [1, 0, 2],
      [⟨.ofDigits [0, 0, 3], .ofDigits [1]⟩, ⟨.ofDigits [7], .ofDigits [0, 0]⟩]⟩
    vspec.reading 20 ⟨Latin.ascii "0.01.0.2\n02~0.7~2~01..0.003\n0.1~", .closed⟩ =
        .ok v ⟨[], .closed⟩ ∧
      (Value.vspec v).encode = .ok (Latin.ascii "0.1.0.2~2~2.3~0.1~0.7~1.0~") ∧
      vspec.reading 7 ⟨Latin.ascii "0.1.0.2~2~2.3~0.1~0.7~1.0~" ++ Latin.ascii "?", .closed⟩ =
        .ok v ⟨Latin.ascii "?", .closed⟩ := by
  intro v
  have order : VSpec.sorted ⟨.ofDigits [1, 0, 2], [⟨.ofDigits [7], .ofDigits [0, 0]⟩,
      ⟨.ofDigits [0, 0, 3], .ofDigits [1]⟩]⟩ = v :=
    VSpec.sorted_of_perm (List.Perm.swap _ _ []) (by decide)
  have found : vspec.reading 20
      ⟨Latin.ascii "0.01.0.2\n02~0.7~2~01..0.003\n0.1~", .closed⟩ = .ok v ⟨[], .closed⟩ := by
    rw [← order]
    rfl
  have room : ∀ piece ∈ (Value.vspec v).pieces, piece.HasRoom 7 := by decide
  have small : ∀ t, .tumbler t ∈ (Value.vspec v).pieces → t.exponent ≤ 4096 :=
    legible_iff.mp (by decide)
  obtain ⟨bytes, encodes, again⟩ := reading_again found rfl room
  have spelled : encodeVSpec v = Latin.ascii "0.1.0.2~2~2.3~0.1~0.7~1.0~" := by decide
  obtain rfl : encodeVSpec v = bytes := Except.ok.inj encodes
  rw [← spelled]
  exact ⟨found, encodes, (again (Latin.ascii "?") .closed).1 small⟩

/-- Of 4097 zeros the spelling has one behind the exponent, but all of them are counted when the
tumbler is written. -/
theorem not_reading_again :
    let t : Tumbler := ⟨List.replicate 4097 0 ++ [1]⟩
    tumbler.reading 8 ⟨Latin.ascii "4096.0.1~", .closed⟩ = .ok t ⟨[], .closed⟩ ∧
      (Value.address ⟨t⟩).encode = .ok (Latin.ascii "4097.1~") ∧
      ∀ limit, 6 ≤ limit → ∃ what left,
        tumbler.reading limit ⟨Latin.ascii "4097.1~", .closed⟩ = .error (.malformed what) left := by
  intro t
  have exponent : t.exponent = 4097 := Tumbler.exponent_of_ne (by decide) 4097 []
  have form : t.exponentForm = "4097.1" := by
    have dropped : t.digits.drop 4097 = [1] := List.drop_left' List.length_replicate
    rw [Tumbler.exponentForm, exponent, dropped]
    rfl
  have bytes : encodeTumbler t = Latin.ascii "4097.1~" := by
    rw [encodeTumbler, form]
    rfl
  refine ⟨?_, congrArg Except.ok bytes, fun limit room => ?_⟩
  · have read : Tumbler.ofExponentForm "4096.0.1" = .ok t := by
      have zeros : t = ⟨List.replicate 4096 0 ++ [0, 1]⟩ := by
        rw [List.append_cons, ← List.replicate_succ']
      exact Tumbler.ofExponentForm_eq_ok.mpr ⟨4096, [0, 1], rfl, rfl, by decide, zeros⟩
    exact accepts_tumbler_of_form read (by decide) [] .closed
  · have passable : Passable limit [.tumbler t] := by
      intro piece member
      rw [List.mem_singleton.mp member]
      have short : t.exponentForm.length ≤ limit := form ▸ room
      exact ⟨trivial, short⟩
    have illegible : ¬ Legible [.tumbler t] :=
      not_legible.mpr ⟨t, List.mem_cons_self, exponent ▸ (by decide : Tumbler.maxExponent < 4097)⟩
    have refused := (conveys_tumbler t passable).2 illegible [] .closed
    rwa [written_singleton, Piece.bytes, bytes] at refused

end Kind
end Wire
end Docuverse
