import Docuverse.Proofs.Checked
import Docuverse.Proofs.Text.Fields
import Docuverse.Wire.Value

namespace Docuverse.Wire

/-- The least that is written as a whole. -/
inductive Piece where
  | number (n : Nat)
  | tumbler (t : Tumbler)
  | text (text : String)
  | tag (b : UInt8)
  deriving DecidableEq, Repr

namespace Piece

def bytes : Piece → List UInt8
  | .number n => encodeCount n
  | .tumbler t => encodeTumbler t
  | .text s => textTag :: (encodeCount s.length ++ Latin.ascii s)
  | .tag b => [b]

/-- Every character of a text has a byte. -/
def IsLatin : Piece → Prop
  | .text s => ∀ c ∈ s.toList, c.toNat < 256
  | _ => True

/-- A chunk of the piece, or the body of its text, is no longer than the limit, and a number is one
of 64 bits. -/
def Fits (limit : Nat) : Piece → Prop
  | .number n => n < UInt64.size ∧ n.repr.length ≤ limit
  | .tumbler t => t.exponentForm.length ≤ limit
  | .text s => s.length < UInt64.size ∧ s.length.repr.length ≤ limit ∧ s.length ≤ limit
  | .tag _ => True

/-- An exponent is not too large to be read. -/
def IsLegible : Piece → Prop
  | .tumbler t => t.exponent ≤ Tumbler.maxExponent
  | _ => True

instance : DecidablePred IsLatin
  | .text s => inferInstanceAs (Decidable (∀ c ∈ s.toList, c.toNat < 256))
  | .number _ | .tumbler _ | .tag _ => .isTrue trivial

instance (limit : Nat) : DecidablePred (Fits limit)
  | .number n => inferInstanceAs (Decidable (n < UInt64.size ∧ n.repr.length ≤ limit))
  | .tumbler t => inferInstanceAs (Decidable (t.exponentForm.length ≤ limit))
  | .text s => inferInstanceAs (Decidable
      (s.length < UInt64.size ∧ s.length.repr.length ≤ limit ∧ s.length ≤ limit))
  | .tag _ => .isTrue trivial

instance : DecidablePred IsLegible
  | .tumbler t => inferInstanceAs (Decidable (t.exponent ≤ Tumbler.maxExponent))
  | .number _ | .text _ | .tag _ => .isTrue trivial

end Piece

/-- The bytes of pieces, one after the other. -/
def written (pieces : List Piece) : List UInt8 := pieces.flatMap Piece.bytes

def spanPieces (s : Span) : List Piece := [.tumbler s.start.tumbler, .tumbler s.width.tumbler]

def vspecPieces (v : VSpec) : List Piece :=
  .tumbler v.doc.tumbler :: .number v.spans.length :: v.spans.flatMap spanPieces

def specItemPieces : SpecItem → List Piece
  | .span s => .tag spanTag :: spanPieces s
  | .vspec v => .tag vspecTag :: vspecPieces v

def specSetPieces (set : SpecSet) : List Piece :=
  .number set.size :: set.items.flatMap specItemPieces

mutual

/-- The pieces of a value. -/
def Value.pieces : Value → List Piece
  | .number n => [.number n.toNat]
  | .text text => [.text text]
  | .list items => .number items.length :: piecesAll items
  | .address a => [.tumbler a.tumbler]
  | .offset o => [.tumbler o.tumbler]
  | .span s => spanPieces s
  | .vspec v => vspecPieces v
  | .specSet set => specSetPieces set

/-- The pieces of values, one after the other. -/
def piecesAll : List Value → List Piece
  | [] => []
  | value :: values => value.pieces ++ piecesAll values

end

theorem piecesAll_map {α : Type} (value : α → Value) (xs : List α) :
    piecesAll (xs.map value) = xs.flatMap fun x => (value x).pieces := by
  induction xs with
  | nil => rfl
  | cons x xs ih => rw [List.map_cons, piecesAll, ih, List.flatMap_cons]

theorem written_append (front back : List Piece) :
    written (front ++ back) = written front ++ written back := List.flatMap_append

theorem written_cons (piece : Piece) (pieces : List Piece) :
    written (piece :: pieces) = piece.bytes ++ written pieces := List.flatMap_cons

theorem written_singleton (piece : Piece) : written [piece] = piece.bytes :=
  List.flatMap_singleton Piece.bytes piece

theorem written_flatMap {α : Type} (pieces : α → List Piece) (xs : List α) :
    written (xs.flatMap pieces) = xs.flatMap fun x => written (pieces x) := List.flatMap_assoc

theorem written_spanPieces (s : Span) : written (spanPieces s) = encodeSpan s := by
  simp [spanPieces, written, Piece.bytes, encodeSpan]

theorem written_vspecPieces (v : VSpec) : written (vspecPieces v) = encodeVSpec v := by
  rw [vspecPieces, written_cons, written_cons, written_flatMap]
  simp only [written_spanPieces, Piece.bytes, encodeVSpec, List.append_assoc]

theorem written_specItemPieces (item : SpecItem) :
    written (specItemPieces item) = encodeSpecItem item := by
  cases item with
  | span s => rw [specItemPieces, written_cons, written_spanPieces]; rfl
  | vspec v => rw [specItemPieces, written_cons, written_vspecPieces]; rfl

theorem written_specSetPieces (set : SpecSet) :
    written (specSetPieces set) = encodeSpecSet set := by
  rw [specSetPieces, written_cons, written_flatMap]
  simp only [written_specItemPieces, Piece.bytes, encodeSpecSet]

theorem encodeChar_of_latin {c : Char} (latin : c.toNat < 256) :
    encodeChar c = .ok (UInt8.ofNat c.toNat) := by
  rw [encodeChar, Latin.byte?, if_pos latin]

theorem mapM_encodeChar {chars : List Char} (latin : ∀ c ∈ chars, c.toNat < 256) :
    chars.mapM encodeChar = .ok (chars.map fun c => UInt8.ofNat c.toNat) := by
  induction chars with
  | nil => rfl
  | cons c chars ih =>
    obtain ⟨first, others⟩ := List.forall_mem_cons.mp latin
    exact mapM_cons_eq_ok.mpr ⟨_, _, encodeChar_of_latin first, ih others, rfl⟩

theorem char_ofNat {c : Char} (latin : c.toNat < 256) : Latin.char (UInt8.ofNat c.toNat) = c := by
  apply Char.toNat_inj.mp
  rw [Latin.toNat_char, UInt8.toNat_ofNat_of_lt' latin]

theorem map_char_ascii {text : String} (latin : ∀ c ∈ text.toList, c.toNat < 256) :
    (Latin.ascii text).map Latin.char = text.toList := by
  have same : text.toList.map (Latin.char ∘ fun c => UInt8.ofNat c.toNat) = text.toList.map id :=
    List.map_congr_left fun c member => char_ofNat (latin c member)
  rw [Latin.ascii, List.map_map, same, List.map_id]

/-- The bytes of a Latin-1 text spell it again. -/
theorem text_ascii {text : String} (latin : ∀ c ∈ text.toList, c.toNat < 256) :
    Latin.text (Latin.ascii text) = text := by
  rw [Latin.text, map_char_ascii latin, String.ofList_toList]

theorem length_ascii (text : String) : (Latin.ascii text).length = text.length := by
  rw [Latin.ascii, List.length_map, String.length_toList]

theorem encodeText_eq {text : String} (latin : (Piece.text text).IsLatin) :
    encodeText text = .ok (Piece.text text).bytes := by
  rw [encodeText, mapM_encodeChar latin, Piece.bytes, ← length_ascii]
  rfl

mutual

/-- A value with Latin-1 texts is written as its pieces. -/
theorem Value.encode_eq (value : Value) (latin : ∀ piece ∈ value.pieces, piece.IsLatin) :
    value.encode = .ok (written value.pieces) := by
  cases value with
  | number n => simp [Value.encode, Value.pieces, written, Piece.bytes, encodeNumber]
  | text text =>
    rw [Value.encode, encodeText_eq (latin _ List.mem_cons_self), Value.pieces, written_cons]
    simp [written]
  | list items =>
    have inside := encodeAll_eq items fun piece member =>
      latin piece (List.mem_cons_of_mem _ member)
    rw [Value.encode, inside, Value.pieces, written_cons]
    rfl
  | address a => simp [Value.encode, Value.pieces, written, Piece.bytes]
  | offset o => simp [Value.encode, Value.pieces, written, Piece.bytes]
  | span s => rw [Value.encode, Value.pieces, written_spanPieces]
  | vspec v => rw [Value.encode, Value.pieces, written_vspecPieces]
  | specSet set => rw [Value.encode, Value.pieces, written_specSetPieces]

theorem encodeAll_eq (values : List Value) (latin : ∀ piece ∈ piecesAll values, piece.IsLatin) :
    encodeAll values = .ok (written (piecesAll values)) := by
  cases values with
  | nil => rfl
  | cons value values =>
    have first := value.encode_eq fun piece member => latin piece (List.mem_append_left _ member)
    have others := encodeAll_eq values fun piece member =>
      latin piece (List.mem_append_right _ member)
    rw [encodeAll, first, others, piecesAll, written_append]
    rfl

end

end Docuverse.Wire
