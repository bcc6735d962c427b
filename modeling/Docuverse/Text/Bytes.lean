namespace Docuverse

namespace Latin

/-- The character with a byte's number. -/
def char (b : UInt8) : Char := Char.ofNat b.toNat

/-- The byte with a character's number, if there is one. -/
def byte? (c : Char) : Option UInt8 := if c.toNat < 256 then some (UInt8.ofNat c.toNat) else none

/-- The text that bytes spell. -/
def text (bytes : List UInt8) : String := String.ofList (bytes.map char)

/-- The bytes of a text that is known to be ASCII. -/
def ascii (text : String) : List UInt8 := text.toList.map fun c => UInt8.ofNat c.toNat

theorem toNat_char (b : UInt8) : (char b).toNat = b.toNat := by
  have small : b.toNat < 256 := b.toNat_lt
  rw [char, Char.ofNat, dif_pos (Or.inl (by omega))]
  rfl

theorem byte?_char (b : UInt8) : byte? (char b) = some b := by
  have small : b.toNat < 256 := b.toNat_lt
  simp [byte?, toNat_char, small]

end Latin

namespace Lossy

/-- The first bytes of a character: their bits, how many bytes are missing, and the range in which
the next byte must lie. -/
structure Pending where
  bits : Nat
  missing : Nat
  low : UInt8
  high : UInt8
  deriving DecidableEq, Repr

/-- What a byte can be at the start of a character. -/
inductive Lead where
  | whole (c : Char)
  | opening (pending : Pending)
  | stray
  deriving DecidableEq, Repr

/-- The ranges exclude overlong forms, surrogates and numbers past the last character. -/
def lead (b : UInt8) : Lead :=
  if b < 0x80 then .whole (Latin.char b)
  else if b < 0xC2 then .stray
  else if b < 0xE0 then .opening ⟨b.toNat - 0xC0, 1, 0x80, 0xBF⟩
  else if b = 0xE0 then .opening ⟨0, 2, 0xA0, 0xBF⟩
  else if b = 0xED then .opening ⟨0xD, 2, 0x80, 0x9F⟩
  else if b < 0xF0 then .opening ⟨b.toNat - 0xE0, 2, 0x80, 0xBF⟩
  else if b = 0xF0 then .opening ⟨0, 3, 0x90, 0xBF⟩
  else if b < 0xF4 then .opening ⟨b.toNat - 0xF0, 3, 0x80, 0xBF⟩
  else if b = 0xF4 then .opening ⟨4, 3, 0x80, 0x8F⟩
  else .stray

def replacement : Char := '\uFFFD'

/-- The decoded characters, last one first, and the character that is being read. -/
structure Decoding where
  decoded : List Char
  pending : Option Pending
  deriving DecidableEq, Repr

def Decoding.open (decoded : List Char) (b : UInt8) : Decoding :=
  match lead b with
  | .whole c => ⟨c :: decoded, none⟩
  | .opening pending => ⟨decoded, some pending⟩
  | .stray => ⟨replacement :: decoded, none⟩

/-- A byte that does not carry the pending character on is read again as a start. -/
def Decoding.next (state : Decoding) (b : UInt8) : Decoding :=
  match state.pending with
  | none => .open state.decoded b
  | some pending =>
    if pending.low ≤ b ∧ b ≤ pending.high then
      let bits := 64 * pending.bits + (b.toNat - 0x80)
      if pending.missing ≤ 1 then ⟨Char.ofNat bits :: state.decoded, none⟩
      else ⟨state.decoded, some ⟨bits, pending.missing - 1, 0x80, 0xBF⟩⟩
    else .open (replacement :: state.decoded) b

def Decoding.finish (state : Decoding) : List Char :=
  match state.pending with
  | none => state.decoded.reverse
  | some _ => (replacement :: state.decoded).reverse

/-- The text of bytes that may be anything, read as UTF-8. What cannot be decoded becomes the
replacement character, one for each longest start of a character that is not carried through. -/
def text (bytes : List UInt8) : String :=
  String.ofList (bytes.foldl Decoding.next ⟨[], none⟩).finish

end Lossy
end Docuverse
