import Docuverse.Proofs.Wire.Pieces
import Docuverse.Wire.Value

namespace Docuverse.Wire

theorem encodeChar_eq_ok {c : Char} {b : UInt8} : encodeChar c = .ok b ↔ c = Latin.char b := by
  refine ⟨fun encodes => ?_, ?_⟩
  · by_cases latin : c.toNat < 256
    · rw [encodeChar_of_latin latin] at encodes
      rw [← Except.ok.inj encodes, char_ofNat latin]
    · rw [encodeChar, Latin.byte?, if_neg latin] at encodes
      cases encodes
  · rintro rfl
    rw [encodeChar, Latin.byte?_char]

theorem encodeChar_eq_error {c : Char} {fault : Fault} :
    encodeChar c = .error fault ↔ 0xFF < c.toNat ∧ fault = .malformed (.unencodable c) := by
  by_cases latin : c.toNat < 256
  · rw [encodeChar_of_latin latin]
    refine iff_of_false (by simp) fun parts => ?_
    omega
  · rw [encodeChar, Latin.byte?, if_neg latin]
    simp only [Except.error.injEq]
    exact ⟨fun same => ⟨by omega, same.symm⟩, fun parts => parts.2.symm⟩

theorem mapM_encodeChar_eq_ok {chars : List Char} {body : List UInt8} :
    chars.mapM encodeChar = .ok body ↔ chars = body.map Latin.char := by
  induction chars generalizing body with
  | nil => cases body <;> simp [pure, Except.pure]
  | cons c chars ih =>
    rw [mapM_cons_eq_ok]
    simp only [encodeChar_eq_ok, ih]
    cases body with
    | nil => simp
    | cons b body => simp

/-- A text that has bytes is told by them. -/
theorem encodeText_eq_ok {text : String} {bytes : List UInt8} :
    encodeText text = .ok bytes ↔ ∃ body, text = Latin.text body ∧
      bytes = textTag :: (encodeCount body.length ++ body) := by
  have spelled (body : List UInt8) :
      text.toList = body.map Latin.char ↔ text = Latin.text body := by
    rw [Latin.text, ← String.toList_inj, String.toList_ofList]
  rw [encodeText, bind_eq_ok]
  simp only [mapM_encodeChar_eq_ok, spelled, pure, Except.pure, Except.ok.injEq]
  simp only [eq_comm]

/-- Some character of the text has no byte. -/
def Unencodable (text : String) : Prop := ∃ c ∈ text.toList, 0xFF < c.toNat

theorem not_unencodable_of_encodeText {text : String} {bytes : List UInt8}
    (encodes : encodeText text = .ok bytes) : ¬ Unencodable text := by
  obtain ⟨body, rfl, _⟩ := encodeText_eq_ok.mp encodes
  rintro ⟨c, member, great⟩
  rw [Latin.text, String.toList_ofList] at member
  obtain ⟨b, _, rfl⟩ := List.mem_map.mp member
  rw [Latin.toNat_char] at great
  have small := b.toNat_lt
  omega

theorem unencodable_of_encodeText {text : String} {fault : Fault}
    (failed : encodeText text = .error fault) :
    ∃ c ∈ text.toList, 0xFF < c.toNat ∧ fault = .malformed (.unencodable c) := by
  rcases bind_eq_error.mp failed with failed | ⟨_, _, none⟩
  · obtain ⟨c, member, failed⟩ := exists_error_of_mapM failed
    exact ⟨c, member, encodeChar_eq_error.mp failed⟩
  · cases none

/-- A text that stands in a value, at any depth. -/
inductive Value.Carries : Value → String → Prop
  | text {text} : Carries (.text text) text
  | item {items item text} : item ∈ items → Carries item text → Carries (.list items) text

variable {values : List Value}

theorem encodeAll_cons_eq_ok {value : Value} {bytes : List UInt8} :
    encodeAll (value :: values) = .ok bytes ↔ ∃ front back, value.encode = .ok front ∧
      encodeAll values = .ok back ∧ bytes = front ++ back := by
  rw [encodeAll, bind_eq_ok]
  simp only [bind_eq_ok, pure, Except.pure, Except.ok.injEq, exists_and_left]
  simp only [eq_comm]

/-- Values have bytes if each of them has, and these follow one another. -/
theorem encodeAll_eq_ok {bytes : List UInt8} :
    encodeAll values = .ok bytes ↔
      ∃ parts, values.mapM Value.encode = .ok parts ∧ bytes = parts.flatten := by
  induction values generalizing bytes with
  | nil => simp [encodeAll, pure, Except.pure, eq_comm]
  | cons value values ih =>
    simp only [encodeAll_cons_eq_ok, mapM_cons_eq_ok, ih]
    refine ⟨?_, ?_⟩
    · rintro ⟨front, _, first, ⟨parts, others, rfl⟩, rfl⟩
      exact ⟨front :: parts, ⟨front, parts, first, others, rfl⟩, rfl⟩
    · rintro ⟨_, ⟨front, parts, first, others, rfl⟩, rfl⟩
      exact ⟨front, parts.flatten, first, ⟨parts, others, rfl⟩, rfl⟩

theorem encode_list_eq_ok {items : List Value} {bytes : List UInt8} :
    (Value.list items).encode = .ok bytes ↔ ∃ body, encodeAll items = .ok body ∧
      bytes = encodeCount items.length ++ body := by
  rw [Value.encode, bind_eq_ok]
  simp only [pure, Except.pure, Except.ok.injEq]
  simp only [eq_comm]

/-- No text in a value that has bytes is in the way of them. -/
theorem Value.Carries.not_unencodable {value : Value} {text : String}
    (carries : value.Carries text) {bytes : List UInt8} (encodes : value.encode = .ok bytes) :
    ¬ Unencodable text := by
  induction carries generalizing bytes with
  | text => exact not_unencodable_of_encodeText encodes
  | item member _ ih =>
    obtain ⟨_, written, _⟩ := encode_list_eq_ok.mp encodes
    obtain ⟨_, each, _⟩ := encodeAll_eq_ok.mp written
    obtain ⟨_, encodesItem⟩ := exists_ok_of_mapM each _ member
    exact ih encodesItem

mutual

theorem Value.unencodable_of_encode (value : Value) {fault : Fault}
    (failed : value.encode = .error fault) : ∃ text, value.Carries text ∧
      ∃ c ∈ text.toList, 0xFF < c.toNat ∧ fault = .malformed (.unencodable c) := by
  cases value with
  | text text => exact ⟨text, .text, unencodable_of_encodeText failed⟩
  | list items =>
    rcases bind_eq_error.mp failed with failed | ⟨_, _, none⟩
    · obtain ⟨item, member, text, carries, clash⟩ := unencodable_of_encodeAll items failed
      exact ⟨text, .item member carries, clash⟩
    · cases none
  | _ => cases failed

theorem unencodable_of_encodeAll (values : List Value) {fault : Fault}
    (failed : encodeAll values = .error fault) : ∃ value ∈ values, ∃ text, value.Carries text ∧
      ∃ c ∈ text.toList, 0xFF < c.toNat ∧ fault = .malformed (.unencodable c) := by
  cases values with
  | nil => cases failed
  | cons value values =>
    rw [encodeAll] at failed
    rcases bind_eq_error.mp failed with failed | ⟨_, _, failed⟩
    · exact ⟨value, List.mem_cons_self, value.unencodable_of_encode failed⟩
    · rcases bind_eq_error.mp failed with failed | ⟨_, _, none⟩
      · obtain ⟨other, member, found⟩ := unencodable_of_encodeAll values failed
        exact ⟨other, List.mem_cons_of_mem value member, found⟩
      · cases none

end

variable {command : Command}

/-- Some text in the arguments, at any depth, cannot be written. -/
def Command.Unencodable (command : Command) : Prop :=
  ∃ value ∈ command.arguments, ∃ text, value.Carries text ∧ Wire.Unencodable text

theorem Command.encode_eq_ok {bytes : List UInt8} : command.encode = .ok bytes ↔
    ∃ body, encodeAll command.arguments = .ok body ∧
      bytes = encodeNumber command.opcode.code ++ body := by
  rw [encode, bind_eq_ok]
  simp only [pure, Except.pure, Except.ok.injEq]
  simp only [eq_comm]

/-- Nothing but a character without a byte is in the way of a command. -/
theorem Command.unencodable_of_encode {fault : Fault} (failed : command.encode = .error fault) :
    ∃ value ∈ command.arguments, ∃ text, value.Carries text ∧
      ∃ c ∈ text.toList, 0xFF < c.toNat ∧ fault = .malformed (.unencodable c) := by
  rcases bind_eq_error.mp failed with failed | ⟨_, _, none⟩
  · exact unencodable_of_encodeAll _ failed
  · cases none

theorem Command.unencodable_iff :
    command.Unencodable ↔ ∃ fault, command.encode = .error fault := by
  refine ⟨?_, ?_⟩
  · rintro ⟨value, member, text, carries, unencodable⟩
    cases encodes : command.encode with
    | error fault => exact ⟨fault, rfl⟩
    | ok bytes =>
      obtain ⟨_, written, _⟩ := encode_eq_ok.mp encodes
      obtain ⟨_, each, _⟩ := encodeAll_eq_ok.mp written
      obtain ⟨_, encodesValue⟩ := exists_ok_of_mapM each value member
      exact absurd unencodable (carries.not_unencodable encodesValue)
  · rintro ⟨fault, failed⟩
    obtain ⟨value, member, text, carries, c, inside, great, _⟩ := unencodable_of_encode failed
    exact ⟨value, member, text, carries, c, inside, great⟩

end Docuverse.Wire
