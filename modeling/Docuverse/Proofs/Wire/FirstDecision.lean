import Docuverse.Proofs.Wire.Deciding
import Mathlib.Order.Bounds.Defs
import Mathlib.Order.WellFounded

namespace Docuverse.Wire.Reading

variable {context : String} {limit used : Nat} {ending : Ending} {body bytes : List UInt8}

/-- What bytes weigh together. -/
def weigh : List UInt8 → Nat
  | [] => 0
  | b :: bytes => weight b + weigh bytes

theorem load_eq (used : Nat) (body : List UInt8) : load used body = used + weigh body := by
  induction body generalizing used with
  | nil => rfl
  | cons b body ih =>
    have later : load used (b :: body) = used + weight b + weigh body := ih (used + weight b)
    rw [later, weigh, Nat.add_assoc]

theorem weight_le_two (b : UInt8) : weight b ≤ 2 := by
  rw [weight]
  split <;> decide

theorem utf8Size_char (b : UInt8) : (Latin.char b).utf8Size = weight b := by
  have number : (Latin.char b).val.toNat = b.toNat := Latin.toNat_char b
  rw [weight]
  split
  next small =>
    rw [UInt8.lt_iff_toNat_lt] at small
    rw [Char.utf8Size_eq_one_iff, UInt32.le_iff_toNat_le, number]
    exact Nat.le_of_lt_succ small
  next large =>
    rw [UInt8.lt_iff_toNat_lt] at large
    rw [Char.utf8Size_eq_two_iff, UInt32.lt_iff_toNat_lt, UInt32.le_iff_toNat_le, number]
    have byte : b.toNat < 256 := b.toNat_lt
    exact ⟨Nat.not_lt.mp large, Nat.le_trans (Nat.le_of_lt byte) (by decide)⟩

/-- A text is as long in UTF-8 as its bytes weigh. -/
theorem utf8ByteSize_text (bytes : List UInt8) :
    (Latin.text bytes).utf8ByteSize = weigh bytes := by
  induction bytes with
  | nil => rfl
  | cons b bytes ih =>
    have split : Latin.text (b :: bytes) = String.singleton (Latin.char b) ++ Latin.text bytes :=
      String.ofList_cons
    rw [split, String.utf8ByteSize_append, String.utf8ByteSize_singleton, utf8Size_char, ih, weigh]

/-- The last byte that there is room for may weigh one more than is left. -/
theorem Fits.weigh_le (fits : Fits limit used body) (start : used ≤ limit + 1) :
    used + weigh body ≤ limit + 1 := by
  induction body generalizing used with
  | nil => exact start
  | cons b body ih =>
    have light := weight_le_two b
    have room : used < limit := fits.1
    have later := ih fits.2 (by omega)
    rwa [weigh, ← Nat.add_assoc]

theorem utf8ByteSize_le_of_chunk {inbound left : Inbound} {value : String}
    (found : chunk context limit inbound = .ok value left) : value.utf8ByteSize ≤ limit + 1 := by
  obtain ⟨_, body, mark, _, enters, _, rfl⟩ := chunk_eq_ok.mp found
  have short := enters.2.weigh_le (Nat.zero_le (limit + 1))
  rwa [Nat.zero_add, ← utf8ByteSize_text] at short

/-- A byte can go into no chunk that holds those in front of it: it is a mark, or a refusal, or
there is no room for it. -/
def Decides (limit : Nat) (front : List UInt8) (b : UInt8) : Prop :=
  IsMark b ∨ b = refusal ∨ limit ≤ weigh front

/-- There is a byte at position `i`, and it decides. -/
def DecidesAt (limit : Nat) (bytes : List UInt8) (i : Nat) : Prop :=
  ∃ b, bytes[i]? = some b ∧ Decides limit (bytes.take i) b

/-- What the deciding byte makes of those in front of it. -/
def verdict (context : String) (limit : Nat) (front : List UInt8) (b : UInt8) (left : Inbound) :
    Outcome String :=
  if b = terminator ∨ b = newline then .ok (Latin.text front) left
  else if b = refusal then .error (.protocol (.rejected context)) left
  else .error (.protocol (.chunkTooLong limit context)) left

theorem Enters.concat {b : UInt8} (enters : Enters limit 0 body)
    (undecided : ¬ Decides limit body b) : Enters limit 0 (body ++ [b]) := by
  obtain ⟨unmarked, accepted, room⟩ : ¬ IsMark b ∧ b ≠ refusal ∧ ¬ limit ≤ weigh body := by
    simpa only [Decides, not_or] using undecided
  have fits : Fits limit (load 0 body) [b] := by
    rw [load_eq, Nat.zero_add]
    exact ⟨Nat.not_le.mp room, trivial⟩
  refine ⟨?_, fits_append.mpr ⟨enters.2, fits⟩⟩
  rw [List.forall_mem_append, List.forall_mem_singleton]
  exact ⟨enters.1, isPlain_iff.mpr ⟨unmarked, accepted⟩⟩

/-- As long as no byte decides, they all go into the chunk. -/
theorem enters_take {n : Nat} (undecided : ∀ i < n, ¬ DecidesAt limit bytes i) :
    Enters limit 0 (bytes.take n) := by
  induction n with
  | zero => exact enters_nil
  | succ n ih =>
    have enters := ih fun i before => undecided i (Nat.lt_succ_of_lt before)
    by_cases inside : n < bytes.length
    · rw [List.take_succ_eq_append_getElem inside]
      refine enters.concat fun decides => undecided n (Nat.lt_succ_self n) ?_
      exact ⟨bytes[n], List.getElem?_eq_getElem inside, decides⟩
    · have ended : bytes.length ≤ n := Nat.not_lt.mp inside
      rw [List.take_of_length_le ended] at enters
      rwa [List.take_of_length_le (Nat.le_succ_of_le ended)]

theorem chunk_of_decides {front rest : List UInt8} {b : UInt8} (enters : Enters limit 0 front)
    (decides : Decides limit front b) :
    chunk context limit ⟨front ++ b :: rest, ending⟩ =
      verdict context limit front b ⟨rest, ending⟩ := by
  rw [verdict]
  split
  next ends => exact chunk_of_enters enters ends
  next unmarked =>
    split
    next refuses =>
      subst refuses
      exact (Stopped.refused enters).chunkFrom_eq
    next accepted =>
      have full : limit ≤ load 0 front := by
        rw [load_eq, Nat.zero_add]
        exact (decides.resolve_left unmarked).resolve_left accepted
      exact (Stopped.tooLong enters (isPlain_iff.mpr ⟨unmarked, accepted⟩) full).chunkFrom_eq

theorem chunk_of_first {i : Nat} {b : UInt8} (here : bytes[i]? = some b)
    (decides : Decides limit (bytes.take i) b) (first : ∀ j < i, ¬ DecidesAt limit bytes j) :
    chunk context limit ⟨bytes, ending⟩ =
      verdict context limit (bytes.take i) b ⟨bytes.drop (i + 1), ending⟩ := by
  obtain ⟨inside, rfl⟩ := List.getElem?_eq_some_iff.mp here
  have whole : bytes.take i ++ bytes[i] :: bytes.drop (i + 1) = bytes := by
    rw [List.getElem_cons_drop, List.take_append_drop]
  have decided : chunk context limit
      ⟨bytes.take i ++ bytes[i] :: bytes.drop (i + 1), ending⟩ = _ :=
    chunk_of_decides (enters_take first) decides
  rwa [whole] at decided

theorem chunk_of_undecided (undecided : ∀ i, ¬ DecidesAt limit bytes i) :
    chunk context limit ⟨bytes, ending⟩ = .error (ending.fault context) ⟨[], ending⟩ := by
  have enters := enters_take (n := bytes.length) fun i _ => undecided i
  rw [List.take_length] at enters
  exact (Stopped.ended enters).chunkFrom_eq

/-- The first byte that is a mark, or a refusal, or has in front of it what weighs as much as the
limit, decides the chunk: it is the text of the bytes in front, or the request is rejected, or the
chunk is too long, and the next reading begins behind that byte. Without such a byte everything is
taken, and the stream is at its end. So the text is longer than the limit by one byte at most. -/
theorem chunk_first_decision (context : String) (limit : Nat) (bytes : List UInt8)
    (ending : Ending) :
    ((∃ i b, IsLeast {j | DecidesAt limit bytes j} i ∧ bytes[i]? = some b ∧
        chunk context limit ⟨bytes, ending⟩ =
          verdict context limit (bytes.take i) b ⟨bytes.drop (i + 1), ending⟩) ∨
      (∀ i, ¬ DecidesAt limit bytes i) ∧
        chunk context limit ⟨bytes, ending⟩ = .error (ending.fault context) ⟨[], ending⟩) ∧
    ∀ value left, chunk context limit ⟨bytes, ending⟩ = .ok value left →
      value.utf8ByteSize ≤ limit + 1 := by
  refine ⟨?_, fun value left found => utf8ByteSize_le_of_chunk found⟩
  by_cases decided : ∃ i, DecidesAt limit bytes i
  · obtain ⟨i, ⟨b, here, decides⟩, first⟩ :=
      Nat.lt_wfRel.wf.has_min {j | DecidesAt limit bytes j} decided
    refine Or.inl ⟨i, b, ⟨⟨b, here, decides⟩, ?_⟩, here, ?_⟩
    · exact fun j later => Nat.not_lt.mp (first j later)
    · exact chunk_of_first here decides fun j before earlier => first j earlier before
  · have undecided := not_exists.mp decided
    exact Or.inr ⟨undecided, chunk_of_undecided undecided⟩

/-- With room for three bytes, there is room for a second letter of two. -/
theorem chunk_first_decision_accents :
    let bytes : List UInt8 := [0xe9, 0xe9, terminator, 0x31]
    chunk "tumbler" 3 ⟨bytes, .closed⟩ = .ok "éé" ⟨[0x31], .closed⟩ ∧
      "éé".utf8ByteSize ≤ 3 + 1 := by
  intro bytes
  have found : chunk "tumbler" 3 ⟨bytes, .closed⟩ = .ok "éé" ⟨[0x31], .closed⟩ := rfl
  exact ⟨found, (chunk_first_decision "tumbler" 3 bytes .closed).2 _ _ found⟩

end Docuverse.Wire.Reading
