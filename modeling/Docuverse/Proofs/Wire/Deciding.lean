import Docuverse.Proofs.Wire.Chunk

namespace Docuverse.Wire.Reading

variable {context : String} {limit used : Nat} {ending : Ending}

/-- The bytes all go into a chunk, after bytes that weigh `used`. -/
def Enters (limit used : Nat) (body : List UInt8) : Prop :=
  (∀ b ∈ body, IsPlain b) ∧ Fits limit used body

theorem enters_nil : Enters limit used [] := ⟨by simp, trivial⟩

theorem Enters.cons {b : UInt8} {body : List UInt8} (plain : IsPlain b) (room : used < limit)
    (later : Enters limit (used + weight b) body) : Enters limit used (b :: body) :=
  ⟨List.forall_mem_cons.mpr ⟨plain, later.1⟩, room, later.2⟩

/-- How the reading of a chunk fails, and what it leaves. -/
inductive Stopped (context : String) (limit : Nat) (ending : Ending) (used : Nat) :
    List UInt8 → Fault → List UInt8 → Prop
  | refused {body rest} : Enters limit used body →
      Stopped context limit ending used (body ++ refusal :: rest)
        (.protocol (.rejected context)) rest
  | tooLong {body b rest} : Enters limit used body → IsPlain b → limit ≤ load used body →
      Stopped context limit ending used (body ++ b :: rest)
        (.protocol (.chunkTooLong limit context)) rest
  | ended {body} : Enters limit used body →
      Stopped context limit ending used body (ending.fault context) []

theorem Stopped.cons {b : UInt8} {bytes left : List UInt8} {fault : Fault} (plain : IsPlain b)
    (room : used < limit)
    (stopped : Stopped context limit ending (used + weight b) bytes fault left) :
    Stopped context limit ending used (b :: bytes) fault left := by
  cases stopped with
  | refused enters => exact .refused (enters.cons plain room)
  | tooLong enters plain' full => exact .tooLong (enters.cons plain room) plain' full
  | ended enters => exact .ended (enters.cons plain room)

/-- On a stream that is closed in the end, this is a violation. -/
theorem Stopped.violates {bytes left : List UInt8} {fault : Fault}
    (stopped : Stopped context limit .closed used bytes fault left) :
    ∃ violation, fault = .protocol violation := by
  cases stopped <;> exact ⟨_, rfl⟩

theorem stopped_of_chunkFrom {before : List Char} {bytes : List UInt8} {fault : Fault}
    {left : Inbound}
    (failed : chunkFrom context limit ending before used bytes = .error fault left) :
    left.ending = ending ∧ Stopped context limit ending used bytes fault left.unread := by
  induction bytes generalizing before used with
  | nil =>
    cases failed
    exact ⟨rfl, .ended enters_nil⟩
  | cons b rest ih =>
    rw [chunkFrom] at failed
    split at failed
    · cases failed
    next unmarked =>
      split at failed
      next refuses =>
        cases failed
        subst refuses
        exact ⟨rfl, .refused enters_nil⟩
      next accepts =>
        have plain : IsPlain b :=
          ⟨fun same => unmarked (Or.inl same), fun same => unmarked (Or.inr same), accepts⟩
        split at failed
        next full =>
          cases failed
          exact ⟨rfl, .tooLong enters_nil plain full⟩
        next room =>
          obtain ⟨same, stopped⟩ := ih failed
          exact ⟨same, stopped.cons plain (Nat.not_le.mp room)⟩

theorem Stopped.chunkFrom_eq {before : List Char} {bytes left : List UInt8} {fault : Fault}
    (stopped : Stopped context limit ending used bytes fault left) :
    chunkFrom context limit ending before used bytes = .error fault ⟨left, ending⟩ := by
  cases stopped with
  | refused enters =>
    have unmarked : ¬ (refusal = terminator ∨ refusal = newline) := by decide
    rw [chunkFrom_append enters.1 enters.2, chunkFrom, if_neg unmarked, if_pos rfl]
  | tooLong enters plain full =>
    have unmarked := not_or.mpr ⟨plain.1, plain.2.1⟩
    rw [chunkFrom_append enters.1 enters.2, chunkFrom, if_neg unmarked, if_neg plain.2.2,
      if_pos full]
  | ended enters =>
    rw [← List.append_nil bytes, chunkFrom_append enters.1 enters.2, chunkFrom]

variable {inbound left : Inbound}

/-- A chunk fails in just the ways of `Stopped`. -/
theorem chunk_eq_error {fault : Fault} :
    chunk context limit inbound = .error fault left ↔ left.ending = inbound.ending ∧
      Stopped context limit inbound.ending 0 inbound.unread fault left.unread := by
  refine ⟨stopped_of_chunkFrom, ?_⟩
  rintro ⟨same, stopped⟩
  obtain ⟨unread, ending⟩ := left
  obtain rfl : ending = inbound.ending := same
  exact stopped.chunkFrom_eq

theorem chunk_of_enters {body rest : List UInt8} {mark : UInt8} (enters : Enters limit 0 body)
    (ends : IsMark mark) : chunk context limit ⟨body ++ mark :: rest, ending⟩ =
      .ok (Latin.text body) ⟨rest, ending⟩ := by
  have accepts : (chunk context).Accepts limit (body ++ [mark]) (Latin.text body) :=
    accepts_chunk.mpr ⟨body, mark, rfl, enters.1, ends, enters.2, rfl⟩
  have found := accepts rest ending
  rwa [List.append_assoc] at found

/-- A chunk is what stands before its mark. -/
theorem chunk_eq_ok {value : String} :
    chunk context limit inbound = .ok value left ↔ left.ending = inbound.ending ∧
      ∃ body mark, inbound.unread = body ++ mark :: left.unread ∧ Enters limit 0 body ∧
        IsMark mark ∧ value = Latin.text body := by
  obtain ⟨unread, ending⟩ := inbound
  obtain ⟨rest, ending'⟩ := left
  refine ⟨fun found => ?_, ?_⟩
  · obtain ⟨body, mark, split, same, plain, ends, fits, rfl⟩ := of_chunkFrom found
    exact ⟨same, body, mark, split, ⟨plain, fits⟩, ends, rfl⟩
  · rintro ⟨rfl, body, mark, rfl, enters, ends, rfl⟩
    exact chunk_of_enters enters ends

variable {α : Type} {reading : Reading α} {bytes : List UInt8} {gives : α → List UInt8 → Prop}
  {violates : Violation → List UInt8 → Prop}

/-- The bytes, with the end of the stream after them, give a value or violate something, and leave
some of them. Nothing else can happen, so that either is told by what it takes. -/
structure Decided (reading : Reading α) (limit : Nat) (bytes : List UInt8)
    (gives : α → List UInt8 → Prop) (violates : Violation → List UInt8 → Prop) : Prop where
  total : ∃ rest, (∃ value, gives value rest) ∨ ∃ violation, violates violation rest
  value : ∀ {value rest}, gives value rest →
    reading limit ⟨bytes, .closed⟩ = .ok value ⟨rest, .closed⟩
  violation : ∀ {violation rest}, violates violation rest →
    reading limit ⟨bytes, .closed⟩ = .error (.protocol violation) ⟨rest, .closed⟩

theorem Decided.eq_ok (decided : Decided reading limit bytes gives violates) {value : α} :
    reading limit ⟨bytes, .closed⟩ = .ok value left ↔
      ∃ rest, gives value rest ∧ left = ⟨rest, .closed⟩ := by
  refine ⟨fun found => ?_, ?_⟩
  · obtain ⟨rest, ⟨told, given⟩ | ⟨violation, violated⟩⟩ := decided.total
    · rw [decided.value given] at found
      cases found
      exact ⟨rest, given, rfl⟩
    · rw [decided.violation violated] at found
      cases found
  · rintro ⟨rest, given, rfl⟩
    exact decided.value given

theorem Decided.eq_error (decided : Decided reading limit bytes gives violates) {fault : Fault} :
    reading limit ⟨bytes, .closed⟩ = .error fault left ↔
      ∃ violation rest, violates violation rest ∧ fault = .protocol violation ∧
        left = ⟨rest, .closed⟩ := by
  refine ⟨fun failed => ?_, ?_⟩
  · obtain ⟨rest, ⟨value, given⟩ | ⟨told, violated⟩⟩ := decided.total
    · rw [decided.value given] at failed
      cases failed
    · rw [decided.violation violated] at failed
      cases failed
      exact ⟨told, rest, violated, rfl, rfl⟩
  · rintro ⟨violation, rest, violated, rfl, rfl⟩
    exact decided.violation violated

end Docuverse.Wire.Reading
