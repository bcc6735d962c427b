import Docuverse.Proofs.Wire.Composed
import Docuverse.Proofs.Wire.Encodable

namespace Docuverse

section Steps

variable {σ α β : Type} {step : EStateM Fault σ α} {next : α → EStateM Fault σ β}

/-- Comes to no fault of range, whatever it begins with. -/
def KeepsRange (step : EStateM Fault σ α) : Prop :=
  ∀ s clash s', step s ≠ .error (.range clash) s'

theorem keepsRange_pure (x : α) : KeepsRange (pure x : EStateM Fault σ α) := by
  intro s clash s' failed
  cases failed

theorem KeepsRange.bind (first : KeepsRange step) (second : ∀ x, KeepsRange (next x)) :
    KeepsRange (step >>= next) := by
  intro s clash s' failed
  rcases bind_fails.mp failed with failed | ⟨x, middle, _, failed⟩
  · exact first s clash s' failed
  · exact second x middle clash s' failed

theorem keepsRange_throw {fault : Fault} (other : ∀ clash, fault ≠ .range clash) :
    KeepsRange (throw fault : EStateM Fault σ α) := by
  intro s clash s' failed
  exact other clash (EStateM.Result.error.inj failed).1

end Steps

namespace Wire

theorem Ending.fault_ne_range (ending : Ending) (context : String) (clash : RangeFault) :
    ending.fault context ≠ .range clash := by
  cases ending <;> simp [Ending.fault]

namespace Reading

variable {α β : Type} {reading : Reading α} {next : α → Reading β}

/-- Comes to no fault of range, whatever is read. -/
def InRange (reading : Reading α) : Prop := ∀ limit, KeepsRange (reading limit)

theorem bind_eq_error {limit : Nat} {inbound left : Inbound} {fault : Fault} :
    (reading >>= next) limit inbound = .error fault left ↔
      reading limit inbound = .error fault left ∨
        ∃ x middle, reading limit inbound = .ok x middle ∧
          next x limit middle = .error fault left :=
  @bind_fails _ _ _ _ (reading limit) (fun x => next x limit) _ _ _

theorem InRange.bind (first : InRange reading) (second : ∀ x, InRange (next x)) :
    InRange (reading >>= next) :=
  fun limit => (first limit).bind fun x => second x limit

theorem inRange_pure (x : α) : InRange (pure x : Reading α) := fun _ => keepsRange_pure x

theorem inRange_malformed (what : Malformation) :
    InRange (throw (.malformed what) : Reading α) :=
  fun _ => keepsRange_throw fun _ same => nomatch same

theorem inRange_violation (violation : Violation) :
    InRange (throw (.protocol violation) : Reading α) :=
  fun _ => keepsRange_throw fun _ same => nomatch same

theorem inRange_byte (context : String) : InRange (byte context) := by
  intro limit inbound clash left failed
  rw [byte] at failed
  split at failed
  · exact inbound.ending.fault_ne_range context clash (EStateM.Result.error.inj failed).1
  · cases failed

theorem inRange_peek (context : String) : InRange (peek context) := by
  intro limit inbound clash left failed
  rw [peek] at failed
  split at failed
  · exact inbound.ending.fault_ne_range context clash (EStateM.Result.error.inj failed).1
  · cases failed

theorem inRange_raw (n : Nat) (context : String) : InRange (raw n context) := by
  intro limit inbound clash left failed
  rw [raw] at failed
  split at failed
  · cases failed
  · split at failed
    · cases failed
    · exact inbound.ending.fault_ne_range context clash (EStateM.Result.error.inj failed).1

theorem inRange_chunk (context : String) : InRange (chunk context) := by
  intro limit inbound clash left
  change chunkFrom context limit inbound.ending [] 0 inbound.unread ≠ _
  generalize [] = before, 0 = used, inbound.unread = bytes
  induction bytes generalizing before used with
  | nil =>
    intro failed
    exact inbound.ending.fault_ne_range context clash (EStateM.Result.error.inj failed).1
  | cons b rest ih =>
    intro failed
    rw [chunkFrom] at failed
    split at failed
    · cases failed
    · split at failed
      · cases failed
      · split at failed
        · cases failed
        · exact ih _ _ failed

/-- What no part of a reading comes to, the whole does not come to. -/
theorem Composed.inRange (composed : Composed reading) : InRange reading := by
  induction composed with
  | pure x => exact inRange_pure x
  | malformed what => exact inRange_malformed what
  | violation violation => exact inRange_violation violation
  | byte context => exact inRange_byte context
  | peek context => exact inRange_peek context
  | raw n context => exact inRange_raw n context
  | chunk context => exact inRange_chunk context
  | bind _ _ first second => exact first.bind second

end Reading
end Wire

namespace Wire

/-- A command that cannot be written is malformed. -/
theorem malformed_of_command {command : Command} {fault : Fault}
    (failed : command.encode = .error fault) : ∃ what, fault = .malformed what := by
  obtain ⟨_, _, _, _, c, _, _, rfl⟩ := Command.unencodable_of_encode failed
  exact ⟨_, rfl⟩

end Wire
end Docuverse
