import Docuverse.Proofs.Greeting
import Docuverse.Proofs.Wire.Composed

namespace Docuverse

open Wire Wire.Reading

namespace Wire.Reading

variable {α β : Type} {reading : Reading α} {next : α → Reading β} {limit greater : Nat}

/-- Under a greater limit the reading comes to the same and leaves the same, unless the limit is
what has stopped it. -/
def Guarded (reading : Reading α) : Prop :=
  ∀ limit greater inbound, limit ≤ greater →
    reading limit inbound = reading greater inbound ∨ ∃ context left,
      reading limit inbound = .error (.protocol (.chunkTooLong limit context)) left

/-- A reading that does not look at the limit. -/
theorem guarded_of_const (same : ∀ limit greater, reading limit = reading greater) :
    Guarded reading := by
  intro limit greater inbound le
  exact Or.inl (congrFun (same limit greater) inbound)

theorem Guarded.bind (first : Guarded reading) (second : ∀ x, Guarded (next x)) :
    Guarded (reading >>= next) := by
  intro limit greater inbound le
  rcases first limit greater inbound le with same | ⟨context, left, long⟩
  · cases found : reading limit inbound with
    | error fault left =>
      have wider := same.symm.trans found
      exact Or.inl ((bind_of_error found).trans (bind_of_error wider).symm)
    | ok x middle =>
      have wider := same.symm.trans found
      rw [bind_of_ok found, bind_of_ok wider]
      exact second x limit greater middle le
  · exact Or.inr ⟨context, left, bind_of_error long⟩

/-- The number of bytes is compared with the limit before any of them is taken. -/
theorem guarded_raw (n : Nat) (context : String) : Guarded (raw n context) := by
  intro limit greater inbound le
  by_cases long : limit < n
  · exact Or.inr ⟨context, inbound, by rw [raw, if_pos long]⟩
  · have wider : ¬ greater < n := by omega
    exact Or.inl (by rw [raw, raw, if_neg long, if_neg wider])

/-- Where there is room for a byte there is no less of it under a greater limit. -/
theorem chunkFrom_guarded (context : String) (ending : Ending) (before : List Char) (used : Nat)
    (bytes : List UInt8) (le : limit ≤ greater) :
    chunkFrom context limit ending before used bytes =
        chunkFrom context greater ending before used bytes ∨
      ∃ left, chunkFrom context limit ending before used bytes =
        .error (.protocol (.chunkTooLong limit context)) left := by
  induction bytes generalizing before used with
  | nil => exact Or.inl rfl
  | cons b rest ih =>
    by_cases ends : b = terminator ∨ b = newline
    · left
      simp only [chunkFrom, if_pos ends]
    by_cases refused : b = refusal
    · left
      simp only [chunkFrom, if_neg ends, if_pos refused]
    by_cases full : limit ≤ used
    · right
      exact ⟨⟨rest, ending⟩, by simp only [chunkFrom, if_neg ends, if_neg refused, if_pos full]⟩
    have wider : ¬ greater ≤ used := by omega
    simp only [chunkFrom, if_neg ends, if_neg refused, if_neg full, if_neg wider]
    exact ih (Latin.char b :: before) (used + weight b)

theorem guarded_chunk (context : String) : Guarded (chunk context) := by
  intro limit greater inbound le
  rcases chunkFrom_guarded context inbound.ending [] 0 inbound.unread le with same | ⟨left, long⟩
  · exact Or.inl same
  · exact Or.inr ⟨context, left, long⟩

/-- The limit is looked at for chunks and for the length of texts, and nowhere else. -/
theorem Composed.guarded (composed : Composed reading) : Guarded reading := by
  induction composed with
  | pure x => exact guarded_of_const fun _ _ => rfl
  | malformed what => exact guarded_of_const fun _ _ => rfl
  | violation violation => exact guarded_of_const fun _ _ => rfl
  | byte context => exact guarded_of_const fun _ _ => rfl
  | peek context => exact guarded_of_const fun _ _ => rfl
  | raw n context => exact guarded_raw n context
  | chunk context => exact guarded_chunk context
  | bind _ _ first second => exact first.bind second

end Wire.Reading

namespace Connection

variable {room wider : Nat} {m m' : UInt64}

theorem preambleFrom_guarded (ending : Ending) (before : Nat) (bytes : List UInt8)
    (le : room ≤ wider) :
    preambleFrom room ending before bytes = preambleFrom wider ending before bytes ∨
      ∃ left, preambleFrom room ending before bytes =
        .error (.protocol (.handshake (.noNewline room))) left := by
  induction bytes generalizing before with
  | nil => exact Or.inl rfl
  | cons b rest ih =>
    by_cases ends : b = newline
    · left
      simp only [preambleFrom, if_pos ends]
    by_cases full : room ≤ before
    · right
      exact ⟨⟨rest, ending⟩, by simp only [preambleFrom, if_neg ends, if_pos full]⟩
    have wide : ¬ wider ≤ before := by omega
    simp only [preambleFrom, if_neg ends, if_neg full, if_neg wide]
    exact ih (before + 1)

theorem greetingAnswer_guarded (limit : Nat) (inbound : Inbound) (le : room ≤ wider) :
    greetingAnswer room limit inbound = greetingAnswer wider limit inbound ∨
      ∃ left, greetingAnswer room limit inbound =
        .error (.protocol (.handshake (.noNewline room))) left := by
  rcases preambleFrom_guarded inbound.ending 0 inbound.unread le with same | ⟨left, long⟩
  · have skipped : preamble room limit inbound = preamble wider limit inbound := same
    left
    simp only [greetingAnswer, beforeAgreement, bind, ReaderT.bind, EStateM.bind, skipped]
  · have refused : preamble room limit inbound =
        .error (.protocol (.handshake (.noNewline room))) left := long
    exact Or.inr ⟨left, beforeAgreement_of_handshake (bind_of_error refused)⟩

/-- The same connection with another limit on the bytes before the greeting. -/
def withPreambleLimit (c : Connection) (m : UInt64) : Connection :=
  { c with settings.maxPreambleLength := m }

/-- With either limit, something done on a connection comes to the same and changes the connection
in the same way. -/
def SameWithin {α : Type} (asked : Conversation α) (c : Connection) (m m' : UInt64) : Prop :=
  ∃ (result : Except Fault α) (after : Connection), ∀ limit, limit = m ∨ limit = m' →
    asked (c.withPreambleLimit limit) = (ofExcept result : Conversation α)
      (after.withPreambleLimit limit)

theorem send_withPreambleLimit (bytes : List UInt8) (c : Connection) :
    ∃ (result : Except Fault Unit) (after : Connection), ∀ limit,
      send bytes (c.withPreambleLimit limit) =
      (ofExcept result : Conversation Unit) (after.withPreambleLimit limit) := by
  obtain ⟨settings, inbound, ⟨sent, breaking, closeFailure, isClosed⟩, events⟩ := c
  cases breaking with
  | none =>
    exact ⟨.ok (), ⟨settings, inbound, ⟨sent ++ bytes, none, closeFailure, isClosed⟩, events⟩,
      fun limit => rfl⟩
  | some breaking =>
    obtain ⟨room, reason⟩ := breaking
    let after : Connection := ⟨settings, inbound, ⟨sent ++ bytes.take room,
      some ⟨room - bytes.length, reason⟩, closeFailure, isClosed⟩, events⟩
    by_cases fits : bytes.length ≤ room
    · refine ⟨.ok (), after, fun limit => ?_⟩
      simp only [send, withPreambleLimit, if_pos fits]
      rfl
    · refine ⟨.error (.io reason), after, fun limit => ?_⟩
      simp only [send, withPreambleLimit, if_neg fits]
      rfl

theorem handshake_guarded (c : Connection) (le : m ≤ m') :
    SameWithin handshake c m m' ∨ ∃ after, handshake (c.withPreambleLimit m) =
      .error (.protocol (.handshake (.noNewline m.toNat))) after := by
  obtain ⟨result, middle, sends⟩ := send_withPreambleLimit greeting c
  cases result with
  | error fault =>
    exact Or.inl ⟨.error fault, middle, fun limit _ => Session.breaksOff (sends limit)⟩
  | ok _ =>
    let answer (limit : UInt64) := greetingAnswer limit.toNat
      middle.settings.maxChunkLength.toNat middle.inbound
    have goesOn (limit : UInt64) : handshake (c.withPreambleLimit limit) =
        (do log (.handshakeComplete (← read (greetingAnswer limit.toNat))) : Conversation Unit)
          (middle.withPreambleLimit limit) := Session.continues (sends limit)
    rcases greetingAnswer_guarded middle.settings.maxChunkLength.toNat middle.inbound
      (UInt64.le_iff_toNat_le.mp le) with same | ⟨left, long⟩
    · left
      have both (limit : UInt64) (either : limit = m ∨ limit = m') : answer limit = answer m := by
        rcases either with rfl | rfl
        · rfl
        · exact same.symm
      cases answered : answer m with
      | ok discarded left =>
        refine ⟨.ok (), { middle with
          inbound := left
          events := middle.events ++ [.handshakeComplete discarded] }, fun limit either => ?_⟩
        have heard : read (greetingAnswer limit.toNat) (middle.withPreambleLimit limit) =
            .ok discarded { middle.withPreambleLimit limit with inbound := left } :=
          Session.read_eq_ok.mpr ⟨left, (both limit either).trans answered, rfl⟩
        rw [goesOn]
        exact Session.continues heard
      | error fault left =>
        refine ⟨.error fault, { middle with inbound := left }, fun limit either => ?_⟩
        have heard : read (greetingAnswer limit.toNat) (middle.withPreambleLimit limit) =
            .error fault { middle.withPreambleLimit limit with inbound := left } :=
          Session.read_eq_error.mpr ⟨left, (both limit either).trans answered, rfl⟩
        rw [goesOn]
        exact Session.breaksOff heard
    · right
      have heard : read (greetingAnswer m.toNat) (middle.withPreambleLimit m) =
          .error (.protocol (.handshake (.noNewline m.toNat)))
            { middle.withPreambleLimit m with inbound := left } :=
        Session.read_eq_error.mpr ⟨left, long, rfl⟩
      exact ⟨_, (goesOn m).trans (Session.breaksOff heard)⟩

/-- With a greater limit everything is read as with a smaller one and the greeting goes as with a
smaller one, unless the smaller limit has refused what is too long. -/
theorem limits_only_refuse {limit greater : Nat} (le : limit ≤ greater) (le' : m ≤ m') :
    (∀ context inbound, chunk context limit inbound = chunk context greater inbound ∨
      ∃ left, chunk context limit inbound =
        .error (.protocol (.chunkTooLong limit context)) left) ∧
    (∀ (kind : Kind) (inbound : Inbound),
      kind.reading limit inbound = kind.reading greater inbound ∨ ∃ context left,
        kind.reading limit inbound = .error (.protocol (.chunkTooLong limit context)) left) ∧
    ∀ c : Connection, SameWithin handshake c m m' ∨ ∃ after,
      handshake (c.withPreambleLimit m) =
        .error (.protocol (.handshake (.noNewline m.toNat))) after := by
  refine ⟨fun context inbound => ?_, fun kind inbound => ?_, fun c => handshake_guarded c le'⟩
  · exact chunkFrom_guarded context inbound.ending [] 0 inbound.unread le
  · exact kind.composed_reading.guarded limit greater inbound le

/-- A number of four digits is refused under a limit of three, and one of two is not. -/
theorem limits_only_refuse_number :
    let read (limit : Nat) (bytes : String) :=
      Kind.number.reading limit ⟨Latin.ascii bytes, .closed⟩
    3 ≤ 4 ∧ (1 : UInt64) ≤ 2 ∧
      read 3 "1989~" = .error (.protocol (.chunkTooLong 3 "number")) ⟨Latin.ascii "~", .closed⟩ ∧
      read 4 "1989~" = .ok 1989 ⟨[], .closed⟩ ∧ read 3 "88~1" = read 4 "88~1" := by
  have le : 3 ≤ 4 := by decide
  have le' : (1 : UInt64) ≤ 2 := by decide
  refine ⟨le, le', rfl, rfl, ?_⟩
  have same := (limits_only_refuse le le').2.1 .number ⟨Latin.ascii "88~1", .closed⟩
  refine same.resolve_right ?_
  rintro ⟨context, left, ⟨⟩⟩

end Connection
end Docuverse
