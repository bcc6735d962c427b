import Docuverse.Proofs.Session.Replies
import Docuverse.Proofs.Wire.Deciding
import Docuverse.Session

namespace Docuverse

/-- The connection after `sent` has gone out and all but `rest` has been taken. -/
def Connection.afterwards (c : Connection) (sent rest : List UInt8) (logged : List Event) :
    Connection := { c with
  inbound.unread := rest
  outbound.sent := c.outbound.sent ++ sent
  events := logged }

namespace Session

open Wire Wire.Reading
open Request (Yields)

variable {α β : Type} {settings : Settings} {asked : Conversation α} {next : α → Conversation β}
  {sent received sent' received' : List UInt8}

/-- Sends exactly `sent`, takes exactly `received` and comes to `result`. -/
def Talks (settings : Settings) (asked : Conversation α) (sent received : List UInt8)
    (result : Except Fault α) : Prop :=
  ∀ rest ending outbound events, outbound.breaking = none → ∃ logged,
    asked ⟨settings, ⟨received ++ rest, ending⟩, outbound, events⟩ =
      (ofExcept result : Conversation α)
        ⟨settings, ⟨rest, ending⟩, { outbound with sent := outbound.sent ++ sent }, logged⟩

theorem continues {c after : Connection} {x : α} (found : asked c = .ok x after) :
    (asked >>= next) c = next x after := by
  simp only [bind, EStateM.bind, found]

theorem breaksOff {c after : Connection} {fault : Fault} (failed : asked c = .error fault after) :
    (asked >>= next) c = .error fault after := by
  simp only [bind, EStateM.bind, failed]

theorem bind_eq_ok {c after : Connection} {y : β} :
    (asked >>= next) c = .ok y after ↔
      ∃ x middle, asked c = .ok x middle ∧ next x middle = .ok y after := by
  show EStateM.bind asked next c = _ ↔ _
  rw [EStateM.bind]
  cases asked c with
  | error fault rest => simp
  | ok x middle =>
    refine ⟨fun found => ⟨x, middle, rfl, found⟩, ?_⟩
    intro parts
    obtain ⟨_, _, ⟨⟩, found⟩ := parts
    exact found

section Reading

variable {reading : Reading α} {c after : Connection} {x : α} {fault : Fault}

theorem read_eq_ok : Connection.read reading c = .ok x after ↔
    ∃ rest, reading c.settings.maxChunkLength.toNat c.inbound = .ok x rest ∧
      after = { c with inbound := rest } := by
  rw [Connection.read]
  cases reading c.settings.maxChunkLength.toNat c.inbound <;> simp [eq_comm, and_assoc]

theorem read_eq_error : Connection.read reading c = .error fault after ↔
    ∃ rest, reading c.settings.maxChunkLength.toNat c.inbound = .error fault rest ∧
      after = { c with inbound := rest } := by
  rw [Connection.read]
  cases reading c.settings.maxChunkLength.toNat c.inbound <;> simp [eq_comm, and_assoc]

variable {gives : α → List UInt8 → Prop} {violates : Violation → List UInt8 → Prop}

theorem read_eq_ok_of_decided
    (decided : Decided reading c.settings.maxChunkLength.toNat c.inbound.unread gives violates)
    (closing : c.inbound.ending = .closed) :
    Connection.read reading c = .ok x after ↔
      ∃ rest, gives x rest ∧ after = { c with inbound.unread := rest } := by
  obtain ⟨settings, ⟨unread, ending⟩, outbound, events⟩ := c
  obtain rfl : ending = .closed := closing
  rw [read_eq_ok]
  simp only [decided.eq_ok]
  refine ⟨?_, ?_⟩
  · rintro ⟨_, ⟨rest, given, rfl⟩, rfl⟩
    exact ⟨rest, given, rfl⟩
  · rintro ⟨rest, given, rfl⟩
    exact ⟨_, ⟨rest, given, rfl⟩, rfl⟩

theorem read_eq_error_of_decided
    (decided : Decided reading c.settings.maxChunkLength.toNat c.inbound.unread gives violates)
    (closing : c.inbound.ending = .closed) :
    Connection.read reading c = .error fault after ↔ ∃ violation rest, violates violation rest ∧
      fault = .protocol violation ∧ after = { c with inbound.unread := rest } := by
  obtain ⟨settings, ⟨unread, ending⟩, outbound, events⟩ := c
  obtain rfl : ending = .closed := closing
  rw [read_eq_error]
  simp only [decided.eq_error]
  refine ⟨?_, ?_⟩
  · rintro ⟨_, ⟨violation, rest, violated, rfl, rfl⟩, rfl⟩
    exact ⟨violation, rest, violated, rfl, rfl⟩
  · rintro ⟨violation, rest, violated, rfl, rfl⟩
    exact ⟨_, ⟨violation, rest, violated, rfl, rfl⟩, rfl⟩

end Reading

theorem talks_ofExcept (result : Except Fault α) :
    Talks settings (ofExcept result) [] [] result := by
  intro rest ending outbound events unbroken
  refine ⟨events, ?_⟩
  rw [List.append_nil]
  rfl

theorem Talks.bind {x : α} {result : Except Fault β}
    (first : Talks settings asked sent received (.ok x))
    (second : Talks settings (next x) sent' received' result) :
    Talks settings (asked >>= next) (sent ++ sent') (received ++ received') result := by
  intro rest ending outbound events unbroken
  obtain ⟨logged, found⟩ := first (received' ++ rest) ending outbound events unbroken
  obtain ⟨logged', found'⟩ :=
    second rest ending { outbound with sent := outbound.sent ++ sent } logged unbroken
  refine ⟨logged', ?_⟩
  rw [List.append_assoc, continues found, found', List.append_assoc]

theorem talks_log (event : Event) : Talks settings (Connection.log event) [] [] (.ok ()) := by
  intro rest ending outbound events unbroken
  refine ⟨events ++ [event], ?_⟩
  rw [List.append_nil]
  rfl

theorem talks_send (bytes : List UInt8) :
    Talks settings (Connection.send bytes) bytes [] (.ok ()) := by
  intro rest ending outbound events unbroken
  obtain ⟨earlier, breaking, closeFailure, isClosed⟩ := outbound
  obtain rfl : breaking = none := unbroken
  exact ⟨events, rfl⟩

/-- A reading sends nothing. -/
theorem talks_read {reading : Reading α} {result : Except Fault α}
    (yields : Yields reading settings.maxChunkLength.toNat received result) :
    Talks settings (Connection.read reading) [] received result := by
  intro rest ending outbound events unbroken
  refine ⟨events, ?_⟩
  rw [Connection.read, yields rest ending, List.append_nil]
  cases result with
  | ok value => rfl
  | error fault => rfl

/-- What is done next may look at the settings and at everything else. -/
theorem talks_get_bind {next : Connection → Conversation β} {result : Except Fault β}
    (talks : ∀ c, c.settings = settings → Talks settings (next c) sent received result) :
    Talks settings (get >>= next) sent received result := by
  intro rest ending outbound events unbroken
  have told := talks ⟨settings, ⟨received ++ rest, ending⟩, outbound, events⟩ rfl
  exact told rest ending outbound events unbroken

/-- Each opcode is echoed by its number. -/
theorem echo_yields {opcode : Opcode} {limit : Nat}
    (short : opcode.code.toNat.repr.length ≤ limit) :
    Yields (Connection.echo opcode) limit (encodeNumber opcode.code) (.ok ()) := by
  intro rest ending
  rw [Connection.echo, bind_of_ok (accepts_chunk_numeral short rest ending), ofNumeral_numeral]
  dsimp only
  rw [if_neg (not_not_intro rfl)]
  rfl

/-- A command comes to what the reading of its echo comes to. -/
theorem talks_command_of_echo {command : Command} {result : Except Fault Unit}
    (encodes : command.encode = .ok sent)
    (echoed : Yields (Connection.echo command.opcode) settings.maxChunkLength.toNat received
      result) :
    Talks settings (Connection.command command) sent received result := by
  have answered : Talks settings
      (do Connection.send sent; Connection.read (Connection.echo command.opcode))
      (sent ++ []) received result := (talks_send sent).bind (talks_read echoed)
  rw [List.append_nil] at answered
  rw [Connection.command, encodes]
  refine (talks_ofExcept (.ok sent)).bind ((talks_log _).bind (talks_get_bind fun c same => ?_))
  split
  · exact (talks_log _).bind answered
  · exact answered

theorem talks_command {command : Command} (encodes : command.encode = .ok sent)
    (short : command.opcode.code.toNat.repr.length ≤ settings.maxChunkLength.toNat) :
    Talks settings (Connection.command command) sent (encodeNumber command.opcode.code) (.ok ()) :=
  talks_command_of_echo encodes (echo_yields short)

/-- Bytes without a newline are counted as long as there is room for them. -/
theorem preambleFrom_skip {limit before : Nat} {ending : Ending} {preamble bytes : List UInt8}
    (noNewline : newline ∉ preamble) (short : before + preamble.length ≤ limit) :
    Connection.preambleFrom limit ending before (preamble ++ bytes) =
      Connection.preambleFrom limit ending (before + preamble.length) bytes := by
  induction preamble generalizing before with
  | nil => rfl
  | cons b preamble ih =>
    have other : b ≠ newline := fun same => noNewline (same ▸ List.mem_cons_self)
    have later := fun inside => noNewline (List.mem_cons_of_mem b inside)
    rw [List.length_cons] at short ⊢
    have room : before < limit := by omega
    rw [List.cons_append, Connection.preambleFrom, if_neg other, if_neg (Nat.not_le.mpr room),
      ih later (by omega), Nat.add_assoc, Nat.add_comm 1]

/-- Bytes without a newline are skipped if there are no more of them than the limit. -/
theorem accepts_preamble {limit room : Nat} {preamble : List UInt8}
    (noNewline : newline ∉ preamble) (short : preamble.length ≤ room) :
    (Connection.preamble room).Accepts limit (preamble ++ [newline]) preamble.length := by
  intro rest ending
  have within : 0 + preamble.length ≤ room := by omega
  rw [List.append_assoc, Connection.preamble, preambleFrom_skip noNewline within, Nat.zero_add]
  rfl

theorem accepts_protocolName {limit : Nat} {mark : UInt8} (ends : IsMark mark) :
    Connection.protocolName.Accepts limit (Connection.protocolTag ++ [mark]) () := by
  intro rest ending
  rcases ends with rfl | rfl
  · rfl
  · rfl

end Session
end Docuverse
