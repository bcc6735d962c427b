import Docuverse.Proofs.Session.Talking
import Docuverse.Proofs.Session.Tellings

namespace Docuverse

open Wire Wire.Reading

namespace Connection

variable {α : Type} {reading : Reading α} {c after : Connection} {x : α}

theorem keepsRange_log (event : Event) : KeepsRange (log event) := by
  intro c clash after failed
  cases failed

theorem keepsRange_send (bytes : List UInt8) : KeepsRange (send bytes) := by
  intro c clash after failed
  rw [send] at failed
  split at failed
  · cases failed
  · split at failed
    · cases failed
    · cases failed

theorem keepsRange_close : KeepsRange close := by
  intro c clash after failed
  rw [close] at failed
  split at failed
  · cases failed
  · cases failed

theorem keepsRange_read (inRange : InRange reading) : KeepsRange (read reading) := by
  intro c clash after failed
  obtain ⟨rest, told, _⟩ := Session.read_eq_error.mp failed
  exact inRange _ c.inbound clash rest told

theorem settles_echo (opcode : Opcode) :
    Settles (echo opcode) (encodeNumber opcode.code) () := by
  have digits : ∀ c ∈ (Decimal.numeral opcode.code).toList, Tumbler.IsFormChar c :=
    fun c member => Or.inl (isDigit_repr _ c member)
  refine (settles_chunk digits).bind_silent ?_
  rw [ofNumeral_numeral]
  dsimp only
  rw [if_neg (not_not_intro rfl)]
  exact settles_pure ()

theorem keepsRange_command (command : Command) : KeepsRange (Connection.command command) := by
  have answered (bytes : List UInt8) :
      KeepsRange (do send bytes; read (echo command.opcode)) :=
    (keepsRange_send bytes).bind fun _ => keepsRange_read (composed_echo command.opcode).inRange
  refine KeepsRange.bind ?_ fun bytes => (keepsRange_log _).bind fun _ => KeepsRange.bind ?_ ?_
  · cases encodes : command.encode with
    | ok bytes => exact keepsRange_pure bytes
    | error fault =>
      obtain ⟨what, rfl⟩ := malformed_of_command encodes
      exact keepsRange_throw fun _ same => nomatch same
  · intro c clash after failed
    cases failed
  · intro c
    dsimp only
    split
    · exact (keepsRange_log _).bind fun _ => answered bytes
    · exact answered bytes

theorem send_eq_ok {bytes : List UInt8} (found : send bytes c = .ok () after) :
    after.settings = c.settings ∧ after.inbound = c.inbound := by
  rw [send] at found
  split at found
  · cases found
    exact ⟨rfl, rfl⟩
  · split at found
    · cases found
      exact ⟨rfl, rfl⟩
    · cases found

/-- A command takes its echo and nothing else. -/
theorem command_eq_ok {command : Command} (found : Connection.command command c = .ok () after) :
    after.settings = c.settings ∧
      echo command.opcode c.settings.maxChunkLength.toNat c.inbound = .ok () after.inbound := by
  have answered {bytes : List UInt8} {events : List Event}
      (found : (do send bytes; read (echo command.opcode)) { c with events } = .ok () after) :
      after.settings = c.settings ∧
        echo command.opcode c.settings.maxChunkLength.toNat c.inbound = .ok () after.inbound := by
    obtain ⟨_, middle, sends, found⟩ := Session.bind_eq_ok.mp found
    obtain ⟨settings, inbound⟩ := send_eq_ok sends
    obtain ⟨rest, echoed, rfl⟩ := Session.read_eq_ok.mp found
    rw [settings, inbound] at echoed
    exact ⟨settings, echoed⟩
  obtain ⟨bytes, _, encodes, found⟩ := Session.bind_eq_ok.mp found
  cases encoded : command.encode with
  | error fault =>
    rw [encoded] at encodes
    cases encodes
  | ok written =>
    rw [encoded] at encodes
    cases encodes
    obtain ⟨_, _, ⟨⟩, found⟩ := Session.bind_eq_ok.mp found
    obtain ⟨_, _, ⟨⟩, found⟩ := Session.bind_eq_ok.mp found
    split at found
    · obtain ⟨_, _, ⟨⟩, found⟩ := Session.bind_eq_ok.mp found
      exact answered found
    · exact answered found

theorem inRange_preamble (limit : Nat) : InRange (preamble limit) := by
  intro _ inbound clash left
  change preambleFrom limit inbound.ending 0 inbound.unread ≠ _
  generalize 0 = before, inbound.unread = bytes
  induction bytes generalizing before with
  | nil =>
    intro failed
    exact inbound.ending.fault_ne_range _ clash (EStateM.Result.error.inj failed).1
  | cons b rest ih =>
    intro failed
    rw [preambleFrom] at failed
    split at failed
    · cases failed
    · split at failed
      · cases failed
      · exact ih _ failed

theorem inRange_beforeAgreement (inRange : InRange reading) :
    InRange (beforeAgreement reading) := by
  intro limit inbound clash left failed
  rw [beforeAgreement] at failed
  split at failed
  · cases failed
  · exact inRange limit inbound clash left failed

theorem keepsRange_handshake : KeepsRange handshake := by
  refine (keepsRange_send greeting).bind fun _ => KeepsRange.bind ?_ fun c => ?_
  · intro c clash after failed
    cases failed
  · refine (keepsRange_read (inRange_beforeAgreement ?_)).bind fun discarded => keepsRange_log _
    exact (inRange_preamble _).bind fun discarded =>
      composed_protocolName.inRange.bind fun _ => inRange_pure discarded

end Connection

namespace Session

open Sharing Request

variable {request : Request} {c after : Connection} {clash : RangeFault}

theorem keepsRange_quit : KeepsRange quit :=
  (Connection.keepsRange_command _).bind fun _ =>
    (Connection.keepsRange_log _).bind fun _ => Connection.keepsRange_close

theorem composed_endsets : Composed endsets :=
  composed_specSet.bind fun source => composed_specSet.bind fun target =>
    composed_specSet.bind fun type => .pure (Endsets.mk source target type)

/-- No reply finds fault by itself but that to a comparison. -/
theorem composed_reply (other : ∀ a b, request ≠ .compareVersions a b) :
    Composed request.reply := by
  cases request with
  | createDocument | createVersion doc | openDocument doc access copy
  | createLink doc source target type | createNode owner => exact composed_address
  | closeDocument doc | insert doc place texts | vcopy doc place specs | delete doc start width
  | pivot doc start middle stop | swap doc a b c d | remove doc vspan | account owner =>
    exact .pure ()
  | retrieveVSpanSet doc => exact composed_vspec
  | retrieveVSpan doc => exact composed_span.map (VSpan.mk doc)
  | retrieveContents specs => exact composed_counted composed_content
  | retrieveEndsets specs => exact composed_endsets
  | findLinks source target type homes | findDocuments specs => exact composed_addresses
  | followLink link which => exact composed_specSet.map LinkFollow.found
  | compareVersions a b => exact absurd rfl (other a b)
  | dumpState => exact Enfilade.Reading.composed_dump

/-- No request is out of range but to delete what has no stop. -/
theorem delete_of_command {fault : Fault} (failed : request.command = .error fault) :
    ∃ doc start width, request = .delete doc start width := by
  cases request with
  | delete doc start width => exact ⟨doc, start, width, rfl⟩
  | _ => cases failed

/-- A fault of range comes of the request, before anything is done, or of the reply to a
comparison. -/
theorem exchange_range (failed : exchange request c = .error (.range clash) after) :
    ((∃ doc start width, request = .delete doc start width) ∧ after = c) ∨
      ∃ a b, request = .compareVersions a b ∧ ∃ limit heard,
        Connection.echo .compareVersions limit c.inbound = .ok () heard ∧
        reply (.compareVersions a b) limit heard = .error (.range clash) after.inbound := by
  rcases bind_fails.mp failed with failed | ⟨command, middle, asks, failed⟩
  · cases asks : request.command with
    | ok command =>
      rw [asks] at failed
      cases failed
    | error fault =>
      rw [asks] at failed
      cases failed
      exact Or.inl ⟨delete_of_command asks, rfl⟩
  · cases told : request.command with
    | error fault =>
      rw [told] at asks
      cases asks
    | ok command =>
      rw [told] at asks
      cases asks
      rcases bind_fails.mp failed with failed | ⟨_, heard, commanded, failed⟩
      · exact absurd failed (Connection.keepsRange_command _ c clash after)
      · obtain ⟨kept, echoed⟩ := Connection.command_eq_ok commanded
        obtain ⟨rest, answered, rfl⟩ := read_eq_error.mp failed
        rw [kept] at answered
        cases request with
        | compareVersions a b =>
          cases told
          exact Or.inr ⟨a, b, rfl, _, _, echoed, answered⟩
        | _ => exact absurd answered ((composed_reply (by rintro _ _ ⟨⟩)).inRange _ _ _ _)

/-- A link that is not followed for a fault of range is none that the back end refuses. -/
theorem exchange_of_perform (failed : perform request c = .error (.range clash) after) :
    exchange request c = .error (.range clash) after := by
  cases request with
  | followLink link which =>
    rw [perform, emptyIfRejected] at failed
    split at failed
    · cases failed
    next fault stopped exchanged =>
      split at failed
      · cases failed
      · cases failed
        exact exchanged
  | _ => exact failed

/-- What can be done in a session: to begin it, to ask for something and to end it. -/
inductive Call where
  | connect
  | perform (request : Request)
  | quit

namespace Call

abbrev Answer : Call → Type
  | connect | quit => Unit
  | perform request => request.Answer

def run : (call : Call) → Conversation call.Answer
  | connect => Session.connect
  | perform request => Session.perform request
  | quit => Session.quit

end Call

/-- If a fault of range comes of the request, nothing has been done. If it comes of the reply to a
comparison, the pieces after the first one that does not lie in documents are left in front of what
follows. -/
theorem range_fault_leaves {call : Call} (failed : call.run c = .error (.range clash) after) :
    ((∃ doc start width, call = .perform (.delete doc start width)) ∧ after = c) ∨
      ∃ a b, call = .perform (.compareVersions a b) ∧ ∀ ts rest,
        c.inbound.unread = encodeNumber Opcode.compareVersions.code ++
          (encodeCount ts.length ++ (told ts ++ rest)) →
        after.inbound = ⟨told (unheard ts) ++ rest, c.inbound.ending⟩ ∧
          (after.inbound.unread = rest ↔ ∀ t ∈ ts.dropLast, t.InDocs) := by
  cases call with
  | connect => exact absurd failed (Connection.keepsRange_handshake c clash after)
  | quit => exact absurd failed (keepsRange_quit c clash after)
  | perform request =>
    rcases exchange_range (exchange_of_perform failed) with
      ⟨⟨doc, start, width, rfl⟩, same⟩ | ⟨a, b, rfl, limit, heard, echoed, answered⟩
    · exact Or.inl ⟨⟨doc, start, width, rfl⟩, same⟩
    · refine Or.inr ⟨a, b, rfl, fun ts rest waits => ?_⟩
      have inbound : c.inbound = ⟨encodeNumber Opcode.compareVersions.code ++
          (encodeCount ts.length ++ (told ts ++ rest)), c.inbound.ending⟩ :=
        congrArg (Inbound.mk · c.inbound.ending) waits
      rw [inbound] at echoed
      obtain ⟨_, rfl⟩ := Connection.settles_echo _ _ _ _ _ _ echoed
      have leaves := of_compareVersions_range answered
      refine ⟨leaves, ?_⟩
      rw [leaves, ← unheard_eq_nil_iff, ← told_eq_nil_iff]
      exact List.append_left_eq_self

namespace Example

/-- A connection of which the greeting is over. -/
def hearing (bytes : String) : Connection :=
  ⟨Settings.default, ⟨Latin.ascii bytes, .closed⟩, ⟨[], none, none, false⟩, []⟩

/-- A piece whose first address, `1`, is in no document. -/
def homeless : Telling := ⟨.ofDigits [1], .ofDigits [1, 0, 1], .ofDigits [1]⟩

def settled : Telling := ⟨.ofDigits [1, 0, 1], .ofDigits [1, 0, 2], .ofDigits [1]⟩

end Example

/-- The last of two pieces is in no document, and the reply has been read to its end. -/
theorem range_fault_leaves_nothing :
    let ts : List Telling := [Example.settled, Example.homeless]
    let rest := Latin.ascii "16~"
    ∃ logged,
      let after : Connection := ⟨Settings.default, ⟨rest, .closed⟩,
        ⟨Latin.ascii "10~0~0~", none, none, false⟩, logged⟩
      perform (.compareVersions .empty .empty)
          (Example.hearing "10~2~0.1.0.1~0.1.0.2~0.1~0.1~0.1.0.1~0.1~16~") =
        .error (.range (.split (.ofDigits [1]))) after ∧
      after.inbound = ⟨told (unheard ts) ++ rest, .closed⟩ ∧
      (after.inbound.unread = rest ↔ ∀ t ∈ ts.dropLast, t.InDocs) := by
  intro ts rest
  let after : Connection := ⟨Settings.default, ⟨rest, .closed⟩,
    ⟨Latin.ascii "10~0~0~", none, none, false⟩, [.sendingCommand .compareVersions 7]⟩
  have failed : (Call.perform (.compareVersions .empty .empty)).run
      (Example.hearing "10~2~0.1.0.1~0.1.0.2~0.1~0.1~0.1.0.1~0.1~16~") =
        .error (.range (.split (.ofDigits [1]))) after := rfl
  rcases range_fault_leaves failed with ⟨⟨_, _, _, ⟨⟩⟩, _⟩ | ⟨_, _, _, left⟩
  refine ⟨_, failed, left ts rest ?_⟩
  simp only [ts, rest]
  decide

/-- The first of two pieces is in no document. What is left of the reply is taken for the echo when
the session is ended. -/
theorem quit_out_of_step : ∃ logged logged',
    let left := told [Example.settled] ++ Latin.ascii "16~"
    let middle : Connection := ⟨Settings.default, ⟨left, .closed⟩,
      ⟨Latin.ascii "10~0~0~", none, none, false⟩, logged⟩
    perform (.compareVersions .empty .empty)
        (Example.hearing "10~2~0.1~0.1.0.1~0.1~0.1.0.1~0.1.0.2~0.1~16~") =
      .error (.range (.split (.ofDigits [1]))) middle ∧
    quit middle = .error (.protocol (.unreadableEcho .quit "0.1.0.1"))
      ⟨Settings.default, ⟨Latin.ascii "0.1.0.2~0.1~16~", .closed⟩,
        ⟨Latin.ascii "10~0~0~16~", none, none, false⟩, logged'⟩ :=
  ⟨_, _, rfl, rfl⟩

end Session
end Docuverse
