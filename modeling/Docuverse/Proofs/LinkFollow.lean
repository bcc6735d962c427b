import Docuverse.Proofs.Session.Talking
import Docuverse.Proofs.Wire.Refusal

namespace Docuverse.Session

open Wire Wire.Reading
open Request (Yields)

/-- What is sent to follow a link. -/
def linkRequest (link : Address) (which : LinkEnd) : List UInt8 :=
  encodeNumber Opcode.followLink.code ++ (encodeNumber which.code ++ encodeTumbler link.tumbler)

/-- The answer to it: the echo, and what the link has at that end. -/
def linkAnswer (set : SpecSet) : List Piece :=
  .number Opcode.followLink.code.toNat :: specSetPieces set

section Following

variable {α β : Type} {settings : Settings} {set : SpecSet} {link : Address} {which : LinkEnd}
  {front : List UInt8} {piece : Piece}

theorem heeds_echo {opcode : Opcode} {limit : Nat} :
    Heeds (Connection.echo opcode) limit [.number opcode.code.toNat] () := by
  have short (passable : Passable limit [.number opcode.code.toNat]) :
      opcode.code.toNat.repr.length ≤ limit := (passable _ List.mem_cons_self).2.2
  refine heeds_chunk_bind (fun context => ⟨context, rfl⟩)
    (fun passable => accepts_chunk_numeral (short passable)) ?_
  refine conveys_of_accepts (by simp [Legible, Piece.IsLegible]) fun passable => ?_
  rw [written_singleton]
  exact echo_yields (short passable)

theorem yields_of_stops {reading : Reading α} {limit : Nat}
    (stops : reading.Stops limit front piece) :
    ∃ fault, piece.Meets fault ∧ Yields reading limit (front ++ [refusal]) (.error fault) := by
  obtain ⟨fault, meets, stopped⟩ := stops
  refine ⟨fault, meets, fun rest ending => ?_⟩
  rw [List.append_assoc]
  exact stopped rest ending

/-- After a fault nothing more is done. -/
theorem Talks.bind_error {asked : Conversation α} {sent received : List UInt8} {fault : Fault}
    (failed : Talks settings asked sent received (.error fault)) (next : α → Conversation β) :
    Talks settings (asked >>= next) sent received (.error fault) := by
  intro rest ending outbound events unbroken
  obtain ⟨logged, found⟩ := failed rest ending outbound events unbroken
  refine ⟨logged, ?_⟩
  show EStateM.bind asked next _ = _
  rw [EStateM.bind, found]
  rfl

theorem encode_linkRequest (link : Address) (which : LinkEnd) :
    Command.encode ⟨.followLink, [.number which.code, .address link]⟩ =
      .ok (linkRequest link which) := by
  rw [linkRequest, ← List.append_nil (encodeTumbler link.tumbler)]
  rfl

/-- Where the answer breaks off with a refusal, the exchange comes to the fault that the piece there
meets with. -/
theorem talks_exchange_refused (passable : Passable settings.maxChunkLength.toNat (linkAnswer set))
    (legible : Legible (linkAnswer set)) (cut : Cuts (linkAnswer set) front piece) :
    ∃ fault, piece.Meets fault ∧ Talks settings (exchange (.followLink link which))
      (linkRequest link which) (front ++ [refusal]) (.error fault) := by
  have encodes := encode_linkRequest link which
  obtain ⟨echoFits, others⟩ := List.forall_mem_cons.mp passable
  obtain ⟨_, setLegible⟩ := List.forall_mem_cons.mp legible
  cases cut with
  | here inner short =>
    have echoPassable : Passable settings.maxChunkLength.toNat
        [.number Opcode.followLink.code.toNat] := List.forall_mem_singleton.mpr echoFits
    have stops := (heeds_echo echoPassable (List.forall_mem_singleton.mpr trivial)).2
    obtain ⟨fault, meets, refused⟩ := yields_of_stops (stops front _ (.here inner short))
    refine ⟨fault, meets, ?_⟩
    exact (talks_command_of_echo encodes refused).bind_error _
  | @later _ _ _ part cut =>
    have heeds := (heeds_specSet set).map LinkFollow.found others setLegible
    obtain ⟨fault, meets, refused⟩ := yields_of_stops (heeds.2 part piece cut)
    refine ⟨fault, meets, ?_⟩
    have replied : Talks settings
        (do Connection.command ⟨.followLink, [.number which.code, .address link]⟩
            Connection.read (Request.reply (.followLink link which)))
        (linkRequest link which ++ [])
        (encodeNumber Opcode.followLink.code ++ (part ++ [refusal])) (.error fault) :=
      (talks_command encodes echoFits.2.2).bind (talks_read refused)
    rw [List.append_nil, ← List.append_assoc] at replied
    exact replied

theorem emptyIfRejected_of_error {asked : Conversation LinkFollow} {c after : Connection}
    {fault : Fault} (failed : asked c = .error fault after) :
    emptyIfRejected link which asked c =
      if fault.isRejection then
        .ok .empty { after with events := after.events ++ [.followRejected link which] }
      else .error fault after := by
  rw [emptyIfRejected, failed]
  rfl

/-- A refusal is the answer that there is nothing to follow, and every other fault is a fault. -/
theorem talks_perform_followLink {fault : Fault} {sent received : List UInt8}
    (failed : Talks settings (exchange (.followLink link which)) sent received (.error fault)) :
    Talks settings (perform (.followLink link which)) sent received
      (if fault.isRejection then .ok .empty else .error fault) := by
  intro rest ending outbound events unbroken
  obtain ⟨logged, found⟩ := failed rest ending outbound events unbroken
  rw [perform, emptyIfRejected_of_error found]
  split
  · exact ⟨logged ++ [.followRejected link which], rfl⟩
  · exact ⟨logged, rfl⟩

/-- Let the answer be no longer in any part than the limit, and break off anywhere with a refusal.
There is then nothing to follow, unless the tag of an item is due; what follows the refusal is left
in any case. -/
theorem followLink_refused (passable : Passable settings.maxChunkLength.toNat (linkAnswer set))
    (legible : Legible (linkAnswer set)) (proper : front <+: written (linkAnswer set))
    (unequal : front ≠ written (linkAnswer set)) :
    (¬ AwaitsTag (linkAnswer set) front →
      Talks settings (perform (.followLink link which)) (linkRequest link which)
        (front ++ [refusal]) (.ok .empty)) ∧
    (AwaitsTag (linkAnswer set) front →
      Talks settings (perform (.followLink link which)) (linkRequest link which)
        (front ++ [refusal]) (.error (.malformed (.specTag refusal)))) := by
  refine ⟨fun untagged => ?_, fun tagged => ?_⟩
  · obtain ⟨piece, cut⟩ := exists_cuts proper unequal
    obtain ⟨fault, meets, failed⟩ := talks_exchange_refused passable legible cut
    have rejected : fault.isRejection = true := by
      cases piece with
      | tag b => exact absurd ⟨b, cut⟩ untagged
      | number n => obtain ⟨context, rfl⟩ := meets; rfl
      | tumbler t => obtain ⟨context, rfl⟩ := meets; rfl
      | text s => obtain ⟨context, rfl⟩ := meets; rfl
    have talks := talks_perform_followLink failed
    rwa [if_pos rejected] at talks
  · obtain ⟨b, cut⟩ := tagged
    obtain ⟨fault, rfl, failed⟩ := talks_exchange_refused passable legible cut
    exact talks_perform_followLink failed

end Following

namespace Example

def scarce : Settings := { Settings.default with maxChunkLength := 5 }

def comment : Address := .ofDigits [1, 1, 0, 1, 0, 2, 1]

/-- One span, from `1.2` on with the width `0.3`. -/
def commented : SpecSet := ⟨[.span ⟨.ofDigits [1, 2], .ofDigits [0, 3]⟩]⟩

end Example

/-- The answer breaks off inside the start of the span. -/
theorem followLink_refused_inside :
    written (linkAnswer Example.commented) = Latin.ascii "18~1~s0.1" ++ Latin.ascii ".2~1.3~" ∧
      Talks Example.scarce (perform (.followLink Example.comment .source))
        (linkRequest Example.comment .source) (Latin.ascii "18~1~s0.1?") (.ok .empty) := by
  have whole : written (linkAnswer Example.commented) =
      Latin.ascii "18~1~s0.1" ++ Latin.ascii ".2~1.3~" := by
    decide
  have passable : Passable Example.scarce.maxChunkLength.toNat (linkAnswer Example.commented) := by
    decide
  have legible : Legible (linkAnswer Example.commented) := by decide
  have unequal : Latin.ascii "18~1~s0.1" ≠ written (linkAnswer Example.commented) := by decide
  have cut : Cuts (linkAnswer Example.commented)
      (Piece.bytes (.number 18) ++ (Piece.bytes (.number 1) ++ (Piece.bytes (.tag spanTag) ++
        Latin.ascii "0.1"))) (.tumbler ⟨[1, 2]⟩) :=
    .later (.later (.later (.here (by decide) (by decide))))
  have inside : ¬ AwaitsTag (linkAnswer Example.commented) (Latin.ascii "18~1~s0.1") := by
    rintro ⟨b, other⟩
    cases cut.unique other
  exact ⟨whole, (followLink_refused passable legible ⟨_, whole.symm⟩ unequal).1 inside⟩

/-- The answer breaks off where the tag of the span is due. -/
theorem followLink_malformed_at_tag :
    written (linkAnswer Example.commented) = Latin.ascii "18~1~" ++ Latin.ascii "s0.1.2~1.3~" ∧
      ∃ logged, perform (.followLink Example.comment .source)
          ⟨Settings.default, ⟨Latin.ascii "18~1~?16~", .closed⟩, ⟨[], none, none, false⟩, []⟩ =
        .error (.malformed (.specTag refusal))
          ⟨Settings.default, ⟨Latin.ascii "16~", .closed⟩,
            ⟨Latin.ascii "18~1~0.1.1.0.1.0.2.1~", none, none, false⟩, logged⟩ :=
  ⟨by decide, _, rfl⟩

end Docuverse.Session
