import Docuverse.Proofs.Session.Sending
import Docuverse.Proofs.Wire.PrefixFree

namespace Docuverse

open Wire

/-- The shapes of the arguments that a request with this opcode carries. -/
def Opcode.schema : Opcode → List Shape
  | createDocument | quit | dumpState => []
  | createVersion | closeDocument | retrieveVSpanSet | retrieveVSpan | account | createNode =>
    [.address]
  | openDocument => [.address, .number, .number]
  | insert => [.address, .address, .list .text]
  | vcopy => [.address, .address, .specSet]
  | rearrange => [.address, .list .address]
  | remove => [.address, .span]
  | retrieveContents | retrieveEndsets | findDocuments => [.specSet]
  | compareVersions => [.specSet, .specSet]
  | createLink => [.address, .specSet, .specSet, .specSet]
  | findLinks => [.specSet, .specSet, .specSet, .list .address]
  | followLink => [.number, .address]

theorem Opcode.code_inj {op op' : Opcode} (same : op.code = op'.code) : op = op' := by
  have found := ofCode?_code op
  rw [same, ofCode?_code op'] at found
  exact (Option.some.inj found).symm

namespace Wire.Command

variable {command command' : Command} {commands commands' : List Command}
  {front front' rest rest' : List UInt8} {parts parts' : List (List UInt8)}

/-- The arguments are those that the opcode calls for. -/
def Fits (command : Command) : Prop :=
  List.Forall₂ Shape.Admits command.opcode.schema command.arguments

theorem encode_ne_nil (encodes : command.encode = .ok front) : front ≠ [] := by
  obtain ⟨body, _, rfl⟩ := encode_eq_ok.mp encodes
  simp [encodeNumber, encodeCount]

/-- In front of any bytes a command is told by its own, and so is where they end. -/
theorem tells (fits : command.Fits) (fits' : command'.Fits) (encodes : command.encode = .ok front)
    (encodes' : command'.encode = .ok front') (same : front ++ rest = front' ++ rest') :
    command = command' ∧ rest = rest' := by
  obtain ⟨opcode, arguments⟩ := command
  obtain ⟨opcode', arguments'⟩ := command'
  obtain ⟨body, written, rfl⟩ := encode_eq_ok.mp encodes
  obtain ⟨body', written', rfl⟩ := encode_eq_ok.mp encodes'
  rw [List.append_assoc, List.append_assoc] at same
  obtain ⟨codes, later⟩ := prefixFree_number same
  obtain rfl := Opcode.code_inj codes
  obtain ⟨rfl, rests⟩ :=
    Shape.tells_all (fun shape _ => shape.tells) fits fits' written written' later
  exact ⟨rfl, rests⟩

/-- Commands in a row are told by their bytes in a row. No command is without bytes, so a row that is
over is told from one that goes on. -/
theorem eq_of_flatten (fits : ∀ command ∈ commands, command.Fits)
    (fits' : ∀ command ∈ commands', command.Fits) (encodes : commands.mapM encode = .ok parts)
    (encodes' : commands'.mapM encode = .ok parts') (same : parts.flatten = parts'.flatten) :
    commands = commands' := by
  induction commands generalizing commands' parts parts' with
  | nil =>
    cases encodes
    cases commands' with
    | nil => rfl
    | cons command' commands' =>
      obtain ⟨part', parts', first', _, rfl⟩ := mapM_cons_eq_ok.mp encodes'
      exact absurd (List.append_eq_nil_iff.mp same.symm).1 (encode_ne_nil first')
  | cons command commands ih =>
    obtain ⟨part, parts, first, others, rfl⟩ := mapM_cons_eq_ok.mp encodes
    cases commands' with
    | nil =>
      cases encodes'
      exact absurd (List.append_eq_nil_iff.mp same).1 (encode_ne_nil first)
    | cons command' commands' =>
      obtain ⟨part', parts', first', others', rfl⟩ := mapM_cons_eq_ok.mp encodes'
      obtain ⟨fitsFirst, fitsOthers⟩ := List.forall_mem_cons.mp fits
      obtain ⟨fitsFirst', fitsOthers'⟩ := List.forall_mem_cons.mp fits'
      obtain ⟨rfl, later⟩ := tells fitsFirst fitsFirst' first first' same
      rw [ih fitsOthers fitsOthers' others others' later]

end Wire.Command

namespace Request

theorem fits_rearrange (doc : Address) (cuts : List Address) : (rearrange doc cuts).Fits := by
  simp [Command.Fits, rearrange, Opcode.schema, Shape.Admits]

/-- A request has the arguments that its opcode calls for. -/
theorem fits_of_command {request : Request} {command : Command}
    (asks : request.command = .ok command) : command.Fits := by
  cases request with
  | delete doc start width =>
    obtain ⟨stop, _, told⟩ := Docuverse.bind_eq_ok.mp asks
    cases told
    exact fits_rearrange doc [start, stop]
  | pivot doc start middle stop => cases asks; exact fits_rearrange _ _
  | swap doc a b c d => cases asks; exact fits_rearrange _ _
  | _ => cases asks; simp [Command.Fits, Opcode.schema, Shape.Admits]

end Request

namespace Session

variable {requests requests' : List Request} {quits quits' : Bool} {bytes : List UInt8}

/-- The commands of a run of requests, with the one that ends the session if it is to be ended. -/
def commandsOf (requests : List Request) (quits : Bool) : Except Fault (List Command) := do
  return (← requests.mapM Request.command) ++ if quits then [⟨.quit, []⟩] else []

/-- Their bytes, one after the other. -/
def bytesOf (requests : List Request) (quits : Bool) : Except Fault (List UInt8) := do
  return (← (← commandsOf requests quits).mapM Command.encode).flatten

/-- Puts the requests, and ends the session if it is to be ended. -/
def puts (requests : List Request) (quits : Bool) : Conversation (List Result) := do
  let results ← performAll requests
  if quits then quit
  return results

theorem bytesOf_eq_ok : bytesOf requests quits = .ok bytes ↔ ∃ commands parts,
    commandsOf requests quits = .ok commands ∧ commands.mapM Command.encode = .ok parts ∧
      bytes = parts.flatten := by
  rw [bytesOf, Docuverse.bind_eq_ok]
  simp only [Docuverse.bind_eq_ok, pure, Except.pure, Except.ok.injEq, exists_and_left]
  simp only [eq_comm]

theorem fits_of_commandsOf {commands : List Command}
    (asks : commandsOf requests quits = .ok commands) : ∀ command ∈ commands, command.Fits := by
  obtain ⟨asked, found, told⟩ := Docuverse.bind_eq_ok.mp asks
  cases told
  intro command member
  rcases List.mem_append.mp member with inside | last
  · obtain ⟨request, _, asks⟩ := exists_of_mem_of_mapM found command inside
    exact Request.fits_of_command asks
  · cases quits with
    | false => cases last
    | true =>
      rw [List.mem_singleton.mp last]
      exact List.Forall₂.nil

/-- What is sent is the bytes of the commands, whatever is answered. -/
theorem sends_puts (encodes : bytesOf requests quits = .ok bytes) :
    Sends (puts requests quits) bytes := by
  obtain ⟨commands, parts, asks, encodesAll, rfl⟩ := bytesOf_eq_ok.mp encodes
  obtain ⟨asked, found, told⟩ := Docuverse.bind_eq_ok.mp asks
  cases told
  obtain ⟨earlier, later, encodesAsked, encodesLast, rfl⟩ := mapM_append_eq_ok.mp encodesAll
  have asking := sends_performAll found encodesAsked
  cases quits with
  | false =>
    obtain rfl : later = [] := (Except.ok.inj encodesLast).symm
    rw [List.append_nil]
    exact asking.bind_silent sends_pure
  | true =>
    obtain ⟨last, others, encodesQuit, noOthers, rfl⟩ := mapM_cons_eq_ok.mp encodesLast
    obtain rfl : others = [] := (Except.ok.inj noOthers).symm
    rw [List.flatten_append, List.flatten_singleton]
    refine asking.bind (succeeds_performAll requests) fun results => ?_
    exact (sends_quit encodesQuit).bind_silent fun _ => sends_pure results

/-- Two runs of requests that have the same bytes ask the same commands, opcode by opcode and
argument by argument, and these bytes are what a session sends, whatever it is answered. -/
theorem commands_of_bytes (encodes : bytesOf requests quits = .ok bytes)
    (encodes' : bytesOf requests' quits' = .ok bytes) :
    (∃ commands, commandsOf requests quits = .ok commands ∧
      commandsOf requests' quits' = .ok commands) ∧
    Sends (puts requests quits) bytes ∧ Sends (puts requests' quits') bytes := by
  obtain ⟨commands, parts, asks, encodesAll, flat⟩ := bytesOf_eq_ok.mp encodes
  obtain ⟨commands', parts', asks', encodesAll', flat'⟩ := bytesOf_eq_ok.mp encodes'
  have same : commands = commands' :=
    Command.eq_of_flatten (fits_of_commandsOf asks) (fits_of_commandsOf asks') encodesAll
      encodesAll' (flat.symm.trans flat')
  exact ⟨⟨commands, asks, same ▸ asks'⟩, sends_puts encodes, sends_puts encodes'⟩

/-- The first text looks like the command that ends the session, the second like an empty list. What
is deleted has no width, which two offsets say that are not the same. -/
theorem commands_of_bytes_deleting :
    let inserting : Request := .insert (.ofDigits [1]) (.ofDigits [1, 1]) ["\n16~?", "0~é"]
    let deleting (width : Offset) : Request := .delete (.ofDigits [1]) (.ofDigits [2]) width
    let bytes := Latin.ascii "0~0.1~0.1.1~2~t5~\n16~?t3~0~" ++
      233 :: Latin.ascii "3~0.1~2~0.2~0.2~16~"
    bytesOf [inserting, deleting (.ofDigits [])] true = .ok bytes ∧
      bytesOf [inserting, deleting (.ofDigits [0, 0])] true = .ok bytes ∧
      ∃ commands, commandsOf [inserting, deleting (.ofDigits [])] true = .ok commands ∧
        commandsOf [inserting, deleting (.ofDigits [0, 0])] true = .ok commands := by
  intro inserting deleting bytes
  have encodes : bytesOf [inserting, deleting (.ofDigits [])] true = .ok bytes := rfl
  have encodes' : bytesOf [inserting, deleting (.ofDigits [0, 0])] true = .ok bytes := rfl
  exact ⟨encodes, encodes', (commands_of_bytes encodes encodes').1⟩

end Session
end Docuverse
