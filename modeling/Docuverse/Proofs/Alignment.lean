import Docuverse.Proofs.Session.Talking

namespace Docuverse.Session

open Wire Wire.Reading
open Request (Yields)

variable {α : Type} {settings : Settings}

/-- A request that can be put, and a reply to it under a limit, with their bytes. -/
structure Turn (limit : Nat) where
  request : Request
  command : Command
  sent : List UInt8
  reply : request.Reply
  spelling : List UInt8
  asks : request.command = .ok command
  encodes : command.encode = .ok sent
  echoed : command.opcode.code.toNat.repr.length ≤ limit
  spelled : request.Spells limit reply spelling

/-- What a request came to. -/
abbrev Result : Type := (request : Request) × Except Fault request.Answer

namespace Turn

variable {limit : Nat}

/-- The echo of the opcode, and the reply. -/
def received (turn : Turn limit) : List UInt8 :=
  encodeNumber turn.command.opcode.code ++ turn.spelling

def result (turn : Turn limit) : Result := ⟨turn.request, turn.request.answer turn.reply⟩

end Turn

/-- Goes on after a fault, and keeps it. -/
def attempt (asked : Conversation α) : Conversation (Except Fault α) := fun c =>
  match asked c with
  | .ok answer after => .ok (.ok answer) after
  | .error fault after => .ok (.error fault) after

/-- Puts requests one after the other, whatever each of them comes to. -/
def performAll : List Request → Conversation (List Result)
  | [] => return []
  | request :: requests => do
    let answer ← attempt (perform request)
    let results ← performAll requests
    return ⟨request, answer⟩ :: results

/-- A session from its beginning, to its end if it is ended. -/
def converse (requests : List Request) (quits : Bool) : Conversation (List Result) := do
  connect
  let results ← performAll requests
  if quits then quit
  return results

namespace Example

def narrow : Settings := { Settings.default with maxChunkLength := 30, maxPreambleLength := 5 }

/-- A text of marks, and no reply. -/
def inserting : Turn narrow.maxChunkLength.toNat where
  request := .insert (.ofDigits [1, 0, 1]) (.ofDigits [1]) ["~?"]
  command :=
    ⟨.insert, [.address (.ofDigits [1, 0, 1]), .address (.ofDigits [1]), .list [.text "~?"]]⟩
  sent := Latin.ascii "0~0.1.0.1~0.1~1~t2~~?"
  reply := ()
  spelling := []
  asks := rfl
  encodes := rfl
  echoed := by decide
  spelled := ⟨by decide, by decide, rfl⟩

end Example

end Docuverse.Session
