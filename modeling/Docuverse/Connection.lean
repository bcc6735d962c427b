import Docuverse.Choices
import Docuverse.Settings
import Docuverse.Wire.Reading
import Docuverse.Wire.Value

namespace Docuverse

/-- What is worth a line in a log. -/
inductive Event where
  | handshakeComplete (discarded : Nat)
  | sendingCommand (opcode : Opcode) (length : Nat)
  | sentBytes (bytes : List UInt8)
  | followRejected (link : Address) (which : LinkEnd)
  | sessionClosed
  deriving DecidableEq, Repr

def Event.line : Event → String
  | handshakeComplete discarded => s!"DEBUG handshake complete | discarded={discarded}"
  | sendingCommand opcode length =>
    s!"DEBUG sending command | opcode={Decimal.numeral opcode.code} name={opcode.name} len={length}"
  | sentBytes bytes => s!"TRACE outbound | bytes={Lossy.text bytes}"
  | followRejected link which =>
    s!"WARN backend rejected follow_link | link={link.dotted} end={which.name}"
  | sessionClosed => "DEBUG session closed |"

/-- A way that breaks: how many bytes it still takes before that, and why it breaks. -/
structure Breaking where
  room : Nat
  reason : String
  deriving DecidableEq, Repr

/-- The way to the back end: what it has taken, whether it is going to break, whether it can be
closed and whether it has been. -/
structure Outbound where
  sent : List UInt8
  breaking : Option Breaking
  closeFailure : Option String
  isClosed : Bool
  deriving DecidableEq, Repr

structure Connection where
  settings : Settings
  inbound : Wire.Inbound
  outbound : Outbound
  events : List Event
  deriving DecidableEq, Repr

/-- Something done on a connection, which may fail and still have changed it. -/
abbrev Conversation (α : Type) : Type := EStateM Fault Connection α

namespace Connection

def log (event : Event) : Conversation Unit :=
  modify fun c => { c with events := c.events ++ [event] }

/-- Puts a reading to the bytes that come from the back end. -/
def read {α : Type} (reading : Wire.Reading α) : Conversation α := fun c =>
  match reading c.settings.maxChunkLength.toNat c.inbound with
  | .ok value rest => .ok value { c with inbound := rest }
  | .error fault rest => .error fault { c with inbound := rest }

/-- Sends bytes, up to the point where the way breaks. -/
def send (bytes : List UInt8) : Conversation Unit := fun c =>
  match c.outbound.breaking with
  | none => .ok () { c with outbound.sent := c.outbound.sent ++ bytes }
  | some ⟨room, reason⟩ =>
    let after : Connection := { c with
      outbound.sent := c.outbound.sent ++ bytes.take room
      outbound.breaking := some ⟨room - bytes.length, reason⟩ }
    if bytes.length ≤ room then .ok () after else .error (.io reason) after

def close : Conversation Unit := fun c =>
  match c.outbound.closeFailure with
  | none => .ok () { c with outbound.isClosed := true }
  | some reason => .error (.io reason) c

/-- The name of the protocol. -/
def protocolTag : List UInt8 := Latin.ascii "P0"

/-- What opens a conversation. -/
def greeting : List UInt8 := Wire.newline :: protocolTag ++ [Wire.terminator]

/-- Skips what comes before the first newline and counts it, after `before` bytes are gone. -/
def preambleFrom (limit : Nat) (ending : Wire.Ending) (before : Nat) :
    List UInt8 → Wire.Outcome Nat
  | [] => .error (ending.fault "handshake") ⟨[], ending⟩
  | b :: rest =>
    if b = Wire.newline then .ok before ⟨rest, ending⟩
    else if limit ≤ before then .error (.protocol (.handshake (.noNewline limit))) ⟨rest, ending⟩
    else preambleFrom limit ending (before + 1) rest

def preamble (limit : Nat) : Wire.Reading Nat := fun _ inbound =>
  preambleFrom limit inbound.ending 0 inbound.unread

/-- The three bytes after the newline, which name the protocol and end there. -/
def protocolName : Wire.Reading Unit := do
  let got := [← Wire.Reading.byte "handshake", ← Wire.Reading.byte "handshake",
    ← Wire.Reading.byte "handshake"]
  if got ≠ protocolTag ++ [Wire.terminator] ∧ got ≠ protocolTag ++ [Wire.newline] then
    throw (.protocol (.handshake (.foreign got)))

/-- Where nothing has been agreed on yet, a stream that ends has refused the conversation. -/
def beforeAgreement {α : Type} (reading : Wire.Reading α) : Wire.Reading α := fun limit inbound =>
  match reading limit inbound with
  | .error (.protocol (.closed _)) rest => .error (.protocol (.handshake .closed)) rest
  | outcome => outcome

/-- The answer to the greeting: anything at all, a newline and the name of the protocol. It gives
the number of bytes before the newline. -/
def greetingAnswer (limit : Nat) : Wire.Reading Nat := beforeAgreement do
  let discarded ← preamble limit
  protocolName
  return discarded

def handshake : Conversation Unit := do
  send greeting
  let discarded ← read (greetingAnswer (← get).settings.maxPreambleLength.toNat)
  log (.handshakeComplete discarded)

/-- The back end begins each reply with the opcode of the request. -/
def echo (opcode : Opcode) : Wire.Reading Unit := do
  let chunk ← Wire.Reading.chunk s!"response to opcode {Decimal.numeral opcode.code}"
  match Wire.ofNumeral chunk with
  | .ok code =>
    if code ≠ opcode.code then throw (.protocol (.opcodeMismatch opcode chunk))
  | .error _ => throw (.protocol (.unreadableEcho opcode chunk))

/-- Sends a request, of which nothing is sent if it cannot be encoded, and awaits its echo. -/
def command (command : Wire.Command) : Conversation Unit := do
  let bytes ← ofExcept command.encode
  log (.sendingCommand command.opcode bytes.length)
  if (← get).settings.traceWire then log (.sentBytes bytes)
  send bytes
  read (echo command.opcode)

end Connection
end Docuverse
