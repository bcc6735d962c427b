import Docuverse.Json.Reading
import Docuverse.Json.Writing

namespace Docuverse

structure Settings where
  /-- The longest chunk that is read. -/
  maxChunkLength : UInt64
  /-- The most bytes that may come before the handshake. -/
  maxPreambleLength : UInt64
  /-- Whether the bytes of requests are logged. -/
  traceWire : Bool
  /-- How many bytes are taken from the stream at once. -/
  readBuffer : UInt64
  deriving DecidableEq, Repr

namespace Settings

def default : Settings where
  maxChunkLength := 1024 * 1024
  maxPreambleLength := 64 * 1024
  traceWire := false
  readBuffer := 8 * 1024

instance : Inhabited Settings := ⟨default⟩

def toJson (s : Settings) : Json :=
  .record [("max_chunk_len", .ofUInt64 s.maxChunkLength),
    ("max_preamble_len", .ofUInt64 s.maxPreambleLength), ("trace_wire", .bool s.traceWire),
    ("read_buffer", .ofUInt64 s.readBuffer)]

/-- A value where one is given, and the default where none is. -/
def fieldOr {α : Type} (usual : α) (read? : Json → Option α) : Option Json → Option α
  | none => some usual
  | some json => read? json

/-- Fields that are not given keep their defaults. -/
def ofJson? (json : Json) : Option Settings := do
  match ← json.fields? ["max_chunk_len", "max_preamble_len", "trace_wire", "read_buffer"] with
  | [chunk, preamble, trace, buffer] =>
    return {
      maxChunkLength := ← fieldOr default.maxChunkLength Json.uint64? chunk
      maxPreambleLength := ← fieldOr default.maxPreambleLength Json.uint64? preamble
      traceWire := ← fieldOr default.traceWire Json.bool? trace
      readBuffer := ← fieldOr default.readBuffer Json.uint64? buffer }
  | _ => none

/-- The settings that a text gives. -/
def parse? (text : String) : Option Settings := do ofJson? (← Json.read? text)

end Settings
end Docuverse
