import Docuverse.Fault
import Docuverse.Opcode
import Docuverse.SpecSet.Basic
import Docuverse.Tumbler.Forms

namespace Docuverse.Wire

/-- Ends a number or a tumbler. -/
def terminator : UInt8 := '~'.toUInt8

/-- Is read like the terminator. -/
def newline : UInt8 := '\n'.toUInt8

/-- Says, wherever a chunk is awaited, that the back end refuses the request. -/
def refusal : UInt8 := '?'.toUInt8

/-- Opens a text. -/
def textTag : UInt8 := 't'.toUInt8

/-- Opens a span of a spec set. -/
def spanTag : UInt8 := 's'.toUInt8

/-- Opens a vspec of a spec set. -/
def vspecTag : UInt8 := 'v'.toUInt8

/-- What a request can carry. -/
inductive Value where
  | number (n : UInt64)
  | text (text : String)
  | list (items : List Value)
  | address (address : Address)
  | offset (offset : Offset)
  | span (span : Span)
  | vspec (vspec : VSpec)
  | specSet (set : SpecSet)
  deriving Repr

def encodeCount (n : Nat) : List UInt8 := Latin.ascii n.repr ++ [terminator]

def encodeNumber (n : UInt64) : List UInt8 := encodeCount n.toNat

def encodeTumbler (t : Tumbler) : List UInt8 := Latin.ascii t.exponentForm ++ [terminator]

def encodeSpan (s : Span) : List UInt8 :=
  encodeTumbler s.start.tumbler ++ encodeTumbler s.width.tumbler

def encodeVSpec (v : VSpec) : List UInt8 :=
  encodeTumbler v.doc.tumbler ++ encodeCount v.spans.length ++ v.spans.flatMap encodeSpan

def encodeSpecItem : SpecItem → List UInt8
  | .span s => spanTag :: encodeSpan s
  | .vspec v => vspecTag :: encodeVSpec v

def encodeSpecSet (set : SpecSet) : List UInt8 :=
  encodeCount set.size ++ set.items.flatMap encodeSpecItem

def encodeChar (c : Char) : Except Fault UInt8 :=
  match Latin.byte? c with
  | some b => .ok b
  | none => .error (.malformed (.unencodable c))

/-- A text is written as its length and its bytes, whatever these are. -/
def encodeText (text : String) : Except Fault (List UInt8) := do
  let bytes ← text.toList.mapM encodeChar
  return textTag :: (encodeCount bytes.length ++ bytes)

mutual

/-- The bytes of a value. What has parts is written as their number and then the parts. Only a
character without a byte stands in the way. -/
def Value.encode : Value → Except Fault (List UInt8)
  | .number n => .ok (encodeNumber n)
  | .text text => encodeText text
  | .list items => do return encodeCount items.length ++ (← encodeAll items)
  | .address a => .ok (encodeTumbler a.tumbler)
  | .offset o => .ok (encodeTumbler o.tumbler)
  | .span s => .ok (encodeSpan s)
  | .vspec v => .ok (encodeVSpec v)
  | .specSet set => .ok (encodeSpecSet set)

/-- The bytes of values, one after the other. -/
def encodeAll : List Value → Except Fault (List UInt8)
  | [] => .ok []
  | value :: values => do return (← value.encode) ++ (← encodeAll values)

end

structure Command where
  opcode : Opcode
  arguments : List Value
  deriving Repr

/-- The bytes of a command, all or none of them. -/
def Command.encode (command : Command) : Except Fault (List UInt8) := do
  return encodeNumber command.opcode.code ++ (← encodeAll command.arguments)

end Docuverse.Wire
