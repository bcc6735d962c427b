import Docuverse.Opcode
import Docuverse.Span.Basic
import Docuverse.Text.Bytes
import Docuverse.Text.Quoted

namespace Docuverse

/-- Text or bytes that are not what they should be. -/
inductive Malformation where
  | badDigit (whole : String)
  | digitOverflow (whole : String)
  | exponentOutOfRange (chunk : String)
  | notANumber (chunk : String)
  | numberOutOfRange (chunk : String)
  | contentStart (found : UInt8)
  | specTag (found : UInt8)
  | unexpectedByte (expected : UInt8) (context : String) (found : UInt8)
  | enfiladeType (code : UInt64)
  | nestedDeeper (limit : Nat)
  | dumpMarker (found : UInt8)
  | infoType (code : UInt64)
  | unencodable (c : Char)
  deriving DecidableEq, Repr

namespace Malformation

/-- A byte in single quotes, as the Latin-1 character with its number. -/
def quotedByte (b : UInt8) : String := Quoted.char (Latin.char b)

def message : Malformation → String
  | badDigit whole => s!"bad tumbler digit in {Quoted.text whole}"
  | digitOverflow whole => s!"tumbler digit overflow in {Quoted.text whole}"
  | exponentOutOfRange chunk => s!"tumbler exponent out of range: {Quoted.text chunk}"
  | notANumber chunk => s!"expected number, got {Quoted.text chunk}"
  | numberOutOfRange chunk => s!"number out of range: {Quoted.text chunk}"
  | contentStart found => s!"unexpected byte {quotedByte found} at start of content"
  | specTag found => s!"unexpected specset tag {quotedByte found}"
  | unexpectedByte expected context found =>
    s!"expected {quotedByte expected} in {context}, got {quotedByte found}"
  | enfiladeType code => s!"unknown enfilade type {Decimal.numeral code}"
  | nestedDeeper limit => s!"dump nested deeper than {limit}"
  | dumpMarker found => s!"unexpected dump marker {quotedByte found}"
  | infoType code => s!"unknown info type {Decimal.numeral code}"
  | unencodable c => s!"character {Quoted.char c} is not representable on the wire"

end Malformation

/-- Address arithmetic outside its domain, with the operands. -/
inductive RangeFault where
  | add (left right : Tumbler)
  | sub (left right : Tumbler)
  | localize (value : Tumbler) (doc : Address)
  | split (address : Address)
  | intersect (left right : Span)
  deriving DecidableEq, Repr

def RangeFault.message : RangeFault → String
  | add left right => s!"add: {left.dotted} vs {right.dotted}"
  | sub left right => s!"sub: {left.dotted} vs {right.dotted}"
  | localize value doc => s!"localize: {value.dotted} vs {doc.dotted}"
  | split address => s!"split: {address.dotted} vs no zero separator"
  | intersect left right => s!"intersect: {left.display} vs {right.display}"

/-- Why a conversation does not begin. -/
inductive HandshakeFailure where
  | noNewline (limit : Nat)
  | closed
  | foreign (got : List UInt8)
  deriving DecidableEq, Repr

def HandshakeFailure.message : HandshakeFailure → String
  | noNewline limit => s!"no newline within {limit} bytes"
  | closed => "backend closed the stream during handshake"
  | foreign got => s!"backend does not speak 88.1 (got {Quoted.text (Lossy.text got)})"

/-- A back end that does not keep to the conversation. -/
inductive Violation where
  | handshake (why : HandshakeFailure)
  | opcodeMismatch (sent : Opcode) (received : String)
  | unreadableEcho (sent : Opcode) (chunk : String)
  | chunkTooLong (limit : Nat) (context : String)
  | rejected (context : String)
  | closed (context : String)
  deriving DecidableEq, Repr

def Violation.message : Violation → String
  | handshake why => s!"handshake failed: {why.message}"
  | opcodeMismatch sent received =>
    s!"opcode {Decimal.numeral sent.code}: backend answered with opcode {received}"
  | unreadableEcho sent chunk =>
    s!"opcode {Decimal.numeral sent.code}: unreadable response (echo {Quoted.text chunk})"
  | chunkTooLong limit context => s!"chunk longer than {limit} bytes while reading {context}"
  | rejected context => s!"backend rejected request while reading {context}"
  | closed context => s!"stream closed while reading {context}"

/-- What can go wrong, by cause. -/
inductive Fault where
  | io (reason : String)
  | malformed (what : Malformation)
  | range (clash : RangeFault)
  | protocol (violation : Violation)
  deriving DecidableEq, Repr

namespace Fault

def message : Fault → String
  | io reason => s!"I/O error: {reason}"
  | malformed what => s!"Malformed input: {what.message}"
  | range clash => s!"Address range error in {clash.message}"
  | protocol violation => s!"Protocol error: {violation.message}"

def isProtocol : Fault → Bool
  | protocol _ => true
  | _ => false

/-- Whether the back end refused the request in so many words. -/
def isRejection : Fault → Bool
  | protocol (.rejected _) => true
  | _ => false

end Fault
end Docuverse
