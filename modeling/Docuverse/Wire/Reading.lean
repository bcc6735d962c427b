import Docuverse.Wire.Inbound

namespace Docuverse.Wire

/-- The number that a chunk names. -/
def ofNumeral (chunk : String) : Except Fault UInt64 :=
  match Decimal.read chunk.toList with
  | .ok n => .ok n
  | .error .notDigits => .error (.malformed (.notANumber chunk))
  | .error .tooLarge => .error (.malformed (.numberOutOfRange chunk))

/-- A piece of a document: its own text, or a link that it holds. -/
inductive Content where
  | text (text : String)
  | link (link : Address)
  deriving DecidableEq, Repr

namespace Reading

def number : Reading UInt64 := do ofExcept (ofNumeral (← chunk "number"))

/-- The number of items that follow. -/
def count : Reading Nat := UInt64.toNat <$> number

def textBody (context : String) : Reading String := do
  let length ← count
  return Latin.text (← raw length context)

def text : Reading String := do
  expect textTag "text"
  textBody "text"

def tumbler : Reading Tumbler := do ofExcept (Tumbler.ofExponentForm (← chunk "tumbler"))

def address : Reading Address := Address.mk <$> tumbler

def offset : Reading Offset := Offset.mk <$> tumbler

/-- The first byte tells a text from a link, which begins with a digit. -/
def content : Reading Content := do
  let first ← peek "content"
  if first = textTag then return .text (← text)
  else if (Latin.char first).isDigit then return .link (← address)
  else throw (.malformed (.contentStart first))

def span : Reading Span := do
  let start ← address
  let width ← offset
  return ⟨start, width⟩

def vspec : Reading VSpec := do
  let doc ← address
  let n ← count
  return .ofSpans doc (← items n span)

def specItem : Reading SpecItem := do
  let tag ← byte "specset tag"
  if tag = spanTag then return .span (← span)
  else if tag = vspecTag then return .vspec (← vspec)
  else throw (.malformed (.specTag tag))

/-- A count and that many items. -/
def counted {α : Type} (item : Reading α) : Reading (List α) := do
  let n ← count
  items n item

def specSet : Reading SpecSet := SpecSet.mk <$> counted specItem

def addresses : Reading (List Address) := counted address

end Reading
end Docuverse.Wire
