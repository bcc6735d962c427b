import Docuverse.Fault

namespace Docuverse

namespace Tumbler

/-- One digit of the text `whole`; a fault names the whole. -/
def readDigit (whole : String) (field : List Char) : Except Fault UInt64 :=
  match Decimal.read field with
  | .ok digit => .ok digit
  | .error .notDigits => .error (.malformed (.badDigit whole))
  | .error .tooLarge => .error (.malformed (.digitOverflow whole))

/-- The tumbler with a dotted form. Zeros in front of a digit are accepted, and the empty text is
the tumbler without digits. -/
def ofDotted (text : String) : Except Fault Tumbler :=
  if text.isEmpty then .ok empty
  else do
    let (first, others) := Fields.separated '.' text.toList
    return ⟨← (first :: others).mapM (readDigit text)⟩

/-- The largest exponent that is read. -/
def maxExponent : Nat := 4096

/-- How many leading zeros are counted: all of them, but for a last digit that is itself a zero. -/
def exponent (t : Tumbler) : Nat :=
  min (t.digits.takeWhile (· == 0)).length (t.digits.length - 1)

/-- The form between programs: leading zeros are counted, in a field in front, and not written. -/
def exponentForm (t : Tumbler) : String :=
  String.ofList (Fields.joined '.'
    (Nat.toDigits 10 t.exponent :: digitTexts (t.digits.drop t.exponent)))

/-- The tumbler that a text in exponent form names. Empty fields after the exponent are passed
over. -/
def ofExponentForm (text : String) : Except Fault Tumbler := do
  let (first, others) := Fields.separated '.' text.toList
  let exponent ← readDigit text first
  let mantissa ← (others.filter fun field => !field.isEmpty).mapM (readDigit text)
  if exponent.toNat > maxExponent then throw (.malformed (.exponentOutOfRange text))
  return ⟨List.replicate exponent.toNat 0 ++ mantissa⟩

end Tumbler

def Address.ofDotted (text : String) : Except Fault Address := Address.mk <$> Tumbler.ofDotted text

def Offset.ofDotted (text : String) : Except Fault Offset := Offset.mk <$> Tumbler.ofDotted text

end Docuverse
