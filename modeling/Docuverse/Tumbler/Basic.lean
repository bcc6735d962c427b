import Docuverse.Text.Decimal
import Docuverse.Text.Fields

namespace Docuverse

/-- A number of many levels, a sequence of digits without a fixed length. Tumblers are ordered digit
by digit, and one that begins another comes before it. -/
structure Tumbler where
  digits : List UInt64
  deriving DecidableEq, Repr

namespace Tumbler

/-- The tumbler without digits. -/
def empty : Tumbler := ⟨[]⟩

instance : Inhabited Tumbler := ⟨empty⟩

instance : Ord Tumbler := ⟨compareOn digits⟩

instance : Std.TransOrd Tumbler := inferInstanceAs (Std.TransCmp (compareOn digits))

instance : Std.LawfulEqOrd Tumbler where
  eq_of_compare {x y} same := by
    have sameDigits : x.digits = y.digits := Std.LawfulEqOrd.eq_of_compare same
    cases x; cases y; exact congrArg mk sameDigits

instance : LT Tumbler := ltOfOrd
instance : LE Tumbler := leOfOrd

/-- A tumbler that moves nothing: it has no digit other than zero. -/
def isZero (t : Tumbler) : Bool := t.digits.all (· == 0)

/-- The digits as fields of a text. -/
def digitTexts (digits : List UInt64) : List (List Char) :=
  digits.map fun d => (Decimal.numeral d).toList

/-- The form for people: the digits with points between them. -/
def dotted (t : Tumbler) : String := String.ofList (Fields.joined '.' (digitTexts t.digits))

end Tumbler
end Docuverse
