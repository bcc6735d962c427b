import Docuverse.Tumbler.Basic

namespace Docuverse

/-- A tumbler as a place. -/
structure Address where
  tumbler : Tumbler
  deriving DecidableEq, Repr

/-- A tumbler as a distance between places. -/
structure Offset where
  tumbler : Tumbler
  deriving DecidableEq, Repr

namespace Address

def ofDigits (digits : List UInt64) : Address := ⟨⟨digits⟩⟩

def digits (a : Address) : List UInt64 := a.tumbler.digits

/-- The address without digits, before all others. -/
def nowhere : Address := ofDigits []

def dotted (a : Address) : String := a.tumbler.dotted

instance : Inhabited Address := ⟨nowhere⟩

instance : Ord Address := ⟨compareOn tumbler⟩

instance : Std.TransOrd Address := inferInstanceAs (Std.TransCmp (compareOn tumbler))

instance : Std.LawfulEqOrd Address where
  eq_of_compare {x y} same := by
    have sameTumbler : x.tumbler = y.tumbler := Std.LawfulEqOrd.eq_of_compare same
    cases x; cases y; exact congrArg mk sameTumbler

instance : LT Address := ltOfOrd
instance : LE Address := leOfOrd
instance : Max Address := maxOfLe
instance : Min Address := minOfLe

@[simp] theorem digits_ofDigits (digits : List UInt64) : (ofDigits digits).digits = digits := rfl

@[simp] theorem ofDigits_digits (a : Address) : ofDigits a.digits = a := rfl

end Address

namespace Offset

def ofDigits (digits : List UInt64) : Offset := ⟨⟨digits⟩⟩

def digits (o : Offset) : List UInt64 := o.tumbler.digits

/-- The offset without digits. -/
def nowidth : Offset := ofDigits []

def dotted (o : Offset) : String := o.tumbler.dotted

instance : Inhabited Offset := ⟨nowidth⟩

instance : Ord Offset := ⟨compareOn tumbler⟩

instance : Std.TransOrd Offset := inferInstanceAs (Std.TransCmp (compareOn tumbler))

instance : Std.LawfulEqOrd Offset where
  eq_of_compare {x y} same := by
    have sameTumbler : x.tumbler = y.tumbler := Std.LawfulEqOrd.eq_of_compare same
    cases x; cases y; exact congrArg mk sameTumbler

instance : LT Offset := ltOfOrd
instance : LE Offset := leOfOrd

@[simp] theorem digits_ofDigits (digits : List UInt64) : (ofDigits digits).digits = digits := rfl

@[simp] theorem ofDigits_digits (o : Offset) : ofDigits o.digits = o := rfl

end Offset
end Docuverse
