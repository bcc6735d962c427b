import Docuverse.Fault

namespace Docuverse

namespace Tumbler

/-- The digits of a place moved by an amount, unless a digit would pass its range. This is no
positional arithmetic: the first digit of the amount that is not zero says at which level it counts,
and everything below that level is the amount's own. -/
def addDigits : List UInt64 → List UInt64 → Option (List UInt64)
  | place, [] => some place
  | [], amount => some (if amount.all (· == 0) then [] else amount)
  | d :: place, e :: amount =>
    if e = 0 then (addDigits place amount).map (d :: ·)
    else if d.toNat + e.toNat < UInt64.size then some ((d + e) :: amount)
    else none

/-- The digits of the amount from `low` up to `high`, if `high` is not below. Equal leading digits
become zeros, and equal tumblers are no digits apart. -/
def subDigits : List UInt64 → List UInt64 → Option (List UInt64)
  | high, [] => some high
  | [], _ :: _ => none
  | h :: high, l :: low =>
    if h = l then (subDigits high low).map fun rest => if rest.isEmpty then [] else 0 :: rest
    else if l < h then some ((h - l) :: high)
    else none

def add (place amount : Tumbler) : Except Fault Tumbler :=
  match addDigits place.digits amount.digits with
  | some digits => .ok ⟨digits⟩
  | none => .error (.range (.add place amount))

def sub (high low : Tumbler) : Except Fault Tumbler :=
  match subDigits high.digits low.digits with
  | some digits => .ok ⟨digits⟩
  | none => .error (.range (.sub high low))

theorem addDigits_nil_right (place : List UInt64) : addDigits place [] = some place := by
  cases place <;> rfl

/-- An amount without a digit other than zero moves nothing. -/
theorem addDigits_zeros {place amount : List UInt64} (zeros : ∀ e ∈ amount, e = 0) :
    addDigits place amount = some place := by
  induction place generalizing amount with
  | nil =>
    cases amount with
    | nil => rfl
    | cons e amount =>
      have all : (e :: amount).all (· == 0) = true := by simpa using zeros
      rw [addDigits]
      · simp [all]
      · simp
  | cons d place ih =>
    cases amount with
    | nil => rfl
    | cons e amount =>
      have tail := ih fun x member => zeros x (List.mem_cons_of_mem e member)
      simp [addDigits, zeros e List.mem_cons_self, tail]

theorem subDigits_self (digits : List UInt64) : subDigits digits digits = some [] := by
  induction digits with
  | nil => rfl
  | cons d digits ih => simp [subDigits, ih]

end Tumbler

namespace Address

def add (a : Address) (o : Offset) : Except Fault Address := Address.mk <$> a.tumbler.add o.tumbler

/-- The distance from `base` to `a`, if `base` is not beyond. -/
def offsetFrom (a base : Address) : Except Fault Offset := Offset.mk <$> a.tumbler.sub base.tumbler

end Address

namespace Offset

def add (a b : Offset) : Except Fault Offset := Offset.mk <$> a.tumbler.add b.tumbler

def sub (a b : Offset) : Except Fault Offset := Offset.mk <$> a.tumbler.sub b.tumbler

end Offset
end Docuverse
