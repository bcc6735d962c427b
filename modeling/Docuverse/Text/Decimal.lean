namespace Docuverse.Decimal

/-- Why a text does not name a 64-bit number. -/
inductive Defect where
  | notDigits
  | tooLarge
  deriving DecidableEq, Repr

/-- The numeral of `n`, without superfluous zeros. -/
def numeral (n : UInt64) : String := n.toNat.repr

/-- Appends one digit on the right of `n`. A value that has left the 64-bit range never comes back
to it, so the reading may stop there. -/
def appendDigit (n : Nat) (c : Char) : Option Nat :=
  let wider := 10 * n + (c.toNat - '0'.toNat)
  if wider < UInt64.size then some wider else none

/-- The number that a text of ASCII digits names. Any number of zeros may stand in front. -/
def read (text : List Char) : Except Defect UInt64 :=
  if text.isEmpty || !text.all Char.isDigit then .error .notDigits
  else match text.foldlM appendDigit 0 with
    | some n => .ok (UInt64.ofNat n)
    | none => .error .tooLarge

theorem toList_numeral (n : UInt64) : (numeral n).toList = Nat.toDigits 10 n.toNat := by
  simp [numeral]

theorem le_ofDigitChars (text : List Char) (n : Nat) : n ≤ Nat.ofDigitChars 10 text n := by
  induction text generalizing n with
  | nil => simp
  | cons c text ih =>
    rw [Nat.ofDigitChars_cons]
    have := ih (10 * n + (c.toNat - '0'.toNat))
    omega

/-- Stopping early changes nothing: what is read is the value of the digits, if that is in range. -/
theorem foldlM_appendDigit (text : List Char) {n : Nat} (inRange : n < UInt64.size) :
    text.foldlM appendDigit n =
      if Nat.ofDigitChars 10 text n < UInt64.size then some (Nat.ofDigitChars 10 text n)
      else none := by
  induction text generalizing n with
  | nil => simp [inRange]
  | cons c text ih =>
    rw [List.foldlM_cons, Nat.ofDigitChars_cons, appendDigit]
    by_cases wider : 10 * n + (c.toNat - '0'.toNat) < UInt64.size
    · rw [if_pos wider]
      exact ih wider
    · have grown := le_ofDigitChars text (10 * n + (c.toNat - '0'.toNat))
      rw [if_neg wider, if_neg (by omega)]
      rfl

/-- A text names a number if it is a run of digits with that value. -/
theorem read_eq_ok_iff {text : List Char} {n : UInt64} :
    read text = .ok n ↔
      text ≠ [] ∧ text.all Char.isDigit = true ∧ Nat.ofDigitChars 10 text 0 = n.toNat := by
  have bound := n.toNat_lt_size
  rw [read, foldlM_appendDigit text (by decide)]
  by_cases digits : text.isEmpty || !text.all Char.isDigit
  · rw [if_pos digits]
    simp only [Bool.or_eq_true, List.isEmpty_iff, Bool.not_eq_true'] at digits
    grind
  · rw [if_neg digits]
    simp only [Bool.or_eq_true, List.isEmpty_iff, Bool.not_eq_true'] at digits
    by_cases small : Nat.ofDigitChars 10 text 0 < UInt64.size
    · simp only [small, if_true, Except.ok.injEq, ← UInt64.toNat_inj]
      rw [UInt64.toNat_ofNat_of_lt' small]
      grind
    · simp only [small, if_false]
      grind

/-- Reading undoes writing. -/
theorem read_numeral (n : UInt64) : read (numeral n).toList = .ok n := by
  rw [toList_numeral, read_eq_ok_iff]
  refine ⟨Nat.toDigits_ne_nil, ?_, Nat.ofDigitChars_ten_toDigits⟩
  rw [List.all_eq_true]
  exact fun c member => Nat.isDigit_of_mem_toDigits (by decide) (by decide) member

end Docuverse.Decimal
