import Docuverse.Text.Decimal

namespace Docuverse.Decimal

theorem isDigit_toDigits {n : Nat} : ∀ c ∈ Nat.toDigits 10 n, c.isDigit = true :=
  fun _ member => Nat.isDigit_of_mem_toDigits (by decide) (by decide) member

/-- The first digit of a number that is not zero is not zero. -/
theorem toDigits_first {n : Nat} (positive : 0 < n) :
    ∃ c others, Nat.toDigits 10 n = c :: others ∧ c ≠ '0' := by
  induction n using Nat.strongRecOn with
  | ind n ih =>
    by_cases small : n < 10
    · have nonzero : ∀ d < 10, 0 < d → Nat.digitChar d ≠ '0' := by decide
      exact ⟨_, [], Nat.toDigits_of_lt_base small, nonzero n small positive⟩
    · have large : 10 ≤ n := Nat.not_lt.mp small
      obtain ⟨c, others, front, nonzero⟩ := ih (n / 10) (by omega) (by omega)
      refine ⟨c, others ++ [(n % 10).digitChar], ?_, nonzero⟩
      rw [Nat.toDigits_of_base_le (by decide) large, front, List.cons_append]

theorem eq_nil_of_toDigits {n : Nat} {others : List Char}
    (zero : Nat.toDigits 10 n = '0' :: others) : others = [] := by
  cases n with
  | zero => exact (List.cons.inj zero).2.symm
  | succ n =>
    obtain ⟨c, others', digits, nonzero⟩ := toDigits_first (Nat.succ_pos n)
    rw [zero] at digits
    exact absurd (List.cons.inj digits).1.symm nonzero

/-- The number that a run of digits stands for. -/
def value (text : List Char) : Nat := Nat.ofDigitChars 10 text 0

/-- A run of ASCII digits that stands for a number of 64 bits. -/
structure IsNumeral (text : List Char) : Prop where
  nonempty : text ≠ []
  digits : ∀ c ∈ text, c.isDigit = true
  inRange : value text < UInt64.size

/-- A zero that could be left out, for there is something after it. -/
def HasSpareZero (text : List Char) : Prop := ∃ c others, text = '0' :: c :: others

variable {text : List Char} {n : UInt64}

theorem read_eq_ok : read text = .ok n ↔ IsNumeral text ∧ n.toNat = value text := by
  rw [read_eq_ok_iff]
  constructor
  · rintro ⟨nonempty, digits, same⟩
    have inRange : value text < UInt64.size := by
      rw [value, same]
      exact n.toNat_lt_size
    exact ⟨⟨nonempty, List.all_eq_true.mp digits, inRange⟩, same.symm⟩
  · rintro ⟨numeral, same⟩
    exact ⟨numeral.nonempty, List.all_eq_true.mpr numeral.digits, same.symm⟩

/-- A digit is the numeral of its number. -/
theorem toDigits_digit {c : Char} (digit : c.isDigit = true) :
    c.toNat - '0'.toNat < 10 ∧ Nat.toDigits 10 (c.toNat - '0'.toNat) = [c] := by
  obtain ⟨low, high⟩ := Char.isDigit_iff_toNat.mp digit
  have zero : '0'.toNat = 48 := rfl
  have nine : '9'.toNat = 57 := rfl
  have small : c.toNat - '0'.toNat < 10 := by omega
  have same : (c.toNat - '0'.toNat).digitChar = c := by
    rw [← Char.toNat_inj, Nat.toNat_digitChar_of_lt_ten small]
    omega
  exact ⟨small, by rw [Nat.toDigits_of_lt_base small, same]⟩

/-- Digits behind a number that is not zero stand behind its own. -/
theorem toDigits_ofDigitChars {m : Nat} (positive : 0 < m)
    (digits : ∀ c ∈ text, c.isDigit = true) :
    Nat.toDigits 10 (Nat.ofDigitChars 10 text m) = Nat.toDigits 10 m ++ text := by
  induction text generalizing m with
  | nil => simp
  | cons c text ih =>
    obtain ⟨digit, others⟩ := List.forall_mem_cons.mp digits
    obtain ⟨small, last⟩ := toDigits_digit digit
    rw [Nat.ofDigitChars_cons, ih (by omega) others,
      ← Nat.toDigits_append_toDigits (by decide) positive small, last, List.append_assoc,
      List.singleton_append]

/-- A run of digits without a spare zero is the numeral of the number it stands for. -/
theorem toDigits_value (nonempty : text ≠ []) (digits : ∀ c ∈ text, c.isDigit = true)
    (spare : ¬ HasSpareZero text) : Nat.toDigits 10 (value text) = text := by
  cases text with
  | nil => exact absurd rfl nonempty
  | cons c text =>
    obtain ⟨digit, others⟩ := List.forall_mem_cons.mp digits
    have first := (toDigits_digit digit).2
    rw [value, Nat.ofDigitChars_cons, Nat.mul_zero, Nat.zero_add]
    by_cases zero : c.toNat - '0'.toNat = 0
    · rw [zero] at first ⊢
      cases text with
      | nil => exact first
      | cons b text =>
        have same : '0' = c := (List.cons.inj first).1
        exact absurd ⟨b, text, same ▸ rfl⟩ spare
    · rw [toDigits_ofDigitChars (Nat.pos_of_ne_zero zero) others, first, List.singleton_append]

theorem not_hasSpareZero_toDigits (n : Nat) : ¬ HasSpareZero (Nat.toDigits 10 n) := by
  rintro ⟨c, others, zero⟩
  exact absurd (eq_nil_of_toDigits zero) (List.cons_ne_nil c others)

/-- What was read is the numeral of the number just if it has no spare zero. -/
theorem numeral_eq_iff (found : read text = .ok n) :
    (numeral n).toList = text ↔ ¬ HasSpareZero text := by
  obtain ⟨isNumeral, same⟩ := read_eq_ok.mp found
  rw [toList_numeral, same]
  constructor
  · intro written
    rw [← written]
    exact not_hasSpareZero_toDigits (value text)
  · exact toDigits_value isNumeral.nonempty isNumeral.digits

end Docuverse.Decimal
