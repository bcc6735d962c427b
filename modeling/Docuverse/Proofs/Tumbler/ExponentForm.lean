import Docuverse.Proofs.Checked
import Docuverse.Proofs.Text.Fields
import Docuverse.Proofs.Text.Numeral
import Docuverse.Tumbler.Forms

namespace Docuverse.Tumbler

open Fields

theorem readDigit_eq_ok {whole : String} {field : List Char} {d : UInt64} :
    readDigit whole field = .ok d ↔ Decimal.read field = .ok d := by
  rw [readDigit]
  cases Decimal.read field with
  | ok n => simp
  | error defect => cases defect <;> simp

theorem readDigit_malformed {whole : String} {field : List Char} {fault : Fault}
    (failed : readDigit whole field = .error fault) : ∃ what, fault = .malformed what := by
  rw [readDigit] at failed
  split at failed
  · cases failed
  · exact ⟨_, (Except.error.inj failed).symm⟩
  · exact ⟨_, (Except.error.inj failed).symm⟩

theorem isDigit_of_readDigit {whole : String} {field : List Char} {d : UInt64}
    (read : readDigit whole field = .ok d) : ∀ c ∈ field, c.isDigit = true :=
  List.all_eq_true.mp (Decimal.read_eq_ok_iff.mp (readDigit_eq_ok.mp read)).2.1

/-- Zeros as many as the exponent says, and then the digits of the fields that are not empty. -/
theorem ofExponentForm_eq_ok {text : String} {t : Tumbler} :
    ofExponentForm text = .ok t ↔ ∃ exponent mantissa,
      readDigit text (separated '.' text.toList).1 = .ok exponent ∧
      ((separated '.' text.toList).2.filter fun field => !field.isEmpty).mapM (readDigit text) =
        .ok mantissa ∧
      exponent.toNat ≤ maxExponent ∧ t = ⟨List.replicate exponent.toNat 0 ++ mantissa⟩ := by
  simp only [ofExponentForm, bind, Except.bind]
  cases readDigit text (separated '.' text.toList).1 with
  | error fault => simp
  | ok exponent =>
    cases ((separated '.' text.toList).2.filter fun field => !field.isEmpty).mapM
      (readDigit text) with
    | error fault => simp
    | ok mantissa =>
      by_cases large : exponent.toNat > maxExponent
      · simp [large, Nat.not_le.mpr large, throw, throwThe, MonadExceptOf.throw]
      · simp [large, Nat.not_lt.mp large, pure, Except.pure, eq_comm]

theorem ofExponentForm_malformed {text : String} {fault : Fault}
    (failed : ofExponentForm text = .error fault) : ∃ what, fault = .malformed what := by
  simp only [ofExponentForm, bind, Except.bind] at failed
  split at failed
  next first =>
    cases failed
    exact readDigit_malformed first
  next exponent _ =>
    split at failed
    next others =>
      cases failed
      obtain ⟨field, _, read⟩ := exists_error_of_mapM others
      exact readDigit_malformed read
    next mantissa _ =>
      split at failed
      · exact ⟨_, (Except.error.inj failed).symm⟩
      · cases failed

/-- The characters of an exponent form. -/
def IsFormChar (c : Char) : Prop := c.isDigit = true ∨ c = '.'

theorem isFormChar_of_ofExponentForm {text : String} {t : Tumbler}
    (read : ofExponentForm text = .ok t) : ∀ c ∈ text.toList, IsFormChar c := by
  obtain ⟨exponent, mantissa, first, others, _, _⟩ := ofExponentForm_eq_ok.mp read
  intro c member
  rcases mem_separated member with same | inside | ⟨field, other, inside⟩
  · exact Or.inr same
  · exact Or.inl (isDigit_of_readDigit first c inside)
  · have nonempty : (!field.isEmpty) = true := by
      rw [Bool.not_eq_true', ← Bool.not_eq_true, List.isEmpty_iff]
      exact List.ne_nil_of_mem inside
    obtain ⟨d, digit⟩ := exists_ok_of_mapM others field (List.mem_filter.mpr ⟨other, nonempty⟩)
    exact Or.inl (isDigit_of_readDigit digit c inside)

/-- No more zeros than an exponent may say, and a digit for each two characters. -/
theorem length_of_ofExponentForm {text : String} {t : Tumbler}
    (read : ofExponentForm text = .ok t) :
    t.digits.length ≤ maxExponent + text.toList.length / 2 := by
  obtain ⟨exponent, mantissa, _, others, small, rfl⟩ := ofExponentForm_eq_ok.mp read
  have fields := length_separated '.' text.toList
  have digits := length_of_mapM others
  rw [List.length_append, List.length_replicate]
  omega

theorem ne_nil_of_ofExponentForm {text : String} {t : Tumbler}
    (read : ofExponentForm text = .ok t) : text.toList ≠ [] := by
  obtain ⟨exponent, _, first, _, _, _⟩ := ofExponentForm_eq_ok.mp read
  intro empty
  rw [empty, separated_nil] at first
  exact (Decimal.read_eq_ok_iff.mp (readDigit_eq_ok.mp first)).1 rfl

theorem digitText_of_mem {ds : List UInt64} {field : List Char} (member : field ∈ digitTexts ds) :
    ∃ n, field = Nat.toDigits 10 n := by
  obtain ⟨d, _, rfl⟩ := List.mem_map.mp member
  exact ⟨d.toNat, Decimal.toList_numeral d⟩

theorem mapM_readDigit_digitTexts (whole : String) (ds : List UInt64) :
    (digitTexts ds).mapM (readDigit whole) = .ok ds := by
  induction ds with
  | nil => rfl
  | cons d ds ih =>
    exact mapM_cons_eq_ok.mpr ⟨d, ds, readDigit_eq_ok.mpr (Decimal.read_numeral d), ih, rfl⟩

/-- The fields of the exponent form are the exponent and the digits after the zeros it counts. -/
theorem separated_exponentForm (t : Tumbler) :
    separated '.' t.exponentForm.toList =
      (Nat.toDigits 10 t.exponent, digitTexts (t.digits.drop t.exponent)) := by
  rw [exponentForm, String.toList_ofList]
  refine separated_joined fun field member point => ?_
  have written : ∃ n, field = Nat.toDigits 10 n := by
    rcases List.mem_cons.mp member with rfl | digit
    · exact ⟨t.exponent, rfl⟩
    · exact digitText_of_mem digit
  obtain ⟨n, rfl⟩ := written
  exact absurd (Decimal.isDigit_toDigits '.' point) (by decide)

theorem isFormChar_exponentForm (t : Tumbler) : ∀ c ∈ t.exponentForm.toList, IsFormChar c := by
  intro c member
  rcases mem_separated member with same | inside | ⟨field, other, inside⟩
  · exact Or.inr same
  · rw [separated_exponentForm] at inside
    exact Or.inl (Decimal.isDigit_toDigits c inside)
  · rw [separated_exponentForm] at other
    obtain ⟨n, rfl⟩ := digitText_of_mem other
    exact Or.inl (Decimal.isDigit_toDigits c inside)

theorem take_exponent (t : Tumbler) : t.digits.take t.exponent = List.replicate t.exponent 0 := by
  have few : t.exponent ≤ (t.digits.takeWhile (· == 0)).length := Nat.min_le_left _ _
  obtain ⟨later, split⟩ : t.digits.takeWhile (· == 0) <+: t.digits := List.takeWhile_prefix _
  rw [List.eq_replicate_iff, ← split, List.take_append_of_le_length few]
  refine ⟨List.length_take_of_le few, fun d member => ?_⟩
  have zero := List.all_eq_true.mp List.all_takeWhile d (List.mem_of_mem_take member)
  exact beq_iff_eq.mp zero

theorem filter_digitTexts (ds : List UInt64) :
    (digitTexts ds).filter (fun field => !field.isEmpty) = digitTexts ds := by
  rw [List.filter_eq_self]
  intro field member
  obtain ⟨n, rfl⟩ := digitText_of_mem member
  rw [Bool.not_eq_true', ← Bool.not_eq_true, List.isEmpty_iff]
  exact Nat.toDigits_ne_nil

/-- A tumbler comes back from its exponent form, unless its exponent is too large to be read. -/
theorem ofExponentForm_exponentForm {t : Tumbler} (small : t.exponent ≤ maxExponent) :
    ofExponentForm t.exponentForm = .ok t := by
  have range : t.exponent < UInt64.size := Nat.lt_of_le_of_lt small (by decide)
  have exponent : readDigit t.exponentForm (Nat.toDigits 10 t.exponent) =
      .ok (UInt64.ofNat t.exponent) := by
    refine readDigit_eq_ok.mpr (Decimal.read_eq_ok_iff.mpr ⟨Nat.toDigits_ne_nil, ?_, ?_⟩)
    · exact List.all_eq_true.mpr Decimal.isDigit_toDigits
    · rw [UInt64.toNat_ofNat_of_lt' range, Nat.ofDigitChars_ten_toDigits]
  refine ofExponentForm_eq_ok.mpr
    ⟨UInt64.ofNat t.exponent, t.digits.drop t.exponent, ?_, ?_, ?_, ?_⟩
  · rw [separated_exponentForm, exponent]
  · rw [separated_exponentForm, filter_digitTexts, mapM_readDigit_digitTexts]
  · rwa [UInt64.toNat_ofNat_of_lt' range]
  · rw [UInt64.toNat_ofNat_of_lt' range, ← take_exponent, List.take_append_drop]

/-- An exponent form with too large an exponent is malformed. -/
theorem ofExponentForm_of_large {t : Tumbler} (large : maxExponent < t.exponent) :
    ∃ what, ofExponentForm t.exponentForm = .error (.malformed what) := by
  cases read : ofExponentForm t.exponentForm with
  | error fault =>
    obtain ⟨what, rfl⟩ := ofExponentForm_malformed read
    exact ⟨what, rfl⟩
  | ok u =>
    obtain ⟨exponent, mantissa, first, _, small, _⟩ := ofExponentForm_eq_ok.mp read
    rw [separated_exponentForm] at first
    have value := (Decimal.read_eq_ok_iff.mp (readDigit_eq_ok.mp first)).2.2
    rw [Nat.ofDigitChars_ten_toDigits] at value
    omega

end Docuverse.Tumbler
