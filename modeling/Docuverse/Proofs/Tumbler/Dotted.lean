import Docuverse.Proofs.Tumbler.ExponentForm
import Docuverse.Tumbler.Forms

namespace Docuverse.Tumbler

open Fields

theorem separated_dotted (d : UInt64) (ds : List UInt64) :
    separated '.' (Tumbler.mk (d :: ds)).dotted.toList =
      ((Decimal.numeral d).toList, digitTexts ds) := by
  rw [dotted, String.toList_ofList]
  refine separated_joined fun field member point => ?_
  have inDigits : field ∈ digitTexts (d :: ds) := member
  obtain ⟨n, rfl⟩ := digitText_of_mem inDigits
  exact absurd (Decimal.isDigit_toDigits '.' point) (by decide)

/-- A tumbler is found again in its dotted form. -/
theorem ofDotted_dotted (t : Tumbler) : ofDotted t.dotted = .ok t := by
  obtain ⟨digits⟩ := t
  cases digits with
  | nil => rfl
  | cons d ds =>
    have nonempty : (Tumbler.mk (d :: ds)).dotted.isEmpty = false := by
      rw [← Bool.not_eq_true, String.isEmpty_iff, ← String.toList_eq_nil_iff]
      intro empty
      have fields := separated_dotted d ds
      rw [empty, separated_nil, Decimal.toList_numeral] at fields
      exact Nat.toDigits_ne_nil (Prod.mk.inj fields).1.symm
    have read : ((Decimal.numeral d).toList :: digitTexts ds).mapM
        (readDigit (Tumbler.mk (d :: ds)).dotted) = .ok (d :: ds) :=
      mapM_readDigit_digitTexts _ (d :: ds)
    rw [ofDotted, nonempty, separated_dotted]
    simp only [Bool.false_eq_true, if_false, read]
    rfl

/-- What stands between the points of a text. -/
def fields (text : String) : List (List Char) := text.toList.splitOn '.'

section Digits

open Decimal

variable {whole : String} {parts : List (List Char)} {ds : List UInt64}

/-- Numerals are read as the numbers that they stand for, and nothing else is read. -/
theorem mapM_readDigit_eq_ok : parts.mapM (readDigit whole) = .ok ds ↔
    (∀ part ∈ parts, IsNumeral part) ∧ ds.map UInt64.toNat = parts.map value := by
  induction parts generalizing ds with
  | nil => simp [pure, Except.pure, eq_comm]
  | cons part parts ih =>
    simp only [mapM_cons_eq_ok, readDigit_eq_ok, read_eq_ok, ih, List.forall_mem_cons,
      List.map_cons]
    constructor
    · rintro ⟨d, ds, ⟨numeral, same⟩, ⟨others, later⟩, rfl⟩
      exact ⟨⟨numeral, others⟩, by rw [List.map_cons, same, later]⟩
    · rintro ⟨⟨numeral, others⟩, same⟩
      obtain ⟨d, ds, rfl, first, later⟩ := List.map_eq_cons_iff.mp same
      exact ⟨d, ds, ⟨numeral, first⟩, ⟨others, later⟩, rfl⟩

theorem exists_mapM_readDigit :
    (∃ ds, parts.mapM (readDigit whole) = .ok ds) ↔ ∀ part ∈ parts, IsNumeral part := by
  simp only [mapM_readDigit_eq_ok]
  constructor
  · rintro ⟨ds, numerals, _⟩
    exact numerals
  · intro numerals
    refine ⟨parts.map fun part => UInt64.ofNat (value part), numerals, ?_⟩
    rw [List.map_map]
    exact List.map_congr_left fun part member =>
      UInt64.toNat_ofNat_of_lt' (numerals part member).inRange

/-- The digits are written as they were read, but for spare zeros. -/
theorem digitTexts_eq_iff (found : parts.mapM (readDigit whole) = .ok ds) :
    digitTexts ds = parts ↔ ∀ part ∈ parts, ¬ HasSpareZero part := by
  induction parts generalizing ds with
  | nil =>
    cases found
    simp [digitTexts]
  | cons part parts ih =>
    obtain ⟨d, ds, first, others, rfl⟩ := mapM_cons_eq_ok.mp found
    rw [digitTexts, List.map_cons, List.cons.injEq, List.forall_mem_cons,
      numeral_eq_iff (readDigit_eq_ok.mp first)]
    exact and_congr_right fun _ => ih others

end Digits

variable {text : String} {t u : Tumbler}

theorem ofDotted_eq_ok : ofDotted text = .ok t ↔
    text = "" ∧ t = empty ∨ text ≠ "" ∧ (fields text).mapM (readDigit text) = .ok t.digits := by
  by_cases blank : text = ""
  · subst blank
    have read : ofDotted "" = .ok empty := rfl
    simp [read, eq_comm]
  · have nonempty : text.isEmpty = false := by
      rw [← Bool.not_eq_true, String.isEmpty_iff]
      exact blank
    rw [ofDotted, nonempty, fields, ← separated_eq_splitOn]
    simp only [Bool.false_eq_true, if_false, bind_eq_ok, blank, false_and, false_or, ne_eq,
      not_false_eq_true, true_and, pure, Except.pure, Except.ok.injEq]
    constructor
    · rintro ⟨ds, found, rfl⟩
      exact found
    · exact fun found => ⟨t.digits, found, rfl⟩

theorem exists_ofDotted : (∃ t, ofDotted text = .ok t) ↔
    text = "" ∨ ∀ field ∈ fields text, Decimal.IsNumeral field := by
  constructor
  · rintro ⟨t, found⟩
    rcases ofDotted_eq_ok.mp found with ⟨blank, _⟩ | ⟨_, read⟩
    · exact Or.inl blank
    · exact Or.inr (exists_mapM_readDigit.mp ⟨t.digits, read⟩)
  · intro either
    by_cases blank : text = ""
    · exact ⟨empty, ofDotted_eq_ok.mpr (Or.inl ⟨blank, rfl⟩)⟩
    · obtain ⟨ds, read⟩ := exists_mapM_readDigit.mpr (either.resolve_left blank)
      exact ⟨⟨ds⟩, ofDotted_eq_ok.mpr (Or.inr ⟨blank, read⟩)⟩

theorem fields_dotted (d : UInt64) (ds : List UInt64) :
    fields (Tumbler.mk (d :: ds)).dotted = digitTexts (d :: ds) := by
  rw [fields, ← separated_eq_splitOn, separated_dotted]
  rfl

theorem joined_fields (text : String) : String.ofList (joined '.' (fields text)) = text := by
  rw [fields, ← separated_eq_splitOn, joined_separated, String.ofList_toList]

/-- A text that was read is the dotted form of what was read if it has no spare zeros. -/
theorem dotted_eq_iff_of_ofDotted (found : ofDotted text = .ok t) :
    t.dotted = text ↔ ∀ field ∈ fields text, ¬ Decimal.HasSpareZero field := by
  rcases ofDotted_eq_ok.mp found with ⟨rfl, rfl⟩ | ⟨nonempty, read⟩
  · have blank : fields "" = [[]] := rfl
    have written : empty.dotted = "" := rfl
    simp [blank, written, Decimal.HasSpareZero]
  · rw [← digitTexts_eq_iff read]
    constructor
    · rintro rfl
      obtain ⟨digits⟩ := t
      cases digits with
      | nil => exact absurd rfl nonempty
      | cons d ds => exact (fields_dotted d ds).symm
    · intro same
      rw [dotted, same, joined_fields]

theorem dotted_eq_iff : t.dotted = text ↔
    ofDotted text = .ok t ∧ ∀ field ∈ fields text, ¬ Decimal.HasSpareZero field := by
  constructor
  · rintro rfl
    have found := ofDotted_dotted t
    exact ⟨found, (dotted_eq_iff_of_ofDotted found).mp rfl⟩
  · rintro ⟨found, spare⟩
    exact (dotted_eq_iff_of_ofDotted found).mpr spare

theorem dotted_inj : t.dotted = u.dotted ↔ t = u := by
  constructor
  · intro same
    have found := ofDotted_dotted t
    rw [same, ofDotted_dotted] at found
    exact (Except.ok.inj found).symm
  · exact congrArg dotted

/-- A tumbler is found again in its dotted form, so that no other one has that form. The texts that
are read are the empty one and those with nothing but numerals of 64 bits between their points, and
the digits are what the numerals stand for, in order. The dotted forms are those among them in which
no numeral has a zero to spare. -/
theorem dotted_canonical (text : String) (t u : Tumbler) :
    ofDotted t.dotted = .ok t ∧
    (t.dotted = u.dotted ↔ t = u) ∧
    ((∃ v, ofDotted text = .ok v) ↔
      text = "" ∨ ∀ field ∈ fields text, Decimal.IsNumeral field) ∧
    (ofDotted text = .ok t ↔ text = "" ∧ t = empty ∨
      text ≠ "" ∧ (∀ field ∈ fields text, Decimal.IsNumeral field) ∧
        t.digits.map UInt64.toNat = (fields text).map Decimal.value) ∧
    (t.dotted = text ↔
      ofDotted text = .ok t ∧ ∀ field ∈ fields text, ¬ Decimal.HasSpareZero field) ∧
    ((∃ v : Tumbler, v.dotted = text) ↔
      (text = "" ∨ ∀ field ∈ fields text, Decimal.IsNumeral field) ∧
        ∀ field ∈ fields text, ¬ Decimal.HasSpareZero field) := by
  have read : ofDotted text = .ok t ↔ text = "" ∧ t = empty ∨
      text ≠ "" ∧ (∀ field ∈ fields text, Decimal.IsNumeral field) ∧
        t.digits.map UInt64.toNat = (fields text).map Decimal.value := by
    rw [ofDotted_eq_ok, mapM_readDigit_eq_ok]
  have written : (∃ v : Tumbler, v.dotted = text) ↔
      (text = "" ∨ ∀ field ∈ fields text, Decimal.IsNumeral field) ∧
        ∀ field ∈ fields text, ¬ Decimal.HasSpareZero field := by
    rw [← exists_ofDotted, ← exists_and_right]
    exact exists_congr fun v => dotted_eq_iff
  exact ⟨ofDotted_dotted t, dotted_inj, exists_ofDotted, read, dotted_eq_iff, written⟩

/-- Zeros in front are read and not written, whatever number they stand before. -/
example : ofDotted "0018446744073709551615.0" = .ok ⟨[18446744073709551615, 0]⟩ := rfl

end Docuverse.Tumbler
