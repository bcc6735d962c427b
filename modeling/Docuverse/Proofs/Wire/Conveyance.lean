import Docuverse.Proofs.SpecSet.Arrangement
import Docuverse.Proofs.Wire.Pieces
import Docuverse.Proofs.Wire.Typed

namespace Docuverse

namespace Wire.Reading

variable {α β : Type} {reading : Reading α} {next : α → Reading β} {limit : Nat}
  {front back pieces : List Piece}

/-- Every text has bytes, and nothing is longer than the limit. -/
def Passable (limit : Nat) (pieces : List Piece) : Prop :=
  ∀ piece ∈ pieces, piece.IsLatin ∧ piece.Fits limit

/-- No exponent is too large to be read. -/
def Legible (pieces : List Piece) : Prop := ∀ piece ∈ pieces, piece.IsLegible

instance (limit : Nat) (pieces : List Piece) : Decidable (Passable limit pieces) :=
  inferInstanceAs (Decidable (∀ piece ∈ pieces, piece.IsLatin ∧ piece.Fits limit))

instance (pieces : List Piece) : Decidable (Legible pieces) :=
  inferInstanceAs (Decidable (∀ piece ∈ pieces, piece.IsLegible))

/-- Whatever comes after the text, it is found malformed. -/
def Refuses (reading : Reading α) (limit : Nat) (text : List UInt8) : Prop :=
  ∀ rest ending, ∃ what left, reading limit ⟨text ++ rest, ending⟩ = .error (.malformed what) left

/-- Out of these pieces comes this value, unless an exponent among them is too large. -/
def Conveys (reading : Reading α) (limit : Nat) (pieces : List Piece) (value : α) : Prop :=
  Passable limit pieces →
    (Legible pieces → reading.Accepts limit (written pieces) value) ∧
    (¬ Legible pieces → reading.Refuses limit (written pieces))

theorem passable_append :
    Passable limit (front ++ back) ↔ Passable limit front ∧ Passable limit back :=
  List.forall_mem_append

theorem legible_append : Legible (front ++ back) ↔ Legible front ∧ Legible back :=
  List.forall_mem_append

theorem legible_iff :
    Legible pieces ↔ ∀ t, .tumbler t ∈ pieces → t.exponent ≤ Tumbler.maxExponent := by
  refine ⟨fun legible t member => legible _ member, fun small piece member => ?_⟩
  cases piece with
  | tumbler t => exact small t member
  | number n => trivial
  | text s => trivial
  | tag b => trivial

theorem not_legible : ¬ Legible pieces ↔
    ∃ t, .tumbler t ∈ pieces ∧ Tumbler.maxExponent < t.exponent := by
  simp only [legible_iff, Classical.not_forall, Nat.not_le, exists_prop]

/-- Pieces without a tumbler are legible. -/
theorem conveys_of_accepts {value : α} (legible : Legible pieces)
    (accepts : Passable limit pieces → reading.Accepts limit (written pieces) value) :
    Conveys reading limit pieces value :=
  fun passable => ⟨fun _ => accepts passable, fun illegible => absurd legible illegible⟩

theorem conveys_pure (x : α) : Conveys (pure x) limit [] x :=
  conveys_of_accepts (by simp [Legible, Piece.IsLegible]) fun _ => accepts_pure.mpr ⟨rfl, rfl⟩

/-- What is malformed in either part makes the whole malformed. -/
theorem Conveys.bind {x : α} {y : β} (first : Conveys reading limit front x)
    (second : Conveys (next x) limit back y) :
    Conveys (reading >>= next) limit (front ++ back) y := by
  intro passable
  obtain ⟨passFront, passBack⟩ := passable_append.mp passable
  obtain ⟨acceptsFront, refusesFront⟩ := first passFront
  obtain ⟨acceptsBack, refusesBack⟩ := second passBack
  rw [written_append, legible_append]
  refine ⟨fun ⟨legible, legible'⟩ => (acceptsFront legible).bind (acceptsBack legible'), ?_⟩
  intro illegible rest ending
  rw [List.append_assoc]
  by_cases legible : Legible front
  · have illegible' : ¬ Legible back := fun legible' => illegible ⟨legible, legible'⟩
    obtain ⟨what, left, failed⟩ := refusesBack illegible' rest ending
    exact ⟨what, left, (bind_of_ok (acceptsFront legible _ ending)).trans failed⟩
  · obtain ⟨what, left, failed⟩ := refusesFront legible (written back ++ rest) ending
    exact ⟨what, left, bind_of_error failed⟩

theorem Conveys.bind_pure {x : α} (conveys : Conveys reading limit pieces x) (f : α → β) :
    Conveys (reading >>= fun x => pure (f x)) limit pieces (f x) := by
  have whole : Conveys (reading >>= fun x => pure (f x)) limit (pieces ++ []) (f x) :=
    conveys.bind (conveys_pure (f x))
  rwa [List.append_nil] at whole

theorem Conveys.map {x : α} (conveys : Conveys reading limit pieces x) (f : α → β) :
    Conveys (f <$> reading) limit pieces (f x) := by
  rw [map_eq_bind]
  exact conveys.bind_pure f

/-- To look at the first byte of the pieces is to take none of them. -/
theorem Conveys.peek_bind {context : String} {next : UInt8 → Reading β} {b : UInt8} {y : β}
    (conveys : Conveys (next b) limit pieces y) (first : ∃ later, written pieces = b :: later) :
    Conveys (peek context >>= next) limit pieces y := by
  obtain ⟨later, split⟩ := first
  intro passable
  obtain ⟨accepts, refuses⟩ := conveys passable
  rw [split] at accepts refuses ⊢
  exact ⟨accepts, refuses⟩

/-- The same reading finds its values in their pieces one after the other. -/
theorem conveys_items {ι : Type} {item : Reading α} {parts : ι → List Piece} {found : ι → α}
    {xs : List ι} (each : ∀ x ∈ xs, Conveys item limit (parts x) (found x)) :
    Conveys (items xs.length item) limit (xs.flatMap parts) (xs.map found) := by
  induction xs with
  | nil => exact conveys_pure []
  | cons x xs ih =>
    obtain ⟨first, others⟩ := List.forall_mem_cons.mp each
    rw [List.length_cons, items_succ]
    exact first.bind ((ih others).bind_pure fun xs => found x :: xs)

theorem conveys_byte {context : String} (b : UInt8) : Conveys (byte context) limit [.tag b] b :=
  conveys_of_accepts (by simp [Legible, Piece.IsLegible]) fun _ => accepts_byte.mpr rfl

theorem toNat_lt_of_isFormChar {c : Char} (formChar : Tumbler.IsFormChar c) : c.toNat < 256 := by
  rcases formChar with digit | point
  · have above : c.toNat ≤ 57 := (Char.isDigit_iff_toNat.mp digit).2
    omega
  · rw [point]
    decide

theorem isDigit_repr (n : Nat) : ∀ c ∈ n.repr.toList, c.isDigit = true := by
  rw [Nat.toList_repr]
  exact Decimal.isDigit_toDigits

/-- Bytes of digits and points are read up to the mark behind them. -/
theorem accepts_chunk_ascii {context s : String}
    (formChars : ∀ c ∈ s.toList, Tumbler.IsFormChar c) (short : s.length ≤ limit) :
    (chunk context).Accepts limit (Latin.ascii s ++ [terminator]) s := by
  have spelled : Latin.text (Latin.ascii s) = s :=
    text_ascii fun c member => toNat_lt_of_isFormChar (formChars c member)
  have plain : ∀ b ∈ Latin.ascii s, IsPlain b ∧ weight b = 1 := by
    intro b member
    refine isPlain_of_isFormChar (formChars _ ?_)
    rw [← spelled, Latin.text, String.toList_ofList]
    exact List.mem_map_of_mem member
  have fits : Fits limit 0 (Latin.ascii s) := by
    refine (fits_of_light fun b member => (plain b member).2).mpr (Or.inr ?_)
    rw [length_ascii, Nat.zero_add]
    exact short
  have unmarked : ∀ b ∈ Latin.ascii s, IsPlain b := fun b member => (plain b member).1
  exact accepts_chunk.mpr
    ⟨Latin.ascii s, terminator, rfl, unmarked, Or.inl rfl, fits, spelled.symm⟩

theorem ofNumeral_numeral (n : UInt64) : ofNumeral (Decimal.numeral n) = .ok n :=
  ofNumeral_eq_ok.mpr (Decimal.read_numeral n)

theorem accepts_chunk_numeral {context : String} {n : UInt64}
    (short : n.toNat.repr.length ≤ limit) :
    (chunk context).Accepts limit (encodeNumber n) (Decimal.numeral n) :=
  accepts_chunk_ascii (fun c member => Or.inl (isDigit_repr _ c member)) short

theorem conveys_number (n : UInt64) : Conveys number limit [.number n.toNat] n := by
  refine conveys_of_accepts (by simp [Legible, Piece.IsLegible]) fun passable => ?_
  obtain ⟨_, _, short⟩ := passable _ List.mem_cons_self
  exact (accepts_chunk_numeral short).bind (accepts_ofExcept.mpr ⟨rfl, ofNumeral_numeral n⟩)

theorem conveys_count (n : Nat) : Conveys count limit [.number n] n := by
  intro passable
  obtain ⟨_, range, _⟩ := passable _ List.mem_cons_self
  have number : Conveys count limit [.number (UInt64.ofNat n).toNat] (UInt64.ofNat n).toNat :=
    (conveys_number (UInt64.ofNat n)).map UInt64.toNat
  rw [UInt64.toNat_ofNat_of_lt' range] at number
  exact number passable

/-- A chunk that names a tumbler is read to its mark. -/
theorem accepts_tumbler_of_form {form : String} {t : Tumbler}
    (read : Tumbler.ofExponentForm form = .ok t) (short : form.length ≤ limit) :
    tumbler.Accepts limit (Latin.ascii form ++ [terminator]) t := by
  have found : (chunk "tumbler").Accepts limit (Latin.ascii form ++ [terminator]) form :=
    accepts_chunk_ascii (Tumbler.isFormChar_of_ofExponentForm read) short
  have named : tumbler.Accepts limit (Latin.ascii form ++ [terminator] ++ []) t :=
    found.bind (accepts_ofExcept.mpr ⟨rfl, read⟩)
  rwa [List.append_nil] at named

/-- The form of a tumbler names it, unless its exponent is too large. -/
theorem conveys_tumbler (t : Tumbler) : Conveys tumbler limit [.tumbler t] t := by
  intro passable
  obtain ⟨_, short⟩ := passable _ List.mem_cons_self
  have bytes : written [.tumbler t] = Latin.ascii t.exponentForm ++ [terminator] :=
    List.flatMap_singleton _ _
  rw [bytes]
  refine ⟨fun legible => ?_, fun illegible => ?_⟩
  · have small := legible _ List.mem_cons_self
    exact accepts_tumbler_of_form (Tumbler.ofExponentForm_exponentForm small) short
  · obtain ⟨t', member, large⟩ := not_legible.mp illegible
    rw [Piece.tumbler.inj (List.mem_singleton.mp member)] at large
    obtain ⟨what, failed⟩ := Tumbler.ofExponentForm_of_large large
    have found : (chunk "tumbler").Accepts limit (Latin.ascii t.exponentForm ++ [terminator])
        t.exponentForm := accepts_chunk_ascii (Tumbler.isFormChar_exponentForm t) short
    intro rest ending
    refine ⟨what, ⟨rest, ending⟩, ?_⟩
    rw [tumbler, bind_of_ok (found rest ending), failed]
    rfl

theorem conveys_text (s : String) : Conveys text limit [.text s] s := by
  refine conveys_of_accepts (by simp [Legible, Piece.IsLegible]) fun passable => ?_
  obtain ⟨latin, range, short, small⟩ := passable _ List.mem_cons_self
  have countPassable : Passable limit [.number s.length] := by
    intro piece member
    rw [List.mem_singleton.mp member]
    exact ⟨trivial, range, short⟩
  have counted : count.Accepts limit (encodeCount s.length) s.length := by
    have accepts := (conveys_count s.length countPassable).1 (by simp [Legible, Piece.IsLegible])
    simpa [written, Piece.bytes] using accepts
  have bytes : written [.text s] = textTag :: (encodeCount s.length ++ Latin.ascii s) := by
    simp [written, Piece.bytes]
  refine accepts_expect_bind.mpr ⟨_, bytes, accepts_textBody.mpr ⟨_, Latin.ascii s, rfl, ?_⟩⟩
  rw [length_ascii]
  exact ⟨counted, small, (text_ascii latin).symm⟩

theorem conveys_address (a : Address) : Conveys address limit [.tumbler a.tumbler] a :=
  (conveys_tumbler a.tumbler).map Address.mk

theorem conveys_offset (o : Offset) : Conveys offset limit [.tumbler o.tumbler] o :=
  (conveys_tumbler o.tumbler).map Offset.mk

theorem conveys_span (s : Span) : Conveys span limit (spanPieces s) s := by
  refine (conveys_address s.start).bind ?_
  exact (conveys_offset s.width).bind_pure fun width => Span.mk s.start width

theorem conveys_counted {ι : Type} {item : Reading α} {parts : ι → List Piece} {found : ι → α}
    {xs : List ι} (each : ∀ x ∈ xs, Conveys item limit (parts x) (found x)) :
    Conveys (counted item) limit (.number xs.length :: xs.flatMap parts) (xs.map found) :=
  (conveys_count xs.length).bind (conveys_items each)

theorem conveys_vspec (v : VSpec) : Conveys vspec limit (vspecPieces v) v.sorted := by
  have spans : Conveys (items v.spans.length span) limit (v.spans.flatMap spanPieces)
      (v.spans.map id) := conveys_items fun s _ => conveys_span s
  rw [List.map_id] at spans
  refine (conveys_address v.doc).bind ((conveys_count v.spans.length).bind ?_)
  exact spans.bind_pure fun spans => VSpec.ofSpans v.doc spans

theorem conveys_specItem (item : SpecItem) :
    Conveys specItem limit (specItemPieces item) item.sorted := by
  cases item with
  | span s =>
    refine (conveys_byte spanTag).bind ?_
    rw [if_pos rfl]
    exact (conveys_span s).bind_pure SpecItem.span
  | vspec v =>
    refine (conveys_byte vspecTag).bind ?_
    rw [if_neg (by decide), if_pos rfl]
    exact (conveys_vspec v).bind_pure SpecItem.vspec

theorem conveys_specSet (set : SpecSet) : Conveys specSet limit (specSetPieces set) set.sorted :=
  (conveys_counted fun item _ => conveys_specItem item).map SpecSet.mk

def addressPieces (as : List Address) : List Piece :=
  .number as.length :: as.flatMap fun a => [.tumbler a.tumbler]

theorem conveys_addresses (as : List Address) :
    Conveys addresses limit (addressPieces as) as := by
  have counted : Conveys addresses limit (addressPieces as) (as.map id) :=
    conveys_counted fun a _ => conveys_address a
  rwa [List.map_id] at counted

def contentPieces : Content → List Piece
  | .text s => [.text s]
  | .link a => [.tumbler a.tumbler]

/-- The exponent form begins with the digits of the exponent. -/
theorem written_tumbler_head (t : Tumbler) :
    ∃ b later, (Latin.char b).isDigit = true ∧ written [.tumbler t] = b :: later := by
  obtain ⟨c, digits, exponent⟩ : ∃ c digits, Nat.toDigits 10 t.exponent = c :: digits :=
    List.exists_cons_of_ne_nil Nat.toDigits_ne_nil
  have digit : c.isDigit = true := by
    refine Decimal.isDigit_toDigits (n := t.exponent) c ?_
    rw [exponent]
    exact List.mem_cons_self
  have same : Latin.char (UInt8.ofNat c.toNat) = c :=
    char_ofNat (toNat_lt_of_isFormChar (Or.inl digit))
  have chars : t.exponentForm.toList = c :: (digits ++
      (Tumbler.digitTexts (t.digits.drop t.exponent)).flatMap ('.' :: ·)) := by
    rw [Tumbler.exponentForm, String.toList_ofList, exponent]
    rfl
  have bytes : written [.tumbler t] = Latin.ascii t.exponentForm ++ [terminator] :=
    List.flatMap_singleton _ _
  rw [Latin.ascii, chars, List.map_cons, List.cons_append] at bytes
  exact ⟨UInt8.ofNat c.toNat, _, by rwa [same], bytes⟩

theorem conveys_content (c : Content) : Conveys content limit (contentPieces c) c := by
  cases c with
  | text s =>
    refine Conveys.peek_bind (b := textTag) ?_ ⟨encodeCount s.length ++ Latin.ascii s, ?_⟩
    · rw [if_pos rfl]
      exact (conveys_text s).bind_pure Content.text
    · simp [written, contentPieces, Piece.bytes]
  | link a =>
    obtain ⟨b, later, digit, split⟩ := written_tumbler_head a.tumbler
    refine Conveys.peek_bind (b := b) ?_ ⟨later, split⟩
    have untagged : b ≠ textTag := by
      rintro rfl
      exact absurd digit (by decide)
    rw [if_neg untagged, if_pos digit]
    exact (conveys_address a).bind_pure Content.link

end Wire.Reading
end Docuverse
