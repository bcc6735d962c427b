import Docuverse.Proofs.Tumbler.ExponentForm
import Docuverse.Proofs.Wire.Framing
import Docuverse.Wire.Reading

namespace Docuverse.Wire.Reading

variable {context : String} {limit : Nat} {ending : Ending}

/-- A byte that ends a chunk. -/
def IsMark (b : UInt8) : Prop := b = terminator ∨ b = newline

/-- A byte that may stand in a chunk. -/
def IsPlain (b : UInt8) : Prop := b ≠ terminator ∧ b ≠ newline ∧ b ≠ refusal

theorem isPlain_iff {b : UInt8} : IsPlain b ↔ ¬ IsMark b ∧ b ≠ refusal := by
  rw [IsPlain, IsMark, not_or, and_assoc]

/-- There is room under the limit for each byte of `body`, after bytes that weigh `used`. -/
def Fits (limit : Nat) : Nat → List UInt8 → Prop
  | _, [] => True
  | used, b :: body => used < limit ∧ Fits limit (used + weight b) body

/-- What the bytes of `body` weigh, after bytes that weigh `used`. -/
def load (used : Nat) (body : List UInt8) : Nat := body.foldl (fun used b => used + weight b) used

theorem fits_append {used : Nat} {front back : List UInt8} :
    Fits limit used (front ++ back) ↔
      Fits limit used front ∧ Fits limit (load used front) back := by
  induction front generalizing used with
  | nil => simp [Fits, load]
  | cons b front ih => simp only [List.cons_append, Fits, ih, load, List.foldl_cons, and_assoc]

/-- What fits under a limit fits under a greater one. -/
theorem Fits.mono {used greater : Nat} {body : List UInt8} (fits : Fits limit used body)
    (le : limit ≤ greater) : Fits greater used body := by
  induction body generalizing used with
  | nil => trivial
  | cons b body ih => exact ⟨Nat.lt_of_lt_of_le fits.1 le, ih fits.2⟩

/-- Bytes that weigh one each fit if they are no more than the limit. -/
theorem fits_of_light {used : Nat} {body : List UInt8} (light : ∀ b ∈ body, weight b = 1) :
    Fits limit used body ↔ body = [] ∨ used + body.length ≤ limit := by
  induction body generalizing used with
  | nil => simp [Fits]
  | cons b body ih =>
    have others := fun x member => light x (List.mem_cons_of_mem b member)
    rw [Fits, light b List.mem_cons_self, ih others]
    simp only [List.length_cons]
    refine ⟨?_, ?_⟩
    · intro parts
      obtain ⟨room, rfl | short⟩ := parts
      · exact Or.inr room
      · exact Or.inr (by omega)
    · intro either
      rcases either with empty | short
      · cases empty
      · exact ⟨by omega, Or.inr (by omega)⟩

theorem chunkFrom_mark {before : List Char} {used : Nat} {mark : UInt8} {rest : List UInt8}
    (ends : IsMark mark) :
    chunkFrom context limit ending before used (mark :: rest) =
      .ok (String.ofList before.reverse) ⟨rest, ending⟩ := by
  rw [chunkFrom]
  exact if_pos ends

/-- Plain bytes for which there is room go into the chunk. -/
theorem chunkFrom_append {before : List Char} {used : Nat} {body rest : List UInt8}
    (plain : ∀ b ∈ body, IsPlain b) (fits : Fits limit used body) :
    chunkFrom context limit ending before used (body ++ rest) =
      chunkFrom context limit ending ((body.map Latin.char).reverse ++ before) (load used body)
        rest := by
  induction body generalizing before used with
  | nil => rfl
  | cons b body ih =>
    obtain ⟨notTerminator, notNewline, notRefusal⟩ := plain b List.mem_cons_self
    have unmarked : ¬ (b = terminator ∨ b = newline) := by
      intro either
      rcases either with same | same
      · exact notTerminator same
      · exact notNewline same
    rw [List.cons_append, chunkFrom, if_neg unmarked, if_neg notRefusal,
      if_neg (Nat.not_le.mpr fits.1),
      ih (fun x member => plain x (List.mem_cons_of_mem b member)) fits.2]
    simp only [List.map_cons, List.reverse_cons, List.append_assoc, List.singleton_append, load,
      List.foldl_cons]

/-- A chunk that was found ends at the first byte that is not plain, and fits. -/
theorem of_chunkFrom {before : List Char} {used : Nat} {bytes : List UInt8} {value : String}
    {left : Inbound} (found : chunkFrom context limit ending before used bytes = .ok value left) :
    ∃ body mark, bytes = body ++ mark :: left.unread ∧ left.ending = ending ∧
      (∀ b ∈ body, IsPlain b) ∧ IsMark mark ∧ Fits limit used body ∧
      value = String.ofList (before.reverse ++ body.map Latin.char) := by
  induction bytes generalizing before used with
  | nil => cases found
  | cons b rest ih =>
    rw [chunkFrom] at found
    split at found
    next ends =>
      cases found
      exact ⟨[], b, rfl, rfl, by simp, ends, trivial, by simp⟩
    next unmarked =>
      split at found
      · cases found
      next notRefusal =>
        split at found
        · cases found
        next room =>
          obtain ⟨body, mark, rfl, same, plain, ends, fits, rfl⟩ := ih found
          refine ⟨b :: body, mark, rfl, same, ?_, ends, ⟨Nat.not_le.mp room, fits⟩, by simp⟩
          intro x member
          rcases List.mem_cons.mp member with rfl | later
          · have notTerminator : x ≠ terminator := fun same => unmarked (Or.inl same)
            have notNewline : x ≠ newline := fun same => unmarked (Or.inr same)
            exact ⟨notTerminator, notNewline, notRefusal⟩
          · exact plain x later

theorem accepts_chunk {text : List UInt8} {value : String} :
    (chunk context).Accepts limit text value ↔ ∃ body mark, text = body ++ [mark] ∧
      (∀ b ∈ body, IsPlain b) ∧ IsMark mark ∧ Fits limit 0 body ∧ value = Latin.text body := by
  refine ⟨?_, ?_⟩
  · intro accepts
    obtain ⟨body, mark, split, _, plain, ends, fits, rfl⟩ := of_chunkFrom (accepts [] .closed)
    rw [List.append_nil] at split
    exact ⟨body, mark, split, plain, ends, fits, rfl⟩
  · intro parts rest ending
    obtain ⟨body, mark, rfl, plain, ends, fits, rfl⟩ := parts
    show chunkFrom context limit ending [] 0 (body ++ [mark] ++ rest) = _
    rw [List.append_assoc, chunkFrom_append plain fits, List.singleton_append, chunkFrom_mark ends,
      List.append_nil, List.reverse_reverse, Latin.text]

/-- Without a mark the chunk is not at its end. -/
theorem chunk_starves {body : List UInt8} (plain : ∀ b ∈ body, IsPlain b)
    (fits : Fits limit 0 body) : (chunk context).Starves limit body := by
  intro ending
  refine ⟨context, ?_⟩
  show chunkFrom context limit ending [] 0 body = _
  rw [← List.append_nil body, chunkFrom_append plain fits, chunkFrom]

theorem hungry_chunk (context : String) : Hungry (chunk context) :=
  fun _ => chunk_starves (by simp) trivial

theorem framed_chunk (context : String) : Framed (chunk context) := by
  intro limit inbound value left found
  obtain ⟨unread, ending⟩ := inbound
  obtain ⟨body, mark, rfl, rfl, plain, ends, fits, rfl⟩ := of_chunkFrom found
  refine ⟨body ++ [mark], by simp, accepts_chunk.mpr ⟨body, mark, rfl, plain, ends, fits, rfl⟩, ?_⟩
  intro front proper unequal
  obtain ⟨missing, rfl⟩ := (List.prefix_concat_iff.mp proper).resolve_left unequal
  exact chunk_starves (fun b member => plain b (List.mem_append_left missing member))
    (fits_append.mp fits).1

theorem isDigit_char {b : UInt8} :
    (Latin.char b).isDigit = true ↔ 48 ≤ b.toNat ∧ b.toNat ≤ 57 := by
  have same := Latin.toNat_char b
  rw [Char.isDigit, Bool.and_eq_true, decide_eq_true_iff, decide_eq_true_iff, ge_iff_le,
    UInt32.le_iff_toNat_le, UInt32.le_iff_toNat_le]
  change '0'.toNat ≤ (Latin.char b).toNat ∧ (Latin.char b).toNat ≤ '9'.toNat ↔ _
  rw [same]
  rfl

/-- The digits and the point, by their numbers, end no chunk and weigh one. -/
theorem plain_of_range {b : UInt8} (low : 46 ≤ b.toNat) (high : b.toNat ≤ 57) :
    IsPlain b ∧ weight b = 1 := by
  refine ⟨⟨?_, ?_, ?_⟩, ?_⟩
  · rintro rfl
    exact absurd high (by decide)
  · rintro rfl
    exact absurd low (by decide)
  · rintro rfl
    exact absurd high (by decide)
  · rw [weight, if_pos]
    rw [UInt8.lt_iff_toNat_lt]
    exact Nat.lt_of_le_of_lt high (by decide)

theorem plain_of_digits {digits : List UInt8}
    (all : ∀ d ∈ digits, (Latin.char d).isDigit = true) :
    ∀ d ∈ digits, IsPlain d ∧ weight d = 1 := by
  intro d member
  obtain ⟨low, high⟩ := isDigit_char.mp (all d member)
  exact plain_of_range (by omega) high

theorem ofNumeral_eq_ok {chunk : String} {n : UInt64} :
    ofNumeral chunk = .ok n ↔ Decimal.read chunk.toList = .ok n := by
  rw [ofNumeral]
  cases Decimal.read chunk.toList with
  | ok m => simp
  | error defect => cases defect <;> simp

/-- What a chunk yields that has to be understood before it is a value. -/
theorem accepts_ofChunk {α : Type} {parse : String → Except Fault α} {text : List UInt8}
    {value : α} :
    Accepts (do ofExcept (parse (← chunk context))) limit text value ↔
      ∃ body mark, text = body ++ [mark] ∧ (∀ b ∈ body, IsPlain b) ∧ IsMark mark ∧
        Fits limit 0 body ∧ parse (Latin.text body) = .ok value := by
  rw [(framed_chunk context).accepts_bind]
  refine ⟨?_, ?_⟩
  · intro parts
    obtain ⟨chunk, front, back, rfl, found, understood⟩ := parts
    obtain ⟨body, mark, rfl, plain, ends, fits, rfl⟩ := accepts_chunk.mp found
    obtain ⟨rfl, parsed⟩ := accepts_ofExcept.mp understood
    exact ⟨body, mark, List.append_nil _, plain, ends, fits, parsed⟩
  · intro parts
    obtain ⟨body, mark, rfl, plain, ends, fits, parsed⟩ := parts
    exact ⟨Latin.text body, body ++ [mark], [], (List.append_nil _).symm,
      accepts_chunk.mpr ⟨body, mark, rfl, plain, ends, fits, rfl⟩,
      accepts_ofExcept.mpr ⟨rfl, parsed⟩⟩

theorem framed_ofChunk {α : Type} (parse : String → Except Fault α) :
    Framed (do ofExcept (parse (← chunk context))) :=
  (framed_chunk context).bind fun chunk => framed_ofExcept (parse chunk)

theorem hungry_number : Hungry number := (hungry_chunk "number").bind _

theorem framed_number : Framed number := framed_ofChunk ofNumeral

/-- A number is a run of digits, of which the limit bounds the length, and a mark. -/
theorem accepts_number {text : List UInt8} {n : UInt64} :
    number.Accepts limit text n ↔ ∃ digits mark, text = digits ++ [mark] ∧ digits ≠ [] ∧
      (∀ d ∈ digits, (Latin.char d).isDigit = true) ∧
      Nat.ofDigitChars 10 (digits.map Latin.char) 0 = n.toNat ∧ digits.length ≤ limit ∧
      IsMark mark := by
  rw [number, accepts_ofChunk]
  simp only [ofNumeral_eq_ok, Decimal.read_eq_ok_iff, Latin.text, String.toList_ofList, ne_eq,
    List.map_eq_nil_iff, List.all_map, List.all_eq_true, Function.comp_apply]
  refine ⟨?_, ?_⟩
  · intro parts
    obtain ⟨digits, mark, split, plain, ends, fits, nonempty, all, value⟩ := parts
    have light := fun d member => (plain_of_digits all d member).2
    refine ⟨digits, mark, split, nonempty, all, value, ?_, ends⟩
    simpa [nonempty] using (fits_of_light light).mp fits
  · intro parts
    obtain ⟨digits, mark, split, nonempty, all, value, short, ends⟩ := parts
    have light := fun d member => (plain_of_digits all d member).2
    refine ⟨digits, mark, split, fun d member => (plain_of_digits all d member).1, ends, ?_,
      nonempty, all, value⟩
    exact (fits_of_light light).mpr (Or.inr (by omega))

theorem hungry_count : Hungry count := hungry_number.map _

theorem framed_count : Framed count := framed_number.map _

theorem accepts_count {text : List UInt8} {n : Nat} :
    count.Accepts limit text n ↔ ∃ m : UInt64, number.Accepts limit text m ∧ m.toNat = n :=
  framed_number.accepts_map _

theorem isPlain_of_isFormChar {b : UInt8} (formChar : Tumbler.IsFormChar (Latin.char b)) :
    IsPlain b ∧ weight b = 1 := by
  rcases formChar with digit | point
  · obtain ⟨low, high⟩ := isDigit_char.mp digit
    exact plain_of_range (by omega) high
  · have number := Latin.toNat_char b
    rw [point] at number
    exact plain_of_range (Nat.le_of_eq number) (Nat.le_trans (Nat.le_of_eq number.symm) (by decide))

/-- A tumbler is a chunk in exponent form, of which the limit bounds the length, and a mark. -/
theorem accepts_tumbler {text : List UInt8} {t : Tumbler} :
    tumbler.Accepts limit text t ↔ ∃ body mark, text = body ++ [mark] ∧
      (∀ b ∈ body, IsPlain b) ∧ Tumbler.ofExponentForm (Latin.text body) = .ok t ∧
      body.length ≤ limit ∧ IsMark mark := by
  have light {body : List UInt8} (read : Tumbler.ofExponentForm (Latin.text body) = .ok t) :
      ∀ b ∈ body, weight b = 1 := by
    intro b member
    refine (isPlain_of_isFormChar (Tumbler.isFormChar_of_ofExponentForm read (Latin.char b) ?_)).2
    rw [Latin.text, String.toList_ofList]
    exact List.mem_map_of_mem member
  rw [tumbler, accepts_ofChunk]
  refine ⟨?_, ?_⟩
  · intro parts
    obtain ⟨body, mark, split, plain, ends, fits, read⟩ := parts
    refine ⟨body, mark, split, plain, read, ?_, ends⟩
    rcases (fits_of_light (light read)).mp fits with rfl | short
    · exact Nat.zero_le limit
    · omega
  · intro parts
    obtain ⟨body, mark, split, plain, read, short, ends⟩ := parts
    have fits : Fits limit 0 body := (fits_of_light (light read)).mpr (Or.inr (by omega))
    exact ⟨body, mark, split, plain, ends, fits, read⟩

theorem hungry_tumbler : Hungry tumbler := (hungry_chunk "tumbler").bind _

theorem framed_tumbler : Framed tumbler := framed_ofChunk Tumbler.ofExponentForm

end Docuverse.Wire.Reading
