import Docuverse.Proofs.Tumbler.ExponentForm
import Docuverse.Proofs.Wire.Conveyance
import Docuverse.Proofs.Wire.Encodable
import Mathlib.Data.List.Forall2

namespace Docuverse

namespace Tumbler

theorem zeros_append_drop (t : Tumbler) :
    List.replicate t.exponent 0 ++ t.digits.drop t.exponent = t.digits := by
  rw [← take_exponent, List.take_append_drop]

theorem toDigits_inj {m n : Nat} (same : Nat.toDigits 10 m = Nat.toDigits 10 n) : m = n := by
  rw [← Nat.ofDigitChars_ten_toDigits (n := m), same, Nat.ofDigitChars_ten_toDigits]

theorem digitTexts_inj {ds es : List UInt64} (same : digitTexts ds = digitTexts es) : ds = es := by
  have read := mapM_readDigit_digitTexts "" es
  rw [← same, mapM_readDigit_digitTexts] at read
  exact Except.ok.inj read

/-- A tumbler has a form of its own, also where its exponent is too large to be read. -/
theorem exponentForm_inj {t u : Tumbler} (same : t.exponentForm = u.exponentForm) : t = u := by
  have fields := separated_exponentForm t
  rw [same, separated_exponentForm u] at fields
  obtain ⟨exponents, digits⟩ := Prod.mk.inj fields
  have exponent : u.exponent = t.exponent := toDigits_inj exponents
  have kept : t.digits = u.digits := by
    rw [← zeros_append_drop t, ← zeros_append_drop u, digitTexts_inj digits, exponent]
  cases t; cases u; exact congrArg mk kept

end Tumbler

namespace Wire

open Reading

/-- In front of any bytes, what is written tells the value and where it ends. -/
def PrefixFree {α : Type} (write : α → List UInt8) : Prop :=
  ∀ ⦃x y rest rest'⦄, write x ++ rest = write y ++ rest' → x = y ∧ rest = rest'

section Writing

variable {α β : Type} {write : α → List UInt8} {write' : β → List UInt8}
  {rest rest' : List UInt8}

/-- A reading can only be of one mind about the same bytes. -/
theorem Reading.Accepts.unique {reading : Reading α} {limit : Nat} {front back : List UInt8}
    {x y : α} (first : reading.Accepts limit front x) (second : reading.Accepts limit back y)
    (same : front ++ rest = back ++ rest') : x = y ∧ rest = rest' := by
  have found := first rest .closed
  rw [same, second rest' .closed] at found
  cases found
  exact ⟨rfl, rfl⟩

theorem prefixFree_form (form : α → String)
    (formChars : ∀ x, ∀ c ∈ (form x).toList, Tumbler.IsFormChar c)
    (inj : ∀ {x y}, form x = form y → x = y) :
    PrefixFree fun x => Latin.ascii (form x) ++ [terminator] := by
  intro x y rest rest' same
  have chunked (z : α) (short : (form z).length ≤ max (form x).length (form y).length) :
      (chunk "").Accepts (max (form x).length (form y).length)
        (Latin.ascii (form z) ++ [terminator]) (form z) :=
    accepts_chunk_ascii (formChars z) short
  obtain ⟨forms, rests⟩ :=
    (chunked x (Nat.le_max_left _ _)).unique (chunked y (Nat.le_max_right _ _)) same
  exact ⟨inj forms, rests⟩

theorem prefixFree_count : PrefixFree encodeCount := by
  refine prefixFree_form Nat.repr (fun n c member => Or.inl (isDigit_repr n c member)) ?_
  intro m n same
  have digits := congrArg String.toList same
  rw [Nat.toList_repr, Nat.toList_repr] at digits
  exact Tumbler.toDigits_inj digits

theorem PrefixFree.comap (free : PrefixFree write) {f : β → α} (inj : Function.Injective f) :
    PrefixFree fun x => write (f x) := by
  intro x y rest rest' same
  obtain ⟨parts, rests⟩ := free same
  exact ⟨inj parts, rests⟩

theorem PrefixFree.append (free : PrefixFree write) (free' : PrefixFree write') :
    PrefixFree fun x : α × β => write x.1 ++ write' x.2 := by
  intro x y rest rest' same
  simp only [List.append_assoc] at same
  obtain ⟨first, later⟩ := free same
  obtain ⟨second, rests⟩ := free' later
  exact ⟨Prod.ext first second, rests⟩

theorem prefixFree_number : PrefixFree encodeNumber :=
  prefixFree_count.comap fun _ _ => UInt64.toNat_inj.mp

theorem prefixFree_tumbler : PrefixFree encodeTumbler :=
  prefixFree_form Tumbler.exponentForm Tumbler.isFormChar_exponentForm Tumbler.exponentForm_inj

/-- As many values, one after the other. -/
theorem PrefixFree.flatMap (free : PrefixFree write) {xs ys : List α}
    (length : xs.length = ys.length) (same : xs.flatMap write ++ rest = ys.flatMap write ++ rest') :
    xs = ys ∧ rest = rest' := by
  induction xs generalizing ys with
  | nil =>
    obtain rfl := List.length_eq_zero_iff.mp length.symm
    exact ⟨rfl, same⟩
  | cons x xs ih =>
    cases ys with
    | nil => cases length
    | cons y ys =>
      rw [List.flatMap_cons, List.flatMap_cons, List.append_assoc, List.append_assoc] at same
      obtain ⟨rfl, later⟩ := free same
      obtain ⟨rfl, rests⟩ := ih (Nat.succ.inj length) later
      exact ⟨rfl, rests⟩

/-- Values after their number. -/
theorem PrefixFree.counted (free : PrefixFree write) :
    PrefixFree fun xs : List α => encodeCount xs.length ++ xs.flatMap write := by
  intro xs ys rest rest' same
  simp only [List.append_assoc] at same
  obtain ⟨length, later⟩ := prefixFree_count same
  exact free.flatMap length later

theorem prefixFree_span : PrefixFree encodeSpan := by
  refine (prefixFree_tumbler.append prefixFree_tumbler).comap
    (f := fun s : Span => (s.start.tumbler, s.width.tumbler)) ?_
  rintro ⟨⟨start⟩, ⟨width⟩⟩ ⟨⟨start'⟩, ⟨width'⟩⟩ same
  cases same
  rfl

theorem prefixFree_vspec : PrefixFree encodeVSpec := by
  have parts : encodeVSpec = fun v => encodeTumbler v.doc.tumbler ++
      (encodeCount v.spans.length ++ v.spans.flatMap encodeSpan) :=
    funext fun v => List.append_assoc _ _ _
  rw [parts]
  refine (prefixFree_tumbler.append prefixFree_span.counted).comap
    (f := fun v : VSpec => (v.doc.tumbler, v.spans)) ?_
  rintro ⟨⟨doc⟩, spans⟩ ⟨⟨doc'⟩, spans'⟩ same
  cases same
  rfl

theorem prefixFree_specItem : PrefixFree encodeSpecItem := by
  intro item item' rest rest' same
  cases item with
  | span s =>
    cases item' with
    | span s' =>
      obtain ⟨rfl, rests⟩ := prefixFree_span (List.cons.inj same).2
      exact ⟨rfl, rests⟩
    | vspec v' => exact absurd (List.cons.inj same).1 (by decide)
  | vspec v =>
    cases item' with
    | span s' => exact absurd (List.cons.inj same).1 (by decide)
    | vspec v' =>
      obtain ⟨rfl, rests⟩ := prefixFree_vspec (List.cons.inj same).2
      exact ⟨rfl, rests⟩

theorem prefixFree_specSet : PrefixFree encodeSpecSet :=
  prefixFree_specItem.counted.comap (f := SpecSet.items) fun ⟨_⟩ ⟨_⟩ same =>
    congrArg SpecSet.mk same

/-- Bytes after their number, whatever they are. -/
theorem prefixFree_body : PrefixFree fun body : List UInt8 => encodeCount body.length ++ body := by
  intro body body' rest rest' same
  simp only [List.append_assoc] at same
  obtain ⟨length, later⟩ := prefixFree_count same
  exact List.append_inj later length

end Writing

/-- What a value is made of, but for how much of it there is. Values of different shapes share
spellings: `0~` is a number, an empty list, an empty spec set and the empty address. -/
inductive Shape where
  | number
  | text
  | list (item : Shape)
  | address
  | offset
  | span
  | vspec
  | specSet

namespace Shape

/-- The values of a shape. -/
def Admits : Shape → Value → Prop
  | number, value => ∃ n, .number n = value
  | text, value => ∃ s, .text s = value
  | list item, value => ∃ items, .list items = value ∧ ∀ part ∈ items, item.Admits part
  | address, value => ∃ a, .address a = value
  | offset, value => ∃ o, .offset o = value
  | span, value => ∃ s, .span s = value
  | vspec, value => ∃ v, .vspec v = value
  | specSet, value => ∃ set, .specSet set = value

/-- A value of the shape is told by its bytes, and so is where they end. -/
def Tells (shape : Shape) : Prop :=
  ∀ ⦃value value' front front' rest rest'⦄, shape.Admits value → shape.Admits value' →
    value.encode = .ok front → value'.encode = .ok front' → front ++ rest = front' ++ rest' →
    value = value' ∧ rest = rest'

variable {α : Type} {shape : Shape} {shapes : List Shape} {values values' : List Value}
  {front front' rest rest' : List UInt8}

theorem tells_of_prefixFree {make : α → Value} {write : α → List UInt8} (free : PrefixFree write)
    (made : ∀ value, shape.Admits value → ∃ x, make x = value)
    (encodes : ∀ x, (make x).encode = .ok (write x)) : shape.Tells := by
  intro value value' front front' rest rest' admits admits' written written' same
  obtain ⟨x, rfl⟩ := made value admits
  obtain ⟨y, rfl⟩ := made value' admits'
  rw [encodes] at written written'
  cases written
  cases written'
  obtain ⟨rfl, rests⟩ := free same
  exact ⟨rfl, rests⟩

theorem tells_text : Tells .text := by
  rintro _ _ front front' rest rest' ⟨s, rfl⟩ ⟨s', rfl⟩ written written' same
  obtain ⟨body, rfl, rfl⟩ := encodeText_eq_ok.mp written
  obtain ⟨body', rfl, rfl⟩ := encodeText_eq_ok.mp written'
  obtain ⟨rfl, rests⟩ := prefixFree_body (List.cons.inj same).2
  exact ⟨rfl, rests⟩

/-- Values of given shapes, one after the other. -/
theorem tells_all (each : ∀ shape ∈ shapes, shape.Tells) (fits : List.Forall₂ Admits shapes values)
    (fits' : List.Forall₂ Admits shapes values') (written : encodeAll values = .ok front)
    (written' : encodeAll values' = .ok front') (same : front ++ rest = front' ++ rest') :
    values = values' ∧ rest = rest' := by
  induction fits generalizing values' front front' with
  | nil =>
    cases fits'
    cases written
    cases written'
    exact ⟨rfl, same⟩
  | cons admits _ ih =>
    obtain ⟨tells, others⟩ := List.forall_mem_cons.mp each
    cases fits' with
    | cons admits' fits' =>
      obtain ⟨first, back, encodes, writtenLater, rfl⟩ := encodeAll_cons_eq_ok.mp written
      obtain ⟨first', back', encodes', writtenLater', rfl⟩ := encodeAll_cons_eq_ok.mp written'
      rw [List.append_assoc, List.append_assoc] at same
      obtain ⟨rfl, later⟩ := tells admits admits' encodes encodes' same
      obtain ⟨rfl, rests⟩ := ih others fits' writtenLater writtenLater' later
      exact ⟨rfl, rests⟩

theorem forall₂_replicate (each : ∀ value ∈ values, shape.Admits value) :
    List.Forall₂ Admits (List.replicate values.length shape) values := by
  induction values with
  | nil => exact .nil
  | cons value values ih =>
    obtain ⟨first, others⟩ := List.forall_mem_cons.mp each
    exact .cons first (ih others)

/-- Two lists with the same count are lists of the same shapes. -/
theorem tells_list (tells : shape.Tells) : Tells (.list shape) := by
  rintro _ _ front front' rest rest' ⟨items, rfl, each⟩ ⟨items', rfl, each'⟩ written written' same
  obtain ⟨body, encodes, rfl⟩ := encode_list_eq_ok.mp written
  obtain ⟨body', encodes', rfl⟩ := encode_list_eq_ok.mp written'
  rw [List.append_assoc, List.append_assoc] at same
  obtain ⟨length, later⟩ := prefixFree_count same
  have fits := forall₂_replicate each
  rw [length] at fits
  have all : ∀ s ∈ List.replicate items'.length shape, s.Tells := fun s member =>
    List.eq_of_mem_replicate member ▸ tells
  obtain ⟨rfl, rests⟩ := tells_all all fits (forall₂_replicate each') encodes encodes' later
  exact ⟨rfl, rests⟩

/-- The shape is all one has to know of a value to tell it by its bytes. -/
theorem tells (shape : Shape) : shape.Tells := by
  induction shape with
  | number => exact tells_of_prefixFree prefixFree_number (fun _ made => made) fun _ => rfl
  | text => exact tells_text
  | list item ih => exact tells_list ih
  | address =>
    have free : PrefixFree fun a : Address => encodeTumbler a.tumbler :=
      prefixFree_tumbler.comap fun ⟨_⟩ ⟨_⟩ => congrArg Address.mk
    exact tells_of_prefixFree free (fun _ made => made) fun _ => rfl
  | offset =>
    have free : PrefixFree fun o : Offset => encodeTumbler o.tumbler :=
      prefixFree_tumbler.comap fun ⟨_⟩ ⟨_⟩ => congrArg Offset.mk
    exact tells_of_prefixFree free (fun _ made => made) fun _ => rfl
  | span => exact tells_of_prefixFree prefixFree_span (fun _ made => made) fun _ => rfl
  | vspec => exact tells_of_prefixFree prefixFree_vspec (fun _ made => made) fun _ => rfl
  | specSet => exact tells_of_prefixFree prefixFree_specSet (fun _ made => made) fun _ => rfl

end Shape

end Wire
end Docuverse
