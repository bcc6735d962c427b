import Docuverse.Enfilade.Reading
import Docuverse.Proofs.Wire.Chunk

namespace Docuverse.Enfilade.Grammar

open Wire.Reading (IsMark IsPlain InOrder)

variable {limit : Nat}

/-- One byte that can only be this letter. -/
def letter (c : Char) : List UInt8 := [c.toUInt8]

/-- A number is any run of digits with its value, and a mark after it. -/
inductive Number (limit : Nat) : List UInt8 → UInt64 → Prop
  | digits {digits mark n} : digits ≠ [] → (∀ d ∈ digits, (Latin.char d).isDigit = true) →
      Nat.ofDigitChars 10 (digits.map Latin.char) 0 = n.toNat → digits.length ≤ limit →
      IsMark mark → Number limit (digits ++ [mark]) n

/-- A number that tells how many items or bytes follow. -/
def Count (limit : Nat) (text : List UInt8) (n : Nat) : Prop :=
  ∃ m : UInt64, Number limit text m ∧ m.toNat = n

/-- A chunk in exponent form, and a mark after it. -/
inductive Place (limit : Nat) : List UInt8 → Tumbler → Prop
  | chunk {body mark t} : (∀ b ∈ body, IsPlain b) →
      Tumbler.ofExponentForm (Latin.text body) = .ok t → body.length ≤ limit → IsMark mark →
      Place limit (body ++ [mark]) t

/-- A count and that many tumblers. -/
inductive Places (limit : Nat) : List UInt8 → List Tumbler → Prop
  | counted {count places tumblers} : Count limit count tumblers.length →
      InOrder (Place limit) places tumblers → Places limit (count ++ places) tumblers

/-- What stands at the head of every crum. -/
inductive Head (limit : Nat) : List UInt8 → Label → Prop
  | fields {depth height flavour widths displacements label} :
      Number limit depth label.depth → Number limit height label.height →
      Number limit flavour label.flavour.code → Places limit widths label.widths →
      Places limit displacements label.displacements →
      Head limit (letter '(' ++ depth ++ letter 'h' ++ height ++ letter 'e' ++ flavour ++
        letter 'w' ++ widths ++ letter 'd' ++ displacements) label

/-- What stands in a crum without children, where `Inside` gives the texts of whole crums. -/
inductive Bottom (limit : Nat) (Inside : List UInt8 → Crum → Prop) :
    List UInt8 → Label → Crum → Prop
  | home {label place doc} : Place limit place doc.tumbler →
      Bottom limit Inside (letter 'h' ++ place) label (.home label doc)
  | text {label code length bytes} : Number limit code 1 → Count limit length bytes.length →
      bytes.length ≤ limit →
      Bottom limit Inside (code ++ letter 't' ++ length ++ bytes) label
        (.text label (Latin.text bytes))
  | absent {label code} : Number limit code 2 →
      Bottom limit Inside (code ++ letter 'o' ++ letter '0') label (.orgl label false none)
  | present {label code inside tree} : Number limit code 2 → Inside inside tree →
      Bottom limit Inside (code ++ letter 'o' ++ letter '1' ++ inside) label
        (.orgl label true (some tree))

/-- A crum declares as many children as it has; the one that declares none is a bottom crum. -/
inductive Whole (limit : Nat) : List UInt8 → Crum → Prop
  | interior {head label count inside children} : Head limit head label → children ≠ [] →
      Count limit count children.length → InOrder (Whole limit) inside children →
      Whole limit (head ++ letter 'c' ++ count ++ inside ++ letter ')') (.interior label children)
  | bottom {head label count inside crum} : Head limit head label → Count limit count 0 →
      Bottom limit (Whole limit) inside label crum →
      Whole limit (head ++ letter 'c' ++ count ++ letter 'i' ++ inside ++ letter ')') crum

/-- The letter of a store. -/
def marker : Store → Char
  | .granf => 'g'
  | .spanf => 's'

/-- What the text of a dump shows, if no chunk and no text in it is longer than the limit. There is a
root crum exactly when the number before it is not zero. -/
inductive Shown (limit : Nat) : List UInt8 → Dump → Prop
  | nothing {present store} : Number limit present 0 →
      Shown limit (letter (marker store) ++ present) ⟨store, none⟩
  | root {present n store whole crum} : Number limit present n → n ≠ 0 → Whole limit whole crum →
      Shown limit (letter (marker store) ++ present ++ whole) ⟨store, some crum⟩

end Grammar

mutual

/-- How many crums stand around the innermost one, children and orgls alike. -/
def Crum.nesting : Crum → Nat
  | interior _ children => nestingBelow children
  | home .. => 0
  | text .. => 0
  | orgl _ _ none => 0
  | orgl _ _ (some tree) => tree.nesting + 1

/-- The same below a crum with these children. -/
def Crum.nestingBelow : List Crum → Nat
  | [] => 0
  | crum :: crums => max (crum.nesting + 1) (nestingBelow crums)

end

def Dump.nesting (dump : Dump) : Nat := dump.root.elim 0 Crum.nesting

theorem Crum.nestingBelow_lt {children : List Crum} {room : Nat} :
    nestingBelow children < room + 1 ↔ ∀ child ∈ children, child.nesting < room := by
  induction children with
  | nil => simp [nestingBelow]
  | cons crum crums ih =>
    rw [nestingBelow, Nat.max_lt, Nat.add_lt_add_iff_right, ih, List.forall_mem_cons]

end Docuverse.Enfilade
