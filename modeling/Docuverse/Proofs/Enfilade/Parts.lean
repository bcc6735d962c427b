import Docuverse.Proofs.Enfilade.Framing
import Docuverse.Proofs.Wire.Parts

namespace Docuverse.Enfilade

/-- The crum itself and the tumblers that it is labelled with. -/
def Label.parts (label : Label) : List Part :=
  .crum :: (tumblerParts label.widths ++ tumblerParts label.displacements)

namespace Crum

mutual

/-- A crum with all that it holds, orgls included. -/
def parts : Crum → List Part
  | interior label children => label.parts ++ partsAll children
  | home label doc => label.parts ++ [.tumbler doc.tumbler]
  | text label s => label.parts ++ textParts s
  | orgl label _ none => label.parts
  | orgl label _ (some tree) => label.parts ++ tree.parts

def partsAll : List Crum → List Part
  | [] => []
  | crum :: crums => crum.parts ++ partsAll crums

end

theorem partsAll_eq_flatMap (crums : List Crum) : partsAll crums = crums.flatMap parts := by
  induction crums with
  | nil => rfl
  | cons crum crums ih => rw [partsAll, ih, List.flatMap_cons]

theorem count_tumblerParts (ts : List Tumbler) : (tumblerParts ts).count .crum = 0 := by
  rw [tumblerParts, List.count_eq_zero]
  simp

theorem count_textParts (s : String) : (textParts s).count .crum = 0 := by
  rw [textParts, List.count_eq_zero]
  simp

theorem count_labelParts (label : Label) : label.parts.count .crum = 1 := by
  rw [Label.parts, List.count_cons_self, List.count_append, count_tumblerParts, count_tumblerParts]

mutual

/-- The crums among the parts are those that are counted. -/
theorem count_parts : (crum : Crum) → crum.parts.count .crum = crum.count
  | interior label children => by
    rw [parts, count, List.count_append, count_labelParts, count_partsAll children]
  | home label doc => by
    rw [parts, count, List.count_append, count_labelParts]
    rfl
  | text label s => by
    rw [parts, count, List.count_append, count_labelParts, count_textParts]
  | orgl label inMemory none => by
    rw [parts, count, count_labelParts]
  | orgl label inMemory (some tree) => by
    rw [parts, count, List.count_append, count_labelParts, count_parts tree]

theorem count_partsAll : (crums : List Crum) → (partsAll crums).count .crum = countAll crums
  | [] => rfl
  | crum :: crums => by
    rw [partsAll, countAll, List.count_append, count_parts crum, count_partsAll crums]

end

end Crum

def Dump.parts (dump : Dump) : List Part := dump.root.elim [] Crum.parts

theorem Dump.count_parts (dump : Dump) : dump.parts.count .crum = dump.count := by
  rw [Dump.parts, Dump.count]
  cases dump.root with
  | none => rfl
  | some crum => exact crum.count_parts

/-- A crum with a tumbler, above a crum with two characters. -/
example :
    let below : Crum := .text ⟨0, 0, .gran, [], []⟩ "ab"
    let dump : Dump := ⟨.granf, some (.interior ⟨0, 1, .gran, [⟨[0, 5]⟩], []⟩ [below])⟩
    dump.parts = [.crum, .tumbler ⟨[0, 5]⟩, .crum, .character 'a', .character 'b'] ∧
      dump.count = 2 :=
  ⟨rfl, rfl⟩

namespace Reading

open Wire (Reading)
open Wire.Reading

variable {crum : Reading Crum} {before : List Part}

/-- A letter in front of a value is of no part. -/
theorem pays_lettered {α : Type} {value : Reading α} {parts : α → List Part} (letter : Char)
    (context : String) (pays : Pays value before parts) :
    Pays (lettered letter context value) before parts :=
  ((framed_expect letter.toUInt8 context).pays before).bind fun _ => pays

theorem pays_tumblers : Pays (counted tumbler) [] tumblerParts := pays_counted_single pays_tumbler

/-- The bracket that opens a crum is that of the crum itself. -/
theorem pays_label : Pays label [] Label.parts := by
  have opens : Pays (lettered '(' "crum" Wire.Reading.number) [] fun _ => [.crum] :=
    (pays_expect (Or.inr (Or.inr rfl)) _ _).bind fun _ => framed_number.pays _
  refine opens.bind fun depth => (pays_lettered 'h' _ (framed_number.pays _)).bind fun height =>
    (pays_lettered 'e' _ (framed_flavour.pays _)).bind fun flavour =>
      (pays_lettered 'w' _ (pays_tumblers.frame _)).bind fun widths =>
        (pays_lettered 'd' _ (pays_tumblers.frame _)).bind fun displacements => pays_pure ?_
  exact .refl _

theorem pays_orglTree (inside : Pays crum [] Crum.parts) (label : Label) :
    Pays (orglTree crum) label.parts fun tree =>
      (Crum.orgl label tree.isSome tree).parts := by
  refine ((framed_byte "orgl residency").pays _).bind fun residency => ?_
  split
  · exact pays_pure (.refl _)
  · split
    · exact (inside.frame _).bind fun tree => pays_pure (.refl _)
    · exact pays_throw _

theorem pays_home (label : Label) : Pays (home label) label.parts Crum.parts := by
  have first : Framed (discard (byte "bottom crum info")) := (framed_byte _).map _
  exact (first.pays _).bind fun _ => (pays_address.frame _).bind fun doc => pays_pure (.refl _)

theorem pays_atom (inside : Pays crum [] Crum.parts) (label : Label) (code : UInt64) :
    Pays (atom crum label code) label.parts Crum.parts := by
  unfold atom
  split
  · exact ((framed_expect _ _).pays _).bind fun _ =>
      ((pays_textBody _).frame _).bind fun text => pays_pure (.refl _)
  · split
    · exact ((framed_expect _ _).pays _).bind fun _ =>
        (pays_orglTree inside label).bind fun tree => pays_pure (.refl _)
    · exact pays_throw _

theorem pays_bottom (inside : Pays crum [] Crum.parts) (label : Label) :
    Pays (bottom crum label) label.parts Crum.parts := by
  refine ((framed_expect _ _).pays _).bind fun _ => (pays_peek _ _).bind fun first => ?_
  split
  · exact pays_home label
  · exact (framed_number.pays _).bind fun code => pays_atom inside label code

theorem pays_body (inside : Pays crum [] Crum.parts) (label : Label) (n : Nat) :
    Pays (body crum label n) label.parts Crum.parts := by
  unfold body
  split
  · exact pays_bottom inside label
  · have children := (pays_items inside n).frame label.parts
    simp only [← Crum.partsAll_eq_flatMap] at children
    exact children.map (Crum.interior label)

theorem pays_crum (room : Nat) : Pays (Reading.crum room) [] Crum.parts := by
  induction room with
  | zero => exact pays_throw _
  | succ room ih =>
    exact pays_label.bind fun label => (pays_lettered 'c' _ (framed_count.pays _)).bind fun n =>
      (pays_body ih label n).bind fun found =>
        ((framed_expect _ _).pays _).bind fun _ => pays_pure (.refl _)

theorem pays_dump : Pays dump [] Dump.parts := by
  refine (framed_store.pays []).bind fun store => (framed_number.pays []).bind fun present => ?_
  split
  · exact pays_pure (.refl _)
  · exact (pays_crum (maxNesting + 1)).bind fun root => pays_pure (.refl _)

end Reading
end Docuverse.Enfilade
