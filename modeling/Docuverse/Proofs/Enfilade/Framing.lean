import Docuverse.Enfilade.Reading
import Docuverse.Proofs.Wire.Typed

namespace Docuverse.Enfilade.Reading

open Wire (Reading)
open Wire.Reading

theorem framed_lettered {α : Type} {value : Reading α} (letter : Char) (context : String)
    (framed : Framed value) : Framed (lettered letter context value) :=
  (framed_expect letter.toUInt8 context).bind fun _ => framed

theorem framed_flavour : Framed flavour := by
  refine framed_number.bind fun code => ?_
  split
  · exact framed_pure _
  · exact framed_throw _

theorem framed_label : Framed label :=
  (framed_lettered '(' "crum" framed_number).bind fun depth =>
    (framed_lettered 'h' "crum height" framed_number).bind fun height =>
      (framed_lettered 'e' "crum enftype" framed_flavour).bind fun flavour =>
        (framed_lettered 'w' "crum widths" (framed_counted framed_tumbler)).bind fun widths =>
          (framed_lettered 'd' "crum displacements" (framed_counted framed_tumbler)).bind
            fun displacements => framed_pure (Label.mk depth height flavour widths displacements)

theorem framed_orglTree {crum : Reading Crum} (framed : Framed crum) : Framed (orglTree crum) := by
  refine (framed_byte "orgl residency").bind fun residency => ?_
  split
  · exact framed_pure none
  · split
    · exact framed.bind fun tree => framed_pure (some tree)
    · exact framed_throw _

theorem hungry_home (label : Label) : Hungry (home label) :=
  ((hungry_byte "bottom crum info").map _).bind _

theorem framed_home (label : Label) : Framed (home label) :=
  ((framed_byte "bottom crum info").map _).bind fun _ =>
    framed_address.bind fun doc => framed_pure (Crum.home label doc)

theorem framed_atom {crum : Reading Crum} (framed : Framed crum) (label : Label) (code : UInt64) :
    Framed (atom crum label code) := by
  unfold atom
  split
  · exact (framed_expect 't'.toUInt8 "text atom").bind fun _ =>
      (framed_textBody "text atom").bind fun text => framed_pure (Crum.text label text)
  · split
    · exact (framed_expect 'o'.toUInt8 "orgl atom").bind fun _ =>
        (framed_orglTree framed).bind fun tree => framed_pure (Crum.orgl label tree.isSome tree)
    · exact framed_throw _

theorem framed_bottom {crum : Reading Crum} (framed : Framed crum) (label : Label) :
    Framed (bottom crum label) := by
  refine (framed_expect 'i'.toUInt8 "bottom crum").bind fun _ => ?_
  refine framed_peek_bind "bottom crum info" (fun first => ?_) (fun first limit value => ?_)
  · split
    · exact framed_home label
    · exact framed_number.bind fun code => framed_atom framed label code
  · split
    · exact (hungry_home label).not_accepts_nil value
    · exact (hungry_number.bind _).not_accepts_nil value

theorem framed_body {crum : Reading Crum} (framed : Framed crum) (label : Label) (n : Nat) :
    Framed (body crum label n) := by
  unfold body
  split
  · exact framed_bottom framed label
  · exact (framed_items framed n).map _

/-- A crum keeps to its frame if those inside it do, for which there is less room. -/
theorem framed_crum (room : Nat) : Framed (crum room) := by
  induction room with
  | zero => exact framed_throw _
  | succ room ih =>
    exact framed_label.bind fun label =>
      (framed_lettered 'c' "crum child count" framed_count).bind fun n =>
        (framed_body ih label n).bind fun found =>
          (framed_expect ')'.toUInt8 "end of crum").bind fun _ => framed_pure found

theorem framed_store : Framed store := by
  refine (framed_byte "dump marker").bind fun marker => ?_
  split
  · exact framed_pure Store.granf
  · split
    · exact framed_pure Store.spanf
    · exact framed_throw _

theorem hungry_dump : Hungry dump := ((hungry_byte "dump marker").bind _).bind _

theorem framed_dump : Framed dump := by
  refine framed_store.bind fun store => framed_number.bind fun present => ?_
  split
  · exact framed_pure _
  · exact (framed_crum (maxNesting + 1)).bind fun root => framed_pure (Dump.mk store (some root))

end Docuverse.Enfilade.Reading
