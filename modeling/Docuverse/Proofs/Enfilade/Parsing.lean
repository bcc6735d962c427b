import Docuverse.Proofs.Enfilade.Framing
import Docuverse.Proofs.Enfilade.Grammar

namespace Docuverse.Enfilade.Reading

open Wire (Reading)
open Wire.Reading Grammar

variable {limit : Nat} {text : List UInt8}

theorem accepts_number_iff {n : UInt64} :
    number.Accepts limit text n ↔ Number limit text n := by
  rw [accepts_number]
  refine ⟨?_, ?_⟩
  · intro parts
    obtain ⟨digits, mark, rfl, nonempty, all, value, short, ends⟩ := parts
    exact .digits nonempty all value short ends
  · intro parts
    obtain ⟨nonempty, all, value, short, ends⟩ := parts
    exact ⟨_, _, rfl, nonempty, all, value, short, ends⟩

theorem accepts_count_iff {n : Nat} : count.Accepts limit text n ↔ Count limit text n := by
  simp only [accepts_count, accepts_number_iff, Count]

theorem accepts_tumbler_iff {t : Tumbler} :
    tumbler.Accepts limit text t ↔ Place limit text t := by
  rw [accepts_tumbler]
  refine ⟨?_, ?_⟩
  · intro parts
    obtain ⟨body, mark, rfl, plain, read, short, ends⟩ := parts
    exact .chunk plain read short ends
  · intro parts
    obtain ⟨plain, read, short, ends⟩ := parts
    exact ⟨_, _, rfl, plain, read, short, ends⟩

theorem accepts_tumblers_iff {tumblers : List Tumbler} :
    (counted tumbler).Accepts limit text tumblers ↔ Places limit text tumblers := by
  rw [framed_tumbler.accepts_counted]
  refine ⟨?_, ?_⟩
  · intro parts
    obtain ⟨count, places, rfl, counted, inOrder⟩ := parts
    exact .counted (accepts_count_iff.mp counted)
      (inOrder.imp fun _ _ _ accepts => accepts_tumbler_iff.mp accepts)
  · intro parts
    obtain ⟨counted, inOrder⟩ := parts
    exact ⟨_, _, rfl, accepts_count_iff.mpr counted,
      inOrder.imp fun _ _ _ place => accepts_tumbler_iff.mpr place⟩

/-- A letter, and then a value that something depends on. -/
theorem accepts_lettered_bind {α β : Type} {value : Reading α} {next : α → Reading β} {c : Char}
    {context : String} {y : β} (framed : Framed value) :
    Accepts (lettered c context value >>= next) limit text y ↔ ∃ x front back,
      text = letter c ++ front ++ back ∧ value.Accepts limit front x ∧
      (next x).Accepts limit back y := by
  rw [(framed_lettered c context framed).accepts_bind]
  refine ⟨?_, ?_⟩
  · intro parts
    obtain ⟨x, front, back, rfl, accepts, later⟩ := parts
    obtain ⟨front, rfl, found⟩ := accepts_expect_bind.mp accepts
    exact ⟨x, front, back, rfl, found, later⟩
  · intro parts
    obtain ⟨x, front, back, rfl, found, later⟩ := parts
    exact ⟨x, letter c ++ front, back, rfl, accepts_expect_bind.mpr ⟨front, rfl, found⟩, later⟩

theorem ofCode?_eq_some {code : UInt64} {flavour : Flavour} :
    Flavour.ofCode? code = some flavour ↔ code = flavour.code := by
  refine ⟨?_, ?_⟩
  · intro found
    have same := List.find?_some found
    exact (beq_iff_eq.mp same).symm
  · rintro rfl
    cases flavour <;> rfl

theorem accepts_flavour {f : Flavour} :
    flavour.Accepts limit text f ↔ Number limit text f.code := by
  rw [flavour, framed_number.accepts_bind]
  refine ⟨?_, ?_⟩
  · intro parts
    obtain ⟨code, front, back, rfl, numbered, accepts⟩ := parts
    split at accepts
    next found =>
      obtain ⟨rfl, rfl⟩ := accepts_pure.mp accepts
      rw [List.append_nil, ← ofCode?_eq_some.mp found]
      exact accepts_number_iff.mp numbered
    · exact absurd accepts not_accepts_throw
  · intro numbered
    refine ⟨f.code, text, [], (List.append_nil _).symm, accepts_number_iff.mpr numbered, ?_⟩
    rw [ofCode?_eq_some.mpr rfl]
    exact accepts_pure.mpr ⟨rfl, rfl⟩

theorem accepts_label {l : Label} : label.Accepts limit text l ↔ Head limit text l := by
  refine ⟨?_, ?_⟩
  · intro accepts
    obtain ⟨depth, depthText, _, rfl, atDepth, accepts⟩ :=
      (accepts_lettered_bind framed_number).mp accepts
    obtain ⟨height, heightText, _, rfl, atHeight, accepts⟩ :=
      (accepts_lettered_bind framed_number).mp accepts
    obtain ⟨flavour, flavourText, _, rfl, atFlavour, accepts⟩ :=
      (accepts_lettered_bind framed_flavour).mp accepts
    obtain ⟨widths, widthsText, _, rfl, atWidths, accepts⟩ :=
      (accepts_lettered_bind (framed_counted framed_tumbler)).mp accepts
    obtain ⟨displacements, displacementsText, _, rfl, atDisplacements, accepts⟩ :=
      (accepts_lettered_bind (framed_counted framed_tumbler)).mp accepts
    obtain ⟨rfl, rfl⟩ := accepts_pure.mp accepts
    have head : Head limit _ ⟨depth, height, flavour, widths, displacements⟩ :=
      .fields (accepts_number_iff.mp atDepth) (accepts_number_iff.mp atHeight)
        (accepts_flavour.mp atFlavour) (accepts_tumblers_iff.mp atWidths)
        (accepts_tumblers_iff.mp atDisplacements)
    simpa only [List.append_assoc, List.append_nil] using head
  · intro parts
    obtain ⟨depth, height, flavour, widths, displacements⟩ := parts
    simp only [List.append_assoc]
    refine (accepts_lettered_bind framed_number).mpr
      ⟨_, _, _, List.append_assoc .. |>.symm, accepts_number_iff.mpr depth, ?_⟩
    refine (accepts_lettered_bind framed_number).mpr
      ⟨_, _, _, List.append_assoc .. |>.symm, accepts_number_iff.mpr height, ?_⟩
    refine (accepts_lettered_bind framed_flavour).mpr
      ⟨_, _, _, List.append_assoc .. |>.symm, accepts_flavour.mpr flavour, ?_⟩
    refine (accepts_lettered_bind (framed_counted framed_tumbler)).mpr
      ⟨_, _, _, List.append_assoc .. |>.symm, accepts_tumblers_iff.mpr widths, ?_⟩
    refine (accepts_lettered_bind (framed_counted framed_tumbler)).mpr
      ⟨_, _, [], (List.append_nil _).symm, accepts_tumblers_iff.mpr displacements, ?_⟩
    exact accepts_pure.mpr ⟨rfl, rfl⟩

theorem accepts_orglTree {crum : Reading Crum} (framed : Framed crum) {tree : Option Crum} :
    (orglTree crum).Accepts limit text tree ↔ text = letter '0' ∧ tree = none ∨
      ∃ inside t, text = letter '1' ++ inside ∧ crum.Accepts limit inside t ∧ tree = some t := by
  rw [orglTree, (framed_byte _).accepts_bind]
  refine ⟨?_, ?_⟩
  · intro ⟨residency, front, back, split, first, later⟩
    rw [split, accepts_byte.mp first]
    split at later
    next zero =>
      obtain ⟨rfl, rfl⟩ := accepts_pure.mp later
      exact Or.inl ⟨by rw [zero]; rfl, rfl⟩
    next =>
      split at later
      next one =>
        obtain ⟨t, inside, _, rfl, found, last⟩ := framed.accepts_bind.mp later
        obtain ⟨rfl, rfl⟩ := accepts_pure.mp last
        exact Or.inr ⟨inside, t, by rw [one, List.append_nil]; rfl, found, rfl⟩
      · exact absurd later not_accepts_throw
  · intro shown
    rcases shown with ⟨split, none⟩ | ⟨inside, t, split, found, some⟩
    · refine ⟨'0'.toUInt8, letter '0', [], by rw [split, List.append_nil], accepts_byte.mpr rfl, ?_⟩
      rw [if_pos rfl]
      exact accepts_pure.mpr ⟨rfl, none.symm⟩
    · refine ⟨'1'.toUInt8, letter '1', inside, split, accepts_byte.mpr rfl, ?_⟩
      rw [if_neg (by decide), if_pos rfl, some, ← List.append_nil inside]
      exact found.bind (accepts_pure.mpr ⟨rfl, rfl⟩)

/-- The first byte of a number is none of the letters of the grammar. -/
theorem number_start {n : UInt64} (numbered : Number limit text n) :
    ∃ d rest, text = d :: rest ∧ d ≠ 'h'.toUInt8 := by
  obtain ⟨nonempty, all, _, _, _⟩ := numbered
  obtain ⟨d, rest, rfl⟩ := List.exists_cons_of_ne_nil nonempty
  refine ⟨d, _, rfl, ?_⟩
  intro same
  have digit := all d List.mem_cons_self
  rw [same] at digit
  exact absurd digit (by decide)

theorem accepts_home {l : Label} {c : Crum} :
    (home l).Accepts limit text c ↔
      ∃ b place doc, text = b :: place ∧ Place limit place doc.tumbler ∧ c = .home l doc := by
  refine ⟨?_, ?_⟩
  · intro accepts
    obtain ⟨_, front, back, split, taken, later⟩ :=
      ((framed_byte _).map _).accepts_bind.mp accepts
    obtain ⟨b, taken, _⟩ := ((framed_byte _).accepts_map _).mp taken
    obtain ⟨doc, place, _, rfl, found, last⟩ := framed_address.accepts_bind.mp later
    obtain ⟨rfl, rfl⟩ := accepts_pure.mp last
    rw [accepts_byte.mp taken, List.append_nil] at split
    exact ⟨b, place, doc, split, accepts_tumbler_iff.mp (accepts_address.mp found), rfl⟩
  · intro ⟨b, place, doc, split, found, same⟩
    rw [split, same, ← List.singleton_append]
    have taken : Accepts (discard (byte "bottom crum info")) limit [b] () :=
      (accepts_byte.mpr rfl).map _
    exact taken.bind ((accepts_address.mpr (accepts_tumbler_iff.mpr found)).map (Crum.home l))

theorem accepts_atom {crum : Reading Crum} (framed : Framed crum) {l : Label} {c : Crum}
    {code : UInt64} :
    (atom crum l code).Accepts limit text c ↔
      (code = 1 ∧ ∃ length bytes, text = letter 't' ++ length ++ bytes ∧
        Count limit length bytes.length ∧ bytes.length ≤ limit ∧ c = .text l (Latin.text bytes)) ∨
      (code = 2 ∧ text = letter 'o' ++ letter '0' ∧ c = .orgl l false none) ∨
      (code = 2 ∧ ∃ inside tree, text = letter 'o' ++ letter '1' ++ inside ∧
        crum.Accepts limit inside tree ∧ c = .orgl l true (some tree)) := by
  unfold atom
  refine ⟨?_, ?_⟩
  · intro accepts
    split at accepts
    next one =>
      obtain ⟨_, rfl, later⟩ := accepts_expect_bind.mp accepts
      obtain ⟨value, _, _, rfl, found, last⟩ := (framed_textBody _).accepts_bind.mp later
      obtain ⟨rfl, rfl⟩ := accepts_pure.mp last
      obtain ⟨length, bytes, rfl, counted, short, rfl⟩ := accepts_textBody.mp found
      refine Or.inl ⟨one, length, bytes, ?_, accepts_count_iff.mp counted, short, rfl⟩
      rw [List.append_nil]
      rfl
    next =>
      split at accepts
      next two =>
        obtain ⟨_, rfl, later⟩ := accepts_expect_bind.mp accepts
        obtain ⟨tree, _, _, rfl, found, last⟩ := (framed_orglTree framed).accepts_bind.mp later
        obtain ⟨rfl, rfl⟩ := accepts_pure.mp last
        rw [List.append_nil]
        rcases (accepts_orglTree framed).mp found with ⟨rfl, rfl⟩ | ⟨inside, t, rfl, inner, rfl⟩
        · exact Or.inr (Or.inl ⟨two, rfl, rfl⟩)
        · exact Or.inr (Or.inr ⟨two, inside, t, rfl, inner, rfl⟩)
      · exact absurd accepts not_accepts_throw
  · intro shown
    rcases shown with ⟨rfl, length, bytes, rfl, counted, short, rfl⟩ | ⟨rfl, rfl, rfl⟩ |
      ⟨rfl, inside, tree, rfl, inner, rfl⟩
    · rw [if_pos rfl]
      refine accepts_expect_bind.mpr ⟨length ++ bytes, rfl, ?_⟩
      exact (accepts_textBody.mpr
        ⟨length, bytes, rfl, accepts_count_iff.mpr counted, short, rfl⟩).map (Crum.text l)
    · rw [if_neg (by decide), if_pos rfl]
      refine accepts_expect_bind.mpr ⟨letter '0', rfl, ?_⟩
      exact ((accepts_orglTree framed).mpr (Or.inl ⟨rfl, rfl⟩)).map
        fun tree => Crum.orgl l tree.isSome tree
    · rw [if_neg (by decide), if_pos rfl]
      refine accepts_expect_bind.mpr ⟨letter '1' ++ inside, rfl, ?_⟩
      exact ((accepts_orglTree framed).mpr (Or.inr ⟨inside, tree, rfl, inner, rfl⟩)).map
        fun tree => Crum.orgl l tree.isSome tree

theorem accepts_bottom {crum : Reading Crum} (framed : Framed crum) {l : Label} {c : Crum} :
    (bottom crum l).Accepts limit text c ↔
      ∃ inside, text = letter 'i' ++ inside ∧ Bottom limit (crum.Accepts limit) inside l c := by
  rw [bottom, accepts_expect_bind]
  refine exists_congr fun inside => and_congr_right fun _ => ?_
  rw [accepts_peek_bind]
  refine ⟨?_, ?_⟩
  · intro ⟨first, rest, split, accepts⟩
    split at accepts
    next isH =>
      obtain ⟨b, place, doc, whole, found, rfl⟩ := accepts_home.mp accepts
      obtain ⟨same, _⟩ := List.cons.inj (split.symm.trans whole)
      rw [whole, ← same, isH]
      exact .home found
    next =>
      obtain ⟨code, front, back, rfl, numbered, later⟩ := framed_number.accepts_bind.mp accepts
      have coded := accepts_number_iff.mp numbered
      rcases (accepts_atom framed).mp later with ⟨rfl, length, bytes, rfl, counted, short, rfl⟩ |
        ⟨rfl, rfl, rfl⟩ | ⟨rfl, inside, tree, rfl, inner, rfl⟩
      · simpa only [List.append_assoc] using Bottom.text coded counted short
      · simpa only [List.append_assoc] using Bottom.absent coded
      · simpa only [List.append_assoc] using Bottom.present coded inner
  · intro shown
    have after {code back : List UInt8} {n : UInt64} (coded : Number limit code n)
        (accepts : (atom crum l n).Accepts limit back c) :
        ∃ first rest, code ++ back = first :: rest ∧ Accepts
          (if first = 'h'.toUInt8 then home l else number >>= atom crum l) limit
          (code ++ back) c := by
      obtain ⟨d, rest, start, notH⟩ := number_start coded
      refine ⟨d, rest ++ back, by rw [start]; rfl, ?_⟩
      rw [if_neg notH]
      exact (accepts_number_iff.mpr coded).bind accepts
    cases shown with
    | @home _ place doc found =>
      refine ⟨'h'.toUInt8, place, rfl, ?_⟩
      rw [if_pos rfl]
      exact accepts_home.mpr ⟨_, place, doc, rfl, found, rfl⟩
    | @text _ code length bytes coded counted short =>
      rw [List.append_assoc, List.append_assoc, ← List.append_assoc (letter 't')]
      exact after coded
        ((accepts_atom framed).mpr (Or.inl ⟨rfl, length, bytes, rfl, counted, short, rfl⟩))
    | absent coded =>
      rw [List.append_assoc]
      exact after coded ((accepts_atom framed).mpr (Or.inr (Or.inl ⟨rfl, rfl, rfl⟩)))
    | @present _ code inside tree coded inner =>
      rw [List.append_assoc, List.append_assoc, ← List.append_assoc (letter 'o')]
      exact after coded
        ((accepts_atom framed).mpr (Or.inr (Or.inr ⟨rfl, inside, tree, rfl, inner, rfl⟩)))

theorem accepts_body {crum : Reading Crum} (framed : Framed crum) {l : Label} {n : Nat} {c : Crum} :
    (body crum l n).Accepts limit text c ↔
      (n = 0 ∧ ∃ inside, text = letter 'i' ++ inside ∧
        Bottom limit (crum.Accepts limit) inside l c) ∨
      (n ≠ 0 ∧ ∃ children, children.length = n ∧ InOrder (crum.Accepts limit) text children ∧
        c = .interior l children) := by
  unfold body
  split
  next none => simp [none, accepts_bottom framed]
  next some =>
    rw [(framed_items framed n).accepts_map]
    simp only [framed.accepts_items, some, false_and, ne_eq, not_false_eq_true, true_and, false_or,
      and_assoc, eq_comm]

section Nesting

variable {Inside : List UInt8 → Crum → Prop} {room : Nat}

theorem inOrder_iff (known : ∀ part c, Inside part c ↔ Whole limit part c ∧ c.nesting < room)
    {children : List Crum} :
    InOrder Inside text children ↔
      InOrder (Whole limit) text children ∧ ∀ child ∈ children, child.nesting < room := by
  refine ⟨?_, ?_⟩
  · intro inOrder
    exact ⟨inOrder.imp fun part c _ inside => ((known part c).mp inside).1,
      inOrder.forall_of fun part c inside => ((known part c).mp inside).2⟩
  · intro ⟨inOrder, low⟩
    exact inOrder.imp fun part c member whole => (known part c).mpr ⟨whole, low c member⟩

/-- The tree of an orgl is one crum deeper than the crum that holds it. -/
theorem bottom_iff (known : ∀ part c, Inside part c ↔ Whole limit part c ∧ c.nesting < room)
    {l : Label} {c : Crum} :
    Bottom limit Inside text l c ↔
      Bottom limit (Whole limit) text l c ∧ c.nesting < room + 1 := by
  refine ⟨?_, ?_⟩
  · intro shown
    cases shown with
    | home found => exact ⟨.home found, by rw [Crum.nesting]; omega⟩
    | text coded counted short => exact ⟨.text coded counted short, by rw [Crum.nesting]; omega⟩
    | absent coded => exact ⟨.absent coded, by rw [Crum.nesting]; omega⟩
    | present coded inside =>
      obtain ⟨whole, low⟩ := (known _ _).mp inside
      exact ⟨.present coded whole, by rw [Crum.nesting]; omega⟩
  · intro ⟨shown, low⟩
    cases shown with
    | home found => exact .home found
    | text coded counted short => exact .text coded counted short
    | absent coded => exact .absent coded
    | present coded whole =>
      rw [Crum.nesting, Nat.add_lt_add_iff_right] at low
      exact .present coded ((known _ _).mpr ⟨whole, low⟩)

end Nesting

theorem accepts_crum {room : Nat} {c : Crum} :
    (crum room).Accepts limit text c ↔ Whole limit text c ∧ c.nesting < room := by
  induction room generalizing text c with
  | zero => exact iff_of_false not_accepts_throw fun shown => Nat.not_lt_zero _ shown.2
  | succ room ih =>
    have framed := framed_crum room
    refine ⟨?_, ?_⟩
    · intro accepts
      obtain ⟨l, head, _, rfl, labelled, later⟩ := framed_label.accepts_bind.mp accepts
      obtain ⟨n, count, _, rfl, counted, later⟩ := (accepts_lettered_bind framed_count).mp later
      obtain ⟨found, inside, _, rfl, bodied, later⟩ :=
        (framed_body framed l n).accepts_bind.mp later
      obtain ⟨_, rfl, last⟩ := accepts_expect_bind.mp later
      obtain ⟨rfl, rfl⟩ := accepts_pure.mp last
      have headed := accepts_label.mp labelled
      have declared := accepts_count_iff.mp counted
      rcases (accepts_body framed).mp bodied with ⟨rfl, inside, rfl, shown⟩ |
        ⟨some, children, rfl, inOrder, rfl⟩
      · obtain ⟨shown, low⟩ := (bottom_iff fun _ _ => ih).mp shown
        refine ⟨?_, low⟩
        simpa only [letter, List.append_assoc] using Whole.bottom headed declared shown
      · obtain ⟨inOrder, low⟩ := (inOrder_iff fun _ _ => ih).mp inOrder
        refine ⟨?_, by rw [Crum.nesting]; exact Crum.nestingBelow_lt.mpr low⟩
        have nonempty : children ≠ [] := List.ne_nil_of_length_pos (by omega)
        simpa only [letter, List.append_assoc] using Whole.interior headed nonempty declared inOrder
    · intro ⟨whole, low⟩
      have put {l : Label} {n : Nat} {head count inside : List UInt8} (headed : Head limit head l)
          (declared : Count limit count n)
          (bodied : (body (crum room) l n).Accepts limit inside c) :
          (crum (room + 1)).Accepts limit (head ++ letter 'c' ++ count ++ inside ++ letter ')')
            c := by
        simp only [List.append_assoc]
        refine (accepts_label.mpr headed).bind ((accepts_lettered_bind framed_count).mpr
          ⟨n, count, inside ++ letter ')', ?_, accepts_count_iff.mpr declared, ?_⟩)
        · rw [List.append_assoc]
        · exact bodied.bind (accepts_expect_bind.mpr ⟨[], rfl, accepts_pure.mpr ⟨rfl, rfl⟩⟩)
      cases whole with
      | @interior head label count inside children headed nonempty declared inOrder =>
        rw [Crum.nesting] at low
        have inner := (inOrder_iff fun _ _ => ih).mpr ⟨inOrder, Crum.nestingBelow_lt.mp low⟩
        have some : children.length ≠ 0 := fun none => nonempty (List.length_eq_zero_iff.mp none)
        exact put headed declared
          ((accepts_body framed).mpr (Or.inr ⟨some, children, rfl, inner, rfl⟩))
      | @bottom head label count inside _ headed declared shown =>
        have inner := (bottom_iff fun _ _ => ih).mpr ⟨shown, low⟩
        rw [List.append_assoc _ (letter 'i') inside]
        exact put headed declared ((accepts_body framed).mpr (Or.inl ⟨rfl, inside, rfl, inner⟩))

theorem accepts_store {s : Store} : store.Accepts limit text s ↔ text = letter (marker s) := by
  rw [store, (framed_byte _).accepts_bind]
  refine ⟨?_, ?_⟩
  · intro ⟨b, front, back, split, first, later⟩
    rw [split, accepts_byte.mp first]
    split at later
    next isG =>
      obtain ⟨rfl, rfl⟩ := accepts_pure.mp later
      rw [isG]
      rfl
    next =>
      split at later
      next isS =>
        obtain ⟨rfl, rfl⟩ := accepts_pure.mp later
        rw [isS]
        rfl
      · exact absurd later not_accepts_throw
  · intro split
    refine ⟨(marker s).toUInt8, letter (marker s), [], ?_, accepts_byte.mpr rfl, ?_⟩
    · rw [split, List.append_nil]
    · cases s <;> exact accepts_pure.mpr ⟨rfl, rfl⟩

theorem accepts_dump {d : Dump} :
    dump.Accepts limit text d ↔ Shown limit text d ∧ d.nesting ≤ maxNesting := by
  refine ⟨?_, ?_⟩
  · intro accepts
    obtain ⟨s, front, _, rfl, stored, later⟩ := framed_store.accepts_bind.mp accepts
    obtain ⟨n, present, _, rfl, numbered, later⟩ := framed_number.accepts_bind.mp later
    rw [accepts_store.mp stored]
    have shown := accepts_number_iff.mp numbered
    split at later
    next zero =>
      obtain ⟨rfl, rfl⟩ := accepts_pure.mp later
      rw [List.append_nil]
      exact ⟨.nothing (zero ▸ shown), Nat.zero_le _⟩
    next nonzero =>
      obtain ⟨root, whole, _, rfl, found, last⟩ := (framed_crum _).accepts_bind.mp later
      obtain ⟨rfl, rfl⟩ := accepts_pure.mp last
      obtain ⟨derived, low⟩ := accepts_crum.mp found
      refine ⟨?_, Nat.le_of_lt_succ low⟩
      simpa only [List.append_assoc, List.append_nil] using Shown.root shown nonzero derived
  · intro ⟨shown, low⟩
    cases shown with
    | @nothing present s numbered =>
      refine (accepts_store.mpr rfl).bind ?_
      rw [← List.append_nil present]
      refine (accepts_number_iff.mpr numbered).bind ?_
      rw [if_pos rfl]
      exact accepts_pure.mpr ⟨rfl, rfl⟩
    | @root present n s whole c numbered nonzero derived =>
      rw [List.append_assoc]
      refine (accepts_store.mpr rfl).bind ((accepts_number_iff.mpr numbered).bind ?_)
      rw [if_neg nonzero]
      have accepted := accepts_crum.mpr ⟨derived, Nat.lt_succ_of_le low⟩
      exact accepted.map fun root => Dump.mk s (some root)

/-- The reading of a dump finds `d` and leaves what it leaves exactly if the grammar derives the
bytes in between as the text of `d`, with no crum nested too deep. Of all texts in front of given
bytes at most one is derived, and for one dump only. -/
theorem dump_iff_shown (limit : Nat) :
    (∀ (inbound left : Wire.Inbound) (d : Dump),
      dump limit inbound = .ok d left ↔ ∃ text, inbound.unread = text ++ left.unread ∧
        inbound.ending = left.ending ∧ Shown limit text d ∧ d.nesting ≤ 512) ∧
    ∀ bytes : List UInt8, Subsingleton { shown : List UInt8 × Dump //
      shown.1 <+: bytes ∧ Shown limit shown.1 shown.2 ∧ shown.2.nesting ≤ 512 } := by
  refine ⟨fun inbound left d => ⟨fun found => ?_, fun ⟨text, split, same, derived⟩ => ?_⟩,
    fun bytes => ⟨fun ⟨⟨text, d⟩, first⟩ ⟨⟨text', d'⟩, second⟩ => ?_⟩⟩
  · obtain ⟨text, rfl, accepts, _⟩ := framed_dump limit inbound d left found
    exact ⟨text, rfl, rfl, accepts_dump.mp accepts⟩
  · have accepts := accepts_dump.mpr derived left.unread left.ending
    obtain ⟨unread, ending⟩ := inbound
    obtain rfl : unread = text ++ left.unread := split
    obtain rfl : ending = left.ending := same
    exact accepts
  · obtain ⟨⟨rest, split⟩, derived⟩ := first
    obtain ⟨⟨rest', split'⟩, derived'⟩ := second
    have found := accepts_dump.mpr derived rest .closed
    have found' := accepts_dump.mpr derived' rest' .closed
    rw [split] at found
    rw [split', found] at found'
    obtain ⟨rfl, left⟩ := EStateM.Result.ok.inj found'
    obtain ⟨rfl, _⟩ := Wire.Inbound.mk.inj left
    obtain rfl := List.append_cancel_right (split.trans split'.symm)
    rfl

end Docuverse.Enfilade.Reading
