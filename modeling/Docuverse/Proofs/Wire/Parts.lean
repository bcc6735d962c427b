import Docuverse.Proofs.Wire.Typed

namespace Docuverse

open Wire.Reading (IsMark)

/-- What is counted of a value. A span, an item of a spec set and a crum are counted beside what
they hold. -/
inductive Part where
  | tumbler (t : Tumbler)
  | character (c : Char)
  | span
  | item
  | crum
  deriving DecidableEq, Repr

namespace Part

/-- Holds others and is spelled by them. -/
def IsGroup (part : Part) : Prop := part = span ∨ part = item ∨ part = crum

end Part

/-- There is a chunk among the bytes, with the mark that ends it, that names the tumbler. -/
def Tumbler.NamedIn (t : Tumbler) (bytes : List UInt8) : Prop :=
  ∃ body mark, ofExponentForm (Latin.text body) = .ok t ∧ IsMark mark ∧ body ++ [mark] <:+: bytes

theorem Tumbler.NamedIn.mono {t : Tumbler} {bytes bytes' : List UInt8} (named : t.NamedIn bytes)
    (inside : bytes <:+: bytes') : t.NamedIn bytes' := by
  obtain ⟨body, mark, names, ends, stands⟩ := named
  exact ⟨body, mark, names, ends, stands.trans inside⟩

/-- The parts stand in the bytes one after the other and do not overlap: a tumbler is the body of a
chunk that names it, a character is its byte, and a group is one byte of those around its parts. -/
inductive Covers : List UInt8 → List Part → Prop
  | nil : Covers [] []
  | skip {b bytes parts} : Covers bytes parts → Covers (b :: bytes) parts
  | character {b bytes parts} :
      Covers bytes parts → Covers (b :: bytes) (.character (Latin.char b) :: parts)
  | group {b bytes part parts} :
      part.IsGroup → Covers bytes parts → Covers (b :: bytes) (part :: parts)
  | tumbler {body mark bytes t parts} :
      Tumbler.ofExponentForm (Latin.text body) = .ok t → IsMark mark →
      Covers (mark :: bytes) parts → Covers (body ++ mark :: bytes) (.tumbler t :: parts)

namespace Covers

variable {bytes bytes' body : List UInt8} {parts parts' : List Part} {t : Tumbler}

theorem append (first : Covers bytes parts) (second : Covers bytes' parts') :
    Covers (bytes ++ bytes') (parts ++ parts') := by
  induction first with
  | nil => exact second
  | skip _ ih => exact .skip ih
  | character _ ih => exact .character ih
  | group isGroup _ ih => exact .group isGroup ih
  | tumbler names ends _ ih =>
    rw [List.append_assoc]
    exact .tumbler names ends ih

/-- Bytes need not be of any part. -/
theorem blank (bytes : List UInt8) : Covers bytes [] := by
  induction bytes with
  | nil => exact .nil
  | cons b bytes ih => exact .skip ih

theorem characters (bytes : List UInt8) :
    Covers bytes ((Latin.text bytes).toList.map .character) := by
  rw [Latin.text, String.toList_ofList, List.map_map]
  induction bytes with
  | nil => exact .nil
  | cons b bytes ih => exact .character ih

theorem length_pos_of_names (names : Tumbler.ofExponentForm (Latin.text body) = .ok t) :
    0 < body.length := by
  have nonempty := Tumbler.ne_nil_of_ofExponentForm names
  rw [Latin.text, String.toList_ofList] at nonempty
  exact List.length_pos_iff.mpr fun empty => nonempty (List.map_eq_nil_iff.mpr empty)

/-- There is a byte for each part. -/
theorem length_le (covers : Covers bytes parts) : parts.length ≤ bytes.length := by
  induction covers with
  | nil => exact Nat.le_refl 0
  | skip _ ih =>
    rw [List.length_cons]
    omega
  | character _ ih =>
    rw [List.length_cons, List.length_cons]
    omega
  | group _ _ ih =>
    rw [List.length_cons, List.length_cons]
    omega
  | tumbler names _ _ ih =>
    have nonempty := length_pos_of_names names
    rw [List.length_append, List.length_cons]
    omega

/-- Each tumbler is named by a chunk. -/
theorem named (covers : Covers bytes parts) (member : .tumbler t ∈ parts) : t.NamedIn bytes := by
  induction covers with
  | nil => cases member
  | skip _ ih => exact (ih member).mono (List.suffix_cons _ _).isInfix
  | character _ ih =>
    have later := ih (List.mem_of_ne_of_mem Part.noConfusion member)
    exact later.mono (List.suffix_cons _ _).isInfix
  | @group b bytes part parts isGroup _ ih =>
    have other : .tumbler t ≠ part := by
      rintro rfl
      rcases isGroup with ⟨⟨⟩⟩ | ⟨⟨⟩⟩ | ⟨⟨⟩⟩
    exact (ih (List.mem_of_ne_of_mem other member)).mono (List.suffix_cons _ _).isInfix
  | @tumbler body mark bytes t' parts names ends _ ih =>
    rcases List.mem_cons.mp member with same | later
    · cases same
      exact ⟨body, mark, names, ends, [], bytes, by simp⟩
    · exact (ih later).mono (List.suffix_append _ _).isInfix

end Covers

def textParts (s : String) : List Part := s.toList.map .character

def tumblerParts (ts : List Tumbler) : List Part := ts.map .tumbler

def addressParts (as : List Address) : List Part := as.map fun a => .tumbler a.tumbler

def spanParts (s : Span) : List Part :=
  [.tumbler s.start.tumbler, .tumbler s.width.tumbler, .span]

def vspecParts (v : VSpec) : List Part := .tumbler v.doc.tumbler :: v.spans.flatMap spanParts

def specItemParts : SpecItem → List Part
  | .span s => .item :: spanParts s
  | .vspec v => .item :: vspecParts v

def specSetParts (set : SpecSet) : List Part := set.items.flatMap specItemParts

def contentParts : Wire.Content → List Part
  | .text s => textParts s
  | .link a => [.tumbler a.tumbler]

namespace Wire.Reading

variable {α β : Type} {reading item : Reading α} {next : α → Reading β} {limit : Nat}
  {before : List Part} {parts : α → List Part} {after : β → List Part}

/-- What is found has the parts `before` and others, and the others are covered by the bytes that
are taken. -/
def Pays (reading : Reading α) (before : List Part) (parts : α → List Part) : Prop :=
  ∀ limit inbound x left, reading limit inbound = .ok x left → ∃ text added,
    inbound.unread = text ++ left.unread ∧ Covers text added ∧ (before ++ added).Perm (parts x)

theorem pays_pure {x : α} (same : before.Perm (parts x)) : Pays (pure x) before parts := by
  intro limit inbound y left found
  cases found
  exact ⟨[], [], rfl, .nil, by rwa [List.append_nil]⟩

theorem pays_throw (fault : Fault) : Pays (throw fault) before parts := by
  intro limit inbound y left found
  cases found

theorem Pays.bind (first : Pays reading before parts)
    (second : ∀ x, Pays (next x) (parts x) after) : Pays (reading >>= next) before after := by
  intro limit inbound y left found
  obtain ⟨x, middle, foundFirst, foundSecond⟩ := bind_eq_ok.mp found
  obtain ⟨text, added, split, covers, same⟩ := first _ _ _ _ foundFirst
  obtain ⟨text', added', split', covers', same'⟩ := second x _ _ _ _ foundSecond
  refine ⟨text ++ text', added ++ added', ?_, covers.append covers', ?_⟩
  · rw [split, split', List.append_assoc]
  · rw [← List.append_assoc]
    exact (same.append_right added').trans same'

/-- Other parts may have been there before. -/
theorem Pays.frame (pays : Pays reading [] parts) (before : List Part) :
    Pays reading before fun x => before ++ parts x := by
  intro limit inbound x left found
  obtain ⟨text, added, split, covers, same⟩ := pays _ _ _ _ found
  exact ⟨text, added, split, covers, same.append_left before⟩

theorem Pays.map (f : α → β) (pays : Pays reading before fun x => after (f x)) :
    Pays (f <$> reading) before after := by
  rw [map_eq_bind]
  exact pays.bind fun x => pays_pure (.refl _)

/-- What is read may be of no part. -/
theorem Framed.pays (framed : Framed reading) (before : List Part) :
    Pays reading before fun _ => before := by
  intro limit inbound x left found
  obtain ⟨text, split, _⟩ := framed _ _ _ _ found
  exact ⟨text, [], congrArg Inbound.unread split, .blank text, by rw [List.append_nil]⟩

theorem pays_items (each : Pays item [] parts) (n : Nat) :
    Pays (items n item) [] fun xs => xs.flatMap parts := by
  induction n with
  | zero => exact pays_pure (.refl _)
  | succ n ih =>
    rw [items_succ]
    refine each.bind fun x => (ih.frame (parts x)).bind fun xs => pays_pure ?_
    rw [List.flatMap_cons]

theorem pays_counted (each : Pays item [] parts) :
    Pays (counted item) [] fun xs => xs.flatMap parts :=
  (framed_count.pays []).bind fun n => pays_items each n

/-- Items that are one part each. -/
theorem pays_counted_single {part : α → Part} (each : Pays item [] fun x => [part x]) :
    Pays (counted item) [] fun xs => xs.map part := by
  simp only [List.map_eq_flatMap]
  exact pays_counted each

theorem pays_peek (context : String) (before : List Part) :
    Pays (peek context) before fun _ => before := by
  intro limit inbound b left found
  rw [peek] at found
  split at found
  · cases found
  · cases found
    exact ⟨[], [], rfl, .nil, by rw [List.append_nil]⟩

/-- A byte in front of a group is its own. -/
theorem pays_byte {part : Part} (isGroup : part.IsGroup) (context : String) :
    Pays (byte context) [] fun _ => [part] := by
  intro limit inbound b left found
  obtain ⟨text, split, accepts, _⟩ := framed_byte context _ _ _ _ found
  obtain rfl := accepts_byte.mp accepts
  exact ⟨[b], [part], congrArg Inbound.unread split, .group isGroup .nil, .refl _⟩

theorem pays_expect {part : Part} (isGroup : part.IsGroup) (expected : UInt8) (context : String) :
    Pays (expect expected context) [] fun _ => [part] := by
  refine (pays_byte isGroup context).bind fun b => ?_
  split
  · exact pays_throw _
  · exact pays_pure (.refl _)

theorem pays_raw (n : Nat) (context : String) :
    Pays (raw n context) [] fun bytes => textParts (Latin.text bytes) := by
  intro limit inbound bytes left found
  obtain ⟨text, split, accepts, _⟩ := framed_raw n context _ _ _ _ found
  obtain ⟨_, _, rfl⟩ := accepts_raw.mp accepts
  exact ⟨bytes, _, congrArg Inbound.unread split, .characters bytes, .refl _⟩

/-- The mark after a tumbler can be of another part. -/
theorem pays_tumbler_mark {last : List Part} (covers : ∀ mark, Covers [mark] last) :
    Pays tumbler [] fun t => .tumbler t :: last := by
  intro limit inbound t left found
  obtain ⟨text, split, accepts, _⟩ := framed_tumbler _ _ _ _ found
  obtain ⟨body, mark, rfl, _, names, _, ends⟩ := accepts_tumbler.mp accepts
  exact ⟨body ++ [mark], _, congrArg Inbound.unread split, .tumbler names ends (covers mark),
    .refl _⟩

theorem pays_tumbler : Pays tumbler [] fun t => [.tumbler t] :=
  pays_tumbler_mark fun mark => .blank [mark]

theorem pays_address : Pays address [] fun a => [.tumbler a.tumbler] :=
  pays_tumbler.map Address.mk

theorem pays_offset : Pays offset [] fun o => [.tumbler o.tumbler] :=
  pays_tumbler.map Offset.mk

theorem pays_textBody (context : String) : Pays (textBody context) [] textParts :=
  (framed_count.pays []).bind fun n =>
    (pays_raw n context).bind fun _ => pays_pure (.refl _)

theorem pays_text : Pays text [] textParts :=
  ((framed_expect textTag "text").pays []).bind fun _ => pays_textBody "text"

theorem pays_content : Pays content [] contentParts := by
  refine (pays_peek "content" []).bind fun first => ?_
  split
  · exact pays_text.bind fun s => pays_pure (.refl _)
  · split
    · exact pays_address.bind fun a => pays_pure (.refl _)
    · exact pays_throw _

/-- The mark after the width is that of the span. -/
theorem pays_span : Pays span [] spanParts := by
  have width : Pays offset [] fun o => [.tumbler o.tumbler, .span] :=
    (pays_tumbler_mark fun mark => .group (Or.inl rfl) .nil).map Offset.mk
  exact pays_address.bind fun start => (width.frame _).bind fun width => pays_pure (.refl _)

/-- The spans are put in order when they have been read. -/
theorem pays_vspec : Pays vspec [] vspecParts := by
  refine pays_address.bind fun doc => (framed_count.pays _).bind fun n =>
    ((pays_items pays_span n).frame _).bind fun spans => pays_pure ?_
  have sorted : ((VSpec.ofSpans doc spans).spans.flatMap spanParts).Perm
      (spans.flatMap spanParts) := (VSpec.perm_ofSpans doc spans).flatMap_right spanParts
  exact (sorted.append_left [.tumbler doc.tumbler]).symm

theorem pays_specItem : Pays specItem [] specItemParts := by
  have isGroup : Part.item.IsGroup := Or.inr (Or.inl rfl)
  refine (pays_byte isGroup "specset tag").bind fun tag => ?_
  split
  · exact (pays_span.frame _).bind fun s => pays_pure (.refl _)
  · split
    · exact (pays_vspec.frame _).bind fun v => pays_pure (.refl _)
    · exact pays_throw _

theorem pays_specSet : Pays specSet [] specSetParts :=
  (pays_counted pays_specItem).map SpecSet.mk

theorem pays_addresses : Pays addresses [] addressParts := pays_counted_single pays_address

end Wire.Reading
end Docuverse
