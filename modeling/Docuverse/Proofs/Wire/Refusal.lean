import Docuverse.Proofs.Wire.Conveyance

namespace Docuverse.Wire

/-- The bytes are those of the pieces before `piece` and some of its own, not all of them. -/
inductive Cuts : List Piece → List UInt8 → Piece → Prop
  | here {piece : Piece} {pieces : List Piece} {front : List UInt8} :
      front <+: piece.bytes → front ≠ piece.bytes → Cuts (piece :: pieces) front piece
  | later {first piece : Piece} {pieces : List Piece} {front : List UInt8} :
      Cuts pieces front piece → Cuts (first :: pieces) (first.bytes ++ front) piece

/-- What is read next after these bytes is the tag of an item. -/
def AwaitsTag (pieces : List Piece) (front : List UInt8) : Prop := ∃ b, Cuts pieces front (.tag b)

/-- What a refusal is taken for where the piece is being read. -/
def Piece.Meets : Piece → Fault → Prop
  | .tag _, fault => fault = .malformed (.specTag refusal)
  | _, fault => ∃ context, fault = .protocol (.rejected context)

/-- Wherever written pieces break off, it is in one of the pieces. -/
theorem exists_cuts {pieces : List Piece} {front : List UInt8} (proper : front <+: written pieces)
    (unequal : front ≠ written pieces) : ∃ piece, Cuts pieces front piece := by
  induction pieces generalizing front with
  | nil => exact absurd (List.prefix_nil.mp proper) unequal
  | cons first pieces ih =>
    rw [written_cons] at proper unequal
    rcases Reading.proper_front_cases proper unequal with ⟨inner, short⟩ | ⟨part, rfl, inner, short⟩
    · exact ⟨first, .here inner short⟩
    · obtain ⟨piece, cut⟩ := ih inner short
      exact ⟨piece, .later cut⟩

/-- Written pieces break off in no more than one of them, for what reaches past a piece does not end
inside it. -/
theorem Cuts.unique {pieces : List Piece} {front : List UInt8} {p q : Piece}
    (cut : Cuts pieces front p) (cut' : Cuts pieces front q) : p = q := by
  have behind {first : Piece} {part : List UInt8} (inner : first.bytes ++ part <+: first.bytes)
      (short : first.bytes ++ part ≠ first.bytes) : False :=
    short (inner.eq_of_length (Nat.le_antisymm inner.length_le (by simp)))
  generalize same : front = front' at cut'
  induction cut generalizing front' with
  | here inner short =>
    cases cut' with
    | here => rfl
    | later => exact (behind (same ▸ inner) (same ▸ short)).elim
  | later cut ih =>
    cases cut' with
    | here inner short => exact (behind (same ▸ inner) (same ▸ short)).elim
    | later cut' => exact ih _ (List.append_cancel_left same) cut'

theorem cuts_append {front back : List Piece} {bytes : List UInt8} {piece : Piece}
    (cut : Cuts (front ++ back) bytes piece) :
    Cuts front bytes piece ∨ ∃ part, bytes = written front ++ part ∧ Cuts back part piece := by
  induction front generalizing bytes with
  | nil => exact Or.inr ⟨bytes, rfl, cut⟩
  | cons first front ih =>
    cases cut with
    | here inner short => exact Or.inl (.here inner short)
    | later cut =>
      rcases ih cut with inside | ⟨part, rfl, behind⟩
      · exact Or.inl (.later inside)
      · exact Or.inr ⟨part, by rw [written_cons, List.append_assoc], behind⟩

namespace Reading

variable {α β : Type} {reading : Reading α} {next : α → Reading β} {limit : Nat}
  {front back pieces : List Piece} {context : String} {text : List UInt8}

/-- A refusal behind these bytes of the piece ends the reading, and what follows is left. -/
def Stops (reading : Reading α) (limit : Nat) (front : List UInt8) (piece : Piece) : Prop :=
  ∃ fault, piece.Meets fault ∧ ∀ rest ending,
    reading limit ⟨front ++ refusal :: rest, ending⟩ = .error fault ⟨rest, ending⟩

/-- Out of these pieces comes this value, and a refusal is heeded wherever they break off. -/
def Heeds (reading : Reading α) (limit : Nat) (pieces : List Piece) (value : α) : Prop :=
  Passable limit pieces → Legible pieces →
    reading.Accepts limit (written pieces) value ∧
    ∀ front piece, Cuts pieces front piece → reading.Stops limit front piece

theorem heeds_pure (x : α) : Heeds (pure x) limit [] x :=
  fun _ _ => ⟨accepts_pure.mpr ⟨rfl, rfl⟩, fun _ _ cut => nomatch cut⟩

theorem Stops.bind {bytes : List UInt8} {piece : Piece} (stops : reading.Stops limit bytes piece)
    (next : α → Reading β) : Stops (reading >>= next) limit bytes piece := by
  obtain ⟨fault, meets, stopped⟩ := stops
  exact ⟨fault, meets, fun rest ending => bind_of_error (stopped rest ending)⟩

theorem Accepts.stops_bind {x : α} {bytes : List UInt8} {piece : Piece}
    (accepts : reading.Accepts limit text x) (stops : (next x).Stops limit bytes piece) :
    Stops (reading >>= next) limit (text ++ bytes) piece := by
  obtain ⟨fault, meets, stopped⟩ := stops
  refine ⟨fault, meets, fun rest ending => ?_⟩
  rw [List.append_assoc, bind_of_ok (accepts _ ending)]
  exact stopped rest ending

theorem Heeds.bind {x : α} {y : β} (first : Heeds reading limit front x)
    (second : Heeds (next x) limit back y) : Heeds (reading >>= next) limit (front ++ back) y := by
  intro passable legible
  obtain ⟨passFront, passBack⟩ := passable_append.mp passable
  obtain ⟨legibleFront, legibleBack⟩ := legible_append.mp legible
  obtain ⟨acceptsFront, stopsFront⟩ := first passFront legibleFront
  obtain ⟨acceptsBack, stopsBack⟩ := second passBack legibleBack
  refine ⟨written_append front back ▸ acceptsFront.bind acceptsBack, fun bytes piece cut => ?_⟩
  rcases cuts_append cut with inside | ⟨part, rfl, behind⟩
  · exact (stopsFront bytes piece inside).bind next
  · exact acceptsFront.stops_bind (stopsBack part piece behind)

theorem Heeds.bind_pure {x : α} (heeds : Heeds reading limit pieces x) (f : α → β) :
    Heeds (reading >>= fun x => pure (f x)) limit pieces (f x) := by
  have whole : Heeds (reading >>= fun x => pure (f x)) limit (pieces ++ []) (f x) :=
    heeds.bind (heeds_pure (f x))
  rwa [List.append_nil] at whole

theorem Heeds.map {x : α} (heeds : Heeds reading limit pieces x) (f : α → β) :
    Heeds (f <$> reading) limit pieces (f x) := by
  rw [map_eq_bind]
  exact heeds.bind_pure f

theorem heeds_items {ι : Type} {item : Reading α} {parts : ι → List Piece} {found : ι → α}
    {xs : List ι} (each : ∀ x ∈ xs, Heeds item limit (parts x) (found x)) :
    Heeds (items xs.length item) limit (xs.flatMap parts) (xs.map found) := by
  induction xs with
  | nil => exact heeds_pure []
  | cons x xs ih =>
    obtain ⟨first, others⟩ := List.forall_mem_cons.mp each
    rw [List.length_cons, items_succ]
    exact first.bind ((ih others).bind_pure fun xs => found x :: xs)

/-- The limit is not looked at when a refusal comes. -/
theorem chunk_refused {value : String} {front : List UInt8}
    (accepts : (chunk context).Accepts limit text value) (proper : front <+: text)
    (unequal : front ≠ text) (rest : List UInt8) (ending : Ending) :
    chunk context limit ⟨front ++ refusal :: rest, ending⟩ =
      .error (.protocol (.rejected context)) ⟨rest, ending⟩ := by
  obtain ⟨body, mark, rfl, plain, _, fits, _⟩ := accepts_chunk.mp accepts
  obtain ⟨missing, rfl⟩ := (List.prefix_concat_iff.mp proper).resolve_left unequal
  have unmarked : ¬ (refusal = terminator ∨ refusal = newline) := by decide
  show chunkFrom context limit ending [] 0 (front ++ refusal :: rest) = _
  rw [chunkFrom_append (fun b member => plain b (List.mem_append_left missing member))
    (fits_append.mp fits).1, chunkFrom, if_neg unmarked, if_pos rfl]

/-- A piece that is one chunk. -/
theorem heeds_chunk_bind {piece : Piece} {chunked : String} {next : String → Reading β} {y : β}
    (untagged : ∀ context, piece.Meets (.protocol (.rejected context)))
    (found : Passable limit [piece] → (chunk context).Accepts limit piece.bytes chunked)
    (conveys : Conveys (chunk context >>= next) limit [piece] y) :
    Heeds (chunk context >>= next) limit [piece] y := by
  intro passable legible
  refine ⟨(conveys passable).1 legible, fun bytes piece' cut => ?_⟩
  cases cut with
  | here inner short =>
    exact ⟨_, untagged context, fun rest ending =>
      bind_of_error (chunk_refused (found passable) inner short rest ending)⟩
  | later cut => cases cut

theorem heeds_number (n : UInt64) : Heeds number limit [.number n.toNat] n :=
  heeds_chunk_bind (fun context => ⟨context, rfl⟩)
    (fun passable => accepts_chunk_numeral (passable _ List.mem_cons_self).2.2) (conveys_number n)

theorem heeds_count (n : Nat) : Heeds count limit [.number n] n := by
  intro passable legible
  obtain ⟨_, range, _⟩ := passable _ List.mem_cons_self
  have number : Heeds count limit [.number (UInt64.ofNat n).toNat] (UInt64.ofNat n).toNat :=
    (heeds_number (UInt64.ofNat n)).map UInt64.toNat
  rw [UInt64.toNat_ofNat_of_lt' range] at number
  exact number passable legible

theorem heeds_tumbler (t : Tumbler) : Heeds tumbler limit [.tumbler t] t :=
  heeds_chunk_bind (fun context => ⟨context, rfl⟩)
    (fun passable => accepts_chunk_ascii (Tumbler.isFormChar_exponentForm t)
      (passable _ List.mem_cons_self).2)
    (conveys_tumbler t)

theorem heeds_address (a : Address) : Heeds address limit [.tumbler a.tumbler] a :=
  (heeds_tumbler a.tumbler).map Address.mk

theorem heeds_offset (o : Offset) : Heeds offset limit [.tumbler o.tumbler] o :=
  (heeds_tumbler o.tumbler).map Offset.mk

theorem heeds_span (s : Span) : Heeds span limit (spanPieces s) s := by
  refine (heeds_address s.start).bind ?_
  exact (heeds_offset s.width).bind_pure fun width => Span.mk s.start width

theorem heeds_vspec (v : VSpec) : Heeds vspec limit (vspecPieces v) v.sorted := by
  have spans : Heeds (items v.spans.length span) limit (v.spans.flatMap spanPieces)
      (v.spans.map id) := heeds_items fun s _ => heeds_span s
  rw [List.map_id] at spans
  refine (heeds_address v.doc).bind ((heeds_count v.spans.length).bind ?_)
  exact spans.bind_pure fun spans => VSpec.ofSpans v.doc spans

/-- A tag is a single byte, and a refusal in its place is no tag. -/
theorem heeds_tagged {next : UInt8 → Reading β} {b : UInt8} {y : β}
    (unknown : next refusal = throw (.malformed (.specTag refusal)))
    (heeds : Heeds (next b) limit pieces y) :
    Heeds (byte context >>= next) limit (.tag b :: pieces) y := by
  intro passable legible
  obtain ⟨_, passable⟩ := List.forall_mem_cons.mp passable
  obtain ⟨_, legible⟩ := List.forall_mem_cons.mp legible
  obtain ⟨accepts, stops⟩ := heeds passable legible
  have tag : (byte context).Accepts limit [b] b := accepts_byte.mpr rfl
  refine ⟨tag.bind accepts, fun bytes piece cut => ?_⟩
  cases cut with
  | here inner short =>
    obtain rfl : bytes = [] :=
      List.prefix_nil.mp ((List.prefix_concat_iff.mp inner).resolve_left short)
    refine ⟨_, rfl, fun rest ending => ?_⟩
    show next refusal limit ⟨rest, ending⟩ = _
    rw [unknown]
    rfl
  | later cut => exact tag.stops_bind (stops _ piece cut)

theorem heeds_specItem (item : SpecItem) :
    Heeds specItem limit (specItemPieces item) item.sorted := by
  cases item with
  | span s =>
    refine heeds_tagged rfl ?_
    rw [if_pos rfl]
    exact (heeds_span s).bind_pure SpecItem.span
  | vspec v =>
    refine heeds_tagged rfl ?_
    rw [if_neg (by decide), if_pos rfl]
    exact (heeds_vspec v).bind_pure SpecItem.vspec

theorem heeds_specSet (set : SpecSet) : Heeds specSet limit (specSetPieces set) set.sorted := by
  have items : Heeds (items set.items.length specItem) limit
      (set.items.flatMap specItemPieces) (set.items.map SpecItem.sorted) :=
    heeds_items fun item _ => heeds_specItem item
  exact ((heeds_count set.size).bind items).map SpecSet.mk

end Reading
end Docuverse.Wire
