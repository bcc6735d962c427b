import Docuverse.Proofs.Session.Replies
import Docuverse.Proofs.Wire.InRange
import Docuverse.Proofs.Wire.PrefixFree

namespace Docuverse

open Wire Wire.Reading

namespace Wire.Reading

variable {α β : Type} {reading : Reading α} {next : α → Reading β} {limit : Nat}
  {text text' : List UInt8} {x : α} {y : β}

/-- In front of any bytes whatever, the reading takes exactly `text` and finds `value`, if it finds
anything. -/
def Settles (reading : Reading α) (text : List UInt8) (value : α) : Prop :=
  ∀ limit rest ending x left, reading limit ⟨text ++ rest, ending⟩ = .ok x left →
    x = value ∧ left = ⟨rest, ending⟩

theorem settles_pure (x : α) : Settles (pure x) [] x := by
  intro limit rest ending y left found
  cases found
  exact ⟨rfl, rfl⟩

theorem ofExcept_eq_ok {result : Except Fault α} {inbound left : Inbound} :
    (ofExcept result : Reading α) limit inbound = .ok x left ↔
      result = .ok x ∧ left = inbound := by
  cases result with
  | error fault => exact iff_of_false (fun found => nomatch found) (fun both => nomatch both.1)
  | ok z =>
    refine ⟨fun found => ?_, fun ⟨same, rests⟩ => ?_⟩
    · cases found
      exact ⟨rfl, rfl⟩
    · cases same
      rw [rests]
      rfl

theorem ofExcept_eq_error {result : Except Fault α} {fault : Fault} {inbound left : Inbound} :
    (ofExcept result : Reading α) limit inbound = .error fault left ↔
      result = .error fault ∧ left = inbound := by
  cases result with
  | ok z => exact iff_of_false (fun failed => nomatch failed) (fun both => nomatch both.1)
  | error other =>
    refine ⟨fun failed => ?_, fun ⟨same, rests⟩ => ?_⟩
    · cases failed
      exact ⟨rfl, rfl⟩
    · cases same
      rw [rests]
      rfl

theorem settles_ofExcept {result : Except Fault α} (only : ∀ y, result = .ok y → y = x) :
    Settles (ofExcept result) [] x := by
  intro limit rest ending y left found
  obtain ⟨told, rests⟩ := ofExcept_eq_ok.mp found
  exact ⟨only y told, rests⟩

theorem Settles.bind (first : Settles reading text x) (second : Settles (next x) text' y) :
    Settles (reading >>= next) (text ++ text') y := by
  intro limit rest ending z left found
  rw [List.append_assoc] at found
  obtain ⟨x', middle, foundFirst, foundSecond⟩ := bind_eq_ok.mp found
  obtain ⟨rfl, rfl⟩ := first _ _ _ _ _ foundFirst
  exact second _ _ _ _ _ foundSecond

theorem Settles.bind_silent (first : Settles reading text x) (second : Settles (next x) [] y) :
    Settles (reading >>= next) text y :=
  List.append_nil text ▸ first.bind second

theorem Settles.map (settles : Settles reading text x) (f : α → β) :
    Settles (f <$> reading) text (f x) := by
  rw [map_eq_bind]
  exact settles.bind_silent (settles_pure (f x))

/-- A chunk of digits and points is found, unless it is longer than the limit. -/
theorem settles_chunk {context s : String} (formChars : ∀ c ∈ s.toList, Tumbler.IsFormChar c) :
    Settles (chunk context) (Latin.ascii s ++ [terminator]) s := by
  intro limit rest ending value left found
  obtain ⟨text, split, accepts, _⟩ := framed_chunk context _ _ _ _ found
  obtain ⟨bytes, same⟩ := Inbound.mk.inj split
  obtain ⟨body, mark, spelled, plain, ends, fits, told⟩ := accepts_chunk.mp accepts
  have wide : (chunk context).Accepts (max limit s.length) text value := accepts_chunk.mpr
    ⟨body, mark, spelled, plain, ends, fits.mono (Nat.le_max_left limit s.length), told⟩
  obtain ⟨value, rests⟩ :=
    wide.unique (accepts_chunk_ascii formChars (Nat.le_max_right limit s.length)) bytes.symm
  obtain ⟨unread, last⟩ := left
  exact ⟨value, congr (congrArg Inbound.mk rests) same.symm⟩

theorem toNat_of_ofNumeral_repr {n : Nat} {m : UInt64} (read : ofNumeral n.repr = .ok m) :
    m.toNat = n := by
  have value := (Decimal.read_eq_ok_iff.mp (ofNumeral_eq_ok.mp read)).2.2
  rw [← value, Nat.toList_repr, Nat.ofDigitChars_ten_toDigits]

/-- A count that is too great to be read is not found. -/
theorem settles_count (n : Nat) : Settles count (encodeCount n) n := by
  have digits : ∀ c ∈ n.repr.toList, Tumbler.IsFormChar c := fun c member =>
    Or.inl (isDigit_repr n c member)
  rw [count, map_eq_bind, number, bind_assoc]
  refine (settles_chunk digits).bind_silent ?_
  intro limit rest ending x left found
  obtain ⟨m, middle, understood, told⟩ := bind_eq_ok.mp found
  obtain ⟨read, rfl⟩ := ofExcept_eq_ok.mp understood
  cases told
  exact ⟨toNat_of_ofNumeral_repr read, rfl⟩

theorem settles_tumbler (t : Tumbler) : Settles tumbler (encodeTumbler t) t := by
  refine (settles_chunk (Tumbler.isFormChar_exponentForm t)).bind_silent
    (settles_ofExcept fun u read => ?_)
  by_cases small : t.exponent ≤ Tumbler.maxExponent
  · rw [Tumbler.ofExponentForm_exponentForm small] at read
    exact (Except.ok.inj read).symm
  · obtain ⟨what, failed⟩ := Tumbler.ofExponentForm_of_large (Nat.not_le.mp small)
    rw [failed] at read
    cases read

theorem settles_address (a : Address) : Settles address (encodeTumbler a.tumbler) a :=
  (settles_tumbler a.tumbler).map Address.mk

theorem settles_offset (o : Offset) : Settles offset (encodeTumbler o.tumbler) o :=
  (settles_tumbler o.tumbler).map Offset.mk

end Wire.Reading

/-- A piece of shared content as it is told: two global addresses, which may lie in no document, and
the width that both sides have. -/
structure Sharing.Telling where
  a : Address
  b : Address
  width : Offset
  deriving DecidableEq, Repr

namespace Sharing

namespace Telling

def pieces (t : Telling) : List Piece :=
  [.tumbler t.a.tumbler, .tumbler t.b.tumbler, .tumbler t.width.tumbler]

/-- Both addresses have a zero, at which they are cut into a document and a place. -/
def InDocs (t : Telling) : Prop := 0 ∈ t.a.digits ∧ 0 ∈ t.b.digits

instance (t : Telling) : Decidable t.InDocs :=
  inferInstanceAs (Decidable (0 ∈ t.a.digits ∧ 0 ∈ t.b.digits))

/-- Each side in its document. -/
def placed (t : Telling) : Except Fault Shared := do
  let (docA, placeA) ← t.a.split
  let (docB, placeB) ← t.b.split
  return (⟨docA, placeA, t.width⟩, ⟨docB, placeB, t.width⟩)

theorem exists_placed_iff {t : Telling} : (∃ piece, t.placed = .ok piece) ↔ t.InDocs := by
  rw [InDocs, ← Address.exists_split_iff, ← Address.exists_split_iff]
  refine ⟨fun ⟨piece, placed⟩ => ?_, fun ⟨⟨inA, splitA⟩, ⟨inB, splitB⟩⟩ => ?_⟩
  · obtain ⟨inA, splitA, placed⟩ := Docuverse.bind_eq_ok.mp placed
    obtain ⟨inB, splitB, _⟩ := Docuverse.bind_eq_ok.mp placed
    exact ⟨⟨inA, splitA⟩, ⟨inB, splitB⟩⟩
  · rw [placed, splitA, splitB]
    exact ⟨_, rfl⟩

end Telling

/-- The bytes of tellings, one after the other. -/
def told (ts : List Telling) : List UInt8 := written (ts.flatMap Telling.pieces)

/-- The tellings after the first one that is not in documents. -/
def unheard (ts : List Telling) : List Telling :=
  (ts.dropWhile fun t => decide t.InDocs).tail

section Telling

variable {t : Telling} {ts : List Telling}

theorem told_cons (t : Telling) (ts : List Telling) :
    told (t :: ts) = written t.pieces ++ told ts := by
  rw [told, List.flatMap_cons, written_append]
  rfl

theorem told_eq_nil_iff : told ts = [] ↔ ts = [] := by
  cases ts with
  | nil => exact iff_of_true rfl rfl
  | cons t ts => simp [told_cons, Telling.pieces, written, Piece.bytes, encodeTumbler]

theorem unheard_cons_of_inDocs (inDocs : t.InDocs) : unheard (t :: ts) = unheard ts := by
  rw [unheard, List.dropWhile_cons, if_pos (decide_eq_true inDocs)]
  rfl

theorem unheard_cons_of_not (outside : ¬ t.InDocs) : unheard (t :: ts) = ts := by
  rw [unheard, List.dropWhile_cons, if_neg (by simpa using outside)]
  rfl

theorem unheard_of_forall (all : ∀ t ∈ ts, t.InDocs) : unheard ts = [] := by
  induction ts with
  | nil => rfl
  | cons t ts ih =>
    obtain ⟨inDocs, others⟩ := List.forall_mem_cons.mp all
    rw [unheard_cons_of_inDocs inDocs, ih others]

/-- All tellings are heard if no telling but the last one is out of documents. -/
theorem unheard_eq_nil_iff : unheard ts = [] ↔ ∀ t ∈ ts.dropLast, t.InDocs := by
  induction ts with
  | nil => exact iff_of_true rfl (by simp)
  | cons t ts ih =>
    cases ts with
    | nil =>
      refine iff_of_true ?_ (by simp)
      by_cases inDocs : t.InDocs
      · exact unheard_cons_of_inDocs inDocs
      · exact unheard_cons_of_not inDocs
    | cons next ts =>
      rw [List.dropLast_cons_cons, List.forall_mem_cons]
      by_cases inDocs : t.InDocs
      · rw [unheard_cons_of_inDocs inDocs, ih, and_iff_right inDocs]
      · rw [unheard_cons_of_not inDocs]
        exact iff_of_false (List.cons_ne_nil next ts) fun both => inDocs both.1

end Telling

end Sharing

namespace Request

open Sharing

variable {limit : Nat} {rest : List UInt8} {ending : Ending} {left : Inbound} {clash : RangeFault}
  {t : Telling} {ts : List Telling}

def telling : Reading Telling := do
  let a ← address
  let b ← address
  let width ← offset
  return ⟨a, b, width⟩

/-- A piece is taken as a whole, and then put into its documents. -/
theorem shared_eq : shared = (do ofExcept (Telling.placed (← telling))) := by
  simp only [shared, telling, bind_assoc, pure_bind]
  refine congrArg _ (funext fun a => congrArg _ (funext fun b => congrArg _ ?_))
  funext width
  rw [Telling.placed]
  cases a.split with
  | error fault => rfl
  | ok inA =>
    cases b.split with
    | error fault => rfl
    | ok inB => rfl

theorem settles_telling (t : Telling) : Settles telling (written t.pieces) t := by
  have last : written t.pieces = encodeTumbler t.a.tumbler ++
      (encodeTumbler t.b.tumbler ++ (encodeTumbler t.width.tumbler ++ [])) := rfl
  rw [last]
  exact (settles_address t.a).bind ((settles_address t.b).bind
    ((settles_offset t.width).bind (settles_pure _)))

theorem composed_telling : Composed telling :=
  composed_address.bind fun a => composed_address.bind fun b => composed_offset.bind fun width =>
    .pure (Telling.mk a b width)

/-- A piece that is found lies in documents. -/
theorem of_shared_ok {x : Shared}
    (found : shared limit ⟨written t.pieces ++ rest, ending⟩ = .ok x left) :
    t.InDocs ∧ left = ⟨rest, ending⟩ := by
  rw [shared_eq] at found
  obtain ⟨t', middle, heard, found⟩ := Reading.bind_eq_ok.mp found
  obtain ⟨rfl, rfl⟩ := settles_telling t _ _ _ _ _ heard
  obtain ⟨inDocs, rests⟩ := ofExcept_eq_ok.mp found
  exact ⟨Telling.exists_placed_iff.mp ⟨x, inDocs⟩, rests⟩

/-- A piece that does not lie in documents has been taken by then. -/
theorem of_shared_range
    (failed : shared limit ⟨written t.pieces ++ rest, ending⟩ = .error (.range clash) left) :
    ¬ t.InDocs ∧ left = ⟨rest, ending⟩ := by
  rw [shared_eq] at failed
  rcases Reading.bind_eq_error.mp failed with failed | ⟨t', middle, heard, failed⟩
  · exact absurd failed (composed_telling.inRange limit _ clash left)
  · obtain ⟨rfl, rfl⟩ := settles_telling t _ _ _ _ _ heard
    obtain ⟨outside, rests⟩ := ofExcept_eq_error.mp failed
    refine ⟨fun inDocs => ?_, rests⟩
    obtain ⟨x, placed⟩ := Telling.exists_placed_iff.mpr inDocs
    rw [outside] at placed
    cases placed

theorem of_items_ok {xs : List Shared}
    (found : items ts.length shared limit ⟨told ts ++ rest, ending⟩ = .ok xs left) :
    (∀ t ∈ ts, t.InDocs) ∧ left = ⟨rest, ending⟩ := by
  induction ts generalizing xs with
  | nil =>
    cases found
    exact ⟨by simp, rfl⟩
  | cons t ts ih =>
    rw [List.length_cons, items_succ, told_cons, List.append_assoc] at found
    obtain ⟨x, middle, first, found⟩ := Reading.bind_eq_ok.mp found
    obtain ⟨xs, last, others, done⟩ := Reading.bind_eq_ok.mp found
    cases done
    obtain ⟨inDocs, rfl⟩ := of_shared_ok first
    obtain ⟨all, rests⟩ := ih others
    exact ⟨List.forall_mem_cons.mpr ⟨inDocs, all⟩, rests⟩

/-- Where the pieces are found out of range, those after the first bad one are left. -/
theorem of_items_range
    (failed : items ts.length shared limit ⟨told ts ++ rest, ending⟩ = .error (.range clash) left) :
    left = ⟨told (unheard ts) ++ rest, ending⟩ := by
  induction ts with
  | nil => cases failed
  | cons t ts ih =>
    rw [List.length_cons, items_succ, told_cons, List.append_assoc] at failed
    rcases Reading.bind_eq_error.mp failed with failed | ⟨x, middle, first, failed⟩
    · obtain ⟨outside, rests⟩ := of_shared_range failed
      rw [rests, unheard_cons_of_not outside]
    · obtain ⟨inDocs, rfl⟩ := of_shared_ok first
      rw [unheard_cons_of_inDocs inDocs]
      rcases Reading.bind_eq_error.mp failed with failed | ⟨_, _, _, none⟩
      · exact ih failed
      · cases none

/-- A comparison that is out of range leaves the pieces after the first bad one, and nothing of the
reply if the pieces clash only when they are put together. -/
theorem of_compareVersions_range {a b : SpecSet}
    (failed : reply (.compareVersions a b) limit
      ⟨encodeCount ts.length ++ (told ts ++ rest), ending⟩ = .error (.range clash) left) :
    left = ⟨told (unheard ts) ++ rest, ending⟩ := by
  rcases Reading.bind_eq_error.mp failed with failed | ⟨pieces, middle, found, failed⟩
  · rcases Reading.bind_eq_error.mp failed with failed | ⟨n, middle, counted, failed⟩
    · exact absurd failed (composed_count.inRange limit _ clash left)
    · obtain ⟨rfl, rfl⟩ := settles_count ts.length _ _ _ _ _ counted
      exact of_items_range failed
  · obtain ⟨n, inner, counted, found⟩ := Reading.bind_eq_ok.mp found
    obtain ⟨rfl, rfl⟩ := settles_count ts.length _ _ _ _ _ counted
    obtain ⟨all, rfl⟩ := of_items_ok found
    obtain ⟨_, rests⟩ := ofExcept_eq_error.mp failed
    rw [rests, unheard_of_forall all]
    rfl

end Request
end Docuverse
