import Docuverse.Proofs.Enfilade.Framing

namespace Docuverse

open Wire

namespace Wire.Reading

variable {α β : Type} {reading item : Reading α} {next : α → Reading β} {limit n : Nat}
  {inbound middle left : Inbound}

/-- Takes a byte at least for what it finds. -/
def Takes (reading : Reading α) : Prop :=
  ∀ limit inbound x left, reading limit inbound = .ok x left →
    left.unread.length < inbound.unread.length

theorem Hungry.takes (hungry : Hungry reading) (framed : Framed reading) : Takes reading := by
  intro limit inbound x left found
  obtain ⟨text, split, accepts, _⟩ := framed _ _ _ _ found
  have nonempty : text ≠ [] := by
    rintro rfl
    exact hungry.not_accepts_nil x accepts
  have bytes := congrArg (·.unread.length) split
  have positive := List.length_pos_iff.mpr nonempty
  simp only [List.length_append] at bytes
  omega

theorem takes_tumbler : Takes tumbler := hungry_tumbler.takes framed_tumbler

theorem takes_address : Takes address := hungry_address.takes framed_address

theorem takes_span : Takes span := hungry_span.takes framed_span

theorem takes_specItem : Takes specItem := by
  have hungry : Hungry specItem := (hungry_byte "specset tag").bind _
  exact hungry.takes framed_specItem

/-- Items take as many bytes as there are items. -/
theorem length_of_items (takes : Takes item) {xs : List α}
    (found : items n item limit inbound = .ok xs left) :
    n + left.unread.length ≤ inbound.unread.length := by
  induction n generalizing inbound xs with
  | zero =>
    cases found
    omega
  | succ n ih =>
    rw [items_succ] at found
    obtain ⟨x, middle, foundFirst, found⟩ := bind_eq_ok.mp found
    obtain ⟨xs, last, foundOthers, told⟩ := bind_eq_ok.mp found
    cases told
    have first := takes _ _ _ _ foundFirst
    have others := ih foundOthers
    omega

/-- Finds nothing, for whatever reason. -/
def Fails (reading : Reading α) (limit : Nat) (inbound : Inbound) : Prop :=
  ∃ fault left, reading limit inbound = .error fault left

theorem Fails.bind (fails : Fails reading limit inbound) (next : α → Reading β) :
    Fails (reading >>= next) limit inbound := by
  obtain ⟨fault, left, failed⟩ := fails
  exact ⟨fault, left, bind_of_error failed⟩

theorem Fails.map (fails : Fails reading limit inbound) (f : α → β) :
    Fails (f <$> reading) limit inbound := by
  rw [map_eq_bind]
  exact fails.bind _

theorem fails_bind_of_ok {x : α} (found : reading limit inbound = .ok x middle)
    (fails : Fails (next x) limit middle) : Fails (reading >>= next) limit inbound := by
  obtain ⟨fault, left, failed⟩ := fails
  exact ⟨fault, left, (bind_of_ok found).trans failed⟩

theorem fails_raw (context : String) (few : inbound.unread.length < n) :
    Fails (raw n context) limit inbound := by
  rw [Fails, raw]
  split
  · exact ⟨_, _, rfl⟩
  · rw [if_neg (Nat.not_le.mpr few)]
    exact ⟨_, _, rfl⟩

theorem fails_items (takes : Takes item) (few : inbound.unread.length < n) :
    Fails (items n item) limit inbound := by
  cases found : items n item limit inbound with
  | ok xs left =>
    have enough := length_of_items takes found
    omega
  | error fault left => exact ⟨fault, left, found⟩

theorem fails_counted (takes : Takes item) (counts : count limit inbound = .ok n left)
    (few : left.unread.length < n) : Fails (counted item) limit inbound :=
  fails_bind_of_ok counts (fails_items takes few)

end Wire.Reading

namespace Enfilade.Reading

open Wire.Reading

theorem takes_crum (room : Nat) : Takes (crum room) := by
  cases room with
  | zero =>
    intro limit inbound c left found
    cases found
  | succ room =>
    have hungry : Hungry (crum (room + 1)) :=
      (((hungry_expect '('.toUInt8 "crum").bind _).bind _).bind _
    exact hungry.takes (framed_crum (room + 1))

end Enfilade.Reading

namespace Wire.Reading

open Enfilade Enfilade.Reading

/-- In the course of reading `inbound`, when only `left` is still unread, a count `n` has been read:
of the bytes of a text, of the entries of a list, of the spans of a vspec or of the children of a
crum. -/
inductive Declares (limit : Nat) : {α : Type} → Reading α → Inbound → Nat → Inbound → Prop
  | text {context inbound n left} : count limit inbound = .ok n left →
      Declares limit (textBody context) inbound n left
  | tumblers {inbound n left} : count limit inbound = .ok n left →
      Declares limit (counted tumbler) inbound n left
  | addresses {inbound n left} : count limit inbound = .ok n left →
      Declares limit (counted address) inbound n left
  | specItems {inbound n left} : count limit inbound = .ok n left →
      Declares limit (counted specItem) inbound n left
  | spans {inbound doc middle n left} : address limit inbound = .ok doc middle →
      count limit middle = .ok n left → Declares limit vspec inbound n left
  | children {room inbound told middle n left} : label limit inbound = .ok told middle →
      lettered 'c' "crum child count" count limit middle = .ok n left →
      Declares limit (crum (room + 1)) inbound n left
  | first {α β : Type} {reading : Reading α} {next : α → Reading β} {inbound n left} :
      Declares limit reading inbound n left → Declares limit (reading >>= next) inbound n left
  | next {α β : Type} {reading : Reading α} {next : α → Reading β} {inbound x middle n left} :
      reading limit inbound = .ok x middle → Declares limit (next x) middle n left →
      Declares limit (reading >>= next) inbound n left

variable {α β : Type} {reading item : Reading α} {limit n k : Nat} {inbound middle left : Inbound}

/-- If more is declared than there are bytes left, the reading fails, however deep the count lies in
what is read. -/
theorem Declares.fails (declares : Declares limit reading inbound n left)
    (few : left.unread.length < n) : Fails reading limit inbound := by
  induction declares with
  | text counts => exact fails_bind_of_ok counts ((fails_raw _ few).bind _)
  | tumblers counts => exact fails_counted takes_tumbler counts few
  | addresses counts => exact fails_counted takes_address counts few
  | specItems counts => exact fails_counted takes_specItem counts few
  | spans told counts =>
    exact fails_bind_of_ok told (fails_bind_of_ok counts ((fails_items takes_span few).bind _))
  | @children room inbound told middle n left labelled counts =>
    have some : n ≠ 0 := by omega
    have below : Fails (body (crum room) told n) limit left := by
      rw [body, if_neg some]
      exact (fails_items (takes_crum room) few).map _
    exact fails_bind_of_ok labelled (fails_bind_of_ok counts (below.bind _))
  | first _ ih => exact (ih few).bind _
  | next found _ ih => exact fails_bind_of_ok found (ih few)

theorem Declares.map (declares : Declares limit reading inbound n left) (f : α → β) :
    Declares limit (f <$> reading) inbound n left := by
  rw [map_eq_bind]
  exact .first declares

/-- A count in one of several items is a count in all of them. -/
theorem Declares.of_items {xs : List α} (found : items k item limit inbound = .ok xs middle)
    (declares : Declares limit item middle n left) (others : Nat) :
    Declares limit (items (k + 1 + others) item) inbound n left := by
  induction k generalizing inbound xs with
  | zero =>
    cases found
    rw [Nat.add_comm, items_succ]
    exact .first declares
  | succ k ih =>
    rw [items_succ] at found
    obtain ⟨x, second, foundFirst, found⟩ := bind_eq_ok.mp found
    obtain ⟨xs, last, foundOthers, told⟩ := bind_eq_ok.mp found
    cases told
    have later := ih foundOthers
    rw [show k + 1 + 1 + others = k + 1 + others + 1 by omega, items_succ]
    exact .next foundFirst (.first later)

/-- A count in one of the children of a crum is a count in the crum. -/
theorem Declares.of_child {room others : Nat} {told : Label} {last there : Inbound}
    {elder : List Crum} (labelled : label limit inbound = .ok told middle)
    (counts : lettered 'c' "crum child count" count limit middle = .ok (k + 1 + others) last)
    (found : items k (crum room) limit last = .ok elder there)
    (declares : Declares limit (crum room) there n left) :
    Declares limit (crum (room + 1)) inbound n left := by
  refine .next labelled (.next counts (.first ?_))
  rw [body, if_neg (by omega)]
  exact (declares.of_items found others).map _

end Wire.Reading
end Docuverse
