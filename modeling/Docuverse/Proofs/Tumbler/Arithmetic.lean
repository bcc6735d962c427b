import Docuverse.Tumbler.Arithmetic
import Docuverse.Proofs.Checked

namespace Docuverse

namespace Tumbler

variable {place amount moved high low tail : List UInt64}

/-- No digit other than zero. -/
def Zeros (digits : List UInt64) : Prop := ∀ d ∈ digits, d = 0

theorem zeros_cons {d : UInt64} : Zeros (d :: place) ↔ d = 0 ∧ Zeros place := List.forall_mem_cons

theorem all_eq_true_iff_zeros : place.all (· == 0) = true ↔ Zeros place := by
  simp [Zeros]

theorem zeros_replicate (n : Nat) : Zeros (List.replicate n 0) :=
  fun _ member => List.eq_of_mem_replicate member

theorem addDigits_nil_left (amount : List UInt64) :
    addDigits [] amount = some (if amount.all (· == 0) then [] else amount) := by
  cases amount with
  | nil => rfl
  | cons e amount => rw [addDigits]; simp

theorem addDigits_cons_zero (d : UInt64) (place amount : List UInt64) :
    addDigits (d :: place) (0 :: amount) = (addDigits place amount).map (d :: ·) := rfl

theorem addDigits_cons_of_ne {e : UInt64} (nonzero : e ≠ 0) (d : UInt64)
    (place amount : List UInt64) :
    addDigits (d :: place) (e :: amount) =
      if d.toNat + e.toNat < UInt64.size then some ((d + e) :: amount) else none := by
  rw [addDigits, if_neg nonzero]

/-- A digit of zero leaves the place as it is and goes on below it. The first other digit is added,
and what is below it in the place gives way to what is below it in the amount. -/
theorem addDigits_cons_cases {d e : UInt64}
    (found : addDigits (d :: place) (e :: amount) = some moved) :
    (e = 0 ∧ ∃ later, addDigits place amount = some later ∧ moved = d :: later) ∨
      (e ≠ 0 ∧ d.toNat + e.toNat < UInt64.size ∧ moved = (d + e) :: amount) := by
  by_cases zero : e = 0
  · subst zero
    obtain ⟨later, foundLater, rfl⟩ := Option.map_eq_some_iff.mp found
    exact Or.inl ⟨rfl, later, foundLater, rfl⟩
  · rw [addDigits_cons_of_ne zero] at found
    split at found
    next room =>
      cases found
      exact Or.inr ⟨zero, room, rfl⟩
    next => cases found

theorem toNat_pos_of_ne {e : UInt64} (nonzero : e ≠ 0) : 0 < e.toNat :=
  Nat.pos_of_ne_zero fun zero => nonzero (UInt64.toNat_inj.mp zero)

theorem toNat_add_of_lt {d e : UInt64} (room : d.toNat + e.toNat < UInt64.size) :
    (d + e).toNat = d.toNat + e.toNat := by
  rw [UInt64.toNat_add, Nat.mod_eq_of_lt room]

theorem lt_add {d e : UInt64} (nonzero : e ≠ 0) (room : d.toNat + e.toNat < UInt64.size) :
    d < d + e := by
  have positive := toNat_pos_of_ne nonzero
  rw [UInt64.lt_iff_toNat_lt, toNat_add_of_lt room]
  omega

theorem add_ne_zero {d e : UInt64} (nonzero : e ≠ 0) (room : d.toNat + e.toNat < UInt64.size) :
    d + e ≠ 0 := by
  intro zero
  have grown := lt_add nonzero room
  rw [zero] at grown
  exact UInt64.not_lt_zero grown

theorem zero_add_room (f : UInt64) : (0 : UInt64).toNat + f.toNat < UInt64.size := by
  rw [UInt64.toNat_zero, Nat.zero_add]
  exact f.toNat_lt_size

/-- What is added to zeros stands in their place. -/
theorem zeros_addDigits (zeros : Zeros place) :
    addDigits place amount = some (if amount.all (· == 0) then place else amount) := by
  induction place generalizing amount with
  | nil => exact addDigits_nil_left amount
  | cons d place ih =>
    obtain ⟨rfl, others⟩ := zeros_cons.mp zeros
    cases amount with
    | nil => rfl
    | cons e amount =>
      by_cases zero : e = 0
      · subst zero
        rw [addDigits_cons_zero, ih others, List.all_cons]
        by_cases all : amount.all (· == 0) <;> simp [all]
      · rw [addDigits_cons_of_ne zero, if_pos (zero_add_room e), UInt64.zero_add]
        simp [zero]

theorem not_zeros_of_addDigits (nonzero : ¬ Zeros place)
    (found : addDigits place amount = some moved) : ¬ Zeros moved := by
  induction place generalizing amount moved with
  | nil => exact absurd (fun d member => nomatch member) nonzero
  | cons d place ih =>
    cases amount with
    | nil => cases found; exact nonzero
    | cons e amount =>
      intro zeros
      rcases addDigits_cons_cases found with ⟨rfl, later, foundLater, rfl⟩ | ⟨counts, room, rfl⟩
      · obtain ⟨first, others⟩ := zeros_cons.mp zeros
        exact ih (fun zeros => nonzero (zeros_cons.mpr ⟨first, zeros⟩)) foundLater others
      · exact add_ne_zero counts room (zeros_cons.mp zeros).1

theorem addDigits_nil_assoc (amount next : List UInt64) :
    addDigits (if amount.all (· == 0) then [] else amount) next =
      (addDigits amount next).bind (addDigits []) := by
  by_cases all : amount.all (· == 0) = true
  · rw [if_pos all, addDigits_nil_left, zeros_addDigits (all_eq_true_iff_zeros.mp all),
      Option.bind_some, addDigits_nil_left]
    by_cases nextAll : next.all (· == 0) = true
    · rw [if_pos nextAll, if_pos nextAll, if_pos all]
    · rw [if_neg nextAll, if_neg nextAll, if_neg nextAll]
  · rw [if_neg all]
    cases sum : addDigits amount next with
    | none => rfl
    | some total =>
      have nonzero : ¬ Zeros total :=
        not_zeros_of_addDigits (fun zeros => all (all_eq_true_iff_zeros.mpr zeros)) sum
      rw [Option.bind_some, addDigits_nil_left,
        if_neg fun all => nonzero (all_eq_true_iff_zeros.mp all)]

/-- At the level where the first amount counts, the digits themselves are added. -/
theorem addDigits_cons_assoc {d e : UInt64} (nonzero : e ≠ 0)
    (room : d.toNat + e.toNat < UInt64.size) (place amount next : List UInt64) :
    addDigits ((d + e) :: amount) next =
      (addDigits (e :: amount) next).bind (addDigits (d :: place)) := by
  cases next with
  | nil =>
    rw [addDigits_nil_right, addDigits_nil_right, Option.bind_some, addDigits_cons_of_ne nonzero,
      if_pos room]
  | cons f next =>
    by_cases zero : f = 0
    · subst zero
      rw [addDigits_cons_zero, addDigits_cons_zero]
      cases addDigits amount next with
      | none => rfl
      | some total =>
        rw [Option.map_some, Option.map_some, Option.bind_some, addDigits_cons_of_ne nonzero,
          if_pos room]
    · rw [addDigits_cons_of_ne zero, addDigits_cons_of_ne zero, toNat_add_of_lt room]
      by_cases inner : e.toNat + f.toNat < UInt64.size
      · rw [if_pos inner, Option.bind_some, addDigits_cons_of_ne (add_ne_zero zero inner),
          toNat_add_of_lt inner, Nat.add_assoc, UInt64.add_assoc]
      · rw [if_neg inner, if_neg (by omega)]
        rfl

/-- To move on twice is to move on by the sum of the amounts, and one is out of range exactly where
the other is. -/
theorem addDigits_assoc (found : addDigits place amount = some moved) (next : List UInt64) :
    addDigits moved next = (addDigits amount next).bind (addDigits place) := by
  induction place generalizing amount moved next with
  | nil =>
    rw [addDigits_nil_left] at found
    cases found
    exact addDigits_nil_assoc amount next
  | cons d place ih =>
    cases amount with
    | nil =>
      cases found
      rw [addDigits_nil_left, Option.bind_some]
      by_cases all : next.all (· == 0) = true
      · rw [if_pos all, addDigits_zeros (all_eq_true_iff_zeros.mp all), addDigits_nil_right]
      · rw [if_neg all]
    | cons e amount =>
      rcases addDigits_cons_cases found with ⟨rfl, later, foundLater, rfl⟩ | ⟨counts, room, rfl⟩
      · cases next with
        | nil => rw [addDigits_nil_right, addDigits_nil_right, Option.bind_some, found]
        | cons f next =>
          by_cases nextZero : f = 0
          · subst nextZero
            rw [addDigits_cons_zero, addDigits_cons_zero, ih foundLater]
            cases addDigits amount next with
            | none => rfl
            | some total => rfl
          · rw [addDigits_cons_of_ne nextZero, addDigits_cons_of_ne nextZero,
              if_pos (zero_add_room f), UInt64.zero_add, Option.bind_some,
              addDigits_cons_of_ne nextZero]
      · exact addDigits_cons_assoc counts room place amount next

/-- A place is moved on by a digit other than zero, and stays where it is without one. -/
theorem compare_addDigits (found : addDigits place amount = some moved) :
    compare place moved = if amount.all (· == 0) then .eq else .lt := by
  induction place generalizing amount moved with
  | nil =>
    rw [addDigits_nil_left] at found
    cases found
    by_cases all : amount.all (· == 0) = true
    · rw [if_pos all, if_pos all, List.compare_nil_nil]
    · rw [if_neg all, if_neg all]
      cases amount with
      | nil => exact absurd rfl all
      | cons e amount => rfl
  | cons d place ih =>
    cases amount with
    | nil =>
      cases found
      exact Std.ReflOrd.compare_self
    | cons e amount =>
      rcases addDigits_cons_cases found with ⟨rfl, later, foundLater, rfl⟩ | ⟨counts, room, rfl⟩
      · rw [List.compare_cons_cons, Std.ReflOrd.compare_self, ih foundLater]
        rfl
      · rw [List.compare_cons_cons, Std.compare_eq_lt.mpr (lt_add counts room)]
        simp [counts]

/-- Below the level at which an amount counts, all levels are its own. -/
theorem length_addDigits (counts : ¬ Zeros amount) (found : addDigits place amount = some moved) :
    moved.length = amount.length := by
  induction amount generalizing place moved with
  | nil => exact absurd (fun _ member => nomatch member) counts
  | cons e amount ih =>
    cases place with
    | nil =>
      rw [addDigits_nil_left, if_neg (mt all_eq_true_iff_zeros.mp counts)] at found
      rw [Option.some.inj found]
    | cons d place =>
      rcases addDigits_cons_cases found with ⟨rfl, later, foundLater, rfl⟩ | ⟨_, _, rfl⟩
      · have others : ¬ Zeros amount := fun zeros => counts (zeros_cons.mpr ⟨rfl, zeros⟩)
        rw [List.length_cons, List.length_cons, ih others foundLater]
      · rfl

/-- What stands in front of a place stays there while the place is moved. -/
theorem addDigits_append (front place amount : List UInt64) :
    addDigits (front ++ place) (List.replicate front.length 0 ++ amount) =
      (addDigits place amount).map (front ++ ·) := by
  induction front with
  | nil => simp
  | cons d front ih =>
    rw [List.cons_append, List.length_cons, List.replicate_succ, List.cons_append,
      addDigits_cons_zero, ih, Option.map_map]
    rfl

/-- The distance to a place with more digits has zeros for the digits that are the same. -/
theorem subDigits_append (low tail : List UInt64) :
    subDigits (low ++ tail) low =
      some (if tail.isEmpty then [] else List.replicate low.length 0 ++ tail) := by
  induction low with
  | nil => cases tail <;> rfl
  | cons l low ih =>
    rw [List.cons_append, subDigits, if_pos rfl, ih]
    cases tail with
    | nil => rfl
    | cons t tail => simp [List.replicate_succ]

/-- The higher place is the lower one with zeros behind it. -/
def Pads (low high : List UInt64) : Prop := ∃ n, high = low ++ List.replicate (n + 1) 0

theorem pads_cons {d : UInt64} : Pads (d :: low) (d :: high) ↔ Pads low high := by
  simp [Pads]

/-- What stands in front of both has no say in their order. -/
theorem compare_append_append (front low high : List UInt64) :
    compare (front ++ low) (front ++ high) = compare low high := by
  induction front with
  | nil => rfl
  | cons d front ih =>
    rw [List.cons_append, List.cons_append, List.compare_cons_cons, Std.ReflOrd.compare_self, ih]
    rfl

theorem compare_append (low tail : List UInt64) :
    compare low (low ++ tail) = if tail.isEmpty then .eq else .lt := by
  have order := compare_append_append low [] tail
  rw [List.append_nil] at order
  rw [order]
  cases tail <;> rfl

/-- The distance that is made of zeros leads nowhere. -/
theorem addDigits_subDigits_of_pads (pads : Pads low high)
    (found : subDigits high low = some amount) : addDigits low amount = some low := by
  obtain ⟨n, rfl⟩ := pads
  rw [subDigits_append] at found
  cases found
  refine addDigits_zeros fun e member => ?_
  rw [if_neg (by simp)] at member
  rcases List.mem_append.mp member with front | back
  · exact List.eq_of_mem_replicate front
  · exact List.eq_of_mem_replicate back

/-- No amount leads from a place to the same digits with zeros behind them. -/
theorem not_pads_of_addDigits (found : addDigits place amount = some moved) :
    ¬ Pads place moved := by
  induction place generalizing amount moved with
  | nil =>
    rintro ⟨n, rfl⟩
    rw [addDigits_nil_left] at found
    split at found
    · cases found
    next nonzero =>
      obtain rfl := Option.some.inj found
      exact nonzero (all_eq_true_iff_zeros.mpr (zeros_replicate (n + 1)))
  | cons d place ih =>
    cases amount with
    | nil =>
      cases found
      rintro ⟨n, same⟩
      exact absurd (congrArg List.length same) (by simp)
    | cons e amount =>
      rcases addDigits_cons_cases found with ⟨rfl, later, foundLater, rfl⟩ | ⟨counts, room, rfl⟩
      · exact fun pads => ih foundLater (pads_cons.mp pads)
      · rintro ⟨n, same⟩
        have grown := lt_add counts room
        rw [(List.cons.inj same).1] at grown
        exact UInt64.lt_irrefl d grown

/-- Any other distance leads from the lower place to the higher one. -/
theorem addDigits_subDigits (unpadded : ¬ Pads low high)
    (found : subDigits high low = some amount) : addDigits low amount = some high := by
  induction low generalizing high amount with
  | nil =>
    obtain rfl : high = amount := Option.some.inj (by rwa [subDigits] at found)
    rw [addDigits_nil_left]
    by_cases all : high.all (· == 0) = true
    · cases high with
      | nil => rfl
      | cons h high =>
        refine absurd ⟨high.length, ?_⟩ unpadded
        exact List.eq_replicate_of_mem (all_eq_true_iff_zeros.mp all)
    · rw [if_neg all]
  | cons l low ih =>
    cases high with
    | nil => cases found
    | cons h high =>
      rw [subDigits] at found
      split at found
      next same =>
        subst same
        obtain ⟨rest, foundRest, rfl⟩ := Option.map_eq_some_iff.mp found
        have later := ih (fun pads => unpadded (pads_cons.mpr pads)) foundRest
        cases rest with
        | nil =>
          rw [addDigits_nil_right] at later
          rw [Option.some.inj later]
          rfl
        | cons r rest =>
          show addDigits (h :: low) (0 :: r :: rest) = _
          rw [addDigits_cons_zero, later]
          rfl
      next =>
        split at found
        next above =>
          cases found
          have below : l.toNat < h.toNat := UInt64.lt_iff_toNat_lt.mp above
          have small := h.toNat_lt_size
          have difference : (h - l).toNat = h.toNat - l.toNat :=
            UInt64.toNat_sub_of_le h l (UInt64.le_iff_toNat_le.mpr (Nat.le_of_lt below))
          have nonzero : h - l ≠ 0 := by
            intro zero
            rw [zero] at difference
            change 0 = _ at difference
            omega
          rw [addDigits_cons_of_ne nonzero, if_pos (by omega), UInt64.add_comm,
            UInt64.sub_add_cancel]
        next => cases found

theorem add_eq_ok {place amount moved : Tumbler} :
    place.add amount = .ok moved ↔ addDigits place.digits amount.digits = some moved.digits := by
  rw [add]
  cases addDigits place.digits amount.digits with
  | none => simp
  | some digits => cases moved; simp

theorem sub_eq_ok {high low amount : Tumbler} :
    high.sub low = .ok amount ↔ subDigits high.digits low.digits = some amount.digits := by
  rw [sub]
  cases subDigits high.digits low.digits with
  | none => simp
  | some digits => cases amount; simp

/-- Where a place can be moved on by an amount, to move it on by a second one is to move it by the
sum of both. Either comes to the same tumbler, or no digit of it is in range in either. -/
theorem add_associative {place amount moved : Tumbler} (first : place.add amount = .ok moved)
    (next last : Tumbler) :
    moved.add next = .ok last ↔
      ∃ total, amount.add next = .ok total ∧ place.add total = .ok last := by
  have assoc := addDigits_assoc (add_eq_ok.mp first) next.digits
  rw [add_eq_ok, assoc, Option.bind_eq_some_iff]
  simp only [add_eq_ok]
  refine ⟨?_, ?_⟩
  · rintro ⟨digits, sum, found⟩
    exact ⟨⟨digits⟩, sum, found⟩
  · rintro ⟨total, sum, found⟩
    exact ⟨total.digits, sum, found⟩

/-- The second amount counts above the first one, or at its level, where the sum of the amounts is
in range and the place moved by it is not. -/
theorem add_associative_levels :
    let place : Tumbler := ⟨[1, 5, 7]⟩
    let amount : Tumbler := ⟨[0, 0, 2, 9]⟩
    let moved : Tumbler := ⟨[1, 5, 9, 9]⟩
    let great : Tumbler := ⟨[0, 0, 18446744073709551610]⟩
    place.add amount = .ok moved ∧
      (∃ total, amount.add ⟨[0, 3]⟩ = .ok total ∧ place.add total = .ok ⟨[1, 8]⟩) ∧
      amount.add great = .ok ⟨[0, 0, 18446744073709551612]⟩ ∧
      ∀ last, ¬ ∃ total, amount.add great = .ok total ∧ place.add total = .ok last := by
  intro place amount moved great
  have first : place.add amount = .ok moved := rfl
  refine ⟨first, (add_associative first ⟨[0, 3]⟩ ⟨[1, 8]⟩).mp rfl, rfl, fun last parts => ?_⟩
  have clash : moved.add great = .error (.range (.add moved great)) := rfl
  have found := (add_associative first great last).mpr parts
  rw [clash] at found
  cases found

end Tumbler

theorem Address.add_eq_ok {a b : Address} {o : Offset} :
    a.add o = .ok b ↔ Tumbler.addDigits a.digits o.digits = some b.digits := by
  rw [add, map_eq_ok]
  simp only [Tumbler.add_eq_ok]
  exact ⟨fun ⟨_, found, eq⟩ => eq ▸ found, fun found => ⟨b.tumbler, found, rfl⟩⟩

/-- Nothing but a digit out of range is in the way of a sum. -/
theorem Tumbler.range_of_add {place amount : Tumbler} {fault : Fault}
    (failed : place.add amount = .error fault) : ∃ clash, fault = .range clash := by
  rw [add] at failed
  split at failed
  · cases failed
  · cases failed
    exact ⟨_, rfl⟩

theorem Address.range_of_add {a : Address} {o : Offset} {fault : Fault}
    (failed : a.add o = .error fault) : ∃ clash, fault = .range clash :=
  Tumbler.range_of_add (map_eq_error.mp failed)

theorem Offset.range_of_add {a b : Offset} {fault : Fault} (failed : a.add b = .error fault) :
    ∃ clash, fault = .range clash :=
  Tumbler.range_of_add (map_eq_error.mp failed)

theorem Address.offsetFrom_eq_ok {a base : Address} {o : Offset} :
    a.offsetFrom base = .ok o ↔ Tumbler.subDigits a.digits base.digits = some o.digits := by
  rw [offsetFrom, map_eq_ok]
  simp only [Tumbler.sub_eq_ok]
  exact ⟨fun ⟨_, found, eq⟩ => eq ▸ found, fun found => ⟨o.tumbler, found, rfl⟩⟩

theorem Offset.add_eq_ok {a b c : Offset} :
    a.add b = .ok c ↔ Tumbler.addDigits a.digits b.digits = some c.digits := by
  rw [add, map_eq_ok]
  simp only [Tumbler.add_eq_ok]
  exact ⟨fun ⟨_, found, eq⟩ => eq ▸ found, fun found => ⟨c.tumbler, found, rfl⟩⟩

end Docuverse
