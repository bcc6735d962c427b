import Docuverse.Proofs.Distance
import Docuverse.Proofs.Tumbler.Order

namespace Docuverse.Tumbler

section Digits

variable {a b x y place amount moved less more : List UInt64} {d e : UInt64}

/-- With room for both sums, the same digit may be added on both sides. -/
theorem add_lt_add {f : UInt64} (room : d.toNat + f.toNat < UInt64.size)
    (room' : e.toNat + f.toNat < UInt64.size) (below : d < e) : d + f < e + f := by
  rw [UInt64.lt_iff_toNat_lt] at below ⊢
  rw [toNat_add_of_lt room, toNat_add_of_lt room']
  omega

/-- A place that is moved by an amount is not before the amount. -/
theorem isLE_of_addDigits (counts : ¬ Zeros amount) (found : addDigits place amount = some moved) :
    (compare amount moved).isLE = true := by
  induction place generalizing amount moved with
  | nil =>
    rw [addDigits_nil_left, if_neg (mt all_eq_true_iff_zeros.mp counts)] at found
    rw [Option.some.inj found, Std.ReflOrd.compare_self]
    rfl
  | cons d place ih =>
    cases amount with
    | nil => exact absurd (fun _ member => nomatch member) counts
    | cons e amount =>
      rcases addDigits_cons_cases found with ⟨rfl, later, foundLater, rfl⟩ | ⟨_, room, rfl⟩
      · have others : ¬ Zeros amount := fun zeros => counts (zeros_cons.mpr ⟨rfl, zeros⟩)
        rw [isLE_cons_iff]
        by_cases zero : d = 0
        · exact Or.inr ⟨zero.symm, ih others foundLater⟩
        · exact Or.inl (UInt64.pos_iff_ne_zero.mpr zero)
      · rw [isLE_cons_iff]
        by_cases zero : d = 0
        · subst zero
          rw [UInt64.zero_add, Std.ReflOrd.compare_self]
          exact Or.inr ⟨rfl, rfl⟩
        · rw [UInt64.add_comm d e]
          exact Or.inl (lt_add zero (by omega))

/-- The same amount moves places in order to places in order. -/
theorem isLE_addDigits (below : (compare a b).isLE = true) (first : addDigits a amount = some x)
    (second : addDigits b amount = some y) : (compare x y).isLE = true := by
  induction a generalizing b amount x y with
  | nil =>
    rw [addDigits_nil_left] at first
    cases first
    by_cases all : amount.all (· == 0) = true
    · rw [if_pos all]
      cases y <;> rfl
    · rw [if_neg all]
      exact isLE_of_addDigits (mt all_eq_true_iff_zeros.mpr all) second
  | cons d a ih =>
    cases b with
    | nil => cases below
    | cons e b =>
      cases amount with
      | nil =>
        cases first
        cases second
        exact below
      | cons f amount =>
        rw [isLE_cons_iff] at below
        rcases addDigits_cons_cases first with ⟨rfl, x, firstLater, rfl⟩ | ⟨counts, room, rfl⟩
        · rcases addDigits_cons_cases second with ⟨_, y, secondLater, rfl⟩ | ⟨counts, _, _⟩
          · exact isLE_cons_iff.mpr (below.imp_right fun both =>
              ⟨both.1, ih both.2 firstLater secondLater⟩)
          · exact absurd rfl counts
        · rcases addDigits_cons_cases second with ⟨zero, _, _, _⟩ | ⟨_, room', rfl⟩
          · exact absurd zero counts
          · rw [isLE_cons_iff, Std.ReflOrd.compare_self]
            rcases below with lower | ⟨rfl, _⟩
            · exact Or.inl (add_lt_add room room' lower)
            · exact Or.inr ⟨rfl, rfl⟩

/-- Nothing but zeros comes before zeros. -/
theorem zeros_of_lt (below : compare less more = .lt) (zeros : Zeros more) : Zeros less := by
  induction less generalizing more with
  | nil => exact fun _ member => nomatch member
  | cons e less ih =>
    cases more with
    | nil => cases below
    | cons f more =>
      obtain ⟨rfl, others⟩ := zeros_cons.mp zeros
      rcases lt_cons_iff.mp below with lower | ⟨same, later⟩
      · exact absurd lower UInt64.not_lt_zero
      · exact zeros_cons.mpr ⟨same, ih later others⟩

/-- From one place, the greater of two amounts leads further, if it leads anywhere. -/
theorem compare_addDigits_of_lt (below : compare less more = .lt)
    (first : addDigits place less = some x) (second : addDigits place more = some y) :
    compare x y = if more.all (· == 0) then .eq else .lt := by
  induction place generalizing less more x y with
  | nil =>
    rw [addDigits_nil_left] at first second
    cases first
    cases second
    by_cases all : more.all (· == 0) = true
    · have zeros := zeros_of_lt below (all_eq_true_iff_zeros.mp all)
      rw [if_pos all, if_pos all, if_pos (all_eq_true_iff_zeros.mpr zeros), List.compare_nil_nil]
    · rw [if_neg all, if_neg all]
      split
      · cases more with
        | nil => exact absurd rfl all
        | cons f more => rfl
      · exact below
  | cons d place ih =>
    cases less with
    | nil =>
      cases first
      exact compare_addDigits second
    | cons e less =>
      cases more with
      | nil => cases below
      | cons f more =>
        rw [lt_cons_iff] at below
        rcases addDigits_cons_cases second with ⟨rfl, y, secondLater, rfl⟩ | ⟨counts, room', rfl⟩
        · rcases below with lower | ⟨rfl, lower⟩
          · exact absurd lower UInt64.not_lt_zero
          rcases addDigits_cons_cases first with ⟨_, x, firstLater, rfl⟩ | ⟨counts, _, _⟩
          · rw [List.compare_cons_cons, Std.ReflOrd.compare_self, ih lower firstLater secondLater]
            rfl
          · exact absurd rfl counts
        · have grows : (if (f :: more).all (· == 0) then Ordering.eq else .lt) = .lt := by
            simp [counts]
          rw [grows]
          rcases addDigits_cons_cases first with ⟨_, x, _, rfl⟩ | ⟨_, room, rfl⟩
          · exact lt_cons_iff.mpr (Or.inl (lt_add counts room'))
          · rw [UInt64.add_comm d e, UInt64.add_comm d f]
            refine lt_cons_iff.mpr (below.imp (add_lt_add (by omega) (by omega)) ?_)
            exact And.imp_left (congrArg (· + d))

end Digits

/-- Addition is monotone in the place and in the amount. In the amount it is strictly so, as soon as
the greater amount has a digit that counts. -/
theorem add_monotone :
    (∀ a b amount x y : Tumbler, a ≤ b → a.add amount = .ok x → b.add amount = .ok y → x ≤ y) ∧
    ∀ place less more x y : Tumbler, less < more → place.add less = .ok x → place.add more = .ok y →
      x ≤ y ∧ (x < y ↔ ∃ d ∈ more.digits, d ≠ 0) := by
  refine ⟨fun a b amount x y below first second => ?_,
    fun place less more x y below first second => ?_⟩
  · rw [← Std.isLE_compare] at below ⊢
    exact isLE_addDigits below (add_eq_ok.mp first) (add_eq_ok.mp second)
  · have lower : compare less more = .lt := Std.compare_eq_lt.mpr below
    have order : compare x y = if more.isZero then .eq else .lt :=
      compare_addDigits_of_lt lower (add_eq_ok.mp first) (add_eq_ok.mp second)
    rw [← Std.isLE_compare, ← Std.compare_eq_lt, order, ← isZero_eq_false_iff]
    cases more.isZero <;> simp

/-- A place and one inside it, moved at a level that only the inner one has, and a place that is
moved by amounts of two levels. Zeros are put behind zeros without an effect. -/
theorem add_monotone_levels :
    let outer : Tumbler := ⟨[1, 2]⟩
    let inner : Tumbler := ⟨[1, 2, 0, 5]⟩
    outer < inner ∧ outer.add ⟨[0, 0, 0, 4]⟩ = .ok ⟨[1, 2, 0, 4]⟩ ∧
      inner.add ⟨[0, 0, 0, 4]⟩ = .ok ⟨[1, 2, 0, 9]⟩ ∧
      (⟨[1, 2, 0, 4]⟩ : Tumbler) ≤ ⟨[1, 2, 0, 9]⟩ ∧
      outer.add ⟨[0, 0, 7]⟩ = .ok ⟨[1, 2, 7]⟩ ∧ outer.add ⟨[0, 1]⟩ = .ok ⟨[1, 3]⟩ ∧
      (⟨[1, 2, 7]⟩ : Tumbler) < ⟨[1, 3]⟩ ∧
      outer.add ⟨[0]⟩ = .ok outer ∧ outer.add ⟨[0, 0]⟩ = .ok outer ∧ ¬ outer < outer := by
  intro outer inner
  obtain ⟨places, amounts⟩ := add_monotone
  have below : outer < inner := by decide
  have inOrder := places outer inner ⟨[0, 0, 0, 4]⟩ _ _ (Std.le_of_lt below) rfl rfl
  have further := amounts outer ⟨[0, 0, 7]⟩ ⟨[0, 1]⟩ _ _ (by decide) rfl rfl
  have stays := amounts outer ⟨[0]⟩ ⟨[0, 0]⟩ outer outer (by decide) rfl rfl
  exact ⟨below, rfl, rfl, inOrder, rfl, rfl, further.2.mpr (by decide), rfl, rfl,
    mt stays.2.mp (by decide)⟩

end Docuverse.Tumbler
