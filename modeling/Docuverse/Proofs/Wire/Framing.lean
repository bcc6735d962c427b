import Docuverse.Wire.Inbound

namespace Docuverse.Wire.Reading

variable {α β : Type} {reading : Reading α} {next : α → Reading β} {limit : Nat}

/-- In front of any bytes whatever, the reading takes exactly `text` and finds `value`. -/
def Accepts (reading : Reading α) (limit : Nat) (text : List UInt8) (value : α) : Prop :=
  ∀ rest ending, reading limit ⟨text ++ rest, ending⟩ = .ok value ⟨rest, ending⟩

/-- The bytes are all taken and are too few, and the end of the stream is what is wrong. -/
def Starves (reading : Reading α) (limit : Nat) (text : List UInt8) : Prop :=
  ∀ ending, ∃ context, reading limit ⟨text, ending⟩ = .error (ending.fault context) ⟨[], ending⟩

/-- What is found hangs on the bytes that are taken and on no others, and none of them can be
missing. -/
def Framed (reading : Reading α) : Prop :=
  ∀ limit inbound value left, reading limit inbound = .ok value left →
    ∃ text, inbound = ⟨text ++ left.unread, left.ending⟩ ∧ reading.Accepts limit text value ∧
      ∀ front, front <+: text → front ≠ text → reading.Starves limit front

/-- There is no value without a byte. -/
def Hungry (reading : Reading α) : Prop := ∀ limit, reading.Starves limit []

theorem bind_eq_ok {inbound left : Inbound} {y : β} :
    (reading >>= next) limit inbound = .ok y left ↔
      ∃ x middle, reading limit inbound = .ok x middle ∧ next x limit middle = .ok y left := by
  simp only [bind, ReaderT.bind, EStateM.bind]
  cases reading limit inbound with
  | error fault rest => simp
  | ok x middle =>
    refine ⟨fun found => ⟨x, middle, rfl, found⟩, ?_⟩
    intro parts
    obtain ⟨_, _, ⟨⟩, found⟩ := parts
    exact found

theorem bind_of_ok {inbound middle : Inbound} {x : α}
    (found : reading limit inbound = .ok x middle) :
    (reading >>= next) limit inbound = next x limit middle := by
  simp only [bind, ReaderT.bind, EStateM.bind, found]

theorem bind_of_error {inbound left : Inbound} {fault : Fault}
    (failed : reading limit inbound = .error fault left) :
    (reading >>= next) limit inbound = .error fault left := by
  simp only [bind, ReaderT.bind, EStateM.bind, failed]

theorem map_eq_bind (f : α → β) : f <$> reading = reading >>= fun x => pure (f x) := by
  funext limit inbound
  simp only [Functor.map, bind, ReaderT.bind, EStateM.map, EStateM.bind, pure, ReaderT.pure,
    EStateM.pure]

/-- The end of a stream gives a reading no more and no less than an empty text does. -/
theorem Hungry.not_accepts_nil (hungry : Hungry reading) (value : α) :
    ¬ reading.Accepts limit [] value := by
  intro accepts
  obtain ⟨context, starved⟩ := hungry limit .closed
  have found := accepts [] .closed
  rw [List.nil_append, starved] at found
  cases found

theorem Hungry.bind (hungry : Hungry reading) (next : α → Reading β) :
    Hungry (reading >>= next) := by
  intro limit ending
  obtain ⟨context, starved⟩ := hungry limit ending
  exact ⟨context, bind_of_error starved⟩

theorem Hungry.map (hungry : Hungry reading) (f : α → β) : Hungry (f <$> reading) := by
  rw [map_eq_bind]
  exact hungry.bind _

theorem accepts_pure {text : List UInt8} {x y : α} :
    Accepts (pure x : Reading α) limit text y ↔ text = [] ∧ x = y := by
  refine ⟨?_, ?_⟩
  · intro accepts
    have found := accepts [] .closed
    rw [List.append_nil] at found
    cases found
    exact ⟨rfl, rfl⟩
  · intro parts rest ending
    obtain ⟨rfl, rfl⟩ := parts
    rfl

theorem framed_pure (x : α) : Framed (pure x : Reading α) := by
  intro limit inbound value left found
  cases found
  refine ⟨[], rfl, accepts_pure.mpr ⟨rfl, rfl⟩, ?_⟩
  intro front proper unequal
  exact absurd (List.prefix_nil.mp proper) unequal

theorem not_accepts_throw {text : List UInt8} {fault : Fault} {value : α} :
    ¬ Accepts (throw fault : Reading α) limit text value := by
  intro accepts
  cases accepts [] .closed

theorem framed_throw (fault : Fault) : Framed (throw fault : Reading α) := by
  intro limit inbound value left found
  cases found

theorem accepts_ofExcept {result : Except Fault α} {text : List UInt8} {value : α} :
    Accepts (ofExcept result : Reading α) limit text value ↔ text = [] ∧ result = .ok value := by
  cases result with
  | error fault =>
    refine iff_of_false not_accepts_throw ?_
    rintro ⟨_, ⟨⟩⟩
  | ok x =>
    rw [Except.ok.injEq]
    exact accepts_pure

theorem framed_ofExcept (result : Except Fault α) : Framed (ofExcept result : Reading α) := by
  cases result with
  | error fault => exact framed_throw fault
  | ok x => exact framed_pure x

theorem Accepts.bind {front back : List UInt8} {x : α} {y : β}
    (first : reading.Accepts limit front x) (second : (next x).Accepts limit back y) :
    Accepts (reading >>= next) limit (front ++ back) y := by
  intro rest ending
  rw [List.append_assoc, bind_of_ok (first (back ++ rest) ending)]
  exact second rest ending

/-- What two readings take together falls into what each of them takes. -/
theorem Framed.accepts_bind (framed : Framed reading) {text : List UInt8} {y : β} :
    Accepts (reading >>= next) limit text y ↔
      ∃ x front back, text = front ++ back ∧ reading.Accepts limit front x ∧
        (next x).Accepts limit back y := by
  refine ⟨?_, ?_⟩
  · intro accepts
    obtain ⟨x, middle, found, _⟩ := bind_eq_ok.mp (accepts [] .closed)
    obtain ⟨front, split, first, _⟩ := framed _ _ _ _ found
    obtain ⟨bytes, _⟩ := Inbound.mk.inj split
    rw [List.append_nil] at bytes
    refine ⟨x, front, middle.unread, bytes, first, ?_⟩
    intro rest ending
    have whole := accepts rest ending
    rwa [bytes, List.append_assoc, bind_of_ok (first (middle.unread ++ rest) ending)] at whole
  · intro parts
    obtain ⟨x, front, back, rfl, first, second⟩ := parts
    exact first.bind second

/-- A proper front of two texts is a proper front of the first, or all of it with a proper front of
the second. -/
theorem proper_front_cases {front first second : List UInt8} (proper : front <+: first ++ second)
    (unequal : front ≠ first ++ second) :
    (front <+: first ∧ front ≠ first) ∨
      ∃ part, front = first ++ part ∧ part <+: second ∧ part ≠ second := by
  obtain ⟨tail, whole⟩ := proper
  rcases List.append_eq_append_iff.mp whole with ⟨missing, split, _⟩ | ⟨part, split, rest⟩
  · by_cases same : front = first
    · subst same
      refine Or.inr ⟨[], (List.append_nil _).symm, List.nil_prefix, ?_⟩
      rintro rfl
      exact unequal (List.append_nil _).symm
    · exact Or.inl ⟨⟨missing, split.symm⟩, same⟩
  · subst split
    refine Or.inr ⟨part, rfl, ⟨tail, rest.symm⟩, ?_⟩
    rintro rfl
    exact unequal rfl

theorem Framed.bind (first : Framed reading) (second : ∀ x, Framed (next x)) :
    Framed (reading >>= next) := by
  intro limit inbound value left found
  obtain ⟨x, middle, foundFirst, foundSecond⟩ := bind_eq_ok.mp found
  obtain ⟨front, rfl, acceptsFirst, starvesFirst⟩ := first _ _ _ _ foundFirst
  obtain ⟨back, split, acceptsSecond, starvesSecond⟩ := second x _ _ _ _ foundSecond
  obtain ⟨unread, ending⟩ := middle
  obtain ⟨rfl, rfl⟩ := Inbound.mk.inj split
  refine ⟨front ++ back, by rw [List.append_assoc], acceptsFirst.bind acceptsSecond, ?_⟩
  intro part proper unequal
  rcases proper_front_cases proper unequal with ⟨inner, short⟩ | ⟨part, rfl, inner, short⟩
  · intro ending
    obtain ⟨context, starved⟩ := starvesFirst part inner short ending
    exact ⟨context, bind_of_error starved⟩
  · intro ending
    rw [bind_of_ok (acceptsFirst part ending)]
    exact starvesSecond part inner short ending

theorem Framed.map (framed : Framed reading) (f : α → β) : Framed (f <$> reading) := by
  rw [map_eq_bind]
  exact framed.bind fun x => framed_pure (f x)

theorem Framed.accepts_map (framed : Framed reading) (f : α → β) {text : List UInt8} {y : β} :
    Accepts (f <$> reading) limit text y ↔ ∃ x, reading.Accepts limit text x ∧ f x = y := by
  rw [map_eq_bind, framed.accepts_bind]
  simp only [accepts_pure]
  refine ⟨?_, ?_⟩
  · intro parts
    obtain ⟨x, front, back, rfl, accepts, rfl, same⟩ := parts
    exact ⟨x, by rwa [List.append_nil], same⟩
  · intro parts
    obtain ⟨x, accepts, same⟩ := parts
    exact ⟨x, text, [], (List.append_nil _).symm, accepts, rfl, same⟩

theorem Accepts.map {text : List UInt8} {x : α} (accepts : reading.Accepts limit text x)
    (f : α → β) : Accepts (f <$> reading) limit text (f x) := by
  intro rest ending
  rw [map_eq_bind, bind_of_ok (accepts rest ending)]
  rfl

theorem accepts_byte {context : String} {text : List UInt8} {b : UInt8} :
    (byte context).Accepts limit text b ↔ text = [b] := by
  refine ⟨?_, ?_⟩
  · intro accepts
    have found := accepts [] .closed
    cases text with
    | nil => cases found
    | cons first others =>
      rw [List.append_nil, byte] at found
      cases found
      rfl
  · rintro rfl rest ending
    rfl

theorem hungry_byte (context : String) : Hungry (byte context) := by
  intro limit ending
  exact ⟨context, rfl⟩

theorem framed_byte (context : String) : Framed (byte context) := by
  intro limit inbound value left found
  obtain ⟨unread, ending⟩ := inbound
  cases unread with
  | nil => cases found
  | cons b rest =>
    cases found
    refine ⟨[value], rfl, accepts_byte.mpr rfl, ?_⟩
    intro front proper unequal
    rcases List.prefix_cons_iff.mp proper with rfl | ⟨tail, rfl, empty⟩
    · exact hungry_byte context limit
    · rw [List.prefix_nil.mp empty] at unequal
      exact absurd rfl unequal

theorem accepts_expect {expected : UInt8} {context : String} {text : List UInt8} {u : Unit} :
    (expect expected context).Accepts limit text u ↔ text = [expected] := by
  rw [expect, (framed_byte context).accepts_bind]
  refine ⟨?_, ?_⟩
  · intro parts
    obtain ⟨b, front, back, rfl, first, second⟩ := parts
    split at second
    · exact absurd second not_accepts_throw
    next same =>
      rw [accepts_byte.mp first, (accepts_pure.mp second).1, List.append_nil,
        Decidable.not_not.mp same]
  · rintro rfl
    refine ⟨expected, [expected], [], rfl, accepts_byte.mpr rfl, ?_⟩
    rw [if_neg (by simp)]
    exact accepts_pure.mpr ⟨rfl, rfl⟩

theorem hungry_expect (expected : UInt8) (context : String) : Hungry (expect expected context) :=
  (hungry_byte context).bind _

theorem framed_expect (expected : UInt8) (context : String) : Framed (expect expected context) := by
  refine (framed_byte context).bind fun b => ?_
  split
  · exact framed_throw _
  · exact framed_pure ()

/-- A byte that has to come first. -/
theorem accepts_expect_bind {expected : UInt8} {context : String} {next : Unit → Reading β}
    {text : List UInt8} {y : β} :
    Accepts (expect expected context >>= next) limit text y ↔
      ∃ rest, text = expected :: rest ∧ (next ()).Accepts limit rest y := by
  rw [(framed_expect expected context).accepts_bind]
  refine ⟨?_, ?_⟩
  · intro ⟨_, front, rest, split, first, later⟩
    rw [accepts_expect.mp first] at split
    exact ⟨rest, split, later⟩
  · intro ⟨rest, split, later⟩
    exact ⟨(), [expected], rest, split, accepts_expect.mpr rfl, later⟩

/-- To look at the first byte is to take no more than what is read after that. -/
theorem accepts_peek_bind {context : String} {next : UInt8 → Reading β} {text : List UInt8}
    {y : β} :
    Accepts (peek context >>= next) limit text y ↔
      ∃ b rest, text = b :: rest ∧ (next b).Accepts limit text y := by
  refine ⟨?_, ?_⟩
  · intro accepts
    cases text with
    | nil =>
      obtain ⟨b, middle, found, _⟩ := bind_eq_ok.mp (accepts [] .closed)
      cases found
    | cons b rest => exact ⟨b, rest, rfl, accepts⟩
  · intro parts
    obtain ⟨b, rest, rfl, accepts⟩ := parts
    exact accepts

theorem hungry_peek (context : String) : Hungry (peek context) := by
  intro limit ending
  exact ⟨context, rfl⟩

/-- A look ahead stays inside the frame if what follows takes the byte that was looked at. -/
theorem framed_peek_bind {next : UInt8 → Reading β} (context : String)
    (framed : ∀ b, Framed (next b))
    (takes : ∀ b limit y, ¬ (next b).Accepts limit [] y) : Framed (peek context >>= next) := by
  intro limit inbound value left found
  obtain ⟨b, middle, peeked, foundNext⟩ := bind_eq_ok.mp found
  obtain ⟨unread, ending⟩ := inbound
  cases unread with
  | nil => cases peeked
  | cons first others =>
    cases peeked
    obtain ⟨text, split, accepts, starves⟩ := framed b _ _ _ _ foundNext
    cases text with
    | nil => exact absurd accepts (takes b limit value)
    | cons first' text =>
      obtain ⟨bytes, _⟩ := Inbound.mk.inj split
      obtain ⟨rfl, _⟩ := List.cons.inj bytes
      refine ⟨b :: text, split, accepts_peek_bind.mpr ⟨b, text, rfl, accepts⟩, ?_⟩
      intro front proper unequal
      rcases List.prefix_cons_iff.mp proper with rfl | ⟨front, rfl, _⟩
      · exact (hungry_peek context).bind next limit
      · exact starves (b :: front) proper unequal

theorem raw_of_le {n : Nat} {context : String} {inbound : Inbound} (small : n ≤ limit)
    (enough : n ≤ inbound.unread.length) :
    raw n context limit inbound =
      .ok (inbound.unread.take n) { inbound with unread := inbound.unread.drop n } := by
  rw [raw, if_neg (Nat.not_lt.mpr small), if_pos enough]

/-- Bytes of a given number are taken as they are. -/
theorem accepts_raw {n : Nat} {context : String} {text bytes : List UInt8} :
    (raw n context).Accepts limit text bytes ↔ n ≤ limit ∧ text.length = n ∧ bytes = text := by
  refine ⟨?_, ?_⟩
  · intro accepts
    have found := accepts [] .closed
    rw [raw] at found
    split at found
    · cases found
    · split at found
      next small enough =>
        obtain ⟨rfl, left⟩ := EStateM.Result.ok.inj found
        rw [List.append_nil] at left enough ⊢
        change n ≤ text.length at enough
        have short : text.length ≤ n := List.drop_eq_nil_iff.mp (Inbound.mk.inj left).1
        exact ⟨by omega, by omega, List.take_of_length_le short⟩
      · cases found
  · intro parts rest ending
    obtain ⟨small, rfl, rfl⟩ := parts
    rw [raw_of_le small (by simp), List.take_left, List.drop_left]

theorem framed_raw (n : Nat) (context : String) : Framed (raw n context) := by
  intro limit inbound value left found
  have given := found
  rw [raw] at found
  split at found
  · cases found
  split at found
  next small enough =>
    obtain ⟨rfl, rfl⟩ := EStateM.Result.ok.inj found
    have length : (inbound.unread.take n).length = n := List.length_take_of_le enough
    refine ⟨inbound.unread.take n, by rw [List.take_append_drop],
      accepts_raw.mpr ⟨by omega, length, rfl⟩, ?_⟩
    intro front proper unequal ending
    have short := proper.length_le
    have shorter : front.length ≠ n := by
      intro same
      exact unequal (proper.eq_of_length (same.trans length.symm))
    refine ⟨context, ?_⟩
    rw [raw, if_neg small, if_neg (Nat.not_le.mpr (by omega : front.length < n))]
  · cases found

/-- The texts of some values, one after the other. -/
inductive InOrder (spells : List UInt8 → α → Prop) : List UInt8 → List α → Prop
  | nil : InOrder spells [] []
  | cons {front back x xs} :
      spells front x → InOrder spells back xs → InOrder spells (front ++ back) (x :: xs)

theorem InOrder.imp {spells spells' : List UInt8 → α → Prop} {text : List UInt8} {xs : List α}
    (inOrder : InOrder spells text xs)
    (weaker : ∀ part, ∀ x ∈ xs, spells part x → spells' part x) : InOrder spells' text xs := by
  induction inOrder with
  | nil => exact .nil
  | cons first _ ih =>
    exact .cons (weaker _ _ List.mem_cons_self first)
      (ih fun part x member => weaker part x (List.mem_cons_of_mem _ member))

theorem InOrder.forall_of {spells : List UInt8 → α → Prop} {holds : α → Prop}
    {text : List UInt8} {xs : List α} (inOrder : InOrder spells text xs)
    (each : ∀ part x, spells part x → holds x) : ∀ x ∈ xs, holds x := by
  induction inOrder with
  | nil => simp
  | cons first _ ih => exact List.forall_mem_cons.mpr ⟨each _ _ first, ih⟩

theorem framed_items (framed : Framed reading) (n : Nat) : Framed (items n reading) := by
  induction n with
  | zero =>
    rw [items_zero]
    exact framed_pure []
  | succ n ih =>
    rw [items_succ]
    exact framed.bind fun x => ih.bind fun xs => framed_pure (x :: xs)

theorem Framed.accepts_items (framed : Framed reading) {n : Nat} {text : List UInt8}
    {xs : List α} :
    (items n reading).Accepts limit text xs ↔
      xs.length = n ∧ InOrder (reading.Accepts limit) text xs := by
  induction n generalizing text xs with
  | zero =>
    rw [items_zero, accepts_pure, List.length_eq_zero_iff]
    refine ⟨?_, ?_⟩
    · intro parts
      obtain ⟨rfl, rfl⟩ := parts
      exact ⟨rfl, .nil⟩
    · intro parts
      obtain ⟨rfl, ⟨⟩⟩ := parts
      exact ⟨rfl, rfl⟩
  | succ n ih =>
    rw [items_succ, framed.accepts_bind]
    refine ⟨?_, ?_⟩
    · intro parts
      obtain ⟨x, front, back, rfl, first, others⟩ := parts
      obtain ⟨xs, back, empty, rfl, found, last⟩ := (framed_items framed n).accepts_bind.mp others
      obtain ⟨rfl, rfl⟩ := accepts_pure.mp last
      obtain ⟨length, inOrder⟩ := ih.mp found
      rw [List.append_nil]
      exact ⟨by rw [List.length_cons, length], .cons first inOrder⟩
    · intro parts
      obtain ⟨length, inOrder⟩ := parts
      cases inOrder with
      | nil => cases length
      | @cons front back x xs first others =>
        have found := ih.mpr ⟨Nat.succ.inj length, others⟩
        refine ⟨x, front, back, rfl, first, ?_⟩
        have whole : Accepts (do return x :: (← items n reading)) limit (back ++ []) (x :: xs) :=
          found.bind (accepts_pure.mpr ⟨rfl, rfl⟩)
        rwa [List.append_nil] at whole

end Docuverse.Wire.Reading
