import Docuverse.Json.Literal

namespace Docuverse.Json.Literal

/-- The three ways to write a character: by a letter after a backslash, by its number, or as it
is. -/
inductive Spelling (c : Char) : List Char → Prop
  | escape {e} : e ≠ 'u' → escape? e = some c → Spelling c ['\\', e]
  | unit {w x y z} : unit? w x y z = some c.toNat → c.toNat < 0x20 →
      Spelling c ['\\', 'u', w, x, y, z]
  | plain : c ≠ '"' → c ≠ '\\' → 0x20 ≤ c.toNat → Spelling c [c]

variable {c e w x y z : Char} {n : Nat} {rest spelled : List Char}

theorem unit?_hexLetter (small : n < 0x20) :
    unit? '0' '0' (hexLetter (n / 16)) (hexLetter (n % 16)) = some n := by
  revert n
  decide

theorem ne_none_of_unit? (unit : unit? w x y z = some n) :
    ∀ c ∈ [w, x, y, z], hexValue? c ≠ none := by
  simp only [unit?, Option.bind_eq_bind, Option.bind_eq_some_iff] at unit
  obtain ⟨_, first, _, second, _, third, _, fourth, _⟩ := unit
  simp [first, second, third, fourth]

theorem spelling_encodeChar (c : Char) : Spelling c (encodeChar c) := by
  unfold encodeChar
  iterate 7
    split
    next same =>
      subst same
      exact .escape (by decide) rfl
  split
  next small => exact .unit (unit?_hexLetter small) small
  next quote backslash _ _ _ _ _ large => exact .plain quote backslash (Nat.not_lt.mp large)

theorem encode_cons (c : Char) (text : List Char) :
    encode (c :: text) = encodeChar c ++ encode text :=
  List.flatMap_cons

theorem decode_escape (other : e ≠ 'u') (escape : escape? e = some c) :
    decode ('\\' :: e :: rest) = (c :: ·) <$> decode rest := by
  rw [decode.eq_def]
  split
  next none => cases none
  next whole => cases whole; exact absurd rfl other
  next whole => cases whole; exact absurd rfl other
  next whole =>
    cases whole
    rw [escape]
    cases decode rest <;> rfl
  next later whole =>
    cases whole
    exact absurd rfl (later _ _ rfl)

/-- A number that is no surrogate's stands for its character, also in front of another number. -/
theorem decode_unit (rest : List Char) (unit : unit? w x y z = some n) (small : n < 0xD800) :
    decode ('\\' :: 'u' :: w :: x :: y :: z :: rest) = (Char.ofNat n :: ·) <$> decode rest := by
  have high : isHighSurrogate n = false := by simp [isHighSurrogate]; omega
  have low : isLowSurrogate n = false := by simp [isLowSurrogate]; omega
  rw [decode.eq_def]
  split
  next none => cases none
  next whole =>
    cases whole
    simp only [unit, high, low, Option.bind_eq_bind, Option.bind_some, Bool.false_eq_true, if_false]
    cases decode _ <;> rfl
  next whole =>
    cases whole
    simp only [unit, high, low, Option.bind_eq_bind, Option.bind_some, Bool.or_self,
      Bool.false_eq_true, if_false]
    cases decode _ <;> rfl
  next later whole =>
    cases whole
    exact absurd rfl (later w x y z rest rfl)
  next later whole =>
    cases whole
    exact absurd rfl (later _ _ rfl)

theorem decode_plain (plain : c ≠ '\\') : decode (c :: rest) = (c :: ·) <$> decode rest := by
  rw [decode.eq_def]
  split
  next none => cases none
  next whole => cases whole; exact absurd rfl plain
  next whole => cases whole; exact absurd rfl plain
  next whole => cases whole; exact absurd rfl plain
  next whole =>
    cases whole
    rw [if_neg plain]
    cases decode rest <;> rfl

theorem Spelling.decode_append (spelling : Spelling c spelled) :
    decode (spelled ++ rest) = (c :: ·) <$> decode rest := by
  cases spelling with
  | escape other escape => exact decode_escape other escape
  | unit unit small =>
    have found := decode_unit rest unit (Nat.lt_trans small (by decide))
    rwa [Char.ofNat_toNat] at found
  | plain _ backslash _ => exact decode_plain backslash

/-- A text is found again in its literal. -/
theorem decode_encode (text : List Char) : decode (encode text) = some text := by
  induction text with
  | nil => rfl
  | cons c text ih =>
    rw [encode_cons, (spelling_encodeChar c).decode_append, ih]
    rfl

end Docuverse.Json.Literal
