import Docuverse.Json.Token
import Docuverse.Json.Writing
import Docuverse.Proofs.Json.Literal

namespace Docuverse.Json

namespace Token

variable {c : Char} {word others : List Char}

theorem isWordChar_of_isDigit (digit : c.isDigit = true) : isWordChar c = true := by
  simp [isWordChar, Char.isAlphanum, digit]

theorem isBlank_of_isWordChar (inWord : isWordChar c = true) : isBlank c = false := by
  rw [← Bool.not_eq_true]
  intro blank
  simp only [isBlank, Bool.or_eq_true, beq_iff_eq] at blank
  rcases blank with ((rfl | rfl) | rfl) | rfl
  all_goals cases inWord

theorem isWhole_of_digits (nonempty : word ≠ []) (digits : ∀ c ∈ word, c.isDigit = true)
    (zero : ∀ others, word = '0' :: others → others = []) : isWhole word = true := by
  unfold isWhole
  split
  next others =>
    rw [zero others rfl]
    rfl
  next => simp [isDigits, List.all_eq_true.mpr digits, nonempty]

/-- Neither an exponent nor a fraction begins in the middle of digits. -/
theorem isUnsigned_of_digits (digits : ∀ c ∈ word, c.isDigit = true)
    (whole : isWhole word = true) : isUnsigned word = true := by
  have undivided (p : Char → Bool) (goesOn : ∀ c, c.isDigit = true → p c = true) :
      word.takeWhile p = word ∧ word.dropWhile p = [] := by
    have all : ∀ c ∈ word, p c = true := fun c member => goesOn c (digits c member)
    have taken : (word ++ []).takeWhile p = word ++ [] := List.takeWhile_append_of_pos all
    have dropped : (word ++ []).dropWhile p = [] := List.dropWhile_append_of_pos all
    simpa using And.intro taken dropped
  have value := undivided (fun c => c != 'e' && c != 'E') (by
    intro c digit
    have lower : c ≠ 'e' := fun same => by simp [same] at digit
    have upper : c ≠ 'E' := fun same => by simp [same] at digit
    simp [lower, upper])
  have before := undivided (fun c => c != '.') (by
    intro c digit
    have other : c ≠ '.' := fun same => by simp [same] at digit
    simp [other])
  simp [isUnsigned, value, before, whole, isFraction, isExponent]

/-- Digits without a superfluous zero are a number. -/
theorem ofWord?_of_digits (nonempty : word ≠ []) (digits : ∀ c ∈ word, c.isDigit = true)
    (zero : ∀ others, word = '0' :: others → others = []) :
    ofWord? word = some (.number word) := by
  have apart (c : Char) (others : List Char) (other : c.isDigit = false) : word ≠ c :: others := by
    rintro rfl
    rw [digits c List.mem_cons_self] at other
    cases other
  have number : isNumber word = true := by
    unfold isNumber
    split
    next others => exact absurd rfl (apart '-' others rfl)
    next => exact isUnsigned_of_digits digits (isWhole_of_digits nonempty digits zero)
  simp [ofWord?, apart, number]

end Token

namespace Scan

variable {scan : Scan} {c : Char} {tokens found : List Token} {text rest : List Char}

/-- The tokens that are found if the pass goes on with the rest of the text. -/
def through (scan : Scan) (rest : List Char) : Option (List Token) :=
  (rest.foldlM next scan).bind finish

theorem through_start (text : List Char) : through start text = tokens? text := rfl

theorem through_cons :
    through scan (c :: rest) = (scan.next c).bind fun scan => scan.through rest := by
  rw [through, List.foldlM_cons]
  cases scan.next c <;> rfl

theorem through_append : through scan (text ++ rest) =
    (text.foldlM next scan).bind fun scan => scan.through rest := by
  rw [through, List.foldlM_append]
  cases text.foldlM next scan <;> rfl

theorem through_blanks (blank : ∀ c ∈ text, Token.isBlank c = true) :
    through ⟨.between, tokens⟩ (text ++ rest) = through ⟨.between, tokens⟩ rest := by
  induction text with
  | nil => rfl
  | cons c text ih =>
    have here : next ⟨.between, tokens⟩ c = some ⟨.between, tokens⟩ := by
      rw [next, outside, if_pos (blank c List.mem_cons_self)]
    rw [List.cons_append, through_cons, here]
    exact ih fun c member => blank c (List.mem_cons_of_mem _ member)

theorem through_mark (mark : Token) (known : Token.mark? c = some mark) :
    through ⟨.between, tokens⟩ (c :: rest) = through ⟨.between, mark :: tokens⟩ rest := by
  have here : next ⟨.between, tokens⟩ c = some ⟨.between, mark :: tokens⟩ := by
    unfold Token.mark? at known
    split at known
    all_goals cases known
    all_goals rfl
  rw [through_cons, here, Option.bind_some]

/-- A word ends here. -/
def EndsWord (rest : List Char) : Prop := ∀ c ∈ rest.head?, Token.isWordChar c = false

/-- A word that ends is the token that it is, as if it had been one before. -/
theorem through_word_end {before : List Char} {token : Token} (ends : EndsWord rest)
    (known : Token.ofWord? before.reverse = some token) :
    through ⟨.word before, tokens⟩ rest = through ⟨.between, token :: tokens⟩ rest := by
  cases rest with
  | nil => simp [through, finish, known]
  | cons c rest =>
    have other : Token.isWordChar c = false := ends c rfl
    rw [through_cons, through_cons]
    simp [next, other, known]

theorem through_wordChars (inWord : ∀ c ∈ text, Token.isWordChar c = true)
    (tokens : List Token) (before rest : List Char) :
    through ⟨.word before, tokens⟩ (text ++ rest) =
      through ⟨.word (text.reverse ++ before), tokens⟩ rest := by
  induction text generalizing before with
  | nil => rfl
  | cons c text ih =>
    have here : next ⟨.word before, tokens⟩ c = some ⟨.word (c :: before), tokens⟩ := by
      simp [next, inWord c List.mem_cons_self]
    have others : ∀ c ∈ text, Token.isWordChar c = true :=
      fun c member => inWord c (List.mem_cons_of_mem _ member)
    rw [List.cons_append, through_cons, here, Option.bind_some, ih others]
    simp

theorem through_word (word : List Char) {token : Token}
    (inWord : ∀ c ∈ word, Token.isWordChar c = true)
    (known : Token.ofWord? word = some token) (ends : EndsWord rest) :
    through ⟨.between, tokens⟩ (word ++ rest) = through ⟨.between, token :: tokens⟩ rest := by
  cases word with
  | nil => cases known
  | cons c word =>
    have first := inWord c List.mem_cons_self
    have quote : c ≠ '"' := fun same => by simp [same, Token.isWordChar] at first
    have here : next ⟨.between, tokens⟩ c = some ⟨.word [c], tokens⟩ := by
      simp [next, outside, Token.isBlank_of_isWordChar first, quote, first]
    have others : ∀ c ∈ word, Token.isWordChar c = true :=
      fun c member => inWord c (List.mem_cons_of_mem _ member)
    rw [List.cons_append, through_cons, here, Option.bind_some, through_wordChars others]
    exact through_word_end ends (by simpa using known)

/-- No way to write a character leads out of the string. -/
theorem foldlM_spelling {spelled before : List Char} (spelling : Literal.Spelling c spelled) :
    spelled.foldlM next ⟨.string before, tokens⟩ =
      some ⟨.string (spelled.reverse ++ before), tokens⟩ := by
  cases spelling with
  | escape other escape => simp [next, other, escape]
  | unit unit small =>
    have known := Literal.ne_none_of_unit? unit
    simp only [List.forall_mem_cons] at known
    simp [next, known]
  | plain quote backslash large => simp [next, quote, backslash, Nat.not_lt.mpr large]

theorem foldlM_encode {before : List Char} (text : List Char) :
    (Literal.encode text).foldlM next ⟨.string before, tokens⟩ =
      some ⟨.string ((Literal.encode text).reverse ++ before), tokens⟩ := by
  induction text generalizing before with
  | nil => rfl
  | cons c text ih =>
    rw [Literal.encode_cons, List.foldlM_append, foldlM_spelling (Literal.spelling_encodeChar c)]
    simp [ih]

theorem through_quoted (text : List Char) :
    through ⟨.between, tokens⟩ (quoted (Literal.encode text) rest) =
      through ⟨.between, .string (Literal.encode text) :: tokens⟩ rest := by
  have opens : next ⟨.between, tokens⟩ '"' = some ⟨.string [], tokens⟩ := rfl
  have closes : next ⟨.string (Literal.encode text).reverse, tokens⟩ '"' =
      some ⟨.between, .string (Literal.encode text) :: tokens⟩ := by
    simp [next]
  rw [quoted, through_cons, opens, Option.bind_some, through_append, foldlM_encode,
    Option.bind_some, List.append_nil, through_cons, closes, Option.bind_some]

end Scan
end Docuverse.Json
