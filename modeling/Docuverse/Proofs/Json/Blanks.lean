import Docuverse.Proofs.Json.Writing

namespace Docuverse.Json

/-- Where in a text a character stands: outside of strings, in one, or there behind a backslash. -/
inductive Zone where
  | outside
  | string
  | escaped
  deriving DecidableEq, Repr

/-- The text without the blanks that are outside of strings, from a character in the zone on. -/
def withoutBlanksFrom : Zone → List Char → List Char
  | _, [] => []
  | .outside, c :: rest =>
    if c = '"' then c :: withoutBlanksFrom .string rest
    else if Token.isBlank c then withoutBlanksFrom .outside rest
    else c :: withoutBlanksFrom .outside rest
  | .string, c :: rest =>
    if c = '"' then c :: withoutBlanksFrom .outside rest
    else if c = '\\' then c :: withoutBlanksFrom .escaped rest
    else c :: withoutBlanksFrom .string rest
  | .escaped, c :: rest => c :: withoutBlanksFrom .string rest

def withoutBlanks (text : String) : String :=
  String.ofList (withoutBlanksFrom .outside text.toList)

variable {layout : Layout} {depth : Nat} {items : List Json}
  {members : List (List Char × Json)} {text rest : List Char}

theorem withoutBlanksFrom_blanks (blank : ∀ c ∈ text, Token.isBlank c = true) :
    withoutBlanksFrom .outside (text ++ rest) = withoutBlanksFrom .outside rest := by
  induction text with
  | nil => rfl
  | cons c text ih =>
    obtain ⟨here, others⟩ := List.forall_mem_cons.mp blank
    have quote : c ≠ '"' := fun same => by simp [same, Token.isBlank] at here
    rw [List.cons_append, withoutBlanksFrom, if_neg quote, if_pos here, ih others]

theorem withoutBlanksFrom_word (text : List Char)
    (inWord : ∀ c ∈ text, Token.isWordChar c = true) :
    withoutBlanksFrom .outside (text ++ rest) = text ++ withoutBlanksFrom .outside rest := by
  induction text with
  | nil => rfl
  | cons c text ih =>
    obtain ⟨here, others⟩ := List.forall_mem_cons.mp inWord
    have quote : c ≠ '"' := fun same => by simp [same, Token.isWordChar] at here
    rw [List.cons_append, withoutBlanksFrom, if_neg quote]
    simp [Token.isBlank_of_isWordChar here, ih others]

theorem withoutBlanksFrom_mark {c : Char} (mark : Token) (known : Token.mark? c = some mark) :
    withoutBlanksFrom .outside (c :: rest) = c :: withoutBlanksFrom .outside rest := by
  unfold Token.mark? at known
  split at known
  all_goals cases known
  all_goals rfl

/-- No way to write a character leads out of the string. -/
theorem withoutBlanksFrom_spelling {c : Char} {spelled : List Char}
    (spelling : Literal.Spelling c spelled) :
    withoutBlanksFrom .string (spelled ++ rest) = spelled ++ withoutBlanksFrom .string rest := by
  cases spelling with
  | escape other escape => rfl
  | unit unit small =>
    have plain (d : Char) (hexadecimal : Literal.hexValue? d ≠ none) : d ≠ '"' ∧ d ≠ '\\' :=
      ⟨fun same => hexadecimal (same ▸ rfl), fun same => hexadecimal (same ▸ rfl)⟩
    have known := Literal.ne_none_of_unit? unit
    simp only [List.forall_mem_cons] at known
    simp [withoutBlanksFrom, plain, known]
  | plain quote backslash large => simp [withoutBlanksFrom, quote, backslash]

theorem withoutBlanksFrom_quoted (text : List Char) :
    withoutBlanksFrom .outside (quoted (Literal.encode text) rest) =
      quoted (Literal.encode text) (withoutBlanksFrom .outside rest) := by
  have inside (text : List Char) :
      withoutBlanksFrom .string (Literal.encode text ++ '"' :: rest) =
        Literal.encode text ++ '"' :: withoutBlanksFrom .outside rest := by
    induction text with
    | nil => rfl
    | cons c text ih =>
      rw [Literal.encode_cons, List.append_assoc,
        withoutBlanksFrom_spelling (Literal.spelling_encodeChar c), ih, List.append_assoc]
  rw [quoted, withoutBlanksFrom, if_pos rfl, inside, quoted]

/-- Without its blanks, the text of the tree is the one that has none. -/
def Condenses (layout : Layout) (json : Json) : Prop :=
  ∀ depth rest, withoutBlanksFrom .outside (json.writeOnto layout depth rest) =
    json.writeOnto .compact depth (withoutBlanksFrom .outside rest)

theorem withoutBlanksFrom_items (blank : layout.IsBlank)
    (each : ∀ item ∈ items, Condenses layout item) :
    withoutBlanksFrom .outside (writeItemsOnto layout depth items rest) =
      writeItemsOnto .compact depth items (withoutBlanksFrom .outside rest) := by
  induction items with
  | nil => rfl
  | cons item items ih =>
    obtain ⟨first, others⟩ := List.forall_mem_cons.mp each
    rw [writeItemsOnto, withoutBlanksFrom_mark .comma rfl,
      withoutBlanksFrom_blanks (blank.lineBreak depth), first, ih others]
    rfl

theorem withoutBlanksFrom_member (blank : layout.IsBlank) {name : List Char} {value : Json}
    (spelled : ∃ text, name = Literal.encode text) (inside : Condenses layout value) :
    withoutBlanksFrom .outside
        (quoted name (':' :: (layout.afterColon ++ value.writeOnto layout depth rest))) =
      quoted name (':' :: value.writeOnto .compact depth (withoutBlanksFrom .outside rest)) := by
  obtain ⟨text, rfl⟩ := spelled
  rw [withoutBlanksFrom_quoted, withoutBlanksFrom_mark .colon rfl,
    withoutBlanksFrom_blanks blank.afterColon, inside]

theorem withoutBlanksFrom_members (blank : layout.IsBlank)
    (spelled : ∀ member ∈ members, ∃ text, member.1 = Literal.encode text)
    (each : ∀ member ∈ members, Condenses layout member.2) :
    withoutBlanksFrom .outside (writeMembersOnto layout depth members rest) =
      writeMembersOnto .compact depth members (withoutBlanksFrom .outside rest) := by
  induction members with
  | nil => rfl
  | cons member members ih =>
    obtain ⟨name, names⟩ := List.forall_mem_cons.mp spelled
    obtain ⟨first, others⟩ := List.forall_mem_cons.mp each
    rw [writeMembersOnto, withoutBlanksFrom_mark .comma rfl,
      withoutBlanksFrom_blanks (blank.lineBreak depth),
      withoutBlanksFrom_member blank name first, ih names others]
    rfl

theorem condenses (blank : layout.IsBlank) {json : Json} (canonical : json.Canonical) :
    Condenses layout json := by
  induction canonical with
  | null =>
    intro depth rest
    exact withoutBlanksFrom_word ['n', 'u', 'l', 'l'] (List.all_eq_true.mp rfl)
  | bool value =>
    intro depth rest
    cases value with
    | true => exact withoutBlanksFrom_word ['t', 'r', 'u', 'e'] (List.all_eq_true.mp rfl)
    | false => exact withoutBlanksFrom_word ['f', 'a', 'l', 's', 'e'] (List.all_eq_true.mp rfl)
  | number n =>
    intro depth rest
    have digits := Decimal.isDigit_toDigits (n := n.toNat)
    rw [Decimal.toList_numeral]
    exact withoutBlanksFrom_word _ fun c member => Token.isWordChar_of_isDigit (digits c member)
  | string text =>
    intro depth rest
    exact withoutBlanksFrom_quoted text
  | @array items _ each =>
    intro depth rest
    cases items with
    | nil => rfl
    | cons item items =>
      obtain ⟨first, others⟩ := List.forall_mem_cons.mp each
      rw [writeOnto, withoutBlanksFrom_mark .openArray rfl,
        withoutBlanksFrom_blanks (blank.lineBreak (depth + 1)), first,
        withoutBlanksFrom_items blank others,
        withoutBlanksFrom_blanks (blank.lineBreak depth), withoutBlanksFrom_mark .closeArray rfl]
      rfl
  | @object members spelled _ each =>
    intro depth rest
    cases members with
    | nil => rfl
    | cons member members =>
      obtain ⟨name, names⟩ := List.forall_mem_cons.mp spelled
      obtain ⟨first, others⟩ := List.forall_mem_cons.mp each
      rw [writeOnto, withoutBlanksFrom_mark .openObject rfl,
        withoutBlanksFrom_blanks (blank.lineBreak (depth + 1)),
        withoutBlanksFrom_member blank name first,
        withoutBlanksFrom_members blank names others,
        withoutBlanksFrom_blanks (blank.lineBreak depth), withoutBlanksFrom_mark .closeObject rfl]
      rfl

/-- Layouts differ in nothing but the blanks between tokens. -/
theorem withoutBlanks_write (blank : layout.IsBlank) {json : Json} (canonical : json.Canonical) :
    withoutBlanks (json.write layout) = json.compact := by
  rw [withoutBlanks, write, String.toList_ofList, condenses blank canonical]
  rfl

/-- A blank in a string stays, and a quote that is escaped does not end the string. -/
example : withoutBlanks "[ \"a\\\" b\" ,\n  1 ]" = "[\"a\\\" b\",1]" := by decide

end Docuverse.Json
