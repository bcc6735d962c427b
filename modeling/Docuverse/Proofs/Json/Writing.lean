import Docuverse.Json.Writing
import Docuverse.Proofs.Json.Building
import Docuverse.Proofs.Json.Scanning
import Docuverse.Proofs.Text.Numeral

namespace Docuverse.Json

/-- A tree whose numbers and strings are spelled as they are written here. -/
inductive Canonical : Json → Prop
  | null : Canonical .null
  | bool (value : Bool) : Canonical (.bool value)
  | number (n : UInt64) : Canonical (.number (Decimal.numeral n).toList)
  | string (text : List Char) : Canonical (.string (Literal.encode text))
  | array {items : List Json} : (∀ item ∈ items, Canonical item) → Canonical (.array items)
  | object {members : List (List Char × Json)} :
    (∀ member ∈ members, ∃ name, member.1 = Literal.encode name) →
    (∀ member ∈ members, Canonical member.2) → Canonical (.object members)

theorem canonical_ofText (text : String) : (ofText text).Canonical := .string text.toList

theorem canonical_record {members : List (String × Json)}
    (each : ∀ member ∈ members, member.2.Canonical) : (record members).Canonical := by
  refine .object (fun member given => ?_) fun member given => ?_
  · obtain ⟨⟨name, value⟩, _, rfl⟩ := List.mem_map.mp given
    exact ⟨name.toList, rfl⟩
  · obtain ⟨⟨name, value⟩, inside, rfl⟩ := List.mem_map.mp given
    exact each _ inside

/-- A layout that leaves tokens apart or next to each other, but adds none. -/
structure Layout.IsBlank (layout : Layout) : Prop where
  lineBreak : ∀ depth, ∀ c ∈ layout.lineBreak depth, Token.isBlank c = true
  afterColon : ∀ c ∈ layout.afterColon, Token.isBlank c = true

theorem Layout.isBlank_compact : compact.IsBlank where
  lineBreak _ := by simp [compact]
  afterColon := by simp [compact]

theorem Layout.isBlank_pretty : pretty.IsBlank where
  lineBreak depth := by
    simp only [pretty, List.forall_mem_cons, List.mem_replicate]
    exact ⟨rfl, fun c ⟨_, space⟩ => space ▸ rfl⟩
  afterColon := by simp [pretty, Token.isBlank]

variable {layout : Layout} {depth : Nat} {items : List Json} {members : List (List Char × Json)}
  {rest : List Char} {tokens : List Token}

namespace Scan

theorem endsWord_cons {c : Char} (other : Token.isWordChar c = false) : EndsWord (c :: rest) := by
  simp [EndsWord, other]

theorem endsWord_blanks {text : List Char} (blank : ∀ c ∈ text, Token.isBlank c = true)
    (ends : EndsWord rest) : EndsWord (text ++ rest) := by
  cases text with
  | nil => exact ends
  | cons c text =>
    have here := blank c List.mem_cons_self
    refine endsWord_cons ?_
    rw [← Bool.not_eq_true]
    intro inWord
    rw [Token.isBlank_of_isWordChar inWord] at here
    cases here

theorem endsWord_items (ends : EndsWord rest) :
    EndsWord (writeItemsOnto layout depth items rest) := by
  cases items with
  | nil => exact ends
  | cons item items => exact endsWord_cons rfl

theorem endsWord_members (ends : EndsWord rest) :
    EndsWord (writeMembersOnto layout depth members rest) := by
  cases members with
  | nil => exact ends
  | cons member members => exact endsWord_cons rfl

/-- In front of anything that ends a word, the text of the tree is taken for its tokens. -/
def Finds (layout : Layout) (json : Json) : Prop :=
  ∀ depth tokens rest, EndsWord rest →
    through ⟨.between, tokens⟩ (json.writeOnto layout depth rest) =
      through ⟨.between, json.tokens.reverse ++ tokens⟩ rest

theorem through_items (blank : layout.IsBlank) (each : ∀ item ∈ items, Finds layout item)
    (ends : EndsWord rest) :
    through ⟨.between, tokens⟩ (writeItemsOnto layout depth items rest) =
      through ⟨.between, (itemTokens items).reverse ++ tokens⟩ rest := by
  induction items generalizing tokens with
  | nil => rfl
  | cons item items ih =>
    obtain ⟨first, others⟩ := List.forall_mem_cons.mp each
    rw [writeItemsOnto, through_mark .comma rfl, through_blanks (blank.lineBreak depth),
      first depth _ _ (endsWord_items ends), ih others]
    simp [itemTokens]

/-- A name with its value, in front of what may follow the value. -/
theorem through_member (blank : layout.IsBlank) {name : List Char} {value : Json}
    (spelled : ∃ text, name = Literal.encode text) (inside : Finds layout value)
    (ends : EndsWord rest) :
    through ⟨.between, tokens⟩
        (quoted name (':' :: (layout.afterColon ++ value.writeOnto layout depth rest))) =
      through ⟨.between, value.tokens.reverse ++ .colon :: .string name :: tokens⟩ rest := by
  obtain ⟨text, rfl⟩ := spelled
  rw [through_quoted, through_mark .colon rfl, through_blanks blank.afterColon,
    inside depth _ _ ends]

theorem through_members (blank : layout.IsBlank)
    (spelled : ∀ member ∈ members, ∃ text, member.1 = Literal.encode text)
    (each : ∀ member ∈ members, Finds layout member.2) (ends : EndsWord rest) :
    through ⟨.between, tokens⟩ (writeMembersOnto layout depth members rest) =
      through ⟨.between, (memberTokens members).reverse ++ tokens⟩ rest := by
  induction members generalizing tokens with
  | nil => rfl
  | cons member members ih =>
    obtain ⟨name, names⟩ := List.forall_mem_cons.mp spelled
    obtain ⟨first, others⟩ := List.forall_mem_cons.mp each
    rw [writeMembersOnto, through_mark .comma rfl,
      through_blanks (blank.lineBreak depth),
      through_member blank name first (endsWord_members ends), ih names others]
    simp [memberTokens]

theorem finds (blank : layout.IsBlank) {json : Json} (canonical : json.Canonical) :
    Finds layout json := by
  induction canonical with
  | null =>
    intro depth tokens rest ends
    exact through_word ['n', 'u', 'l', 'l'] (List.all_eq_true.mp rfl) rfl ends
  | bool value =>
    intro depth tokens rest ends
    cases value with
    | true => exact through_word ['t', 'r', 'u', 'e'] (List.all_eq_true.mp rfl) rfl ends
    | false => exact through_word ['f', 'a', 'l', 's', 'e'] (List.all_eq_true.mp rfl) rfl ends
  | number n =>
    intro depth tokens rest ends
    have digits := Decimal.isDigit_toDigits (n := n.toNat)
    have inWord c (member : c ∈ Nat.toDigits 10 n.toNat) :=
      Token.isWordChar_of_isDigit (digits c member)
    have known := Token.ofWord?_of_digits Nat.toDigits_ne_nil digits fun _ =>
      Decimal.eq_nil_of_toDigits
    rw [Decimal.toList_numeral]
    exact through_word _ inWord known ends
  | string text =>
    intro depth tokens rest _
    exact through_quoted text
  | @array items _ each =>
    intro depth tokens rest _
    have closes : EndsWord (layout.lineBreak depth ++ ']' :: rest) :=
      endsWord_blanks (blank.lineBreak depth) (endsWord_cons rfl)
    cases items with
    | nil =>
      rw [writeOnto, through_mark .openArray rfl, through_mark .closeArray rfl]
      rfl
    | cons item items =>
      obtain ⟨first, others⟩ := List.forall_mem_cons.mp each
      rw [writeOnto, through_mark .openArray rfl,
        through_blanks (blank.lineBreak (depth + 1)), first _ _ _ (endsWord_items closes),
        through_items blank others closes, through_blanks (blank.lineBreak depth),
        through_mark .closeArray rfl]
      simp [Json.tokens]
  | @object members spelled _ each =>
    intro depth tokens rest _
    have closes : EndsWord (layout.lineBreak depth ++ '\x7d' :: rest) :=
      endsWord_blanks (blank.lineBreak depth) (endsWord_cons rfl)
    cases members with
    | nil =>
      rw [writeOnto, through_mark .openObject rfl,
        through_mark .closeObject rfl]
      rfl
    | cons member members =>
      obtain ⟨name, names⟩ := List.forall_mem_cons.mp spelled
      obtain ⟨first, others⟩ := List.forall_mem_cons.mp each
      rw [writeOnto, through_mark .openObject rfl,
        through_blanks (blank.lineBreak (depth + 1)),
        through_member blank name first (endsWord_members closes),
        through_members blank names others closes, through_blanks (blank.lineBreak depth),
        through_mark .closeObject rfl]
      simp [Json.tokens]

end Scan

/-- The tokens of a tree are found in its text. -/
theorem tokens?_write (blank : layout.IsBlank) {json : Json} (canonical : json.Canonical) :
    tokens? (json.write layout).toList = some json.tokens := by
  have found := Scan.finds blank canonical 0 [] [] (by simp [Scan.EndsWord])
  rw [write, String.toList_ofList, ← Scan.through_start, Scan.start, found]
  simp [Scan.through, Scan.finish]

/-- What is written is read again, in whatever layout. -/
theorem read?_write (blank : layout.IsBlank) {json : Json} (canonical : json.Canonical) :
    read? (json.write layout) = some json := by
  rw [read?, tokens?_write blank canonical]
  exact Progress.build_tokens json

theorem write_inj (blank : layout.IsBlank) {json json' : Json} (canonical : json.Canonical)
    (canonical' : json'.Canonical) : json.write layout = json'.write layout ↔ json = json' := by
  refine ⟨fun same => ?_, congrArg _⟩
  have found := read?_write blank canonical
  rw [same, read?_write blank canonical'] at found
  exact (Option.some.inj found).symm

end Docuverse.Json
