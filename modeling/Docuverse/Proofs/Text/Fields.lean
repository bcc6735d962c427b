import Docuverse.Text.Fields

namespace Docuverse

namespace Fields

variable {separator : Char}

theorem separated_append {field rest : List Char} (free : separator ∉ field) :
    separated separator (field ++ rest) =
      (field ++ (separated separator rest).1, (separated separator rest).2) := by
  induction field with
  | nil => rfl
  | cons c field ih =>
    have other : c ≠ separator := fun same => free (same ▸ List.mem_cons_self)
    have later := ih fun member => free (List.mem_cons_of_mem c member)
    rw [List.cons_append, separated_cons, if_neg other, later, List.cons_append]

/-- Fields without the separator are found again in the text that joins them. -/
theorem separated_joined {first : List Char} {others : List (List Char)}
    (free : ∀ field ∈ first :: others, separator ∉ field) :
    separated separator (joined separator (first :: others)) = (first, others) := by
  induction others generalizing first with
  | nil =>
    have alone : separated separator (first ++ []) = _ :=
      separated_append (free first List.mem_cons_self)
    simpa only [joined, separated_nil, List.flatMap_nil, List.append_nil] using alone
  | cons second others ih =>
    have later := ih fun field member => free field (List.mem_cons_of_mem first member)
    show separated separator (first ++ separator :: joined separator (second :: others)) = _
    rw [separated_append (free first List.mem_cons_self), separated_cons, if_pos rfl, later,
      List.append_nil]

/-- The fields are the parts of the text between separators. -/
theorem separated_eq_splitOn (separator : Char) (text : List Char) :
    (separated separator text).1 :: (separated separator text).2 = text.splitOn separator := by
  induction text with
  | nil => rfl
  | cons c text ih =>
    rw [separated_cons, List.splitOn_cons_eq_if_modifyHead, ← ih]
    by_cases same : c = separator
    · simp [same]
    · simp [same]

/-- The characters of a text are those of its fields and the separator. -/
theorem mem_separated {text : List Char} {c : Char} (member : c ∈ text) :
    c = separator ∨ c ∈ (separated separator text).1 ∨
      ∃ field ∈ (separated separator text).2, c ∈ field := by
  rw [← joined_separated separator text, joined, List.mem_append, List.mem_flatMap] at member
  rcases member with first | ⟨field, other, inside⟩
  · exact Or.inr (Or.inl first)
  · rcases List.mem_cons.mp inside with same | inside
    · exact Or.inl same
    · exact Or.inr (Or.inr ⟨field, other, inside⟩)

/-- Each field after the first that is not empty has a separator in front of it. -/
theorem length_separated (separator : Char) (text : List Char) :
    (separated separator text).1.length +
        2 * ((separated separator text).2.filter fun field => !field.isEmpty).length ≤
      text.length := by
  induction text with
  | nil => simp [separated_nil]
  | cons c text ih =>
    rw [separated_cons, List.length_cons]
    split
    · cases first : (separated separator text).1 with
      | nil =>
        rw [first, List.length_nil] at ih
        simp only [List.filter_cons, List.isEmpty_nil, Bool.not_true, Bool.false_eq_true, if_false,
          List.length_nil]
        omega
      | cons b field =>
        rw [first, List.length_cons] at ih
        simp only [List.filter_cons, List.isEmpty_cons, Bool.not_false, if_true, List.length_cons,
          List.length_nil]
        omega
    · dsimp only
      rw [List.length_cons]
      omega

end Fields
end Docuverse
