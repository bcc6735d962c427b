namespace Docuverse.Fields

/-- The fields of a text: the one before the first separator, which is always there, and the others
in order. -/
def separated (separator : Char) (text : List Char) : List Char × List (List Char) :=
  text.foldr
    (fun c (first, others) => if c = separator then ([], first :: others) else (c :: first, others))
    ([], [])

/-- One text out of fields, with a separator between neighbours. -/
def joined (separator : Char) : List (List Char) → List Char
  | [] => []
  | field :: others => field ++ others.flatMap (separator :: ·)

theorem separated_nil (separator : Char) : separated separator [] = ([], []) := rfl

theorem separated_cons (separator c : Char) (text : List Char) :
    separated separator (c :: text) =
      if c = separator then
        ([], (separated separator text).1 :: (separated separator text).2)
      else (c :: (separated separator text).1, (separated separator text).2) := rfl

/-- No character is lost: the fields with their separators are the text. -/
theorem joined_separated (separator : Char) (text : List Char) :
    joined separator ((separated separator text).1 :: (separated separator text).2) = text := by
  induction text with
  | nil => rfl
  | cons c text ih =>
    rw [separated_cons]
    by_cases same : c = separator
    · simpa [same, joined] using ih
    · simpa [same, joined] using ih

end Docuverse.Fields
