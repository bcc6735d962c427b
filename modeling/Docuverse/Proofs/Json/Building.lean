import Docuverse.Json.Reading

namespace Docuverse.Json

/-- What holds of a tree if it holds of the trees right inside holds of every tree. -/
@[elab_as_elim]
theorem induct {motive : Json → Prop} (null : motive .null) (bool : ∀ value, motive (.bool value))
    (number : ∀ literal, motive (.number literal)) (string : ∀ literal, motive (.string literal))
    (array : ∀ items, (∀ item ∈ items, motive item) → motive (.array items))
    (object : ∀ members, (∀ member ∈ members, motive member.2) → motive (.object members))
    (json : Json) : motive json :=
  @Json.rec motive (fun items => ∀ item ∈ items, motive item)
    (fun members => ∀ member ∈ members, motive member.2) (fun member => motive member.2)
    null bool number string array object
    (fun _ member => nomatch member)
    (fun _ _ first others => List.forall_mem_cons.mpr ⟨first, others⟩)
    (fun _ member => nomatch member)
    (fun _ _ first others => List.forall_mem_cons.mpr ⟨first, others⟩)
    (fun _ _ value => value) json

mutual

/-- The tokens of a tree, in the order of its text. -/
def tokens : Json → List Token
  | .null => [.null]
  | .bool value => [.bool value]
  | .number literal => [.number literal]
  | .string literal => [.string literal]
  | .array [] => [.openArray, .closeArray]
  | .array (item :: items) => .openArray :: (item.tokens ++ (itemTokens items ++ [.closeArray]))
  | .object [] => [.openObject, .closeObject]
  | .object ((name, value) :: members) =>
    .openObject :: .string name :: .colon ::
      (value.tokens ++ (memberTokens members ++ [.closeObject]))

/-- The tokens of the items after the first one. -/
def itemTokens : List Json → List Token
  | [] => []
  | item :: items => .comma :: (item.tokens ++ itemTokens items)

/-- The tokens of the members after the first one. -/
def memberTokens : List (List Char × Json) → List Token
  | [] => []
  | (name, value) :: members =>
    .comma :: .string name :: .colon :: (value.tokens ++ memberTokens members)

end

theorem tokens_eq_cons (json : Json) :
    ∃ token others, json.tokens = token :: others ∧ token ≠ .closeArray := by
  fun_cases tokens json
  all_goals exact ⟨_, _, rfl, by simp⟩

namespace Progress

variable {progress : Progress} {token : Token} {stack : List Open} {rest : List Token}

/-- The tree that is there once the tokens have been taken. -/
def build (progress : Progress) (tokens : List Token) : Option Json :=
  (tokens.foldlM next progress).bind finish

theorem build_cons : progress.build (token :: rest) =
    (progress.next token).bind fun after => after.build rest := by
  rw [build, List.foldlM_cons]
  cases progress.next token <;> rfl

theorem build_of_next {after : Progress} (taken : progress.next token = some after) :
    progress.build (token :: rest) = after.build rest := by
  rw [build_cons, taken, Option.bind_some]

/-- Where a value is awaited, the tokens of the tree are taken for the tree. -/
def Builds (json : Json) : Prop :=
  ∀ stack rest, build (.inside stack .value) (json.tokens ++ rest) =
    (place json stack).bind fun after => after.build rest

/-- The first item may be awaited like any value. -/
theorem build_firstItem (json : Json) :
    build (.inside stack .firstItem) (json.tokens ++ rest) =
      build (.inside stack .value) (json.tokens ++ rest) := by
  obtain ⟨token, others, first, item⟩ := tokens_eq_cons json
  rw [first, List.cons_append, build_cons, build_cons]
  simp [next, item]

theorem build_firstName (name : List Char) :
    build (.inside stack .firstName) (.string name :: rest) =
      build (.inside stack .name) (.string name :: rest) := by
  rw [build_cons, build_cons]
  rfl

theorem build_items {items : List Json} (each : ∀ item ∈ items, Builds item)
    (before : List Json) :
    build (.inside (.array before :: stack) .separator) (itemTokens items ++ .closeArray :: rest) =
      (place (.array (before.reverse ++ items)) stack).bind fun after => after.build rest := by
  induction items generalizing before with
  | nil => simp [itemTokens, build_cons, next, close]
  | cons item items ih =>
    obtain ⟨first, others⟩ := List.forall_mem_cons.mp each
    have later := ih others (item :: before)
    have comma : next (.inside (.array before :: stack) .separator) .comma =
      some (.inside (.array before :: stack) .value) := rfl
    simp only [itemTokens, List.cons_append, List.append_assoc]
    rw [build_of_next comma, first, place, Option.bind_some, later]
    simp

/-- A name is followed by its value. -/
theorem build_member (name : List Char) {value : Json} (inside : Builds value)
    (before : List (List Char × Json)) :
    build (.inside (.object before :: stack) .name)
        (.string name :: .colon :: (value.tokens ++ rest)) =
      build (.inside (.object ((name, value) :: before) :: stack) .separator) rest := by
  have named : next (.inside (.object before :: stack) .name) (.string name) =
    some (.inside (.member before name :: stack) .colon) := rfl
  have colon : next (.inside (.member before name :: stack) .colon) .colon =
    some (.inside (.member before name :: stack) .value) := rfl
  rw [build_of_next named, build_of_next colon, inside, place, Option.bind_some]

theorem build_members {members : List (List Char × Json)}
    (each : ∀ member ∈ members, Builds member.2) (before : List (List Char × Json)) :
    build (.inside (.object before :: stack) .separator)
        (memberTokens members ++ .closeObject :: rest) =
      (place (.object (before.reverse ++ members)) stack).bind fun after => after.build rest := by
  induction members generalizing before with
  | nil => simp [memberTokens, build_cons, next, close]
  | cons member members ih =>
    obtain ⟨name, value⟩ := member
    obtain ⟨first, others⟩ := List.forall_mem_cons.mp each
    have later := ih others ((name, value) :: before)
    have comma : next (.inside (.object before :: stack) .separator) .comma =
      some (.inside (.object before :: stack) .name) := rfl
    simp only [memberTokens, List.cons_append, List.append_assoc]
    rw [build_of_next comma, build_member name first, later]
    simp

theorem builds (json : Json) : Builds json := by
  induction json using Json.induct with
  | null =>
    intro stack rest
    exact build_cons
  | bool value =>
    intro stack rest
    exact build_cons
  | number literal =>
    intro stack rest
    exact build_cons
  | string literal =>
    intro stack rest
    exact build_cons
  | array items each =>
    intro stack rest
    cases items with
    | nil => simp [tokens, build_cons, next, value, close]
    | cons item items =>
      obtain ⟨first, others⟩ := List.forall_mem_cons.mp each
      have opens : next (.inside stack .value) .openArray =
        some (.inside (.array [] :: stack) .firstItem) := rfl
      simp only [tokens, List.cons_append, List.append_assoc]
      rw [build_of_next opens, build_firstItem, first, place, Option.bind_some]
      exact build_items others [item]
  | object members each =>
    intro stack rest
    cases members with
    | nil => simp [tokens, build_cons, next, value, close]
    | cons member members =>
      obtain ⟨name, value⟩ := member
      obtain ⟨first, others⟩ := List.forall_mem_cons.mp each
      have opens : next (.inside stack .value) .openObject =
        some (.inside (.object [] :: stack) .firstName) := rfl
      simp only [tokens, List.cons_append, List.append_assoc]
      rw [build_of_next opens, build_firstName, build_member name first]
      exact build_members others [(name, value)]

/-- A tree is what its tokens are read as. -/
theorem build_tokens (json : Json) : start.build json.tokens = some json := by
  have whole := builds json [] []
  rwa [List.append_nil] at whole

end Progress
end Docuverse.Json
