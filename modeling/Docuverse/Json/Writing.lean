import Docuverse.Json.Basic

namespace Docuverse.Json

/-- What stands between tokens: where a line may break at a depth of nesting, and after a colon. -/
structure Layout where
  lineBreak : Nat → List Char
  afterColon : List Char

namespace Layout

/-- Nothing that could be left out. -/
def compact : Layout := ⟨fun _ => [], []⟩

/-- A line for each item, indented by two spaces a level. -/
def pretty : Layout := ⟨fun depth => '\n' :: List.replicate (2 * depth) ' ', [' ']⟩

end Layout

def quoted (literal rest : List Char) : List Char := '"' :: (literal ++ '"' :: rest)

mutual

/-- The text of a tree in front of `rest`. -/
def writeOnto (layout : Layout) (depth : Nat) : Json → List Char → List Char
  | .null, rest => 'n' :: 'u' :: 'l' :: 'l' :: rest
  | .bool true, rest => 't' :: 'r' :: 'u' :: 'e' :: rest
  | .bool false, rest => 'f' :: 'a' :: 'l' :: 's' :: 'e' :: rest
  | .number literal, rest => literal ++ rest
  | .string literal, rest => quoted literal rest
  | .array [], rest => '[' :: ']' :: rest
  | .array (item :: items), rest =>
    '[' :: (layout.lineBreak (depth + 1) ++ item.writeOnto layout (depth + 1)
      (writeItemsOnto layout (depth + 1) items (layout.lineBreak depth ++ ']' :: rest)))
  | .object [], rest => '\x7b' :: '\x7d' :: rest
  | .object ((name, value) :: members), rest =>
    '\x7b' :: (layout.lineBreak (depth + 1) ++ quoted name (':' :: (layout.afterColon ++
      value.writeOnto layout (depth + 1)
        (writeMembersOnto layout (depth + 1) members (layout.lineBreak depth ++ '\x7d' :: rest)))))

/-- The items after the first one. -/
def writeItemsOnto (layout : Layout) (depth : Nat) : List Json → List Char → List Char
  | [], rest => rest
  | item :: items, rest =>
    ',' :: (layout.lineBreak depth ++ item.writeOnto layout depth
      (writeItemsOnto layout depth items rest))

/-- The members after the first one. -/
def writeMembersOnto (layout : Layout) (depth : Nat) :
    List (List Char × Json) → List Char → List Char
  | [], rest => rest
  | (name, value) :: members, rest =>
    ',' :: (layout.lineBreak depth ++ quoted name (':' :: (layout.afterColon ++
      value.writeOnto layout depth (writeMembersOnto layout depth members rest))))

end

def write (layout : Layout) (json : Json) : String := String.ofList (json.writeOnto layout 0 [])

def compact (json : Json) : String := json.write .compact

def pretty (json : Json) : String := json.write .pretty

end Docuverse.Json
