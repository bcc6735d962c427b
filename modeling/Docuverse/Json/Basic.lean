import Docuverse.Json.Literal
import Docuverse.Text.Decimal

namespace Docuverse

/-- Numbers and strings are kept as they are written, so that what nobody asks for need not mean
anything. -/
inductive Json where
  | null
  | bool (value : Bool)
  | number (literal : List Char)
  | string (literal : List Char)
  | array (items : List Json)
  | object (members : List (List Char × Json))

namespace Json

def ofText (text : String) : Json := .string (Literal.encode text.toList)

def ofUInt64 (n : UInt64) : Json := .number (Decimal.numeral n).toList

/-- An object with members in the given order. -/
def record (members : List (String × Json)) : Json :=
  .object (members.map fun (name, value) => (Literal.encode name.toList, value))

def text? : Json → Option String
  | .string literal => String.ofList <$> Literal.decode literal
  | _ => none

/-- A number written as digits and nothing else. -/
def uint64? : Json → Option UInt64
  | .number literal => (Decimal.read literal).toOption
  | _ => none

def bool? : Json → Option Bool
  | .bool value => some value
  | _ => none

/-- The items of an array that all can be read. -/
def list? {α : Type} (item? : Json → Option α) : Json → Option (List α)
  | .array items => items.mapM item?
  | _ => none

/-- The members of an object with their names read. -/
def members? (members : List (List Char × Json)) : Option (List (String × Json)) :=
  members.mapM fun (literal, value) => do return (String.ofList (← Literal.decode literal), value)

/-- The only value of a field among members; a field that is there twice cannot be read. -/
def field? (members : List (String × Json)) (name : String) : Option (Option Json) :=
  match members.filter fun member => member.1 == name with
  | [] => some none
  | [(_, value)] => some (some value)
  | _ => none

/-- The values of a record's fields, where they are given: by name in an object, in which other
names are passed over, or by place in an array, which must not be longer. -/
def fields? (names : List String) : Json → Option (List (Option Json))
  | .object members => do
    let members ← members? members
    names.mapM (field? members)
  | .array items =>
    if items.length ≤ names.length then
      some (items.map some ++ List.replicate (names.length - items.length) none)
    else none
  | _ => none

end Json
end Docuverse
