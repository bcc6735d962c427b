import Docuverse.Json.Basic
import Docuverse.Json.Token

namespace Docuverse.Json

/-- An array or an object that is still open, with what it holds so far, last one first. -/
inductive Open where
  | array (items : List Json)
  | object (members : List (List Char × Json))
  | member (members : List (List Char × Json)) (name : List Char)

/-- What may come next. -/
inductive Awaited where
  | value
  | firstItem
  | firstName
  | name
  | colon
  | separator

/-- A tree that is being read. -/
inductive Progress where
  | inside (stack : List Open) (awaited : Awaited)
  | done (json : Json)

namespace Progress

def start : Progress := .inside [] .value

/-- A value is complete and goes where it belongs. -/
def place (value : Json) : List Open → Option Progress
  | [] => some (.done value)
  | .array items :: stack => some (.inside (.array (value :: items) :: stack) .separator)
  | .member members name :: stack =>
    some (.inside (.object ((name, value) :: members) :: stack) .separator)
  | .object _ :: _ => none

/-- A token where a value is awaited. -/
def value (stack : List Open) : Token → Option Progress
  | .null => place .null stack
  | .bool value => place (.bool value) stack
  | .number literal => place (.number literal) stack
  | .string literal => place (.string literal) stack
  | .openArray => some (.inside (.array [] :: stack) .firstItem)
  | .openObject => some (.inside (.object [] :: stack) .firstName)
  | _ => none

def close : Token → List Open → Option Progress
  | .closeArray, .array items :: stack => place (.array items.reverse) stack
  | .closeObject, .object members :: stack => place (.object members.reverse) stack
  | _, _ => none

/-- A token where the name of a member is awaited. -/
def name : Token → List Open → Option Progress
  | .string literal, .object members :: stack =>
    some (.inside (.member members literal :: stack) .colon)
  | _, _ => none

def comma : List Open → Option Progress
  | .array items :: stack => some (.inside (.array items :: stack) .value)
  | .object members :: stack => some (.inside (.object members :: stack) .name)
  | _ => none

def next : Progress → Token → Option Progress
  | .done _, _ => none
  | .inside stack .value, token => value stack token
  | .inside stack .firstItem, token =>
    if token = .closeArray then close token stack else value stack token
  | .inside stack .firstName, token =>
    if token = .closeObject then close token stack else name token stack
  | .inside stack .name, token => name token stack
  | .inside stack .colon, token => if token = .colon then some (.inside stack .value) else none
  | .inside stack .separator, token => if token = .comma then comma stack else close token stack

def finish : Progress → Option Json
  | .done json => some json
  | .inside _ _ => none

end Progress

/-- The tree that a text spells, with nothing but blanks around it. -/
def read? (text : String) : Option Json := do
  let tokens ← tokens? text.toList
  (← tokens.foldlM Progress.next .start).finish

end Docuverse.Json
