import Docuverse.Json.Literal

namespace Docuverse.Json

inductive Token where
  | openArray
  | closeArray
  | openObject
  | closeObject
  | comma
  | colon
  | null
  | bool (value : Bool)
  | number (literal : List Char)
  | string (literal : List Char)
  deriving DecidableEq, Repr

namespace Token

def isBlank (c : Char) : Bool := c == ' ' || c == '\t' || c == '\n' || c == '\r'

/-- The characters that numbers and names of values are made of. -/
def isWordChar (c : Char) : Bool := c.isAlphanum || c == '-' || c == '+' || c == '.'

def mark? : Char → Option Token
  | '[' => some openArray
  | ']' => some closeArray
  | '{' => some openObject
  | '}' => some closeObject
  | ',' => some comma
  | ':' => some colon
  | _ => none

/-- Digits, at least one. -/
def isDigits (text : List Char) : Bool := !text.isEmpty && text.all Char.isDigit

/-- No digit at all, or a point and digits. -/
def isFraction : List Char → Bool
  | [] => true
  | c :: rest => c == '.' && isDigits rest

/-- Nothing, or a letter that announces an exponent, a sign at will and digits. -/
def isExponent : List Char → Bool
  | [] => true
  | c :: rest =>
    (c == 'e' || c == 'E') &&
      match rest with
      | sign :: digits => if sign == '+' || sign == '-' then isDigits digits else isDigits rest
      | [] => false

/-- Digits without a zero in front of others. -/
def isWhole : List Char → Bool
  | '0' :: rest => rest.isEmpty
  | text => isDigits text

def isUnsigned (text : List Char) : Bool :=
  let isBeforeExponent (c : Char) : Bool := c != 'e' && c != 'E'
  let value := text.takeWhile isBeforeExponent
  let isBeforePoint (c : Char) : Bool := c != '.'
  isWhole (value.takeWhile isBeforePoint) && isFraction (value.dropWhile isBeforePoint) &&
    isExponent (text.dropWhile isBeforeExponent)

def isNumber : List Char → Bool
  | '-' :: rest => isUnsigned rest
  | text => isUnsigned text

/-- What a longest run of word characters is. -/
def ofWord? (word : List Char) : Option Token :=
  if word = ['n', 'u', 'l', 'l'] then some null
  else if word = ['t', 'r', 'u', 'e'] then some (bool true)
  else if word = ['f', 'a', 'l', 's', 'e'] then some (bool false)
  else if isNumber word then some (number word)
  else none

end Token

/-- Where the pass stands: between tokens, in a word, or in a string, where a backslash or some of
the four letters after `u` may have gone before. What has been read comes last one first. -/
inductive Place where
  | between
  | word (before : List Char)
  | string (before : List Char)
  | escape (before : List Char)
  | hexadecimal (missing : Nat) (before : List Char)
  deriving DecidableEq, Repr

/-- The pass over the text: where it stands and the tokens before, last one first. -/
structure Scan where
  place : Place
  tokens : List Token
  deriving DecidableEq, Repr

namespace Scan

def start : Scan := ⟨.between, []⟩

/-- A character outside strings and words. -/
def outside (tokens : List Token) (c : Char) : Option Scan :=
  if Token.isBlank c then some ⟨.between, tokens⟩
  else if c = '"' then some ⟨.string [], tokens⟩
  else if Token.isWordChar c then some ⟨.word [c], tokens⟩
  else do return ⟨.between, (← Token.mark? c) :: tokens⟩

def next (scan : Scan) (c : Char) : Option Scan :=
  match scan.place with
  | .between => outside scan.tokens c
  | .word before =>
    if Token.isWordChar c then some ⟨.word (c :: before), scan.tokens⟩
    else do outside ((← Token.ofWord? before.reverse) :: scan.tokens) c
  | .string before =>
    if c = '"' then some ⟨.between, .string before.reverse :: scan.tokens⟩
    else if c = '\\' then some ⟨.escape (c :: before), scan.tokens⟩
    else if c.toNat < 0x20 then none
    else some ⟨.string (c :: before), scan.tokens⟩
  | .escape before =>
    if c = 'u' then some ⟨.hexadecimal 3 (c :: before), scan.tokens⟩
    else if (Literal.escape? c).isSome then some ⟨.string (c :: before), scan.tokens⟩
    else none
  | .hexadecimal missing before =>
    if (Literal.hexValue? c).isNone then none
    else match missing with
      | 0 => some ⟨.string (c :: before), scan.tokens⟩
      | fewer + 1 => some ⟨.hexadecimal fewer (c :: before), scan.tokens⟩

/-- The tokens, if the text may end here. -/
def finish (scan : Scan) : Option (List Token) :=
  match scan.place with
  | .between => some scan.tokens.reverse
  | .word before => do return ((← Token.ofWord? before.reverse) :: scan.tokens).reverse
  | _ => none

end Scan

def tokens? (text : List Char) : Option (List Token) := do (← text.foldlM Scan.next .start).finish

end Docuverse.Json
