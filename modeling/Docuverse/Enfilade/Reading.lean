import Docuverse.Enfilade.Basic
import Docuverse.Wire.Reading

namespace Docuverse.Enfilade.Reading

open Wire (Reading)
open Wire.Reading

/-- How many crums may stand around a crum, children and orgls alike. -/
def maxNesting : Nat := 512

/-- A value that has a letter in front. -/
def lettered {α : Type} (letter : Char) (context : String) (value : Reading α) : Reading α := do
  expect letter.toUInt8 context
  value

def flavour : Reading Flavour := do
  let code ← number
  match Flavour.ofCode? code with
  | some flavour => return flavour
  | none => throw (.malformed (.enfiladeType code))

def label : Reading Label := do
  let depth ← lettered '(' "crum" number
  let height ← lettered 'h' "crum height" number
  let flavour ← lettered 'e' "crum enftype" flavour
  let widths ← lettered 'w' "crum widths" (counted tumbler)
  let displacements ← lettered 'd' "crum displacements" (counted tumbler)
  return { depth, height, flavour, widths, displacements }

/-- The tree of an orgl, when the back end has it in memory. -/
def orglTree (crum : Reading Crum) : Reading (Option Crum) := do
  let residency ← byte "orgl residency"
  if residency = '0'.toUInt8 then return none
  else if residency = '1'.toUInt8 then return some (← crum)
  else throw (.malformed (.unexpectedByte '1'.toUInt8 "orgl residency" residency))

/-- A crum at the bottom of a document, which names its home. -/
def home (label : Label) : Reading Crum := do
  discard <| byte "bottom crum info"
  return .home label (← address)

/-- What a code announces: a text or an orgl. -/
def atom (crum : Reading Crum) (label : Label) (code : UInt64) : Reading Crum :=
  if code = 1 then do
    expect 't'.toUInt8 "text atom"
    return .text label (← textBody "text atom")
  else if code = 2 then do
    expect 'o'.toUInt8 "orgl atom"
    let tree ← orglTree crum
    return .orgl label tree.isSome tree
  else throw (.malformed (.infoType code))

def bottom (crum : Reading Crum) (label : Label) : Reading Crum := do
  expect 'i'.toUInt8 "bottom crum"
  let first ← peek "bottom crum info"
  if first = 'h'.toUInt8 then home label
  else
    let code ← number
    atom crum label code

/-- What hangs below a label with `n` children. -/
def body (crum : Reading Crum) (label : Label) (n : Nat) : Reading Crum :=
  if n = 0 then bottom crum label
  else Crum.interior label <$> items n crum

/-- A crum that may have `room - 1` crums inside one another below it. -/
def crum : (room : Nat) → Reading Crum
  | 0 => throw (.malformed (.nestedDeeper maxNesting))
  | room + 1 => do
    let label ← label
    let n ← lettered 'c' "crum child count" count
    let found ← body (crum room) label n
    expect ')'.toUInt8 "end of crum"
    return found

def store : Reading Store := do
  let marker ← byte "dump marker"
  if marker = 'g'.toUInt8 then return .granf
  else if marker = 's'.toUInt8 then return .spanf
  else throw (.malformed (.dumpMarker marker))

/-- The reading of a dump, in which no byte is ever skipped:

    dump   := ('g' | 's') exists~ [crum]
    crum   := '(' depth~ 'h' height~ 'e' flavour~ 'w' n~ tumbler^n 'd' n~ tumbler^n
              'c' n~ (crum^n | 'i' bottom) ')'
    bottom := 'h' tumbler | 1~ 't' length~ bytes | 2~ 'o' ('0' | '1' crum)
-/
def dump : Reading Dump := do
  let store ← store
  let present ← number
  if present = 0 then return ⟨store, none⟩
  else return ⟨store, some (← crum (maxNesting + 1))⟩

end Docuverse.Enfilade.Reading
