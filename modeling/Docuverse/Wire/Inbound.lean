import Docuverse.Wire.Value

namespace Docuverse.Wire

/-- How a stream comes to its end: in order, or because it breaks. -/
inductive Ending where
  | closed
  | broken (reason : String)
  deriving DecidableEq, Repr

/-- The fault of a reading of `context` that needs a byte after the last one. -/
def Ending.fault (context : String) : Ending → Fault
  | closed => .protocol (.closed context)
  | broken reason => .io reason

/-- The bytes that nobody has read yet. -/
structure Inbound where
  unread : List UInt8
  ending : Ending
  deriving DecidableEq, Repr

/-- A reading, under a limit on the length of what stands between two marks. It takes bytes from the
front and leaves the others; if it fails it also says what it leaves, for the next one begins
there. -/
abbrev Reading (α : Type) : Type := ReaderT Nat (EStateM Fault Inbound) α

/-- What a reading finds, and what it leaves. -/
abbrev Outcome (α : Type) : Type := EStateM.Result Fault Inbound α

namespace Reading

/-- The next byte. -/
def byte (context : String) : Reading UInt8 := fun _ inbound =>
  match inbound.unread with
  | [] => .error (inbound.ending.fault context) inbound
  | b :: rest => .ok b { inbound with unread := rest }

/-- The next byte, which stays unread. -/
def peek (context : String) : Reading UInt8 := fun _ inbound =>
  match inbound.unread with
  | [] => .error (inbound.ending.fault context) inbound
  | b :: _ => .ok b inbound

/-- A byte that can only be `expected`. -/
def expect (expected : UInt8) (context : String) : Reading Unit := do
  let found ← byte context
  if found ≠ expected then throw (.malformed (.unexpectedByte expected context found))

/-- The next `n` bytes. If there are too few of them, they are all gone. -/
def raw (n : Nat) (context : String) : Reading (List UInt8) := fun limit inbound =>
  if limit < n then .error (.protocol (.chunkTooLong limit context)) inbound
  else if n ≤ inbound.unread.length then
    .ok (inbound.unread.take n) { inbound with unread := inbound.unread.drop n }
  else .error (inbound.ending.fault context) { inbound with unread := [] }

/-- What a byte counts against the limit: the length of its character in UTF-8. -/
def weight (b : UInt8) : Nat := if b < 0x80 then 1 else 2

/-- Reads on in a chunk after the characters `before`, last one first, which weigh `used`. -/
def chunkFrom (context : String) (limit : Nat) (ending : Ending) (before : List Char) (used : Nat) :
    List UInt8 → Outcome String
  | [] => .error (ending.fault context) ⟨[], ending⟩
  | b :: rest =>
    if b = terminator ∨ b = newline then .ok (String.ofList before.reverse) ⟨rest, ending⟩
    else if b = refusal then .error (.protocol (.rejected context)) ⟨rest, ending⟩
    else if limit ≤ used then .error (.protocol (.chunkTooLong limit context)) ⟨rest, ending⟩
    else chunkFrom context limit ending (Latin.char b :: before) (used + weight b) rest

/-- The text up to a terminator or a newline. The limit is looked at before a byte is added. -/
def chunk (context : String) : Reading String := fun limit inbound =>
  chunkFrom context limit inbound.ending [] 0 inbound.unread

/-- Reads `n` more items after those `before`, last one first. -/
def itemsFrom {α : Type} (item : Reading α) (limit : Nat) :
    Nat → List α → Inbound → Outcome (List α)
  | 0, before, inbound => .ok before.reverse inbound
  | n + 1, before, inbound =>
    match item limit inbound with
    | .ok x rest => itemsFrom item limit n (x :: before) rest
    | .error fault rest => .error fault rest

/-- The same reading `n` times. -/
def items {α : Type} (n : Nat) (item : Reading α) : Reading (List α) := fun limit inbound =>
  itemsFrom item limit n [] inbound

/-- What was read before stands in front of what is read after. -/
theorem itemsFrom_eq {α : Type} (item : Reading α) (limit n : Nat) (before : List α)
    (inbound : Inbound) :
    itemsFrom item limit n before inbound =
      ((before.reverse ++ ·) <$> items n item) limit inbound := by
  induction n generalizing before inbound with
  | zero => simp [items, itemsFrom, Functor.map, EStateM.map]
  | succ n ih =>
    simp only [items, itemsFrom, Functor.map, EStateM.map] at ih ⊢
    cases item limit inbound with
    | error fault rest => rfl
    | ok x rest =>
      dsimp only
      rw [ih, ih [x]]
      cases itemsFrom item limit n [] rest <;> simp

theorem items_zero {α : Type} (item : Reading α) : items 0 item = pure [] := rfl

/-- The first item, and then the others. -/
theorem items_succ {α : Type} (n : Nat) (item : Reading α) :
    items (n + 1) item = do
      let x ← item
      let xs ← items n item
      return x :: xs := by
  funext limit inbound
  show itemsFrom item limit (n + 1) [] inbound = _
  rw [itemsFrom]
  simp only [bind, ReaderT.bind, EStateM.bind, pure, ReaderT.pure, EStateM.pure]
  cases item limit inbound with
  | error fault rest => rfl
  | ok x rest => exact itemsFrom_eq item limit n [x] rest

end Reading
end Docuverse.Wire
