import Docuverse.Fault

namespace Docuverse

/-- What can be told in the coordinates of one document. What lies inside a document has the
document's address, a zero and then a place of its own. -/
class Scoped (α : Type) where
  globalize : Address → α → α
  localize : Address → α → Except Fault α

export Scoped (globalize localize)

/-- The digits with which everything inside the document begins. -/
def Address.scope (doc : Address) : List UInt64 := doc.digits ++ [0]

/-- The digits of a tumbler without those of `front`, which stand in front for the document. -/
def Address.takeOff (doc : Address) (front : List UInt64) (t : Tumbler) :
    Except Fault (List UInt64) :=
  match front.isPrefixOf? t.digits with
  | some rest => .ok rest
  | none => .error (.range (.localize t doc))

instance : Scoped Address where
  globalize doc place := .ofDigits (doc.scope ++ place.digits)
  localize doc place := .ofDigits <$> doc.takeOff doc.scope place.tumbler

/-- A distance has zeros where an address has its document. -/
def Address.scopeZeros (doc : Address) : List UInt64 := List.replicate (doc.digits.length + 1) 0

instance : Scoped Offset where
  globalize doc distance := .ofDigits (doc.scopeZeros ++ distance.digits)
  localize doc distance := .ofDigits <$> doc.takeOff doc.scopeZeros distance.tumbler

instance : Scoped Span where
  globalize doc s := ⟨globalize doc s.start, globalize doc s.width⟩
  localize doc s := do return ⟨← localize doc s.start, ← localize doc s.width⟩

namespace Address

/-- Cuts digits at the last zero, which stands in neither part. -/
def cutAtLastZero : List UInt64 → Option (List UInt64 × List UInt64)
  | [] => none
  | d :: digits =>
    match cutAtLastZero digits with
    | some (doc, place) => some (d :: doc, place)
    | none => if d = 0 then some ([], digits) else none

/-- The document that an address lies in and the place inside it. -/
def split (a : Address) : Except Fault (Address × Address) :=
  match cutAtLastZero a.digits with
  | some (doc, place) => .ok (.ofDigits doc, .ofDigits place)
  | none => .error (.range (.split a))

theorem eq_of_cutAtLastZero {digits doc place : List UInt64}
    (cut : cutAtLastZero digits = some (doc, place)) :
    digits = doc ++ 0 :: place ∧ 0 ∉ place := by
  induction digits generalizing doc with
  | nil => simp [cutAtLastZero] at cut
  | cons d digits ih =>
    rw [cutAtLastZero] at cut
    split at cut
    next inner place' deeper =>
      obtain ⟨rfl, rfl⟩ := Prod.mk.inj (Option.some.inj cut)
      obtain ⟨eq, free⟩ := ih deeper
      exact ⟨by rw [eq]; rfl, free⟩
    next none =>
      split at cut
      next zero =>
        obtain ⟨rfl, rfl⟩ := Prod.mk.inj (Option.some.inj cut)
        refine ⟨by rw [zero]; rfl, ?_⟩
        clear ih cut
        induction digits with
        | nil => simp
        | cons e digits ih =>
          rw [cutAtLastZero] at none
          split at none
          · simp at none
          next inner =>
            split at none
            · simp at none
            next nonzero => simpa [Ne.symm nonzero] using ih inner
      next => simp at cut

end Address
end Docuverse
