import Docuverse.Proofs.Address.Splitting
import Docuverse.Proofs.Enfilade.Parsing
import Docuverse.Proofs.Wire.Conveyance
import Docuverse.Request

namespace Docuverse

open Wire Wire.Reading

variable {limit : Nat}

/-- A piece of shared content as it is told: two global addresses, each of which has a zero, and the
width that both sides have. -/
structure Sharing.Triple where
  a : Address
  b : Address
  width : Offset
  inDocA : 0 ∈ a.digits
  inDocB : 0 ∈ b.digits

namespace Sharing.Triple

def pieces (t : Triple) : List Piece :=
  [.tumbler t.a.tumbler, .tumbler t.b.tumbler, .tumbler t.width.tumbler]

/-- The same piece with each side in its document. -/
def shared (t : Triple) : Shared :=
  let (docA, placeA) := t.a.parts t.inDocA
  let (docB, placeB) := t.b.parts t.inDocB
  (⟨docA, placeA, t.width⟩, ⟨docB, placeB, t.width⟩)

end Sharing.Triple

namespace Request

/-- What a back end has to tell. -/
abbrev Reply : Request → Type
  | createDocument | createVersion _ | openDocument .. | createLink .. | createNode _ => Address
  | closeDocument _ | insert .. | vcopy .. | delete .. | pivot .. | swap .. | remove ..
  | account _ => Unit
  | retrieveVSpanSet _ => VSpec
  | retrieveVSpan _ => Span
  | retrieveContents _ => List Content
  | retrieveEndsets _ => Endsets
  | findLinks .. | findDocuments _ => List Address
  | followLink .. => SpecSet
  | compareVersions .. => List Sharing.Triple
  | dumpState => Enfilade.Dump

/-- The text is made of these pieces, which are no longer than the limit and can be read. -/
def Carries (limit : Nat) (pieces : List Piece) (text : List UInt8) : Prop :=
  Passable limit pieces ∧ Legible pieces ∧ text = written pieces

/-- The wire form of a reply. Only a dump can be spelled in more than one way. -/
def Spells (limit : Nat) : (request : Request) → request.Reply → List UInt8 → Prop
  | createDocument, a | createVersion _, a | openDocument .., a | createLink .., a
  | createNode _, a => Carries limit [.tumbler a.tumbler]
  | closeDocument _, _ | insert .., _ | vcopy .., _ | delete .., _ | pivot .., _ | swap .., _
  | remove .., _ | account _, _ => Carries limit []
  | retrieveVSpanSet _, v => Carries limit (vspecPieces v)
  | retrieveVSpan _, s => Carries limit (spanPieces s)
  | retrieveContents _, cs => Carries limit (.number cs.length :: cs.flatMap contentPieces)
  | retrieveEndsets _, ends => Carries limit
      (specSetPieces ends.source ++ (specSetPieces ends.target ++ specSetPieces ends.type))
  | findLinks .., as | findDocuments _, as => Carries limit (addressPieces as)
  | followLink .., set => Carries limit (specSetPieces set)
  | compareVersions .., ts => Carries limit
      (.number ts.length :: ts.flatMap Sharing.Triple.pieces)
  | dumpState, d => fun text => Enfilade.Grammar.Shown limit text d ∧ d.nesting ≤ 512

/-- What the caller is to get. Only the comparison of versions can still go wrong, where the stop of
a piece is out of range. -/
def answer : (request : Request) → request.Reply → Except Fault request.Answer
  | createDocument, a | createVersion _, a | openDocument .., a | createLink .., a
  | createNode _, a => .ok a
  | closeDocument _, _ | insert .., _ | vcopy .., _ | delete .., _ | pivot .., _ | swap .., _
  | remove .., _ | account _, _ => .ok ()
  | retrieveVSpanSet _, v => .ok v.sorted
  | retrieveVSpan doc, s => .ok ⟨doc, s⟩
  | retrieveContents _, cs => .ok cs
  | retrieveEndsets _, ends => .ok ⟨ends.source.sorted, ends.target.sorted, ends.type.sorted⟩
  | findLinks .., as | findDocuments _, as => .ok as
  | followLink .., set => .ok (.found set.sorted)
  | compareVersions .., ts => Sharing.collapse (ts.map Sharing.Triple.shared)
  | dumpState, d => .ok d

/-- In front of any bytes whatever, the reading takes exactly `text` and comes to `result`. -/
def Yields {α : Type} (reading : Reading α) (limit : Nat) (text : List UInt8)
    (result : Except Fault α) : Prop :=
  ∀ rest ending,
    reading limit ⟨text ++ rest, ending⟩ = (ofExcept result : Reading α) limit ⟨rest, ending⟩

theorem Carries.yields {α : Type} {reading : Reading α} {pieces : List Piece} {value : α}
    {text : List UInt8} (carries : Carries limit pieces text)
    (conveys : Conveys reading limit pieces value) : Yields reading limit text (.ok value) := by
  obtain ⟨passable, legible, rfl⟩ := carries
  exact (conveys passable).1 legible

end Request
end Docuverse
