import Docuverse.Choices
import Docuverse.Enfilade.Reading
import Docuverse.Sharing
import Docuverse.Wire.Value

namespace Docuverse

/-- What can be asked. -/
inductive Request where
  | createDocument
  | createVersion (doc : Address)
  | openDocument (doc : Address) (access : Access) (copy : CopyMode)
  | closeDocument (doc : Address)
  | insert (doc place : Address) (texts : List String)
  | vcopy (doc place : Address) (specs : SpecSet)
  | delete (doc start : Address) (width : Offset)
  | pivot (doc start middle stop : Address)
  | swap (doc firstStart firstStop secondStart secondStop : Address)
  | remove (doc : Address) (vspan : VSpan)
  | retrieveVSpanSet (doc : Address)
  | retrieveVSpan (doc : Address)
  | retrieveContents (specs : SpecSet)
  | retrieveEndsets (specs : SpecSet)
  | createLink (doc : Address) (source target type : SpecSet)
  | findLinks (source target type : SpecSet) (homes : List Address)
  | followLink (link : Address) (which : LinkEnd)
  | compareVersions (a b : SpecSet)
  | findDocuments (specs : SpecSet)
  | account (owner : Address)
  | createNode (owner : Address)
  | dumpState
  deriving Repr

/-- One end of a link, or none if the back end refuses to tell. -/
inductive LinkFollow where
  | found (specs : SpecSet)
  | empty
  deriving DecidableEq, Repr

def LinkFollow.specs : LinkFollow → SpecSet
  | found specs => specs
  | empty => .empty

/-- The three ends of all links in a region. -/
structure Endsets where
  source : SpecSet
  target : SpecSet
  type : SpecSet
  deriving DecidableEq, Repr

namespace Request

/-- Links from a region, wherever they lead and whatever their type and home. -/
def findLinksFrom (source : SpecSet) : Request := findLinks source .empty .empty []

/-- Cuts at places of a document. What the cuts mean depends on their number. -/
def rearrange (doc : Address) (cuts : List Address) : Wire.Command :=
  ⟨.rearrange, [.address doc, .list (cuts.map .address)]⟩

/-- The command that asks it. What is deleted must stop at an address. -/
def command : Request → Except Fault Wire.Command
  | createDocument => .ok ⟨.createDocument, []⟩
  | createVersion doc => .ok ⟨.createVersion, [.address doc]⟩
  | openDocument doc access copy =>
    .ok ⟨.openDocument, [.address doc, .number access.code, .number copy.code]⟩
  | closeDocument doc => .ok ⟨.closeDocument, [.address doc]⟩
  | insert doc place texts =>
    .ok ⟨.insert, [.address doc, .address place, .list (texts.map .text)]⟩
  | vcopy doc place specs => .ok ⟨.vcopy, [.address doc, .address place, .specSet specs]⟩
  | delete doc start width => do return rearrange doc [start, ← start.add width]
  | pivot doc start middle stop => .ok (rearrange doc [start, middle, stop])
  | swap doc firstStart firstStop secondStart secondStop =>
    .ok (rearrange doc [firstStart, firstStop, secondStart, secondStop])
  | remove doc vspan => .ok ⟨.remove, [.address doc, .span vspan.span]⟩
  | retrieveVSpanSet doc => .ok ⟨.retrieveVSpanSet, [.address doc]⟩
  | retrieveVSpan doc => .ok ⟨.retrieveVSpan, [.address doc]⟩
  | retrieveContents specs => .ok ⟨.retrieveContents, [.specSet specs]⟩
  | retrieveEndsets specs => .ok ⟨.retrieveEndsets, [.specSet specs]⟩
  | createLink doc source target type =>
    .ok ⟨.createLink, [.address doc, .specSet source, .specSet target, .specSet type]⟩
  | findLinks source target type homes =>
    .ok ⟨.findLinks,
      [.specSet source, .specSet target, .specSet type, .list (homes.map .address)]⟩
  | followLink link which => .ok ⟨.followLink, [.number which.code, .address link]⟩
  | compareVersions a b => .ok ⟨.compareVersions, [.specSet a, .specSet b]⟩
  | findDocuments specs => .ok ⟨.findDocuments, [.specSet specs]⟩
  | account owner => .ok ⟨.account, [.address owner]⟩
  | createNode owner => .ok ⟨.createNode, [.address owner]⟩
  | dumpState => .ok ⟨.dumpState, []⟩

/-- What is answered. -/
abbrev Answer : Request → Type
  | createDocument | createVersion _ | openDocument .. | createLink .. | createNode _ => Address
  | closeDocument _ | insert .. | vcopy .. | delete .. | pivot .. | swap .. | remove ..
  | account _ => Unit
  | retrieveVSpanSet _ => VSpec
  | retrieveVSpan _ => VSpan
  | retrieveContents _ => List Wire.Content
  | retrieveEndsets _ => Endsets
  | findLinks .. | findDocuments _ => List Address
  | followLink .. => LinkFollow
  | compareVersions .. => List Sharing.Shared
  | dumpState => Enfilade.Dump

/-- Two global addresses from which as much content is the same, each told in its document. -/
def shared : Wire.Reading Sharing.Shared := do
  let a ← Wire.Reading.address
  let b ← Wire.Reading.address
  let width ← Wire.Reading.offset
  let (docA, placeA) ← ofExcept a.split
  let (docB, placeB) ← ofExcept b.split
  return (⟨docA, placeA, width⟩, ⟨docB, placeB, width⟩)

def endsets : Wire.Reading Endsets := do
  let source ← Wire.Reading.specSet
  let target ← Wire.Reading.specSet
  let type ← Wire.Reading.specSet
  return { source, target, type }

/-- The reading of the reply after its echo. -/
def reply : (request : Request) → Wire.Reading request.Answer
  | createDocument | createVersion _ | openDocument .. | createLink .. | createNode _ =>
    Wire.Reading.address
  | closeDocument _ | insert .. | vcopy .. | delete .. | pivot .. | swap .. | remove ..
  | account _ => pure ()
  | retrieveVSpanSet _ => Wire.Reading.vspec
  | retrieveVSpan doc => VSpan.mk doc <$> Wire.Reading.span
  | retrieveContents _ => Wire.Reading.counted Wire.Reading.content
  | retrieveEndsets _ => endsets
  | findLinks .. | findDocuments _ => Wire.Reading.addresses
  | followLink .. => LinkFollow.found <$> Wire.Reading.specSet
  | compareVersions .. => do ofExcept (Sharing.collapse (← Wire.Reading.counted shared))
  | dumpState => Enfilade.Reading.dump

end Request

end Docuverse
