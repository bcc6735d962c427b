import Docuverse.Enfilade.Basic
import Docuverse.SpecSet.Json

namespace Docuverse.Enfilade

def Store.name : Store → String
  | granf => "granf"
  | spanf => "spanf"

def Flavour.name : Flavour → String
  | gran => "GRAN"
  | poom => "POOM"
  | span => "SPAN"

def Label.members (label : Label) : List (String × Json) :=
  [("depth", .ofUInt64 label.depth), ("height", .ofUInt64 label.height),
    ("enftype", .ofText label.flavour.name),
    ("wid", .array (label.widths.map Tumbler.toJson)),
    ("dsp", .array (label.displacements.map Tumbler.toJson))]

/-- A crum whose place at the bottom is told by `info` and its own members. -/
def bottomJson (label : Label) (info : String) (members : List (String × Json)) : Json :=
  .record (label.members ++
    [("body", .record [("bottom", .record (("info", .ofText info) :: members))])])

mutual

def Crum.toJson : Crum → Json
  | .interior label children =>
    .record (label.members ++ [("body", .record [("children", .array (Crum.allToJson children))])])
  | .home label doc => bottomJson label "home" [("homedoc", doc.toJson)]
  | .text label stored => bottomJson label "text" [("text", .ofText stored)]
  | .orgl label inMemory none =>
    bottomJson label "orgl" [("in_memory", .bool inMemory), ("orgl", .null)]
  | .orgl label inMemory (some tree) =>
    bottomJson label "orgl" [("in_memory", .bool inMemory), ("orgl", tree.toJson)]

def Crum.allToJson : List Crum → List Json
  | [] => []
  | crum :: crums => crum.toJson :: Crum.allToJson crums

end

def Dump.toJson (dump : Dump) : Json :=
  .record [("kind", .ofText dump.store.name), ("root", dump.root.elim .null Crum.toJson)]

end Docuverse.Enfilade
