import Docuverse.Json.Basic
import Docuverse.SpecSet.Basic
import Docuverse.Tumbler.Forms

namespace Docuverse

def Tumbler.toJson (t : Tumbler) : Json := .ofText t.dotted

def Tumbler.ofJson? (json : Json) : Option Tumbler := do (Tumbler.ofDotted (← json.text?)).toOption

def Address.toJson (a : Address) : Json := a.tumbler.toJson

def Address.ofJson? (json : Json) : Option Address := Address.mk <$> Tumbler.ofJson? json

def Offset.toJson (o : Offset) : Json := o.tumbler.toJson

def Offset.ofJson? (json : Json) : Option Offset := Offset.mk <$> Tumbler.ofJson? json

def Span.toJson (s : Span) : Json :=
  .record [("start", s.start.toJson), ("width", s.width.toJson)]

def Span.ofJson? (json : Json) : Option Span := do
  match ← json.fields? ["start", "width"] with
  | [some start, some width] => return ⟨← Address.ofJson? start, ← Offset.ofJson? width⟩
  | _ => none

def VSpan.toJson (v : VSpan) : Json := .record [("docid", v.doc.toJson), ("span", v.span.toJson)]

def VSpan.ofJson? (json : Json) : Option VSpan := do
  match ← json.fields? ["docid", "span"] with
  | [some doc, some span] => return ⟨← Address.ofJson? doc, ← Span.ofJson? span⟩
  | _ => none

def VSpec.toJson (v : VSpec) : Json :=
  .record [("docid", v.doc.toJson), ("spans", .array (v.spans.map Span.toJson))]

/-- The spans are taken as they stand. -/
def VSpec.ofJson? (json : Json) : Option VSpec := do
  match ← json.fields? ["docid", "spans"] with
  | [some doc, some spans] => return ⟨← Address.ofJson? doc, ← spans.list? Span.ofJson?⟩
  | _ => none

/-- An object whose only member says by its name what the item is. -/
def SpecItem.toJson : SpecItem → Json
  | .span s => .record [("span", s.toJson)]
  | .vspec v => .record [("vspec", v.toJson)]

def SpecItem.ofJson? : Json → Option SpecItem
  | .object members => do
    match ← Json.members? members with
    | [("span", value)] => return .span (← Span.ofJson? value)
    | [("vspec", value)] => return .vspec (← VSpec.ofJson? value)
    | _ => none
  | _ => none

def SpecSet.toJson (set : SpecSet) : Json := .array (set.items.map SpecItem.toJson)

def SpecSet.ofJson? (json : Json) : Option SpecSet := SpecSet.mk <$> json.list? SpecItem.ofJson?

end Docuverse
