import Docuverse.Span.Basic

namespace Docuverse

/-- Spans of one document. -/
structure VSpec where
  doc : Address
  spans : List Span
  deriving DecidableEq, Repr

namespace VSpec

instance : Ord VSpec := ⟨compareLex (compareOn doc) (compareOn spans)⟩

instance : LT VSpec := ltOfOrd
instance : LE VSpec := leOfOrd

/-- The spans of a document in ascending order; what is given twice is kept twice. -/
def ofSpans (doc : Address) (spans : List Span) : VSpec :=
  ⟨doc, spans.mergeSort fun a b => (compare a b).isLE⟩

def ofVSpan (v : VSpan) : VSpec := ⟨v.doc, [v.span]⟩

theorem perm_ofSpans (doc : Address) (spans : List Span) : (ofSpans doc spans).spans.Perm spans :=
  List.mergeSort_perm spans _

theorem pairwise_ofSpans (doc : Address) (spans : List Span) :
    (ofSpans doc spans).spans.Pairwise (· ≤ ·) := by
  refine (List.pairwise_mergeSort ?_ ?_ spans).imp fun {a b} below => below
  · exact fun a b c first second => Std.TransOrd.isLE_trans first second
  · intro a b
    have swapped : compare b a = (compare a b).swap := Std.OrientedOrd.eq_swap
    cases h : compare a b <;> simp [swapped, h]

/-- The parts, each with the document. -/
def vspans (v : VSpec) : List VSpan := v.spans.map fun s => ⟨v.doc, s⟩

def get? (v : VSpec) (index : Nat) : Option VSpan := v.vspans[index]?

def display (v : VSpec) : String :=
  let parts := v.spans.map fun s => s!", at {s.start.dotted} +{s.width.dotted}"
  s!"<VSpec in {v.doc.dotted}" ++ String.join parts ++ ">"

end VSpec

/-- One part of a spec set. -/
inductive SpecItem where
  | span (span : Span)
  | vspec (vspec : VSpec)
  deriving DecidableEq, Repr

namespace SpecItem

/-- Every span comes before every vspec. -/
def order : SpecItem → SpecItem → Ordering
  | .span a, .span b => compare a b
  | .span _, .vspec _ => .lt
  | .vspec _, .span _ => .gt
  | .vspec a, .vspec b => compare a b

instance : Ord SpecItem := ⟨order⟩

instance : LT SpecItem := ltOfOrd
instance : LE SpecItem := leOfOrd

def ofVSpan (v : VSpan) : SpecItem := .vspec (.ofVSpan v)

def display : SpecItem → String
  | .span s => s.display
  | .vspec v => v.display

end SpecItem

/-- Spans and vspecs in a given order. -/
structure SpecSet where
  items : List SpecItem
  deriving DecidableEq, Repr

namespace SpecSet

def empty : SpecSet := ⟨[]⟩

instance : Inhabited SpecSet := ⟨empty⟩

instance : Ord SpecSet := ⟨compareOn items⟩

instance : LT SpecSet := ltOfOrd
instance : LE SpecSet := leOfOrd

def singleton (item : SpecItem) : SpecSet := ⟨[item]⟩

def push (set : SpecSet) (item : SpecItem) : SpecSet := ⟨set.items ++ [item]⟩

def append (set : SpecSet) (items : List SpecItem) : SpecSet := ⟨set.items ++ items⟩

def size (set : SpecSet) : Nat := set.items.length

def display (set : SpecSet) : String :=
  "<SpecSet [" ++ ", ".intercalate (set.items.map SpecItem.display) ++ "]>"

end SpecSet

namespace LinkTypes

/-- The document that defines the types of links. -/
def doc : Address := .ofDigits [1, 1, 0, 1, 0, 2]

/-- A type of links, as a region of the document that defines them. -/
def linkType (start width : List UInt64) : VSpec :=
  .ofSpans doc [⟨.ofDigits start, .ofDigits width⟩]

def jump : VSpec := linkType [2, 1] [0, 1]

def quote : VSpec := linkType [2, 2] [0, 1]

def footnote : VSpec := linkType [2, 2, 1] [0, 0, 1]

def margin : VSpec := linkType [2, 2, 1, 1] [0, 0, 0, 1]

end LinkTypes
end Docuverse
