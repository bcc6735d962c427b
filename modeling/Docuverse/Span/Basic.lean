import Docuverse.Address.Basic

namespace Docuverse

/-- From `start` on, as far as `width` reaches; the far end is outside. -/
structure Span where
  start : Address
  width : Offset
  deriving DecidableEq, Repr

namespace Span

/-- The span that an empty overlap gives. -/
def empty : Span := ⟨.nowhere, .nowidth⟩

instance : Inhabited Span := ⟨empty⟩

/-- By start, then by width. -/
instance : Ord Span := ⟨compareLex (compareOn start) (compareOn width)⟩

instance : Std.TransOrd Span :=
  inferInstanceAs (Std.TransCmp (compareLex (compareOn start) (compareOn width)))

instance : Std.LawfulEqOrd Span where
  eq_of_compare {x y} same := by
    have ⟨starts, widths⟩ := compareLex_eq_eq.1 same
    have sameStart : x.start = y.start := Std.LawfulEqOrd.eq_of_compare starts
    have sameWidth : x.width = y.width := Std.LawfulEqOrd.eq_of_compare widths
    cases x; cases y; exact congr (congrArg mk sameStart) sameWidth

instance : LT Span := ltOfOrd
instance : LE Span := leOfOrd

/-- No extent: the width moves nothing. -/
def isEmpty (s : Span) : Bool := s.width.tumbler.isZero

def display (s : Span) : String := s!"<Span {s.start.dotted} +{s.width.dotted}>"

end Span

/-- A span in the coordinates of the document `doc`. -/
structure VSpan where
  doc : Address
  span : Span
  deriving DecidableEq, Repr

namespace VSpan

instance : Ord VSpan := ⟨compareLex (compareOn doc) (compareOn span)⟩

instance : LT VSpan := ltOfOrd
instance : LE VSpan := leOfOrd

def display (v : VSpan) : String :=
  s!"<VSpan in {v.doc.dotted} at {v.span.start.dotted} +{v.span.width.dotted}>"

end VSpan
end Docuverse
