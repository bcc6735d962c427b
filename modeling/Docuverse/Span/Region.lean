import Docuverse.Address.Scope
import Docuverse.SpecSet.Basic
import Docuverse.Tumbler.Arithmetic

namespace Docuverse

namespace Span

/-- The first address past the span. -/
def stop (s : Span) : Except Fault Address := s.start.add s.width

/-- The stop as a bound, without one if the span goes on past every address. -/
def upper (s : Span) : Option Address := s.stop.toOption

/-- The span from `start` up to `stop`, if `stop` is not below. -/
def between (start stop : Address) : Except Fault Span := do
  return ⟨start, ← stop.offsetFrom start⟩

/-- What two spans share. Its width cannot be told if neither of them has a bound. -/
def intersect (a b : Span) : Except Fault Span :=
  let start := max a.start b.start
  let upTo (stop : Address) : Except Fault Span :=
    if stop ≤ start then .ok empty else between start stop
  match a.upper, b.upper with
  | some s, some t => upTo (min s t)
  | some s, none => upTo s
  | none, some t => upTo t
  | none, none => .error (.range (.intersect a b))

end Span

namespace VSpan

/-- The same region in global coordinates. -/
def global (v : VSpan) : Span := globalize v.doc v.span

/-- The first address of the region, in global coordinates. -/
def start (v : VSpan) : Address := globalize v.doc v.span.start

/-- The first address past the region, in global coordinates. -/
def stop (v : VSpan) : Except Fault Address := globalize v.doc <$> v.span.stop

end VSpan

/-- The parts in global coordinates. -/
def VSpec.global (v : VSpec) : List Span := v.spans.map (globalize v.doc)

/-- What can lie inside a span, entirely. -/
class Region (α : Type) where
  within : α → Span → Bool

namespace Region

instance : Region Address where
  within x outer :=
    decide (outer.start ≤ x) &&
      match outer.upper with
      | none => true
      | some stop => decide (x < stop)

instance : Region Span where
  within inner outer :=
    decide (outer.start ≤ inner.start) &&
      match inner.upper, outer.upper with
      | _, none => true
      | none, some _ => false
      | some stop, some bound => decide (stop ≤ bound)

instance : Region VSpan where
  within inner outer := within inner.global outer

/-- All parts are inside, and there is at least one. -/
instance : Region VSpec where
  within inner outer := !inner.vspans.isEmpty && inner.vspans.all fun part => within part outer

end Region

def Span.contains {α : Type} [Region α] (outer : Span) (x : α) : Bool := Region.within x outer

def VSpan.contains {α : Type} [Region α] (outer : VSpan) (x : α) : Bool :=
  outer.global.contains x

/-- Some part contains all of `x`. -/
def VSpec.contains {α : Type} [Region α] (outer : VSpec) (x : α) : Bool :=
  outer.global.any fun part => part.contains x

end Docuverse
