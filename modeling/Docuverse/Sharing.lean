import Docuverse.Span.Region

namespace Docuverse.Sharing

/-- The same content in two places. -/
abbrev Shared := VSpan × VSpan

def widen (v : VSpan) (width : Offset) : Except Fault VSpan := do
  return { v with span.width := ← v.span.width.add width }

/-- The pieces put together so far, last one first, and the global stops of the piece read last. -/
structure Progress where
  runs : List Shared
  stops : Option (Address × Address)

def Progress.start : Progress := ⟨[], none⟩

/-- A piece continues the run before it if it starts on both sides where the piece before it
stops. -/
def Progress.add (done : Progress) (piece : Shared) : Except Fault Progress := do
  let stops := (← piece.1.stop, ← piece.2.stop)
  match done.runs with
  | run :: earlier =>
    if done.stops = some (piece.1.start, piece.2.start) then
      let widened := (← widen run.1 piece.1.span.width, ← widen run.2 piece.2.span.width)
      return ⟨widened :: earlier, some stops⟩
    else return ⟨piece :: run :: earlier, some stops⟩
  | [] => return ⟨[piece], some stops⟩

/-- The pieces that continue one another, put together. -/
def collapse (pieces : List Shared) : Except Fault (List Shared) := do
  let done ← pieces.foldlM Progress.add .start
  return done.runs.reverse

end Docuverse.Sharing
