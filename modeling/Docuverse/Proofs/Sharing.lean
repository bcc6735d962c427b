import Docuverse.Proofs.Span.Region
import Docuverse.Sharing
import Mathlib.Data.List.Chain

namespace Docuverse

namespace Sharing

section Widening

variable {v w widened : VSpan} {place stop : Address} {width : Offset} {x : Address}

theorem widen_eq_ok :
    widen v width = .ok widened ↔ ∃ total, v.span.width.add width = .ok total ∧
      widened = ⟨v.doc, ⟨v.span.start, total⟩⟩ := by
  rw [widen, bind_eq_ok]
  simp only [pure, Except.pure, Except.ok.injEq, eq_comm]

theorem doc_widen (done : widen v width = .ok widened) : widened.doc = v.doc := by
  obtain ⟨total, _, rfl⟩ := widen_eq_ok.mp done
  rfl

theorem start_widen (done : widen v width = .ok widened) : widened.start = v.start := by
  obtain ⟨total, _, rfl⟩ := widen_eq_ok.mp done
  rfl

/-- A region that is widened stops where its stop is moved to by the new width. -/
theorem stop_widen (stops : v.span.stop = .ok place) (done : widen v width = .ok widened) :
    widened.span.stop = .ok stop ↔ place.add width = .ok stop := by
  obtain ⟨total, sum, rfl⟩ := widen_eq_ok.mp done
  have assoc := Tumbler.addDigits_assoc (Address.add_eq_ok.mp stops) width.digits
  rw [Offset.add_eq_ok.mp sum, Option.bind_some] at assoc
  rw [Span.stop, Address.add_eq_ok, Address.add_eq_ok, assoc]

/-- A region is widened to the stop of one that continues it in the same document, or of an empty
one, and to no other: a width fixes how many digits both places have, and so both documents. -/
theorem stop_widen_iff (joined : v.stop = .ok w.start) (stops : w.stop = .ok stop)
    (done : widen v w.span.width = .ok widened) :
    widened.stop = .ok stop ↔ v.doc = w.doc ∨ w.span.isEmpty = true := by
  obtain ⟨place, stopsAt, told⟩ := VSpan.stop_eq_ok.mp joined
  obtain ⟨last, stopsLast, rfl⟩ := VSpan.stop_eq_ok.mp stops
  rw [VSpan.stop_eq_ok, doc_widen done]
  simp only [stop_widen stopsAt done]
  refine ⟨?_, ?_⟩
  · rintro ⟨reached, moved, same⟩
    by_cases zero : w.span.width.tumbler.isZero = true
    · exact Or.inr zero
    · have counts := mt Tumbler.all_eq_true_iff_zeros.mpr zero
      refine Or.inl (Address.doc_eq_of_globalize same ?_)
      rw [Tumbler.length_addDigits counts (Address.add_eq_ok.mp moved),
        Tumbler.length_addDigits counts (Address.add_eq_ok.mp stopsLast)]
  · rintro (same | zero)
    · rw [same, VSpan.start, Address.globalize_inj] at told
      subst told
      exact ⟨last, stopsLast, congrArg (globalize · last) same⟩
    · have rests (a : Address) : a.add w.span.width = .ok a :=
        Address.add_eq_ok.mpr
          (Tumbler.addDigits_zeros (Tumbler.all_eq_true_iff_zeros.mp zero))
      obtain rfl : last = w.span.start := Except.ok.inj (stopsLast.symm.trans (rests _))
      exact ⟨place, rests place, told⟩

/-- What lies in either of two regions that join lies between the start of one and the stop of the
other. -/
theorem contains_join (meets : v.stop = .ok w.start) (stops : w.stop = .ok stop) :
    v.contains x = true ∨ w.contains x = true ↔ v.start ≤ x ∧ x < stop := by
  rw [VSpan.contains_of_stop meets, VSpan.contains_of_stop stops]
  have first : v.start ≤ w.start := VSpan.start_le_stop meets
  have second : w.start ≤ stop := VSpan.start_le_stop stops
  grind

/-- Two regions that join are put together without gain or loss if and only if they are told in the
same document or the second one is empty. -/
theorem widen_exact_iff (meets : v.stop = .ok w.start) (stops : w.stop = .ok stop)
    (done : widen v w.span.width = .ok widened) :
    (∀ x : Address, widened.contains x = true ↔ v.contains x = true ∨ w.contains x = true) ↔
      v.doc = w.doc ∨ w.span.isEmpty = true := by
  simp only [contains_join meets stops, ← start_widen done]
  refine ⟨fun exact => ?_, fun kept x => ?_⟩
  · cases empty : w.span.isEmpty with
    | true => exact Or.inr rfl
    | false =>
      have proper : widened.start < stop := start_widen done ▸
        Std.lt_of_le_of_lt (VSpan.start_le_stop meets) (VSpan.start_lt_stop empty stops)
      have ends := VSpan.stop_global.mp (Span.bounds_of_contains proper exact).2
      exact empty ▸ (stop_widen_iff meets stops done).mp ends
  · exact VSpan.contains_of_stop ((stop_widen_iff meets stops done).mpr kept)

/-- In one document, a region and one that continues it make one region. -/
theorem widen_same_doc (meets : v.stop = .ok w.start) (stops : w.stop = .ok stop)
    (same : v.doc = w.doc) (done : widen v w.span.width = .ok widened) :
    widened.doc = w.doc ∧ widened.stop = w.stop ∧
      ∀ x : Address, widened.contains x = true ↔ v.contains x = true ∨ w.contains x = true := by
  refine ⟨(doc_widen done).trans same, ?_, (widen_exact_iff meets stops done).mpr (Or.inl same)⟩
  rw [(stop_widen_iff meets stops done).mpr (Or.inl same), stops]

end Widening

inductive Side
  | first
  | second

def Side.of : Side → Shared → VSpan
  | first, piece => piece.1
  | second, piece => piece.2

theorem Side.forall {holds : Side → Prop} : (∀ side, holds side) ↔ holds first ∧ holds second := by
  refine ⟨fun all => ⟨all first, all second⟩, fun both side => ?_⟩
  cases side with
  | first => exact both.1
  | second => exact both.2

/-- On both sides `next` starts where `piece` stops. -/
def Continues (piece next : Shared) : Prop :=
  ∀ side : Side, (side.of piece).stop = .ok (side.of next).start

/-- On both sides the document is the same one. -/
def SameDocs (piece next : Shared) : Prop :=
  ∀ side : Side, (side.of piece).doc = (side.of next).doc

/-- The address lies in one of the pieces, on the given side. -/
def Covers (pieces : List Shared) (side : Side) (x : Address) : Prop :=
  ∃ piece ∈ pieces, (side.of piece).contains x = true

instance (pieces : List Shared) (side : Side) (x : Address) : Decidable (Covers pieces side x) :=
  inferInstanceAs (Decidable (∃ piece ∈ pieces, (side.of piece).contains x = true))

/-- The stops of a piece as they are kept for the next one. -/
def Stops (piece : Shared) (stops : Option (Address × Address)) : Prop :=
  ∃ stop : Side → Address, (∀ side : Side, (side.of piece).stop = .ok (stop side)) ∧
    stops = some (stop .first, stop .second)

/-- The piece `last` has just been read. It ends the last run, in the documents of that run. -/
structure Follows (done : Progress) (last : Shared) : Prop where
  stops : Stops last done.stops
  run : ∃ run earlier, done.runs = run :: earlier ∧ ∀ side : Side,
    (side.of run).doc = (side.of last).doc ∧ (side.of run).stop = (side.of last).stop

section Runs

variable {done next : Progress} {piece last : Shared} {pieces runs : List Shared} {side : Side}
  {x : Address}

theorem covers_cons :
    Covers (piece :: pieces) side x ↔
      (side.of piece).contains x = true ∨ Covers pieces side x := by
  simp [Covers]

/-- A piece is put into the last run if it starts where the piece before it stops, and is a new run
otherwise. -/
theorem add_cases (step : done.add piece = .ok next) :
    Stops piece next.stops ∧
      ((∃ run earlier widened, done.runs = run :: earlier ∧
          done.stops = some (piece.1.start, piece.2.start) ∧ next.runs = widened :: earlier ∧
          ∀ side : Side, widen (side.of run) (side.of piece).span.width = .ok (side.of widened)) ∨
        next.runs = piece :: done.runs) := by
  simp only [Progress.add, bind_eq_ok] at step
  obtain ⟨first, stopsFirst, second, stopsSecond, step⟩ := step
  have stops : Stops piece (some (first, second)) :=
    ⟨fun | .first => first | .second => second, Side.forall.mpr ⟨stopsFirst, stopsSecond⟩, rfl⟩
  cases runs : done.runs with
  | nil =>
    simp only [runs] at step
    cases step
    exact ⟨stops, Or.inr rfl⟩
  | cons run earlier =>
    simp only [runs] at step
    split at step
    next joins =>
      simp only [bind_eq_ok] at step
      obtain ⟨one, widenedOne, other, widenedOther, told⟩ := step
      cases told
      exact ⟨stops, Or.inl ⟨run, earlier, (one, other), rfl, joins, rfl,
        Side.forall.mpr ⟨widenedOne, widenedOther⟩⟩⟩
    next apart =>
      cases step
      exact ⟨stops, Or.inr rfl⟩

/-- A piece that starts at the stops that were kept continues the piece before it. -/
theorem continues_of_stops {stops : Option (Address × Address)} (kept : Stops last stops)
    (joins : stops = some (piece.1.start, piece.2.start)) : Continues last piece := by
  obtain ⟨stop, stopsAt, rfl⟩ := kept
  obtain ⟨first, second⟩ := Prod.mk.inj (Option.some.inj joins)
  exact Side.forall.mpr ⟨first ▸ stopsAt .first, second ▸ stopsAt .second⟩

/-- One more piece adds what it holds, unless it continues the run in another document. -/
theorem covers_add (follows : Follows done last) (kept : Continues last piece → SameDocs last piece)
    (step : done.add piece = .ok next) :
    Follows next piece ∧ ∀ side x,
      Covers next.runs side x ↔ Covers done.runs side x ∨ (side.of piece).contains x = true := by
  obtain ⟨stops, ⟨run, earlier, widened, runs, joins, runs', wide⟩ | runs'⟩ := add_cases step
  · have continues := continues_of_stops follows.stops joins
    have ⟨stop, stopsAt, _⟩ := stops
    obtain ⟨_, _, same, ends⟩ := follows.run
    rw [runs] at same
    cases same
    have joined (side : Side) := widen_same_doc ((ends side).2.trans (continues side))
      (stopsAt side) ((ends side).1.trans (kept continues side)) (wide side)
    refine ⟨⟨stops, widened, earlier, runs', fun side => ⟨(joined side).1, (joined side).2.1⟩⟩,
      fun side x => ?_⟩
    rw [runs, runs', covers_cons, covers_cons, (joined side).2.2]
    exact or_right_comm
  · refine ⟨⟨stops, piece, done.runs, runs', fun side => ⟨rfl, rfl⟩⟩, fun side x => ?_⟩
    rw [runs', covers_cons, or_comm]

/-- So do any number of pieces: `Follows` is what a step needs to know of the steps before it. -/
theorem covers_foldlM (follows : Follows done last)
    (kept : (last :: pieces).IsChain fun piece next => Continues piece next → SameDocs piece next)
    (steps : pieces.foldlM Progress.add done = .ok next) :
    Covers next.runs side x ↔ Covers done.runs side x ∨ Covers pieces side x := by
  induction pieces generalizing done last with
  | nil =>
    cases steps
    simp [Covers]
  | cons piece pieces ih =>
    rw [List.foldlM_cons, bind_eq_ok] at steps
    obtain ⟨more, step, steps⟩ := steps
    obtain ⟨joined, later⟩ := List.isChain_cons_cons.mp kept
    obtain ⟨follows, covers⟩ := covers_add follows joined step
    rw [ih follows later steps, covers, covers_cons, or_assoc]

/-- Putting pieces together neither gains nor loses an address on either side, if those that
continue one another are told in the same documents. -/
theorem collapse_covers (done : collapse pieces = .ok runs)
    (kept : pieces.IsChain fun piece next => Continues piece next → SameDocs piece next) :
    ∀ side x, Covers runs side x ↔ Covers pieces side x := by
  intro side x
  rw [collapse, bind_eq_ok] at done
  obtain ⟨finished, steps, told⟩ := done
  cases told
  have turned : Covers finished.runs.reverse side x ↔ Covers finished.runs side x := by
    simp [Covers]
  rw [turned]
  cases pieces with
  | nil =>
    cases steps
    rfl
  | cons piece pieces =>
    rw [List.foldlM_cons, bind_eq_ok] at steps
    obtain ⟨begun, step, steps⟩ := steps
    obtain ⟨stops, ⟨_, _, _, none, _⟩ | alone⟩ := add_cases step
    · cases none
    · have follows : Follows begun piece := ⟨stops, piece, [], alone, fun side => ⟨rfl, rfl⟩⟩
      rw [covers_foldlM follows kept steps, alone, covers_cons, covers_cons]
      simp [Covers, Progress.start]

end Runs

/-- A region given by its digits. -/
def region (doc start width : List UInt64) : VSpan :=
  ⟨.ofDigits doc, ⟨.ofDigits start, .ofDigits width⟩⟩

/-- Three pieces, each of which continues the one before it. -/
theorem collapse_covers_chain :
    let pieces : List Shared :=
      [(region [1, 1] [1, 1] [0, 5], region [2] [7] [1]),
        (region [1, 1] [1, 6] [0, 3], region [2] [8] [0, 4]),
        (region [1, 1] [1, 9] [1], region [2] [8, 4] [0, 2])]
    let runs : List Shared := [(region [1, 1] [1, 1] [1], region [2] [7] [1, 6])]
    collapse pieces = .ok runs ∧ ∀ side x, Covers runs side x ↔ Covers pieces side x := by
  intro pieces runs
  have done : collapse pieces = .ok runs := rfl
  refine ⟨done, collapse_covers done ?_⟩
  simp only [pieces, List.isChain_cons_cons]
  exact ⟨fun _ => Side.forall.mpr ⟨rfl, rfl⟩, fun _ => Side.forall.mpr ⟨rfl, rfl⟩, .singleton _⟩

/-- The second piece continues the first one, of document `1`, in document `1.0.2`. The run counts
the width of both in document `1`. -/
theorem collapse_gains_across_docs :
    let pieces : List Shared :=
      [(region [1] [1] [1, 0, 1], region [1] [1] [1, 0, 1]),
        (region [1, 0, 2] [1] [1], region [1, 0, 2] [1] [1])]
    let runs : List Shared := [(region [1] [1] [2], region [1] [1] [2])]
    let place : Address := .ofDigits [1, 0, 2, 5]
    collapse pieces = .ok runs ∧
      ∀ side : Side, Covers runs side place ∧ ¬ Covers pieces side place := by
  exact ⟨rfl, Side.forall.mpr (by decide)⟩

end Sharing
end Docuverse
