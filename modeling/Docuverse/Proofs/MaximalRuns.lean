import Docuverse.Proofs.Sharing
import Mathlib.Data.List.SplitBy

namespace Docuverse.Sharing

section Widths

variable {v w : VSpan} {stop : Address} {done : Progress} {pieces runs : List Shared}
  {piece : Shared} {fault : Fault}

/-- A region is widened by one that continues it in the same document, if that one has a stop, for
the sum of the widths leads where both moves lead. -/
theorem exists_widen (meets : v.stop = .ok w.start) (same : v.doc = w.doc)
    (stops : w.stop = .ok stop) : ∃ widened, widen v w.span.width = .ok widened := by
  obtain ⟨place, reached, told⟩ := VSpan.stop_eq_ok.mp meets
  obtain ⟨last, moved, _⟩ := VSpan.stop_eq_ok.mp stops
  rw [same, VSpan.start, Address.globalize_inj] at told
  subst told
  have assoc := Tumbler.addDigits_assoc (Address.add_eq_ok.mp reached) w.span.width.digits
  rw [Address.add_eq_ok.mp moved] at assoc
  obtain ⟨total, sum, _⟩ := Option.bind_eq_some_iff.mp assoc.symm
  exact ⟨_, widen_eq_ok.mpr ⟨.ofDigits total, Offset.add_eq_ok.mpr sum, rfl⟩⟩

theorem range_of_stop (failed : v.stop = .error fault) : ∃ clash, fault = .range clash :=
  Address.range_of_add (map_eq_error.mp failed)

theorem range_of_widen {width : Offset} (failed : widen v width = .error fault) :
    ∃ clash, fault = .range clash := by
  rw [widen, bind_eq_error] at failed
  rcases failed with failed | ⟨total, _, none⟩
  · exact Offset.range_of_add failed
  · cases none

theorem range_of_step (failed : done.add piece = .error fault) : ∃ clash, fault = .range clash := by
  simp only [Progress.add, bind_eq_error] at failed
  rcases failed with failed | ⟨_, _, failed | ⟨_, _, failed⟩⟩
  · exact range_of_stop failed
  · exact range_of_stop failed
  · split at failed
    next run earlier _ =>
      split at failed
      · simp only [bind_eq_error] at failed
        rcases failed with failed | ⟨_, _, failed | ⟨_, _, none⟩⟩
        · exact range_of_widen failed
        · exact range_of_widen failed
        · cases none
      · cases failed
    next => cases failed

/-- Nothing but a digit out of range is in the way of putting pieces together. -/
theorem range_of_collapse (failed : collapse pieces = .error fault) :
    ∃ clash, fault = .range clash := by
  rw [collapse, bind_eq_error] at failed
  rcases failed with failed | ⟨_, _, none⟩
  · generalize Progress.start = done at failed
    induction pieces generalizing done with
    | nil => cases failed
    | cons piece pieces ih =>
      rw [List.foldlM_cons, bind_eq_error] at failed
      rcases failed with failed | ⟨next, _, failed⟩
      · exact range_of_step failed
      · exact ih next failed
  · cases none

/-- All pieces that are put together have their stops. -/
theorem stops_of_collapse (found : collapse pieces = .ok runs) :
    ∀ piece ∈ pieces, ∃ stops, Stops piece stops := by
  rw [collapse, bind_eq_ok] at found
  obtain ⟨last, steps, _⟩ := found
  generalize Progress.start = done at steps
  induction pieces generalizing done with
  | nil => simp
  | cons piece pieces ih =>
    rw [List.foldlM_cons, bind_eq_ok] at steps
    obtain ⟨next, step, steps⟩ := steps
    exact List.forall_mem_cons.mpr ⟨⟨next.stops, (add_cases step).1⟩, ih next steps⟩

end Widths

instance (piece next : Shared) : Decidable (Continues piece next) :=
  decidable_of_iff _ Side.forall.symm

/-- The longest runs of pieces each of which continues the one before it. -/
def maximalRuns (pieces : List Shared) : List (List Shared) :=
  pieces.splitBy fun piece next => decide (Continues piece next)

/-- The groups are cut where a piece does not continue the one before it, and nowhere else. -/
structure Maximal (groups : List (List Shared)) : Prop where
  proper : [] ∉ groups
  within : ∀ group ∈ groups, group.IsChain Continues
  apart : groups.IsChain fun group next => ∃ some others,
    ¬ Continues (group.getLast some) (next.head others)

/-- The run has the documents and the starts of the first of two pieces and the stops of the
last. -/
structure Stretches (first last run : Shared) : Prop where
  doc (side : Side) : (side.of run).doc = (side.of first).doc
  start (side : Side) : (side.of run).span.start = (side.of first).span.start
  stop (side : Side) : (side.of run).stop = (side.of last).stop

/-- The run is what the pieces of the group make together. -/
def Joins (group : List Shared) (run : Shared) : Prop :=
  ∃ first last, group.head? = some first ∧ group.getLast? = some last ∧ Stretches first last run

section Runs

variable {done next : Progress} {piece last first run : Shared} {stops : Option (Address × Address)}
  {earlier group pieces runs : List Shared} {groups : List (List Shared)}

theorem maximalRuns_eq_iff :
    maximalRuns pieces = groups ↔ pieces = groups.flatten ∧ Maximal groups := by
  rw [maximalRuns, List.splitBy_eq_iff]
  simp only [decide_eq_true_eq, decide_eq_false_iff_not]
  exact ⟨fun ⟨whole, proper, within, apart⟩ => ⟨whole, proper, within, apart⟩,
    fun ⟨whole, maximal⟩ => ⟨whole, maximal.proper, maximal.within, maximal.apart⟩⟩

theorem Side.choose {holds : Side → VSpan → Prop} (each : ∀ side, ∃ v, holds side v) :
    ∃ piece : Shared, ∀ side, holds side (side.of piece) := by
  obtain ⟨one, first⟩ := each .first
  obtain ⟨other, second⟩ := each .second
  exact ⟨(one, other), Side.forall.mpr ⟨first, second⟩⟩

/-- A piece that does not start at the stops that were kept is a new run. -/
theorem add_apart (ends : Stops piece stops)
    (apart : done.stops ≠ some (piece.1.start, piece.2.start)) :
    done.add piece = .ok ⟨piece :: done.runs, stops⟩ := by
  obtain ⟨stop, stopsAt, rfl⟩ := ends
  have one : piece.1.stop = .ok (stop .first) := stopsAt .first
  have other : piece.2.stop = .ok (stop .second) := stopsAt .second
  rw [Progress.add, one, other]
  cases runs : done.runs with
  | nil => rfl
  | cons run earlier => exact if_neg apart

/-- A piece that starts there is put into the last run, if the widths can be added. -/
theorem add_joining (ends : Stops piece stops) (runs : done.runs = run :: earlier)
    (joins : done.stops = some (piece.1.start, piece.2.start)) {widened : Shared}
    (wide : ∀ side : Side, widen (side.of run) (side.of piece).span.width = .ok (side.of widened)) :
    done.add piece = .ok ⟨widened :: earlier, stops⟩ := by
  obtain ⟨stop, stopsAt, rfl⟩ := ends
  have one : piece.1.stop = .ok (stop .first) := stopsAt .first
  have other : piece.2.stop = .ok (stop .second) := stopsAt .second
  have wideOne : widen run.1 piece.1.span.width = .ok widened.1 := wide .first
  have wideOther : widen run.2 piece.2.span.width = .ok widened.2 := wide .second
  rw [Progress.add, one, other, runs]
  exact (if_pos joins).trans (by rw [wideOne, wideOther]; rfl)

/-- The pieces from `first` to `last` are the last run. -/
structure Running (done : Progress) (earlier : List Shared) (first last : Shared) : Prop where
  stops : Stops last done.stops
  run : ∃ run, done.runs = run :: earlier ∧ Stretches first last run ∧ SameDocs run last

theorem running_apart (ends : Stops piece stops)
    (apart : done.stops ≠ some (piece.1.start, piece.2.start)) :
    ∃ next, done.add piece = .ok next ∧ Running next done.runs piece piece :=
  ⟨_, add_apart ends apart, ends, piece, rfl, ⟨fun _ => rfl, fun _ => rfl, fun _ => rfl⟩,
    fun _ => rfl⟩

/-- The last run goes on with a piece that continues it in the same documents. -/
theorem running_add (running : Running done earlier first last) (meets : Continues last piece)
    (same : SameDocs last piece) (ends : Stops piece stops) :
    ∃ next, done.add piece = .ok next ∧ Running next earlier first piece := by
  obtain ⟨run, runs, stretches, docs⟩ := running.run
  have ⟨stop, stopsAt, _⟩ := ends
  have reached (side : Side) : (side.of run).stop = .ok (side.of piece).start :=
    (stretches.stop side).trans (meets side)
  have docs (side : Side) : (side.of run).doc = (side.of piece).doc :=
    (docs side).trans (same side)
  obtain ⟨widened, wide⟩ := Side.choose fun side =>
    exists_widen (reached side) (docs side) (stopsAt side)
  have joins : done.stops = some (piece.1.start, piece.2.start) := by
    obtain ⟨kept, stopsLast, told⟩ := running.stops
    have meet (side : Side) : kept side = (side.of piece).start :=
      Except.ok.inj ((stopsLast side).symm.trans (meets side))
    rw [told, meet, meet]
    rfl
  have joined (side : Side) := widen_same_doc (reached side) (stopsAt side) (docs side) (wide side)
  refine ⟨_, add_joining ends runs joins wide, ends, widened, rfl, ⟨fun side => ?_, fun side => ?_,
    fun side => (joined side).2.1⟩, fun side => (joined side).1⟩
  · exact (doc_widen (wide side)).trans (stretches.doc side)
  · obtain ⟨total, _, told⟩ := widen_eq_ok.mp (wide side)
    exact told ▸ stretches.start side

/-- So it does with any number of pieces: `Running` is what a step has to know of the pieces before
it. -/
theorem running_foldlM (running : Running done earlier first last)
    (chain : (last :: group).IsChain Continues)
    (kept : (last :: group).IsChain fun piece next => Continues piece next → SameDocs piece next)
    (ends : ∀ piece ∈ group, ∃ stops, Stops piece stops) :
    ∃ next final, group.foldlM Progress.add done = .ok next ∧
      (last :: group).getLast? = some final ∧ Running next earlier first final := by
  induction group generalizing done last with
  | nil => exact ⟨done, last, rfl, rfl, running⟩
  | cons piece group ih =>
    obtain ⟨meets, chain⟩ := List.isChain_cons_cons.mp chain
    obtain ⟨same, kept⟩ := List.isChain_cons_cons.mp kept
    obtain ⟨⟨stops, here⟩, ends⟩ := List.forall_mem_cons.mp ends
    obtain ⟨more, step, running⟩ := running_add running meets (same meets) here
    obtain ⟨next, final, steps, ending, running⟩ := ih running chain kept ends
    refine ⟨next, final, ?_, ?_, running⟩
    · rw [List.foldlM_cons, step]
      exact steps
    · rw [List.getLast?_cons_cons]
      exact ending

theorem Maximal.tail (maximal : Maximal (group :: groups)) : Maximal groups where
  proper := fun member => maximal.proper (List.mem_cons_of_mem group member)
  within := (List.forall_mem_cons.mp maximal.within).2
  apart := (List.isChain_cons.mp maximal.apart).2

/-- The first piece of the next group does not continue the last piece of this one. -/
theorem Maximal.apart_head (maximal : Maximal (group :: groups))
    (ending : group.getLast? = some last) {others : List Shared} (next : others ∈ groups.head?)
    (begins : piece ∈ others.head?) :
    ¬ Continues last piece := by
  obtain ⟨inside, outside, apart⟩ := (List.isChain_cons.mp maximal.apart).1 others next
  rw [List.getLast?_eq_some_getLast inside, Option.some.injEq] at ending
  rw [Option.mem_def, List.head?_eq_some_head outside, Option.some.injEq] at begins
  rwa [ending, begins] at apart

/-- Groups that are cut where a piece does not continue the one before it become one run each: the
stops that a group leaves are not where the next one starts, so that this begins a run. -/
theorem foldlM_groups (done : Progress) (maximal : Maximal groups)
    (kept : ∀ group ∈ groups,
      group.IsChain fun piece next => Continues piece next → SameDocs piece next)
    (ends : ∀ group ∈ groups, ∀ piece ∈ group, ∃ stops, Stops piece stops)
    (apart : ∀ group ∈ groups.head?, ∀ first ∈ group.head?,
      done.stops ≠ some (first.1.start, first.2.start)) :
    ∃ next runs, groups.flatten.foldlM Progress.add done = .ok next ∧
      next.runs = runs.reverse ++ done.runs ∧ List.Forall₂ Joins groups runs := by
  induction groups generalizing done with
  | nil => exact ⟨done, [], rfl, rfl, .nil⟩
  | cons group groups ih =>
    obtain ⟨keptHere, keptLater⟩ := List.forall_mem_cons.mp kept
    obtain ⟨endsHere, endsLater⟩ := List.forall_mem_cons.mp ends
    cases group with
    | nil => exact absurd List.mem_cons_self maximal.proper
    | cons piece rest =>
      obtain ⟨⟨stops, start⟩, endsRest⟩ := List.forall_mem_cons.mp endsHere
      obtain ⟨begun, step, running⟩ := running_apart start (apart _ rfl _ rfl)
      obtain ⟨more, final, steps, ending, running⟩ :=
        running_foldlM running (maximal.within _ List.mem_cons_self) keptHere endsRest
      have whole : (piece :: rest).foldlM Progress.add done = .ok more := by
        rw [List.foldlM_cons, step]
        exact steps
      obtain ⟨run, told, stretches, _⟩ := running.run
      obtain ⟨next, runs, stepsLater, toldLater, joins⟩ :=
        ih more maximal.tail keptLater endsLater fun others follow first begins joins =>
          maximal.apart_head ending follow begins (continues_of_stops running.stops joins)
      refine ⟨next, run :: runs, ?_, ?_, .cons ⟨piece, final, rfl, ending, stretches⟩ joins⟩
      · rw [List.flatten_cons, List.foldlM_append, whole]
        exact stepsLater
      · rw [toldLater, told, List.reverse_cons, List.append_assoc]
        rfl

theorem collapse_eq_ok :
    collapse pieces = .ok runs ↔
      ∃ done, pieces.foldlM Progress.add .start = .ok done ∧ done.runs.reverse = runs := by
  rw [collapse, bind_eq_ok]
  simp only [pure, Except.pure, Except.ok.injEq]

theorem exists_stops_iff :
    (∃ stops, Stops piece stops) ↔ ∀ side : Side, ∃ stop, (side.of piece).stop = .ok stop := by
  refine ⟨fun ⟨_, stop, stopsAt, _⟩ side => ⟨stop side, stopsAt side⟩, fun each => ?_⟩
  obtain ⟨one, first⟩ := each .first
  obtain ⟨other, second⟩ := each .second
  exact ⟨_, fun | .first => one | .second => other, Side.forall.mpr ⟨first, second⟩, rfl⟩

/-- A run that joins continues what its last piece continues. -/
theorem Stretches.continues_iff {last' first' run' : Shared} (this : Stretches first last run)
    (that : Stretches first' last' run') : Continues run run' ↔ Continues last first' := by
  refine forall_congr' fun side => ?_
  rw [this.stop, VSpan.start, VSpan.start, that.doc, that.start]

theorem apart_of_joins (maximal : Maximal groups) (joins : List.Forall₂ Joins groups runs) :
    runs.IsChain fun run next => ¬ Continues run next := by
  induction joins with
  | nil => exact .nil
  | cons here later ih =>
    obtain ⟨_, _, _, ending, this⟩ := here
    refine List.isChain_cons.mpr ⟨?_, ih maximal.tail⟩
    cases later with
    | nil => simp
    | cons there _ =>
      obtain ⟨_, _, begins, _, that⟩ := there
      rintro _ ⟨⟩
      exact mt (this.continues_iff that).mp (maximal.apart_head ending rfl begins)

theorem stops_of_joins (ends : ∀ group ∈ groups, ∀ piece ∈ group, ∃ stops, Stops piece stops)
    (joins : List.Forall₂ Joins groups runs) : ∀ run ∈ runs, ∃ stops, Stops run stops := by
  induction joins with
  | nil => simp
  | cons here _ ih =>
    obtain ⟨endsHere, endsLater⟩ := List.forall_mem_cons.mp ends
    obtain ⟨_, last, _, ending, stretches⟩ := here
    refine List.forall_mem_cons.mpr ⟨exists_stops_iff.mpr fun side => ?_, ih endsLater⟩
    rw [stretches.stop]
    exact exists_stops_iff.mp (endsHere last (List.mem_of_getLast? ending)) side

theorem foldlM_apart (done : Progress)
    (chain : pieces.IsChain fun piece next => ¬ Continues piece next)
    (ends : ∀ piece ∈ pieces, ∃ stops, Stops piece stops)
    (apart : ∀ first ∈ pieces.head?, done.stops ≠ some (first.1.start, first.2.start)) :
    ∃ next, pieces.foldlM Progress.add done = .ok next ∧
      next.runs = pieces.reverse ++ done.runs := by
  induction pieces generalizing done with
  | nil => exact ⟨done, rfl, rfl⟩
  | cons piece pieces ih =>
    obtain ⟨⟨stops, here⟩, endsLater⟩ := List.forall_mem_cons.mp ends
    obtain ⟨apartHere, chain⟩ := List.isChain_cons.mp chain
    obtain ⟨next, steps, told⟩ := ih ⟨piece :: done.runs, stops⟩ chain endsLater
      fun first begins joins => apartHere first begins (continues_of_stops here joins)
    refine ⟨next, ?_, ?_⟩
    · rw [List.foldlM_cons, add_apart here (apart piece rfl)]
      exact steps
    · rw [told, List.reverse_cons, List.append_assoc]
      rfl

/-- Pieces of which none continues the one before it stay as they are. -/
theorem collapse_of_apart (chain : pieces.IsChain fun piece next => ¬ Continues piece next)
    (ends : ∀ piece ∈ pieces, ∃ stops, Stops piece stops) : collapse pieces = .ok pieces := by
  obtain ⟨done, steps, told⟩ :=
    foldlM_apart .start chain ends fun _ _ none => nomatch none
  refine collapse_eq_ok.mpr ⟨done, steps, ?_⟩
  rw [told, List.reverse_append, List.reverse_reverse]
  rfl

/-- Pieces with stops are put together in their maximal runs, and no further. -/
theorem collapse_joins
    (kept : pieces.IsChain fun piece next => Continues piece next → SameDocs piece next)
    (ends : ∀ piece ∈ pieces, ∃ stops, Stops piece stops) :
    ∃ runs, collapse pieces = .ok runs ∧ List.Forall₂ Joins (maximalRuns pieces) runs ∧
      (runs.IsChain fun run next => ¬ Continues run next) ∧ collapse runs = .ok runs := by
  obtain ⟨whole, maximal⟩ := maximalRuns_eq_iff.mp (rfl : maximalRuns pieces = maximalRuns pieces)
  rw [whole, List.isChain_flatten maximal.proper] at kept
  rw [whole, List.forall_mem_flatten] at ends
  obtain ⟨done, runs, steps, told, joins⟩ :=
    foldlM_groups .start maximal kept.1 ends fun _ _ _ _ none => nomatch none
  have apart := apart_of_joins maximal joins
  refine ⟨runs, collapse_eq_ok.mpr ⟨done, whole ▸ steps, ?_⟩, joins, apart, ?_⟩
  · rw [told, List.reverse_append, List.reverse_reverse]
    rfl
  · exact collapse_of_apart apart (stops_of_joins ends joins)

theorem not_exists_stops_iff :
    (¬ ∃ stops, Stops piece stops) ↔
      ∃ side clash, (Side.of side piece).stop = .error (.range clash) := by
  rw [exists_stops_iff, Classical.not_forall]
  refine exists_congr fun side => ?_
  cases stops : (side.of piece).stop with
  | ok stop => simp
  | error fault =>
    obtain ⟨clash, rfl⟩ := range_of_stop stops
    simp

/-- Pieces are put together, or one of them has no stop. -/
theorem collapse_fails_iff
    (kept : pieces.IsChain fun piece next => Continues piece next → SameDocs piece next) :
    (∃ clash, collapse pieces = .error (.range clash)) ↔
      ¬ ∀ piece ∈ pieces, ∃ stops, Stops piece stops := by
  refine ⟨fun ⟨clash, failed⟩ ends => ?_, fun endless => ?_⟩
  · obtain ⟨runs, done, _⟩ := collapse_joins kept ends
    rw [failed] at done
    cases done
  · cases outcome : collapse pieces with
    | ok runs => exact absurd (stops_of_collapse outcome) endless
    | error fault =>
      obtain ⟨clash, rfl⟩ := range_of_collapse outcome
      exact ⟨clash, rfl⟩

/-- To put pieces together is to put each maximal run of them together, once and for all, and fails
only where a piece has no stop. -/
theorem collapse_maximal_runs
    (kept : pieces.IsChain fun piece next => Continues piece next → SameDocs piece next) :
    ((∃ clash, collapse pieces = .error (.range clash)) ↔
      ∃ piece ∈ pieces, ∃ side clash, (Side.of side piece).stop = .error (.range clash)) ∧
    ((∃ clash, collapse pieces = .error (.range clash)) ∨
      ∃ runs, collapse pieces = .ok runs ∧ List.Forall₂ Joins (maximalRuns pieces) runs ∧
        (runs.IsChain fun run next => ¬ Continues run next) ∧ collapse runs = .ok runs) := by
  have fails := collapse_fails_iff kept
  refine ⟨?_, ?_⟩
  · simp only [fails, Classical.not_forall, exists_prop, not_exists_stops_iff]
  · by_cases ends : ∀ piece ∈ pieces, ∃ stops, Stops piece stops
    · exact Or.inr (collapse_joins kept ends)
    · exact Or.inl (fails.mpr ends)

end Runs

/-- Two pieces of one run, with a digit that has no room left, and one that goes on from them on one
side only. -/
theorem collapse_maximal_runs_split :
    let line : Shared := (region [1] [1] [0, 18446744073709551615], region [2] [7] [])
    let page : Shared := (region [1] [1, 18446744073709551615] [1], region [2] [7] [0, 1])
    let apart : Shared := (region [1] [2] [1], region [2] [7] [0, 1])
    let run : Shared := (region [1] [1] [1], region [2] [7] [0, 1])
    let pieces : List Shared := [line, page, apart]
    maximalRuns pieces = [[line, page], [apart]] ∧ collapse pieces = .ok [run, apart] ∧
      List.Forall₂ Joins (maximalRuns pieces) [run, apart] ∧
      collapse [run, apart] = .ok [run, apart] := by
  intro line page apart run pieces
  have kept : pieces.IsChain fun piece next => Continues piece next → SameDocs piece next := by
    simp only [pieces, List.isChain_cons_cons]
    exact ⟨fun _ => Side.forall.mpr ⟨rfl, rfl⟩, fun _ => Side.forall.mpr ⟨rfl, rfl⟩, .singleton _⟩
  have found : collapse pieces = .ok [run, apart] := rfl
  obtain ⟨_, ⟨clash, failed⟩ | ⟨runs, done, joins, _, again⟩⟩ := collapse_maximal_runs kept
  · rw [found] at failed
    cases failed
  · obtain rfl := Except.ok.inj (found.symm.trans done)
    exact ⟨rfl, found, joins, again⟩

end Docuverse.Sharing
