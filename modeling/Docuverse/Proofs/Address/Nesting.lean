import Docuverse.Proofs.Address.Scope

namespace Docuverse

variable {doc outer inner : Address} {fault : Fault}

/-- The coordinates of documents fit together: those inside and outside give back each other, what
has none inside is out of range, and the coordinates of a document in a document are those of the
inner one in those of the outer one. -/
structure Scoped.Coherent (α : Type) [Scoped α] : Prop where
  localize_iff (doc : Address) (x y : α) : localize doc y = .ok x ↔ globalize doc x = y
  range_iff (doc : Address) (y : α) :
    (∃ clash, localize doc y = .error (.range clash)) ↔ ¬ ∃ x : α, globalize doc x = y
  globalize_nested (outer inner : Address) (x : α) :
    globalize outer (globalize inner x) = globalize (globalize outer inner) x
  localize_nested (outer inner : Address) (x y : α) :
    localize (globalize outer inner) y = .ok x ↔
      ∃ middle : α, localize outer y = .ok middle ∧ localize inner middle = .ok x

/-- The rest follows if nothing but a fault of range can come in the place of the inverse. -/
theorem Scoped.Coherent.of_inverse {α : Type} [Scoped α]
    (inverse : ∀ (doc : Address) (x y : α), localize doc y = .ok x ↔ globalize doc x = y)
    (range : ∀ (doc : Address) (y : α) (fault : Fault), localize doc y = .error fault →
      ∃ clash, fault = .range clash)
    (nested : ∀ (outer inner : Address) (x : α),
      globalize outer (globalize inner x) = globalize (globalize outer inner) x) :
    Coherent α where
  localize_iff := inverse
  globalize_nested := nested
  range_iff doc y := by
    refine ⟨?_, fun outside => ?_⟩
    · rintro ⟨clash, failed⟩ ⟨x, inside⟩
      rw [(inverse doc x y).mpr inside] at failed
      cases failed
    · cases told : localize doc y with
      | ok x => exact absurd ⟨x, (inverse doc x y).mp told⟩ outside
      | error fault =>
        obtain ⟨clash, rfl⟩ := range doc y fault told
        exact ⟨clash, rfl⟩
  localize_nested outer inner x y := by
    simp only [inverse, ← nested]
    refine ⟨fun whole => ⟨_, whole, rfl⟩, ?_⟩
    rintro ⟨middle, whole, rfl⟩
    exact whole

namespace Address

theorem scope_globalize (outer inner : Address) :
    (globalize outer inner).scope = outer.scope ++ inner.scope :=
  List.append_assoc outer.scope inner.digits [0]

theorem coherent : Scoped.Coherent Address :=
  .of_inverse (fun _ _ _ => localize_eq_ok) (fun _ _ _ failed => ⟨_, range_of_localize failed⟩)
    fun outer inner x => by
      refine congrArg ofDigits ?_
      show outer.scope ++ (inner.scope ++ x.digits) = _
      rw [scope_globalize, List.append_assoc]

end Address

namespace Offset

open Address (scopeZeros_eq scope_globalize map_takeOff_eq_ok range_of_takeOff)

theorem scopeZeros_globalize (outer inner : Address) :
    (globalize outer inner).scopeZeros = outer.scopeZeros ++ inner.scopeZeros := by
  rw [scopeZeros_eq, scopeZeros_eq, scopeZeros_eq, scope_globalize, List.length_append,
    List.replicate_append_replicate]

theorem localize_eq_ok {x y : Offset} : localize doc y = .ok x ↔ globalize doc x = y :=
  (map_takeOff_eq_ok ofDigits_digits digits_ofDigits).trans ⟨congrArg ofDigits, congrArg digits⟩

theorem range_of_localize {y : Offset} (failed : localize doc y = .error fault) :
    fault = .range (.localize y.tumbler doc) :=
  range_of_takeOff (map_eq_error.mp failed)

theorem coherent : Scoped.Coherent Offset :=
  .of_inverse (fun _ _ _ => localize_eq_ok) (fun _ _ _ failed => ⟨_, range_of_localize failed⟩)
    fun outer inner x => by
      refine congrArg ofDigits ?_
      show outer.scopeZeros ++ (inner.scopeZeros ++ x.digits) = _
      rw [scopeZeros_globalize, List.append_assoc]

end Offset

namespace Span

/-- A span is inside a document if its start is there and its width has zeros for the document. -/
theorem localize_eq_ok {x y : Span} : localize doc y = .ok x ↔ globalize doc x = y := by
  refine ⟨fun found => ?_, ?_⟩
  · obtain ⟨start, atStart, found⟩ := bind_eq_ok.mp found
    obtain ⟨width, atWidth, told⟩ := bind_eq_ok.mp found
    cases told
    exact congr (congrArg mk (Address.localize_eq_ok.mp atStart)) (Offset.localize_eq_ok.mp atWidth)
  · rintro rfl
    have atStart := Address.localize_eq_ok.mpr (Eq.refl (globalize doc x.start))
    have atWidth := Offset.localize_eq_ok.mpr (Eq.refl (globalize doc x.width))
    exact bind_eq_ok.mpr ⟨x.start, atStart, bind_eq_ok.mpr ⟨x.width, atWidth, rfl⟩⟩

theorem range_of_localize {y : Span} (failed : localize doc y = .error fault) :
    fault = .range (.localize y.start.tumbler doc) ∨
      fault = .range (.localize y.width.tumbler doc) := by
  rcases bind_eq_error.mp failed with atStart | ⟨start, _, failed⟩
  · exact Or.inl (Address.range_of_localize atStart)
  · rcases bind_eq_error.mp failed with atWidth | ⟨width, _, failed⟩
    · exact Or.inr (Offset.range_of_localize atWidth)
    · cases failed

theorem coherent : Scoped.Coherent Span := by
  refine .of_inverse (fun _ _ _ => localize_eq_ok) (fun _ _ _ failed => ?_) fun outer inner x => ?_
  · exact (range_of_localize failed).elim (fun same => ⟨_, same⟩) fun same => ⟨_, same⟩
  · have starts := Address.coherent.globalize_nested outer inner x.start
    have widths := Offset.coherent.globalize_nested outer inner x.width
    show mk (globalize outer (globalize inner x.start))
      (globalize outer (globalize inner x.width)) = _
    rw [starts, widths]
    rfl

end Span

/-- The coordinates of documents fit together for everything that can be told in them. -/
theorem Scoped.coordinates_coherent :
    Coherent Address ∧ Coherent Offset ∧ Coherent Span :=
  ⟨Address.coherent, Offset.coherent, Span.coherent⟩

/-- A place lies in each of the documents around it, however these are nested. -/
example :
    let outer : Address := .ofDigits [1]
    let inner : Address := .ofDigits [2]
    let place : Address := .ofDigits [1, 0, 2, 0, 5]
    localize outer place = .ok (.ofDigits [2, 0, 5]) ∧
      localize inner (Address.ofDigits [2, 0, 5]) = .ok (.ofDigits [5]) ∧
      localize (globalize outer inner) place = .ok (.ofDigits [5]) :=
  ⟨rfl, rfl, rfl⟩

end Docuverse
