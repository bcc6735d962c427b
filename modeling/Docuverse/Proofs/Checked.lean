namespace Docuverse

variable {α β ε : Type} {f : α → Except ε β}

theorem map_eq_ok {result : Except ε α} {g : α → β} {y : β} :
    g <$> result = .ok y ↔ ∃ x, result = .ok x ∧ g x = y := by
  cases result with
  | error fault => simp [Functor.map, Except.map]
  | ok x => simp [Functor.map, Except.map]

theorem map_eq_error {result : Except ε α} {g : α → β} {fault : ε} :
    g <$> result = .error fault ↔ result = .error fault := by
  cases result with
  | error fault => simp [Functor.map, Except.map]
  | ok x => simp [Functor.map, Except.map]

theorem bind_eq_ok {result : Except ε α} {y : β} :
    result >>= f = .ok y ↔ ∃ x, result = .ok x ∧ f x = .ok y := by
  cases result with
  | error fault => simp [bind, Except.bind]
  | ok x => simp [bind, Except.bind]

theorem bind_eq_error {result : Except ε α} {fault : ε} :
    result >>= f = .error fault ↔
      result = .error fault ∨ ∃ x, result = .ok x ∧ f x = .error fault := by
  cases result with
  | error fault => simp [bind, Except.bind]
  | ok x => simp [bind, Except.bind]

/-- Two steps in a row fail where the first one does, or the second one after it. -/
theorem bind_fails {σ : Type} {step : EStateM ε σ α} {next : α → EStateM ε σ β} {s s' : σ}
    {fault : ε} :
    (step >>= next) s = .error fault s' ↔ step s = .error fault s' ∨
      ∃ x middle, step s = .ok x middle ∧ next x middle = .error fault s' := by
  show EStateM.bind step next s = _ ↔ _
  rw [EStateM.bind]
  cases step s with
  | error fault middle => simp
  | ok x middle =>
    refine ⟨fun failed => Or.inr ⟨x, middle, rfl, failed⟩, ?_⟩
    rintro (⟨⟨⟩⟩ | ⟨_, _, ⟨⟩, failed⟩)
    exact failed

theorem mapM_cons_eq_ok {x : α} {xs : List α} {ys : List β} :
    (x :: xs).mapM f = .ok ys ↔ ∃ y zs, f x = .ok y ∧ xs.mapM f = .ok zs ∧ ys = y :: zs := by
  rw [List.mapM_cons]
  cases f x with
  | error fault => simp [bind, Except.bind]
  | ok y =>
    cases xs.mapM f with
    | error fault => simp [bind, Except.bind]
    | ok zs => simp [bind, Except.bind, pure, Except.pure, eq_comm]

theorem mapM_append_eq_ok {xs xs' : List α} {ys : List β} :
    (xs ++ xs').mapM f = .ok ys ↔
      ∃ zs zs', xs.mapM f = .ok zs ∧ xs'.mapM f = .ok zs' ∧ ys = zs ++ zs' := by
  rw [List.mapM_append, bind_eq_ok]
  simp only [bind_eq_ok, pure, Except.pure, Except.ok.injEq, exists_and_left]
  simp only [eq_comm]

theorem length_of_mapM {xs : List α} {ys : List β} (checked : xs.mapM f = .ok ys) :
    ys.length = xs.length := by
  induction xs generalizing ys with
  | nil =>
    cases checked
    rfl
  | cons x xs ih =>
    obtain ⟨y, zs, _, others, rfl⟩ := mapM_cons_eq_ok.mp checked
    rw [List.length_cons, List.length_cons, ih others]

/-- Every result is the result of an entry. -/
theorem exists_of_mem_of_mapM {xs : List α} {ys : List β} (checked : xs.mapM f = .ok ys) :
    ∀ y ∈ ys, ∃ x ∈ xs, f x = .ok y := by
  induction xs generalizing ys with
  | nil =>
    cases checked
    simp
  | cons x xs ih =>
    obtain ⟨y, zs, first, others, rfl⟩ := mapM_cons_eq_ok.mp checked
    intro y' member
    rcases List.mem_cons.mp member with rfl | later
    · exact ⟨x, List.mem_cons_self, first⟩
    · obtain ⟨x', inside, found⟩ := ih others y' later
      exact ⟨x', List.mem_cons_of_mem x inside, found⟩

theorem exists_ok_of_mapM {xs : List α} {ys : List β} (checked : xs.mapM f = .ok ys) :
    ∀ x ∈ xs, ∃ y, f x = .ok y := by
  induction xs generalizing ys with
  | nil => simp
  | cons x xs ih =>
    obtain ⟨y, zs, first, others, _⟩ := mapM_cons_eq_ok.mp checked
    intro x' member
    rcases List.mem_cons.mp member with rfl | later
    · exact ⟨y, first⟩
    · exact ih others x' later

theorem exists_error_of_mapM {xs : List α} {fault : ε} (failed : xs.mapM f = .error fault) :
    ∃ x ∈ xs, f x = .error fault := by
  induction xs with
  | nil => cases failed
  | cons x xs ih =>
    rw [List.mapM_cons] at failed
    cases first : f x with
    | error other =>
      rw [first] at failed
      cases failed
      exact ⟨x, List.mem_cons_self, first⟩
    | ok y =>
      cases others : xs.mapM f with
      | error other =>
        simp only [first, others, bind, Except.bind, Except.error.injEq] at failed
        subst failed
        obtain ⟨x', later, failed⟩ := ih others
        exact ⟨x', List.mem_cons_of_mem x later, failed⟩
      | ok zs => simp [first, others, bind, Except.bind, pure, Except.pure] at failed

end Docuverse
