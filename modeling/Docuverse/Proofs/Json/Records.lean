import Docuverse.Proofs.Json.Writing

namespace Docuverse.Json

variable {members members' : List (String × Json)}

theorem mapM_map_eq_some {α β γ : Type} {f : β → Option γ} {g : α → β} {h : α → γ} {xs : List α}
    (each : ∀ x ∈ xs, f (g x) = some (h x)) : (xs.map g).mapM f = some (xs.map h) := by
  induction xs with
  | nil => rfl
  | cons x xs ih =>
    obtain ⟨first, others⟩ := List.forall_mem_cons.mp each
    rw [List.map_cons, List.mapM_cons, first, ih others]
    rfl

theorem text?_ofText (text : String) : (ofText text).text? = some text := by
  simp [text?, ofText, Literal.decode_encode]

theorem uint64?_ofUInt64 (n : UInt64) : (ofUInt64 n).uint64? = some n := by
  simp [uint64?, ofUInt64, Decimal.read_numeral, Except.toOption]

/-- What is found again is taken for nothing else. -/
theorem inj_of_found {α β : Type} {tell : α → β} {find? : β → Option α}
    (found : ∀ x, find? (tell x) = some x) {x y : α} : tell x = tell y ↔ x = y := by
  refine ⟨fun same => Option.some.inj ?_, congrArg tell⟩
  rw [← found x, same, found y]

theorem ofText_inj {text text' : String} : ofText text = ofText text' ↔ text = text' :=
  inj_of_found text?_ofText

theorem ofUInt64_inj {n m : UInt64} : ofUInt64 n = ofUInt64 m ↔ n = m :=
  inj_of_found uint64?_ofUInt64

/-- The names of members are found again. -/
theorem members?_record (members : List (String × Json)) :
    members? (members.map fun (name, value) => (Literal.encode name.toList, value)) =
      some members := by
  have found : members? (members.map fun (name, value) => (Literal.encode name.toList, value)) =
      some (members.map id) :=
    mapM_map_eq_some fun member _ => by simp [Literal.decode_encode]
  rwa [List.map_id] at found

theorem record_inj : record members = record members' ↔ members = members' :=
  ⟨fun same => (inj_of_found members?_record).mp (Json.object.inj same), congrArg record⟩

/-- A name that one member has gives the value of that member. -/
theorem field?_of_mem (distinct : (members.map Prod.fst).Nodup) {member : String × Json}
    (given : member ∈ members) : field? members member.1 = some (some member.2) := by
  have only : members.filter (fun other => other.1 == member.1) = [member] := by
    induction members with
    | nil => cases given
    | cons first members ih =>
      obtain ⟨apart, distinct⟩ := List.nodup_cons.mp distinct
      rcases List.mem_cons.mp given with rfl | later
      · have none : members.filter (fun other => other.1 == member.1) = [] := by
          rw [List.filter_eq_nil_iff]
          intro other inside same
          exact apart (List.mem_map.mpr ⟨other, inside, beq_iff_eq.mp same⟩)
        simp [none]
      · have other : first.1 ≠ member.1 := fun same =>
          apart (same ▸ List.mem_map.mpr ⟨member, later, rfl⟩)
        simp [other, ih distinct later]
  simp [field?, only]

/-- The fields of a record are found by their names. -/
theorem fields?_record (distinct : (members.map Prod.fst).Nodup) :
    (record members).fields? (members.map Prod.fst) =
      some (members.map fun member => some member.2) := by
  rw [record, fields?, members?_record]
  exact mapM_map_eq_some fun _ given => field?_of_mem distinct given

theorem list?_array {α : Type} {toJson : α → Json} {item? : Json → Option α}
    (found : ∀ x, item? (toJson x) = some x) (xs : List α) :
    (array (xs.map toJson)).list? item? = some xs := by
  have all := mapM_map_eq_some (h := id) fun x (_ : x ∈ xs) => found x
  rwa [List.map_id] at all

end Docuverse.Json
