import Docuverse.Proofs.Json.Records
import Docuverse.Proofs.Tumbler.Dotted
import Docuverse.SpecSet.Json

namespace Docuverse

/-- Every value comes back from its tree, and its tree from the text. -/
structure Json.Faithful {α : Type} (toJson : α → Json) (ofJson? : Json → Option α) : Prop where
  canonical (value : α) : (toJson value).Canonical
  found (value : α) : ofJson? (toJson value) = some value

namespace Json.Faithful

variable {α β γ : Type} {toJson : α → Json} {ofJson? : Json → Option α}

theorem inj (faithful : Faithful toJson ofJson?) {value value' : α} :
    toJson value = toJson value' ↔ value = value' :=
  Json.inj_of_found faithful.found

/-- A list is stored as the array of what is stored for its items. -/
theorem list (faithful : Faithful toJson ofJson?) :
    Faithful (fun values => .array (values.map toJson)) (Json.list? ofJson?) where
  canonical values := .array fun item given => by
    obtain ⟨value, _, rfl⟩ := List.mem_map.mp given
    exact faithful.canonical value
  found := list?_array faithful.found

/-- A value that is told by another one is stored like it. -/
theorem transparent {toJson' : β → Json} {ofJson?' : Json → Option β} {mk : α → β}
    (faithful : Faithful toJson ofJson?) (sameTree : ∀ value, toJson' (mk value) = toJson value)
    (sameReading : ∀ json, ofJson?' json = mk <$> ofJson? json)
    (total : ∀ value, ∃ inner, mk inner = value) : Faithful toJson' ofJson?' where
  canonical value := by
    obtain ⟨inner, rfl⟩ := total value
    rw [sameTree]
    exact faithful.canonical inner
  found value := by
    obtain ⟨inner, rfl⟩ := total value
    rw [sameTree, sameReading, faithful.found]
    rfl

end Json.Faithful

open Json (Faithful)

theorem Tumbler.faithful_json : Faithful toJson ofJson? where
  canonical t := Json.canonical_ofText t.dotted
  found t := by
    rw [ofJson?, toJson, Json.text?_ofText]
    simp [ofDotted_dotted, Except.toOption]

theorem Address.faithful_json : Faithful toJson ofJson? :=
  Tumbler.faithful_json.transparent (fun _ => rfl) (fun _ => rfl) fun a => ⟨a.tumbler, rfl⟩

theorem Offset.faithful_json : Faithful toJson ofJson? :=
  Tumbler.faithful_json.transparent (fun _ => rfl) (fun _ => rfl) fun o => ⟨o.tumbler, rfl⟩

theorem Span.faithful_json : Faithful toJson ofJson? where
  canonical s := Json.canonical_record (by
    simp [Address.faithful_json.canonical, Offset.faithful_json.canonical])
  found s := by
    have fields : s.toJson.fields? ["start", "width"] =
      some [some s.start.toJson, some s.width.toJson] := Json.fields?_record (by simp)
    rw [ofJson?, fields]
    simp [Address.faithful_json.found, Offset.faithful_json.found]

theorem VSpan.faithful_json : Faithful toJson ofJson? where
  canonical v := Json.canonical_record (by
    simp [Address.faithful_json.canonical, Span.faithful_json.canonical])
  found v := by
    have fields : v.toJson.fields? ["docid", "span"] =
      some [some v.doc.toJson, some v.span.toJson] := Json.fields?_record (by simp)
    rw [ofJson?, fields]
    simp [Address.faithful_json.found, Span.faithful_json.found]

theorem VSpec.faithful_json : Faithful toJson ofJson? where
  canonical v := Json.canonical_record (by
    simp [Address.faithful_json.canonical, Span.faithful_json.list.canonical])
  found v := by
    have fields : v.toJson.fields? ["docid", "spans"] =
      some [some v.doc.toJson, some (.array (v.spans.map Span.toJson))] :=
        Json.fields?_record (by simp)
    rw [ofJson?, fields]
    simp [Address.faithful_json.found, Span.faithful_json.list.found]

theorem SpecItem.faithful_json : Faithful toJson ofJson? where
  canonical item := by
    cases item with
    | span s => exact Json.canonical_record (by simp [Span.faithful_json.canonical])
    | vspec v => exact Json.canonical_record (by simp [VSpec.faithful_json.canonical])
  found item := by
    cases item with
    | span s =>
      rw [toJson, Json.record, ofJson?, Json.members?_record]
      simp [Span.faithful_json.found]
    | vspec v =>
      rw [toJson, Json.record, ofJson?, Json.members?_record]
      simp [VSpec.faithful_json.found]

theorem SpecSet.faithful_json : Faithful toJson ofJson? :=
  SpecItem.faithful_json.list.transparent (fun _ => rfl) (fun _ => rfl) fun set => ⟨set.items, rfl⟩

/-- The type's values are found again in the texts that they are stored as. -/
def Json.Restores {α : Type} (toJson : α → Json) (ofJson? : Json → Option α) : Prop :=
  ∀ value, (Json.read? (toJson value).compact).bind ofJson? = some value

theorem Json.Faithful.restores {α : Type} {toJson : α → Json} {ofJson? : Json → Option α}
    (faithful : Faithful toJson ofJson?) : Restores toJson ofJson? := by
  intro value
  rw [compact, read?_write Layout.isBlank_compact (faithful.canonical value), Option.bind_some,
    faithful.found]

/-- Tumblers, addresses, offsets and all kinds of regions come back from JSON text as they were. -/
theorem Json.regions_restored :
    Restores Tumbler.toJson Tumbler.ofJson? ∧ Restores Address.toJson Address.ofJson? ∧
    Restores Offset.toJson Offset.ofJson? ∧ Restores Span.toJson Span.ofJson? ∧
    Restores VSpan.toJson VSpan.ofJson? ∧ Restores VSpec.toJson VSpec.ofJson? ∧
    Restores SpecItem.toJson SpecItem.ofJson? ∧ Restores SpecSet.toJson SpecSet.ofJson? :=
  ⟨Tumbler.faithful_json.restores, Address.faithful_json.restores, Offset.faithful_json.restores,
    Span.faithful_json.restores, VSpan.faithful_json.restores, VSpec.faithful_json.restores,
    SpecItem.faithful_json.restores, SpecSet.faithful_json.restores⟩

end Docuverse
