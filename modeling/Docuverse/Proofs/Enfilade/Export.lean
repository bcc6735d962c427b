import Docuverse.Enfilade.Json
import Docuverse.Proofs.Json.Blanks
import Docuverse.Proofs.Json.Restoring

namespace Docuverse.Enfilade

open Json (record_inj ofText_inj ofUInt64_inj canonical_record canonical_ofText)

/-- What holds of a crum if it holds of those below it and inside its orgl holds of every crum. -/
@[elab_as_elim]
theorem Crum.induct {motive : Crum → Prop}
    (interior : ∀ label children, (∀ child ∈ children, motive child) →
      motive (.interior label children))
    (home : ∀ label doc, motive (.home label doc)) (text : ∀ label s, motive (.text label s))
    (orgl : ∀ label inMemory tree, (∀ root ∈ tree, motive root) →
      motive (.orgl label inMemory tree))
    (crum : Crum) : motive crum :=
  @Crum.rec motive (fun crums => ∀ crum ∈ crums, motive crum)
    (fun tree => ∀ root ∈ tree, motive root) interior home text orgl
    (fun _ member => nomatch member)
    (fun _ _ first others => List.forall_mem_cons.mpr ⟨first, others⟩)
    (fun _ member => nomatch member)
    (fun _ root _ same => Option.some.inj same ▸ root) crum

theorem Store.name_inj {store store' : Store} : store.name = store'.name ↔ store = store' := by
  cases store <;> cases store' <;> simp [Store.name]

theorem Flavour.name_inj {flavour flavour' : Flavour} :
    flavour.name = flavour'.name ↔ flavour = flavour' := by
  cases flavour <;> cases flavour' <;> simp [Flavour.name]

variable {label label' : Label} {body body' : Json}

theorem Label.members_inj : label.members = label'.members ↔ label = label' := by
  refine ⟨fun same => ?_, congrArg members⟩
  simp only [members, List.cons.injEq, Prod.mk.injEq, ofUInt64_inj, ofText_inj, Flavour.name_inj,
    Tumbler.faithful_json.list.inj, true_and, and_true] at same
  cases label
  cases label'
  simpa using same

theorem Label.canonical_members : ∀ member ∈ label.members, member.2.Canonical := by
  simp only [members, List.forall_mem_cons]
  exact ⟨.number _, .number _, canonical_ofText _, Tumbler.faithful_json.list.canonical _,
    Tumbler.faithful_json.list.canonical _, fun _ member => nomatch member⟩

/-- A crum's object has the body behind the members of the label. -/
def labelled (label : Label) (body : Json) : Json := .record (label.members ++ [("body", body)])

theorem labelled_inj :
    labelled label body = labelled label' body' ↔ label = label' ∧ body = body' := by
  refine ⟨fun same => ?_, fun ⟨sameLabel, sameBody⟩ => by rw [sameLabel, sameBody]⟩
  obtain ⟨members, bodies⟩ := List.append_inj (record_inj.mp same) rfl
  exact ⟨Label.members_inj.mp members, by simpa using bodies⟩

theorem canonical_labelled (canonical : body.Canonical) : (labelled label body).Canonical := by
  refine canonical_record fun member given => ?_
  rcases List.mem_append.mp given with inLabel | last
  · exact Label.canonical_members member inLabel
  · obtain rfl := List.mem_singleton.mp last
    exact canonical

/-- What a body says of a crum at the bottom. -/
def bottomBody (info : String) (members : List (String × Json)) : Json :=
  .record [("bottom", .record (("info", .ofText info) :: members))]

theorem bottomBody_inj {info info' : String} {members members' : List (String × Json)} :
    bottomBody info members = bottomBody info' members' ↔ info = info' ∧ members = members' := by
  simp [bottomBody, record_inj, ofText_inj]

theorem canonical_bottomBody {info : String} {members : List (String × Json)}
    (each : ∀ member ∈ members, member.2.Canonical) : (bottomBody info members).Canonical := by
  refine canonical_record fun member given => ?_
  obtain rfl := List.mem_singleton.mp given
  exact canonical_record (List.forall_mem_cons.mpr ⟨canonical_ofText info, each⟩)

namespace Crum

theorem allToJson_eq_map (crums : List Crum) : allToJson crums = crums.map toJson := by
  induction crums with
  | nil => rfl
  | cons crum crums ih => rw [allToJson, ih, List.map_cons]

/-- A tree that may be missing, as a member of an object. -/
def optionalJson (tree : Option Crum) : Json := tree.elim .null toJson

/-- What an object says of the crum besides its label. -/
def bodyJson : Crum → Json
  | interior _ children => .record [("children", .array (children.map toJson))]
  | home _ doc => bottomBody "home" [("homedoc", doc.toJson)]
  | text _ s => bottomBody "text" [("text", .ofText s)]
  | orgl _ inMemory tree =>
    bottomBody "orgl" [("in_memory", .bool inMemory), ("orgl", optionalJson tree)]

theorem toJson_eq (crum : Crum) : crum.toJson = labelled crum.label crum.bodyJson := by
  fun_cases toJson crum with
  | case1 label children =>
    rw [allToJson_eq_map]
    rfl
  | _ => rfl

/-- No other crum is told in the same way. -/
def Distinct (crum : Crum) : Prop := ∀ crum' : Crum, crum.toJson = crum'.toJson → crum = crum'

theorem children_inj {children children' : List Crum} (each : ∀ child ∈ children, Distinct child)
    (same : children.map toJson = children'.map toJson) : children = children' := by
  induction children generalizing children' with
  | nil => exact (List.map_eq_nil_iff.mp same.symm).symm
  | cons child children ih =>
    obtain ⟨child', others', rfl, head, tail⟩ := List.map_eq_cons_iff.mp same.symm
    obtain ⟨first, others⟩ := List.forall_mem_cons.mp each
    rw [first child' head.symm, ih others tail.symm]

/-- A tree is an object, and so it is not taken for one that is missing. -/
theorem optionalJson_inj {tree tree' : Option Crum} (each : ∀ root ∈ tree, Distinct root)
    (same : optionalJson tree = optionalJson tree') : tree = tree' := by
  cases tree with
  | none =>
    cases tree' with
    | none => rfl
    | some root' => simp [optionalJson, toJson_eq, labelled, Json.record] at same
  | some root =>
    cases tree' with
    | none => simp [optionalJson, toJson_eq, labelled, Json.record] at same
    | some root' => rw [each root rfl root' same]

theorem distinct_of_body {crum : Crum} (told : ∀ crum' : Crum, crum.label = crum'.label →
    crum.bodyJson = crum'.bodyJson → crum = crum') : Distinct crum := by
  intro crum' same
  rw [toJson_eq, toJson_eq, labelled_inj] at same
  exact told crum' same.1 same.2

theorem distinct (crum : Crum) : Distinct crum := by
  induction crum using induct with
  | interior label children each =>
    refine distinct_of_body fun crum' sameLabel sameBody => ?_
    cases crum' with
    | interior label' children' =>
      obtain rfl : label = label' := sameLabel
      simp only [bodyJson, record_inj, List.cons.injEq, Prod.mk.injEq, Json.array.injEq, true_and,
        and_true] at sameBody
      rw [children_inj each sameBody]
    | _ => simp [bodyJson, bottomBody, record_inj] at sameBody
  | home label doc =>
    refine distinct_of_body fun crum' sameLabel sameBody => ?_
    cases crum' with
    | home label' doc' =>
      obtain rfl : label = label' := sameLabel
      simpa [bodyJson, bottomBody_inj, Address.faithful_json.inj] using sameBody
    | interior => simp [bodyJson, bottomBody, record_inj] at sameBody
    | _ => simp [bodyJson, bottomBody_inj] at sameBody
  | text label s =>
    refine distinct_of_body fun crum' sameLabel sameBody => ?_
    cases crum' with
    | text label' s' =>
      obtain rfl : label = label' := sameLabel
      simpa [bodyJson, bottomBody_inj, ofText_inj] using sameBody
    | interior => simp [bodyJson, bottomBody, record_inj] at sameBody
    | _ => simp [bodyJson, bottomBody_inj] at sameBody
  | orgl label inMemory tree each =>
    refine distinct_of_body fun crum' sameLabel sameBody => ?_
    cases crum' with
    | orgl label' inMemory' tree' =>
      obtain rfl : label = label' := sameLabel
      obtain ⟨rfl, sameTree⟩ : inMemory = inMemory' ∧ optionalJson tree = optionalJson tree' := by
        simpa [bodyJson, bottomBody_inj] using sameBody
      rw [optionalJson_inj each sameTree]
    | interior => simp [bodyJson, bottomBody, record_inj] at sameBody
    | _ => simp [bodyJson, bottomBody_inj] at sameBody

theorem canonical_optionalJson {tree : Option Crum} (each : ∀ root ∈ tree, root.toJson.Canonical) :
    (optionalJson tree).Canonical := by
  cases tree with
  | none => exact .null
  | some root => exact each root rfl

theorem canonical_toJson (crum : Crum) : crum.toJson.Canonical := by
  induction crum using induct with
  | interior label children each =>
    rw [toJson_eq]
    refine canonical_labelled (canonical_record fun member given => ?_)
    obtain rfl := List.mem_singleton.mp given
    refine .array fun item inside => ?_
    obtain ⟨child, below, rfl⟩ := List.mem_map.mp inside
    exact each child below
  | home label doc =>
    rw [toJson_eq]
    exact canonical_labelled (canonical_bottomBody (by simp [Address.faithful_json.canonical]))
  | text label s =>
    rw [toJson_eq]
    exact canonical_labelled (canonical_bottomBody (by simp [canonical_ofText]))
  | orgl label inMemory tree each =>
    rw [toJson_eq]
    exact canonical_labelled (canonical_bottomBody (by
      simp [Json.Canonical.bool, canonical_optionalJson each]))

end Crum

namespace Dump

theorem toJson_inj {dump dump' : Dump} : dump.toJson = dump'.toJson ↔ dump = dump' := by
  refine ⟨fun same => ?_, congrArg toJson⟩
  obtain ⟨store, root⟩ := dump
  obtain ⟨store', root'⟩ := dump'
  obtain ⟨stores, roots⟩ : store = store' ∧ Crum.optionalJson root = Crum.optionalJson root' := by
    simpa [toJson, record_inj, ofText_inj, Store.name_inj, Crum.optionalJson] using same
  rw [stores, Crum.optionalJson_inj (fun root _ => root.distinct) roots]

theorem canonical_toJson (dump : Dump) : dump.toJson.Canonical := by
  have root : (Crum.optionalJson dump.root).Canonical :=
    Crum.canonical_optionalJson fun root _ => root.canonical_toJson
  exact canonical_record (by simpa [canonical_ofText, Crum.optionalJson] using root)

/-- Dumps that are exported as the same text are the same, whether on one line or laid out, and the
one text is the other without the blanks outside of its strings. -/
theorem export_lossless (dump dump' : Dump) :
    (dump.toJson.compact = dump'.toJson.compact ↔ dump = dump') ∧
    (dump.toJson.pretty = dump'.toJson.pretty ↔ dump = dump') ∧
    Json.withoutBlanks dump.toJson.pretty = dump.toJson.compact := by
  have canonical := dump.canonical_toJson
  have canonical' := dump'.canonical_toJson
  refine ⟨?_, ?_, Json.withoutBlanks_write Json.Layout.isBlank_pretty canonical⟩
  · exact (Json.write_inj Json.Layout.isBlank_compact canonical canonical').trans toJson_inj
  · exact (Json.write_inj Json.Layout.isBlank_pretty canonical canonical').trans toJson_inj

end Dump
end Docuverse.Enfilade
