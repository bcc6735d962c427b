import Docuverse.Proofs.Session.Talking
import Docuverse.Proofs.Wire.Found
import Docuverse.SpecSet.Json

namespace Docuverse

open Wire Wire.Reading

namespace Wire.Reading

variable {limit : Nat} {inbound left : Inbound}

theorem isSorted_of_vspec {v : VSpec} (found : vspec limit inbound = .ok v left) : v.IsSorted := by
  obtain ⟨doc, spans, rfl, _⟩ := of_vspec found
  exact VSpec.pairwise_ofSpans doc spans

theorem isSorted_of_specSet {set : SpecSet} (found : specSet limit inbound = .ok set left) :
    set.IsSorted := by
  have each {inbound entry left} (found : specItem limit inbound = .ok entry left) :
      ∀ v, entry = .vspec v → v.IsSorted := by
    rintro v rfl
    obtain ⟨s, ⟨⟩⟩ | ⟨_, _, inside, ⟨⟩⟩ := of_specItem found
    exact isSorted_of_vspec inside
  intro v member
  exact (of_specSet each found).2 _ member v rfl

end Wire.Reading

namespace Session

/-- An answer is what the reading of the reply found. -/
theorem exchange_eq_ok {request : Request} {c after : Connection} {answer : request.Answer}
    (found : exchange request c = .ok answer after) :
    ∃ limit inbound left, request.reply limit inbound = .ok answer left := by
  obtain ⟨command, _, _, found⟩ := bind_eq_ok.mp found
  obtain ⟨_, _, _, found⟩ := bind_eq_ok.mp found
  obtain ⟨_, told, _⟩ := read_eq_ok.mp found
  exact ⟨_, _, _, told⟩

/-- A link that is followed leads to what the reply says, and one that is not leads to nothing. -/
theorem followLink_eq_ok {link : Address} {which : LinkEnd} {c after : Connection}
    {follow : LinkFollow} (found : perform (.followLink link which) c = .ok follow after) :
    exchange (.followLink link which) c = .ok follow after ∨ follow = .empty := by
  rw [perform, emptyIfRejected] at found
  split at found
  next answer after' exchanged =>
    cases found
    exact Or.inl exchanged
  next =>
    split at found
    · obtain ⟨_, _, _, told⟩ := bind_eq_ok.mp found
      cases told
      exact Or.inr rfl
    · cases found

end Session

/-- The vspec is in the answer to the request. -/
def Request.Tells : (request : Request) → request.Answer → VSpec → Prop
  | retrieveVSpanSet _, told, v => v = told
  | retrieveEndsets _, ends, v =>
    .vspec v ∈ ends.source.items ∨ .vspec v ∈ ends.target.items ∨ .vspec v ∈ ends.type.items
  | followLink .., follow, v => .vspec v ∈ follow.specs.items
  | _, _, _ => False

/-- How a vspec can be come by, other than in JSON. -/
inductive VSpec.Obtained : VSpec → Prop
  | ofSpans (doc : Address) (spans : List Span) : Obtained (.ofSpans doc spans)
  | ofVSpan (v : VSpan) : Obtained (.ofVSpan v)
  | read {limit inbound left v} : Reading.vspec limit inbound = .ok v left → Obtained v
  | readInSet {limit inbound left set v} :
      Reading.specSet limit inbound = .ok set left → .vspec v ∈ set.items → Obtained v
  | answered {request c answer after v} :
      Session.perform request c = .ok answer after → request.Tells answer v → Obtained v

theorem Request.isSorted_of_endsets {limit : Nat} {inbound left : Inbound} {ends : Endsets}
    (found : endsets limit inbound = .ok ends left) :
    ends.source.IsSorted ∧ ends.target.IsSorted ∧ ends.type.IsSorted := by
  obtain ⟨source, _, first, found⟩ := Reading.bind_eq_ok.mp found
  obtain ⟨target, _, second, found⟩ := Reading.bind_eq_ok.mp found
  obtain ⟨type, _, third, told⟩ := Reading.bind_eq_ok.mp found
  cases told
  exact ⟨isSorted_of_specSet first, isSorted_of_specSet second, isSorted_of_specSet third⟩

theorem Session.isSorted_of_perform {request : Request} {c after : Connection}
    {answer : request.Answer} {v : VSpec} (found : perform request c = .ok answer after)
    (told : request.Tells answer v) : v.IsSorted := by
  cases request with
  | retrieveVSpanSet doc =>
    obtain ⟨_, _, _, read⟩ := exchange_eq_ok found
    cases told
    exact isSorted_of_vspec read
  | retrieveEndsets specs =>
    obtain ⟨_, _, _, read⟩ := exchange_eq_ok found
    obtain ⟨source, target, type⟩ := Request.isSorted_of_endsets read
    rcases told with member | member | member
    · exact source v member
    · exact target v member
    · exact type v member
  | followLink link which =>
    rcases followLink_eq_ok found with exchanged | rfl
    · obtain ⟨_, _, _, read⟩ := exchange_eq_ok exchanged
      obtain ⟨set, inside, rfl⟩ := Reading.map_eq_ok.mp read
      exact isSorted_of_specSet inside v told
    · cases told
  | _ => cases told

/-- A vspec that was not taken from JSON has its spans in order, and every vspec with its spans in
order can be come by. -/
theorem VSpec.obtained_iff {v : VSpec} : v.Obtained ↔ v.IsSorted := by
  refine ⟨fun obtained => ?_, fun inOrder => inOrder.sorted_eq ▸ .ofSpans v.doc v.spans⟩
  cases obtained with
  | ofSpans doc spans => exact pairwise_ofSpans doc spans
  | ofVSpan v => exact List.pairwise_singleton _ _
  | read found => exact isSorted_of_vspec found
  | readInSet found member => exact isSorted_of_specSet found v member
  | answered found told => exact Session.isSorted_of_perform found told

/-- A vspec of document `1` as text, with a span at `9` in front of one at `2`. -/
def unsortedText : String :=
  "\x7b\"docid\":\"1\",\"spans\":[\x7b\"start\":\"9\",\"width\":\"1\"\x7d," ++
    "\x7b\"start\":\"2\",\"width\":\"1\"\x7d]\x7d"

/-- What is stored is taken in the order in which it is stored. -/
theorem VSpec.ofJson?_unsorted :
    let v : VSpec :=
      ⟨.ofDigits [1], [⟨.ofDigits [9], .ofDigits [1]⟩, ⟨.ofDigits [2], .ofDigits [1]⟩]⟩
    (Json.read? unsortedText).bind VSpec.ofJson? = some v ∧ ¬ v.IsSorted := by
  intro v
  have descending : ¬ v.spans.Pairwise (· ≤ ·) := by decide
  exact ⟨rfl, descending⟩

end Docuverse
