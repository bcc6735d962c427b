import Docuverse.Proofs.Wire.Framing
import Docuverse.Wire.Reading

namespace Docuverse.Wire.Reading

variable {α β : Type} {reading item : Reading α} {limit n : Nat} {inbound left : Inbound}
  {holds : α → Prop} {xs : List α}

theorem map_eq_ok {f : α → β} {y : β} :
    (f <$> reading) limit inbound = .ok y left ↔
      ∃ x, reading limit inbound = .ok x left ∧ y = f x := by
  rw [map_eq_bind, bind_eq_ok]
  refine ⟨?_, ?_⟩
  · intro parts
    obtain ⟨x, middle, found, told⟩ := parts
    cases told
    exact ⟨x, found, rfl⟩
  · intro parts
    obtain ⟨x, found, rfl⟩ := parts
    exact ⟨x, left, found, rfl⟩

theorem lt_size_of_count (found : count limit inbound = .ok n left) : n < UInt64.size := by
  obtain ⟨m, _, rfl⟩ := map_eq_ok.mp found
  exact m.toNat_lt_size

theorem of_items (each : ∀ {inbound x left}, item limit inbound = .ok x left → holds x)
    (found : items n item limit inbound = .ok xs left) : xs.length = n ∧ ∀ x ∈ xs, holds x := by
  induction n generalizing inbound xs with
  | zero =>
    cases found
    exact ⟨rfl, by simp⟩
  | succ n ih =>
    rw [items_succ] at found
    obtain ⟨x, middle, first, found⟩ := bind_eq_ok.mp found
    obtain ⟨xs, last, others, told⟩ := bind_eq_ok.mp found
    cases told
    obtain ⟨length, later⟩ := ih others
    exact ⟨congrArg Nat.succ length, List.forall_mem_cons.mpr ⟨each first, later⟩⟩

theorem of_counted (each : ∀ {inbound x left}, item limit inbound = .ok x left → holds x)
    (found : counted item limit inbound = .ok xs left) :
    xs.length < UInt64.size ∧ ∀ x ∈ xs, holds x := by
  obtain ⟨n, _, counted, found⟩ := bind_eq_ok.mp found
  obtain ⟨length, all⟩ := of_items each found
  exact ⟨length ▸ lt_size_of_count counted, all⟩

theorem of_text {s : String} (found : text limit inbound = .ok s left) :
    ∃ bytes, s = Latin.text bytes ∧ bytes.length < UInt64.size := by
  obtain ⟨_, _, _, found⟩ := bind_eq_ok.mp found
  obtain ⟨n, _, counted, found⟩ := bind_eq_ok.mp found
  obtain ⟨bytes, _, body, told⟩ := bind_eq_ok.mp found
  cases told
  obtain ⟨_, _, accepts, _⟩ := framed_raw n "text" _ _ _ _ body
  obtain ⟨_, length, rfl⟩ := accepts_raw.mp accepts
  exact ⟨bytes, rfl, length ▸ lt_size_of_count counted⟩

theorem of_content {c : Content} (found : content limit inbound = .ok c left) :
    (∃ s inbound, text limit inbound = .ok s left ∧ c = .text s) ∨ ∃ a, c = .link a := by
  obtain ⟨first, _, _, found⟩ := bind_eq_ok.mp found
  split at found
  · obtain ⟨s, _, inside, told⟩ := bind_eq_ok.mp found
    cases told
    exact Or.inl ⟨s, _, inside, rfl⟩
  · split at found
    · obtain ⟨a, _, _, told⟩ := bind_eq_ok.mp found
      cases told
      exact Or.inr ⟨a, rfl⟩
    · cases found

/-- A vspec is made of the spans that were read, which are then put in order. -/
theorem of_vspec {v : VSpec} (found : vspec limit inbound = .ok v left) :
    ∃ doc spans, v = .ofSpans doc spans ∧ spans.length < UInt64.size := by
  obtain ⟨doc, _, _, found⟩ := bind_eq_ok.mp found
  obtain ⟨n, _, counted, found⟩ := bind_eq_ok.mp found
  obtain ⟨spans, _, each, told⟩ := bind_eq_ok.mp found
  cases told
  obtain ⟨length, _⟩ := of_items (fun _ => trivial) each
  exact ⟨doc, spans, rfl, length ▸ lt_size_of_count counted⟩

theorem of_specItem {entry : SpecItem} (found : specItem limit inbound = .ok entry left) :
    (∃ s, entry = .span s) ∨
      ∃ v inbound, vspec limit inbound = .ok v left ∧ entry = .vspec v := by
  obtain ⟨tag, _, _, found⟩ := bind_eq_ok.mp found
  split at found
  · obtain ⟨s, _, _, told⟩ := bind_eq_ok.mp found
    cases told
    exact Or.inl ⟨s, rfl⟩
  · split at found
    · obtain ⟨v, _, inside, told⟩ := bind_eq_ok.mp found
      cases told
      exact Or.inr ⟨v, _, inside, rfl⟩
    · cases found

theorem of_specSet {holds : SpecItem → Prop} {set : SpecSet}
    (each : ∀ {inbound entry left}, specItem limit inbound = .ok entry left → holds entry)
    (found : specSet limit inbound = .ok set left) :
    set.items.length < UInt64.size ∧ ∀ entry ∈ set.items, holds entry := by
  obtain ⟨items, counted, rfl⟩ := map_eq_ok.mp found
  exact of_counted each counted

end Docuverse.Wire.Reading
