import Docuverse.Proofs.Wire.Kind

namespace Docuverse.Wire.Kind

/-- A value is read from a text in front of the stream that is not empty. Any other bytes may follow
the text without a change, and without all of the text the stream is closed too early, with nothing
left unread. -/
theorem reading_local (kind : Kind) {limit : Nat} {inbound left : Inbound} {value : kind.Val}
    (found : kind.reading limit inbound = .ok value left) :
    ∃ text, text ≠ [] ∧ inbound.unread = text ++ left.unread ∧ inbound.ending = left.ending ∧
      (∀ rest ending, kind.reading limit ⟨text ++ rest, ending⟩ = .ok value ⟨rest, ending⟩) ∧
      ∀ front, front <+: text → front ≠ text → ∃ context,
        kind.reading limit ⟨front, .closed⟩ =
          .error (.protocol (.closed context)) ⟨[], .closed⟩ := by
  obtain ⟨text, rfl, accepts, starves⟩ := kind.framed_reading limit inbound value left found
  refine ⟨text, ?_, rfl, rfl, accepts, fun front proper short => starves front proper short .closed⟩
  rintro rfl
  exact (kind.hungry_reading).not_accepts_nil value accepts

/-- A text that is made of a tag, a refusal and a mark. -/
theorem reading_local_text :
    content.reading 20 ⟨Latin.ascii "t3~s?~36~", .closed⟩ =
        .ok (.text "s?~") ⟨Latin.ascii "36~", .closed⟩ ∧
      ∃ text, text ≠ [] ∧ Latin.ascii "t3~s?~36~" = text ++ Latin.ascii "36~" ∧
        (∀ rest ending, content.reading 20 ⟨text ++ rest, ending⟩ =
          .ok (.text "s?~") ⟨rest, ending⟩) ∧
        ∀ front, front <+: text → front ≠ text → ∃ context,
          content.reading 20 ⟨front, .closed⟩ =
            .error (.protocol (.closed context)) ⟨[], .closed⟩ := by
  have found : content.reading 20 ⟨Latin.ascii "t3~s?~36~", .closed⟩ =
      .ok (.text "s?~") ⟨Latin.ascii "36~", .closed⟩ := rfl
  obtain ⟨text, nonempty, split, _, accepts, cut⟩ := reading_local content found
  exact ⟨found, text, nonempty, split, accepts, cut⟩

end Docuverse.Wire.Kind
