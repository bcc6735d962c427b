import Docuverse.Proofs.Session.Sending

namespace Docuverse

open Wire Wire.Reading Session

namespace Connection

/-- The stream goes on with a few bytes, a newline, the name of the protocol and a mark, and with
`rest` after that. -/
def Answers (limit : Nat) (bytes preamble rest : List UInt8) : Prop :=
  newline ∉ preamble ∧ preamble.length ≤ limit ∧
    ∃ mark, IsMark mark ∧ bytes = preamble ++ newline :: (protocolTag ++ mark :: rest)

/-- What else the stream may go on with, and what is left of it: too many bytes before a newline,
another name, or an end that comes too soon. -/
inductive GreetingFails (limit : Nat) : List UInt8 → HandshakeFailure → List UInt8 → Prop
  | noNewline {front rest} : newline ∉ front → front.length = limit + 1 →
      GreetingFails limit (front ++ rest) (.noNewline limit) rest
  | foreign {preamble name rest} : newline ∉ preamble → preamble.length ≤ limit →
      name.length = 3 → (∀ mark, IsMark mark → name ≠ protocolTag ++ [mark]) →
      GreetingFails limit (preamble ++ newline :: (name ++ rest)) (.foreign name) rest
  | endsInPreamble {preamble} : newline ∉ preamble → preamble.length ≤ limit →
      GreetingFails limit preamble .closed []
  | endsInName {preamble name} : newline ∉ preamble → preamble.length ≤ limit →
      name.length < 3 → GreetingFails limit (preamble ++ newline :: name) .closed []

variable {limit room : Nat} {bytes preamble name rest : List UInt8} {why : HandshakeFailure}
  {inbound left : Inbound}

theorem beforeAgreement_of_handshake {α : Type} {reading : Reading α}
    (failed : reading limit inbound = .error (.protocol (.handshake why)) left) :
    beforeAgreement reading limit inbound = .error (.protocol (.handshake why)) left := by
  rw [beforeAgreement, failed]

theorem beforeAgreement_of_closed {α : Type} {reading : Reading α}
    {context : String}
    (failed : reading limit inbound = .error (.protocol (.closed context)) left) :
    beforeAgreement reading limit inbound = .error (.protocol (.handshake .closed)) left := by
  rw [beforeAgreement, failed]

/-- The byte after the last one for which there is room is taken before it is refused. -/
theorem preamble_of_long (noNewline : newline ∉ preamble) (long : preamble.length = room + 1) :
    Connection.preamble room limit ⟨preamble ++ rest, .closed⟩ =
      .error (.protocol (.handshake (.noNewline room))) ⟨rest, .closed⟩ := by
  obtain rfl | ⟨front, b, rfl⟩ := List.eq_nil_or_concat preamble
  · cases long
  rw [List.concat_eq_append] at noNewline long ⊢
  have inFront : newline ∉ front := fun inside => noNewline (List.mem_append_left [b] inside)
  have other : b ≠ newline := fun same => noNewline (by simp [same])
  have full : 0 + front.length = room := by
    rw [List.length_append, List.length_singleton] at long
    omega
  rw [Connection.preamble, List.append_assoc, preambleFrom_skip inFront (Nat.le_of_eq full), full]
  rw [List.singleton_append, preambleFrom, if_neg other, if_pos (Nat.le_refl room)]

theorem preamble_of_end (noNewline : newline ∉ preamble) (short : preamble.length ≤ room) :
    Connection.preamble room limit ⟨preamble, .closed⟩ =
      .error (.protocol (.closed "handshake")) ⟨[], .closed⟩ := by
  have within : 0 + preamble.length ≤ room := by omega
  have skipped : preambleFrom room .closed 0 (preamble ++ []) = _ :=
    preambleFrom_skip noNewline within
  rw [List.append_nil] at skipped
  rw [Connection.preamble, skipped]
  rfl

theorem protocolName_of_foreign (three : name.length = 3)
    (other : ∀ mark, IsMark mark → name ≠ protocolTag ++ [mark]) :
    protocolName limit ⟨name ++ rest, .closed⟩ =
      .error (.protocol (.handshake (.foreign name))) ⟨rest, .closed⟩ := by
  match name, three with
  | [a, b, t], _ =>
    have differs := And.intro (other terminator (Or.inl rfl)) (other newline (Or.inr rfl))
    show (if _ then _ else _ : Reading Unit) limit ⟨rest, .closed⟩ = _
    rw [if_pos differs]
    rfl

theorem protocolName_of_end (short : name.length < 3) :
    protocolName limit ⟨name, .closed⟩ =
      .error (.protocol (.closed "handshake")) ⟨[], .closed⟩ := by
  match name, short with
  | [], _ | [_], _ | [_, _], _ => rfl

/-- Up to the newline nothing is said. -/
theorem greetingAnswer_of_preamble (noNewline : newline ∉ preamble)
    (short : preamble.length ≤ room) :
    greetingAnswer room limit ⟨preamble ++ newline :: bytes, .closed⟩ =
      beforeAgreement (do protocolName; return preamble.length) limit ⟨bytes, .closed⟩ := by
  have skipped : Connection.preamble room limit ⟨preamble ++ [newline] ++ bytes, .closed⟩ = _ :=
    accepts_preamble noNewline short bytes .closed
  rw [List.append_assoc, List.singleton_append] at skipped
  rw [greetingAnswer, beforeAgreement, bind_of_ok skipped]
  rfl

theorem Answers.greetingAnswer_eq (answers : Answers room bytes preamble rest) :
    greetingAnswer room limit ⟨bytes, .closed⟩ = .ok preamble.length ⟨rest, .closed⟩ := by
  obtain ⟨noNewline, short, mark, ends, rfl⟩ := answers
  have named : protocolName limit ⟨protocolTag ++ [mark] ++ rest, .closed⟩ = _ :=
    accepts_protocolName ends rest .closed
  rw [List.append_assoc, List.singleton_append] at named
  rw [greetingAnswer_of_preamble noNewline short, beforeAgreement, bind_of_ok named]
  rfl

theorem GreetingFails.greetingAnswer_eq (fails : GreetingFails room bytes why rest) :
    greetingAnswer room limit ⟨bytes, .closed⟩ =
      .error (.protocol (.handshake why)) ⟨rest, .closed⟩ := by
  cases fails with
  | noNewline noNewline long =>
    exact beforeAgreement_of_handshake (bind_of_error (preamble_of_long noNewline long))
  | foreign noNewline short three other =>
    rw [greetingAnswer_of_preamble noNewline short]
    exact beforeAgreement_of_handshake (bind_of_error (protocolName_of_foreign three other))
  | endsInPreamble noNewline short =>
    exact beforeAgreement_of_closed (bind_of_error (preamble_of_end noNewline short))
  | endsInName noNewline short few =>
    rw [greetingAnswer_of_preamble noNewline short]
    exact beforeAgreement_of_closed (bind_of_error (protocolName_of_end few))

theorem GreetingFails.of_long (noNewline : newline ∉ preamble) (long : limit < preamble.length)
    (rest : List UInt8) : GreetingFails limit (preamble ++ rest) (.noNewline limit)
      (preamble.drop (limit + 1) ++ rest) := by
  have inFront : newline ∉ preamble.take (limit + 1) :=
    fun inside => noNewline (List.mem_of_mem_take inside)
  have fails : GreetingFails limit
      (preamble.take (limit + 1) ++ (preamble.drop (limit + 1) ++ rest)) _ _ :=
    .noNewline inFront (List.length_take_of_le long)
  rwa [← List.append_assoc, List.take_append_drop] at fails

/-- After the newline, three bytes decide. -/
theorem answers_or_fails_of_preamble (noNewline : newline ∉ preamble)
    (short : preamble.length ≤ limit) (bytes : List UInt8) :
    ∃ rest, Answers limit (preamble ++ newline :: bytes) preamble rest ∨
      ∃ why, GreetingFails limit (preamble ++ newline :: bytes) why rest := by
  by_cases few : bytes.length < 3
  · exact ⟨[], Or.inr ⟨.closed, .endsInName noNewline short few⟩⟩
  · have three : (bytes.take 3).length = 3 := List.length_take_of_le (Nat.not_lt.mp few)
    refine ⟨bytes.drop 3, ?_⟩
    by_cases own : ∃ mark, IsMark mark ∧ bytes.take 3 = protocolTag ++ [mark]
    · obtain ⟨mark, ends, same⟩ := own
      refine Or.inl ⟨noNewline, short, mark, ends, ?_⟩
      have split : protocolTag ++ [mark] ++ bytes.drop 3 = bytes := by
        rw [← same, List.take_append_drop]
      rw [List.append_assoc, List.singleton_append] at split
      rw [split]
    · have other : ∀ mark, IsMark mark → bytes.take 3 ≠ protocolTag ++ [mark] :=
        fun mark ends same => own ⟨mark, ends, same⟩
      have fails : GreetingFails limit
          (preamble ++ newline :: (bytes.take 3 ++ bytes.drop 3)) _ (bytes.drop 3) :=
        .foreign noNewline short three other
      rw [List.take_append_drop] at fails
      exact Or.inr ⟨_, fails⟩

theorem greetingAnswer_decided (room limit : Nat) (bytes : List UInt8) :
    Decided (greetingAnswer room) limit bytes
      (fun discarded rest => ∃ preamble, Answers room bytes preamble rest ∧
        discarded = preamble.length)
      (fun violation rest => ∃ why, GreetingFails room bytes why rest ∧
        violation = .handshake why) where
  value := by
    rintro _ rest ⟨preamble, answers, rfl⟩
    exact answers.greetingAnswer_eq
  violation := by
    rintro _ rest ⟨why, fails, rfl⟩
    exact fails.greetingAnswer_eq
  total := by
    by_cases lines : newline ∈ bytes
    · obtain ⟨preamble, later, rfl, noNewline⟩ := List.eq_append_cons_of_mem lines
      by_cases short : preamble.length ≤ room
      · obtain ⟨rest, answers | ⟨why, fails⟩⟩ := answers_or_fails_of_preamble noNewline short later
        · exact ⟨rest, Or.inl ⟨_, preamble, answers, rfl⟩⟩
        · exact ⟨rest, Or.inr ⟨_, why, fails, rfl⟩⟩
      · have fails := GreetingFails.of_long noNewline (Nat.not_le.mp short) (newline :: later)
        exact ⟨_, Or.inr ⟨_, _, fails, rfl⟩⟩
    · by_cases short : bytes.length ≤ room
      · exact ⟨[], Or.inr ⟨_, .closed, .endsInPreamble lines short, rfl⟩⟩
      · have fails := GreetingFails.of_long lines (Nat.not_le.mp short) []
        rw [List.append_nil bytes] at fails
        exact ⟨_, Or.inr ⟨_, _, fails, rfl⟩⟩

variable {c : Connection}

theorem handshake_eq (unbroken : c.outbound.breaking = none) :
    handshake c = (do
      let discarded ← read (greetingAnswer c.settings.maxPreambleLength.toNat)
      log (.handshakeComplete discarded) : Conversation Unit)
        { c with outbound.sent := c.outbound.sent ++ greeting } := by
  rw [handshake, continues (send_eq unbroken)]
  rfl

theorem handshake_eq_ok {left : Connection} (unbroken : c.outbound.breaking = none)
    (closing : c.inbound.ending = .closed) : handshake c = .ok () left ↔ ∃ preamble rest,
      Answers c.settings.maxPreambleLength.toNat c.inbound.unread preamble rest ∧
      left = c.afterwards greeting rest (c.events ++ [.handshakeComplete preamble.length]) := by
  let greeted := { c with outbound.sent := c.outbound.sent ++ greeting }
  have decided := greetingAnswer_decided c.settings.maxPreambleLength.toNat
    c.settings.maxChunkLength.toNat c.inbound.unread
  rw [handshake_eq unbroken, Session.bind_eq_ok]
  refine ⟨?_, ?_⟩
  · rintro ⟨discarded, middle, found, logged⟩
    obtain ⟨rest, ⟨preamble, answers, rfl⟩, rfl⟩ :=
      (read_eq_ok_of_decided (c := greeted) decided closing).mp found
    cases logged
    exact ⟨preamble, rest, answers, rfl⟩
  · rintro ⟨preamble, rest, answers, rfl⟩
    have found := (read_eq_ok_of_decided (c := greeted) decided closing).mpr
      ⟨rest, ⟨preamble, answers, rfl⟩, rfl⟩
    exact ⟨preamble.length, _, found, rfl⟩

theorem handshake_eq_error {fault : Fault} {left : Connection}
    (unbroken : c.outbound.breaking = none) (closing : c.inbound.ending = .closed) :
    handshake c = .error fault left ↔ ∃ why rest,
      GreetingFails c.settings.maxPreambleLength.toNat c.inbound.unread why rest ∧
      fault = .protocol (.handshake why) ∧ left = c.afterwards greeting rest c.events := by
  let greeted := { c with outbound.sent := c.outbound.sent ++ greeting }
  have decided := greetingAnswer_decided c.settings.maxPreambleLength.toNat
    c.settings.maxChunkLength.toNat c.inbound.unread
  rw [handshake_eq unbroken, bind_fails]
  refine ⟨?_, ?_⟩
  · rintro (failed | ⟨discarded, middle, found, logged⟩)
    · obtain ⟨_, rest, ⟨why, fails, rfl⟩, rfl, rfl⟩ :=
        (read_eq_error_of_decided (c := greeted) decided closing).mp failed
      exact ⟨why, rest, fails, rfl, rfl⟩
    · cases logged
  · rintro ⟨why, rest, fails, rfl, rfl⟩
    exact Or.inl ((read_eq_error_of_decided (c := greeted) decided closing).mpr
      ⟨_, rest, ⟨why, fails, rfl⟩, rfl, rfl⟩)

/-- A handshake sends the greeting, and what it accepts is one language: a preamble within the
limit, a newline, the name of the protocol and a mark. Of what comes after that it takes nothing.
It refuses everything else, once it has taken the byte for which there was no room, or three bytes
after the newline, or all there is. -/
theorem handshake_language (c : Connection) (unbroken : c.outbound.breaking = none)
    (closing : c.inbound.ending = .closed) :
    let limit := c.settings.maxPreambleLength.toNat
    let sent := Latin.ascii "\nP0~"
    (∀ left, handshake c = .ok () left ↔
      ∃ preamble rest, Answers limit c.inbound.unread preamble rest ∧
        left = c.afterwards sent rest (c.events ++ [.handshakeComplete preamble.length])) ∧
    ∀ fault left, handshake c = .error fault left ↔
      ∃ why rest, GreetingFails limit c.inbound.unread why rest ∧
        fault = .protocol (.handshake why) ∧ left = c.afterwards sent rest c.events := by
  intro limit sent
  have same : sent = greeting := rfl
  rw [same]
  exact ⟨fun _ => handshake_eq_ok unbroken closing,
    fun _ _ => handshake_eq_error unbroken closing⟩

/-- Two bytes are no more than two, and a third one is. -/
theorem handshake_language_at_limit :
    let start (text : String) : Connection := ⟨{ Settings.default with maxPreambleLength := 2 },
      ⟨Latin.ascii text, .closed⟩, ⟨[], none, none, false⟩, []⟩
    let within := start "hi\nP0\n1~"
    let beyond := start "hi!\nP0~"
    handshake within = .ok () (within.afterwards (Latin.ascii "\nP0~") (Latin.ascii "1~")
      [.handshakeComplete 2]) ∧
    handshake beyond = .error (.protocol (.handshake (.noNewline 2)))
      (beyond.afterwards (Latin.ascii "\nP0~") (Latin.ascii "\nP0~") []) := by
  intro start within beyond
  have answers : Answers 2 within.inbound.unread (Latin.ascii "hi") (Latin.ascii "1~") :=
    ⟨by decide, by decide, newline, Or.inr rfl, rfl⟩
  have fails : GreetingFails 2 beyond.inbound.unread (.noNewline 2) (Latin.ascii "\nP0~") :=
    .noNewline (by decide : newline ∉ Latin.ascii "hi!") rfl
  exact ⟨((handshake_language within rfl rfl).1 _).mpr ⟨_, _, answers, rfl⟩,
    ((handshake_language beyond rfl rfl).2 _ _).mpr ⟨_, _, fails, rfl, rfl⟩⟩

end Connection
end Docuverse
