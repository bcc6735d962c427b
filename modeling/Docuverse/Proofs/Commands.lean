import Docuverse.Proofs.Session.Sending
import Docuverse.Proofs.Tumbler.Arithmetic
import Docuverse.Proofs.Wire.Deciding
import Docuverse.Proofs.Wire.Encodable

namespace Docuverse

open Wire Wire.Reading

namespace Connection

/-- Digits with this value, zeros in front or not. -/
def Names (digits : List UInt8) (n : UInt64) : Prop :=
  digits ≠ [] ∧ (∀ d ∈ digits, (Latin.char d).isDigit = true) ∧
    Nat.ofDigitChars 10 (digits.map Latin.char) 0 = n.toNat

theorem ofNumeral_text {body : List UInt8} {n : UInt64} :
    ofNumeral (Latin.text body) = .ok n ↔ Names body n := by
  simp only [ofNumeral_eq_ok, Decimal.read_eq_ok_iff, Latin.text, String.toList_ofList, ne_eq,
    List.map_eq_nil_iff, List.all_map, List.all_eq_true, Function.comp_apply, Names]

/-- For digits the limit is one on their number. -/
theorem Names.enters_iff {digits : List UInt8} {n : UInt64} {limit : Nat} (names : Names digits n) :
    Enters limit 0 digits ↔ digits.length ≤ limit := by
  have light := plain_of_digits names.2.1
  rw [Enters, fits_of_light fun d member => (light d member).2]
  simp only [names.1, false_or, Nat.zero_add]
  exact ⟨And.right, fun short => ⟨fun d member => (light d member).1, short⟩⟩

/-- The stream goes on with the opcode in digits and a mark, and with `rest` after that. -/
def Echoes (opcode : Opcode) (limit : Nat) (bytes rest : List UInt8) : Prop :=
  ∃ digits mark, bytes = digits ++ mark :: rest ∧ Names digits opcode.code ∧
    digits.length ≤ limit ∧ IsMark mark

/-- What else the stream may go on with, and what is left of it: no chunk, a chunk with a number
that is another one, or a chunk without a number. -/
inductive EchoFails (opcode : Opcode) (limit : Nat) : List UInt8 → Violation → List UInt8 → Prop
  | stopped {bytes violation rest} :
      Stopped s!"response to opcode {Decimal.numeral opcode.code}" limit .closed 0 bytes
        (.protocol violation) rest → EchoFails opcode limit bytes violation rest
  | mismatch {body mark rest n} : Enters limit 0 body → IsMark mark → Names body n →
      n ≠ opcode.code → EchoFails opcode limit (body ++ mark :: rest)
        (.opcodeMismatch opcode (Latin.text body)) rest
  | unreadable {body mark rest} : Enters limit 0 body → IsMark mark → (∀ n, ¬ Names body n) →
      EchoFails opcode limit (body ++ mark :: rest) (.unreadableEcho opcode (Latin.text body)) rest

variable {opcode : Opcode} {limit : Nat} {bytes rest : List UInt8} {violation : Violation}

theorem Echoes.echo_eq (echoes : Echoes opcode limit bytes rest) :
    echo opcode limit ⟨bytes, .closed⟩ = .ok () ⟨rest, .closed⟩ := by
  obtain ⟨digits, mark, rfl, names, short, ends⟩ := echoes
  rw [echo, bind_of_ok (chunk_of_enters (names.enters_iff.mpr short) ends),
    ofNumeral_text.mpr names]
  dsimp only
  rw [if_neg (not_not_intro rfl)]
  rfl

theorem EchoFails.echo_eq (fails : EchoFails opcode limit bytes violation rest) :
    echo opcode limit ⟨bytes, .closed⟩ = .error (.protocol violation) ⟨rest, .closed⟩ := by
  cases fails with
  | stopped stops => exact bind_of_error (chunk_eq_error.mpr ⟨rfl, stops⟩)
  | mismatch enters ends names other =>
    rw [echo, bind_of_ok (chunk_of_enters enters ends), ofNumeral_text.mpr names]
    dsimp only
    rw [if_pos other]
    rfl
  | @unreadable body _ _ enters ends nameless =>
    rw [echo, bind_of_ok (chunk_of_enters enters ends)]
    cases told : ofNumeral (Latin.text body) with
    | ok n => exact absurd (ofNumeral_text.mp told) (nameless n)
    | error fault => rfl

/-- No stream is left out. -/
theorem echo_decided (opcode : Opcode) (limit : Nat) (bytes : List UInt8) :
    Decided (echo opcode) limit bytes (fun _ => Echoes opcode limit bytes)
      (EchoFails opcode limit bytes) where
  value := Echoes.echo_eq
  violation := EchoFails.echo_eq
  total := by
    cases chunked : chunk s!"response to opcode {Decimal.numeral opcode.code}" limit
        ⟨bytes, .closed⟩ with
    | error fault left =>
      obtain ⟨_, stops⟩ := chunk_eq_error.mp chunked
      obtain ⟨violation, rfl⟩ := stops.violates
      exact ⟨left.unread, Or.inr ⟨violation, .stopped stops⟩⟩
    | ok value left =>
      obtain ⟨_, body, mark, split, enters, ends, rfl⟩ := chunk_eq_ok.mp chunked
      obtain rfl : bytes = _ := split
      refine ⟨left.unread, ?_⟩
      by_cases named : ∃ n, Names body n
      · obtain ⟨n, names⟩ := named
        by_cases own : n = opcode.code
        · subst own
          exact Or.inl ⟨(), body, mark, rfl, names, names.enters_iff.mp enters, ends⟩
        · exact Or.inr ⟨_, .mismatch enters ends names own⟩
      · exact Or.inr ⟨_, .unreadable enters ends (not_exists.mp named)⟩

end Connection

namespace Session

open Connection

variable {command : Command} {request : Request} {c : Connection} {fault : Fault}

/-- A command without bytes leaves everything as it is. -/
theorem command_of_unencodable (unencodable : command.Unencodable) (c : Connection) :
    ∃ ch : Char, 0xFF < ch.toNat ∧
      Connection.command command c = .error (.malformed (.unencodable ch)) c := by
  obtain ⟨fault, failed⟩ := Command.unencodable_iff.mp unencodable
  obtain ⟨_, _, _, _, ch, _, great, rfl⟩ := Command.unencodable_of_encode failed
  refine ⟨ch, great, ?_⟩
  rw [Connection.command, failed]
  rfl

theorem exchange_of_command_error {after : Connection} (asks : request.command = .ok command)
    (failed : Connection.command command c = .error fault after) :
    exchange request c = .error fault after := by
  rw [exchange, asks]
  exact (continues rfl).trans (breaksOff failed)

theorem exchange_of_error (failed : request.command = .error fault) (c : Connection) :
    exchange request c = .error fault c := by
  rw [exchange, failed]
  rfl

/-- What has bytes goes out as a whole, and its echo decides what comes of it. -/
theorem command_of_encode {sent : List UInt8} (encodes : command.encode = .ok sent)
    (unbroken : c.outbound.breaking = none) (closing : c.inbound.ending = .closed) :
    ∃ logged,
      (∀ left, Connection.command command c = .ok () left ↔
        ∃ rest, Echoes command.opcode c.settings.maxChunkLength.toNat c.inbound.unread rest ∧
          left = c.afterwards sent rest logged) ∧
      ∀ fault left, Connection.command command c = .error fault left ↔
        ∃ violation rest, EchoFails command.opcode c.settings.maxChunkLength.toNat
            c.inbound.unread violation rest ∧
          fault = .protocol violation ∧ left = c.afterwards sent rest logged := by
  obtain ⟨logged, answered⟩ := command_eq encodes unbroken
  have decided := echo_decided command.opcode c.settings.maxChunkLength.toNat c.inbound.unread
  let asking := { c with events := logged, outbound.sent := c.outbound.sent ++ sent }
  refine ⟨logged, fun left => ?_, fun fault left => ?_⟩
  · rw [answered]
    exact read_eq_ok_of_decided (c := asking) decided closing
  · rw [answered]
    exact read_eq_error_of_decided (c := asking) decided closing

theorem insert_of_unencodable (doc place : Address) {texts : List String}
    (unencodable : ∃ text ∈ texts, Unencodable text) (c : Connection) :
    ∃ ch : Char, 0xFF < ch.toNat ∧
      perform (.insert doc place texts) c = .error (.malformed (.unencodable ch)) c := by
  obtain ⟨text, member, spoils⟩ := unencodable
  let command : Command := ⟨.insert, [.address doc, .address place, .list (texts.map .text)]⟩
  have carries : (Value.list (texts.map .text)).Carries text :=
    .item (List.mem_map_of_mem member) .text
  have spoiled : command.Unencodable := ⟨_, by simp [command], text, carries, spoils⟩
  obtain ⟨ch, great, failed⟩ := command_of_unencodable spoiled c
  exact ⟨ch, great, exchange_of_command_error rfl failed⟩

theorem delete_of_overflow (doc : Address) {start : Address} {width : Offset}
    (overflows : ¬ ∃ stop, start.add width = .ok stop) (c : Connection) :
    ∃ clash, perform (.delete doc start width) c = .error (.range clash) c := by
  cases added : start.add width with
  | ok stop => exact absurd ⟨stop, added⟩ overflows
  | error fault =>
    obtain ⟨clash, rfl⟩ := Address.range_of_add added
    have failed : (Request.delete doc start width).command = .error (.range clash) :=
      bind_eq_error.mpr (Or.inl added)
    exact ⟨clash, exchange_of_error failed c⟩

/-- A command goes out whole or not at all, and only its own echo is accepted. A deletion past the
last address is not a command to begin with. -/
theorem command_whole (command : Command) (c : Connection) :
    (command.Unencodable → ∃ ch : Char, 0xFF < ch.toNat ∧
      Connection.command command c = .error (.malformed (.unencodable ch)) c) ∧
    (¬ command.Unencodable → c.outbound.breaking = none → c.inbound.ending = .closed →
      ∃ parts logged, command.arguments.mapM Value.encode = .ok parts ∧
        let sent := encodeNumber command.opcode.code ++ parts.flatten
        let limit := c.settings.maxChunkLength.toNat
        (∀ left, Connection.command command c = .ok () left ↔
          ∃ rest, Echoes command.opcode limit c.inbound.unread rest ∧
            left = c.afterwards sent rest logged) ∧
        ∀ fault left, Connection.command command c = .error fault left ↔
          ∃ violation rest, EchoFails command.opcode limit c.inbound.unread violation rest ∧
            fault = .protocol violation ∧ left = c.afterwards sent rest logged) ∧
    (∀ doc place texts, (∃ text ∈ texts, Unencodable text) → ∃ ch : Char, 0xFF < ch.toNat ∧
      perform (.insert doc place texts) c = .error (.malformed (.unencodable ch)) c) ∧
    ∀ doc start width, (¬ ∃ stop, start.add width = .ok stop) →
      ∃ clash, perform (.delete doc start width) c = .error (.range clash) c := by
  refine ⟨fun unencodable => command_of_unencodable unencodable c,
    fun encodable unbroken closing => ?_,
    fun doc place _ spoiled => insert_of_unencodable doc place spoiled c,
    fun doc _ _ overflows => delete_of_overflow doc overflows c⟩
  cases encodes : command.encode with
  | error fault => exact absurd (Command.unencodable_iff.mpr ⟨fault, encodes⟩) encodable
  | ok sent =>
    obtain ⟨_, written, rfl⟩ := Command.encode_eq_ok.mp encodes
    obtain ⟨parts, each, rfl⟩ := encodeAll_eq_ok.mp written
    obtain ⟨logged, told⟩ := command_of_encode encodes unbroken closing
    exact ⟨parts, logged, each, told⟩

/-- Zeros in front of an opcode change nothing, and no depth hides a text. -/
theorem command_whole_leading_zeros :
    let c : Connection :=
      ⟨Settings.default, ⟨Latin.ascii "0011~1~", .closed⟩, ⟨[], none, none, false⟩, []⟩
    let nested (text : String) : Command :=
      ⟨.createDocument, [.number 1, .list [.list [.text "a", .text text]]]⟩
    let last : Address := ⟨⟨[1, 18446744073709551615]⟩⟩
    (∃ logged, Connection.command (nested "\u00e9") c = .ok () (c.afterwards
      (Latin.ascii "11~1~1~2~t1~at1~" ++ [0xE9]) (Latin.ascii "1~") logged)) ∧
    (∃ ch, Connection.command (nested "\u2603") c = .error (.malformed (.unencodable ch)) c) ∧
    (∃ ch, perform (.insert last last ["a", "\u2603"]) c =
      .error (.malformed (.unencodable ch)) c) ∧
    ∃ clash, perform (.delete last last ⟨⟨[0, 1]⟩⟩) c = .error (.range clash) c := by
  intro c nested last
  have spoils : Unencodable "\u2603" := ⟨'\u2603', by decide, by decide⟩
  have spoiled : (nested "\u2603").Unencodable :=
    ⟨.list [.list [.text "a", .text "\u2603"]], by simp [nested], "\u2603",
      .item List.mem_cons_self (.item (by simp) .text), spoils⟩
  have encodable : ¬ (nested "\u00e9").Unencodable := by
    intro unencodable
    obtain ⟨fault, failed⟩ := Command.unencodable_iff.mp unencodable
    cases failed
  have names : Names (Latin.ascii "0011") Opcode.createDocument.code :=
    ⟨by decide, List.all_eq_true.mp rfl, rfl⟩
  have echoes : Echoes .createDocument c.settings.maxChunkLength.toNat c.inbound.unread
      (Latin.ascii "1~") :=
    ⟨Latin.ascii "0011", terminator, rfl, names, by decide, .inl rfl⟩
  have overflows : ¬ ∃ stop, last.add ⟨⟨[0, 1]⟩⟩ = .ok stop := by
    rintro ⟨stop, added⟩
    cases added
  have each : (nested "\u00e9").arguments.mapM Value.encode =
      .ok [Latin.ascii "1~", Latin.ascii "1~2~t1~at1~" ++ [0xE9]] := rfl
  have sent : Latin.ascii "11~1~1~2~t1~at1~" ++ [0xE9] = encodeNumber Opcode.createDocument.code ++
      [Latin.ascii "1~", Latin.ascii "1~2~t1~at1~" ++ [0xE9]].flatten := by decide
  obtain ⟨parts, logged, written, told, _⟩ :=
    (command_whole (nested "\u00e9") c).2.1 encodable rfl rfl
  obtain rfl := Except.ok.inj (written.symm.trans each)
  obtain ⟨whole, _, inserting, deleting⟩ := command_whole (nested "\u2603") c
  obtain ⟨ch, _, kept⟩ := whole spoiled
  obtain ⟨ch', _, kept'⟩ := inserting last last ["a", "\u2603"] ⟨"\u2603", by simp, spoils⟩
  have answered := (told _).mpr ⟨_, echoes, congrArg (c.afterwards · _ logged) sent⟩
  exact ⟨⟨logged, answered⟩, ⟨ch, kept⟩, ⟨ch', kept'⟩, deleting last last _ overflows⟩

end Session
end Docuverse
