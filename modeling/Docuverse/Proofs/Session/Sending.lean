import Docuverse.Proofs.Alignment

namespace Docuverse.Session

open Wire

variable {α β : Type} {asked : Conversation α} {next : α → Conversation β} {c : Connection}
  {sent sent' : List UInt8}

/-- The connection afterwards, with or without a fault. -/
def remains (asked : Conversation α) (c : Connection) : Connection :=
  match asked c with
  | .ok _ after | .error _ after => after

/-- Sends exactly `sent`, whatever is answered. -/
def Sends (asked : Conversation α) (sent : List UInt8) : Prop :=
  ∀ c, c.outbound.breaking = none → (remains asked c).outbound.breaking = none ∧
    (remains asked c).outbound.sent = c.outbound.sent ++ sent

/-- It never comes to a fault. -/
def Succeeds (asked : Conversation α) : Prop := ∀ c, ∃ x after, asked c = .ok x after

theorem remains_of_ok {x : α} {after : Connection} (found : asked c = .ok x after) :
    remains asked c = after := by
  rw [remains, found]

theorem remains_bind_of_ok {x : α} {after : Connection} (found : asked c = .ok x after) :
    remains (asked >>= next) c = remains (next x) after := by
  rw [remains, continues found, remains]

theorem remains_bind_of_error {fault : Fault} {after : Connection}
    (failed : asked c = .error fault after) : remains (asked >>= next) c = after := by
  rw [remains, breaksOff failed]

theorem Sends.bind (succeeds : Succeeds asked) (first : Sends asked sent)
    (second : ∀ x, Sends (next x) sent') : Sends (asked >>= next) (sent ++ sent') := by
  intro c unbroken
  obtain ⟨x, after, found⟩ := succeeds c
  have told := first c unbroken
  rw [remains_of_ok found] at told
  obtain ⟨unbrokenAfter, sentFirst⟩ := told
  obtain ⟨unbrokenLast, sentLater⟩ := second x after unbrokenAfter
  rw [remains_bind_of_ok found]
  exact ⟨unbrokenLast, by rw [sentLater, sentFirst, List.append_assoc]⟩

/-- If nothing is sent afterwards, it does not matter whether there is an afterwards. -/
theorem Sends.bind_silent (first : Sends asked sent) (second : ∀ x, Sends (next x) []) :
    Sends (asked >>= next) sent := by
  intro c unbroken
  have told := first c unbroken
  cases found : asked c with
  | ok x after =>
    rw [remains_of_ok found] at told
    rw [remains_bind_of_ok found]
    obtain ⟨unbrokenAfter, sentFirst⟩ := told
    obtain ⟨unbrokenLast, sentLater⟩ := second x after unbrokenAfter
    exact ⟨unbrokenLast, by rw [sentLater, sentFirst, List.append_nil]⟩
  | error fault after =>
    rw [remains, found] at told
    rwa [remains_bind_of_error found]

theorem Sends.congr {asked' : Conversation β} (sends : Sends asked sent)
    (same : ∀ c, (remains asked' c).outbound = (remains asked c).outbound) :
    Sends asked' sent := by
  intro c unbroken
  rw [same]
  exact sends c unbroken

theorem sends_pure (x : α) : Sends (pure x) [] := fun _ unbroken =>
  ⟨unbroken, (List.append_nil _).symm⟩

theorem sends_log (event : Event) : Sends (Connection.log event) [] := fun _ unbroken =>
  ⟨unbroken, (List.append_nil _).symm⟩

theorem sends_read (reading : Reading α) : Sends (Connection.read reading) [] := by
  intro c unbroken
  rw [remains, Connection.read, List.append_nil]
  cases reading c.settings.maxChunkLength.toNat c.inbound with
  | ok value rest => exact ⟨unbroken, rfl⟩
  | error fault rest => exact ⟨unbroken, rfl⟩

theorem sends_close : Sends Connection.close [] := by
  intro c unbroken
  rw [remains, Connection.close, List.append_nil]
  cases c.outbound.closeFailure with
  | none => exact ⟨unbroken, rfl⟩
  | some reason => exact ⟨unbroken, rfl⟩

theorem send_eq (unbroken : c.outbound.breaking = none) :
    Connection.send sent c = .ok () { c with outbound.sent := c.outbound.sent ++ sent } := by
  rw [Connection.send, unbroken]

/-- A command that has bytes is sent as a whole before anything is read. -/
theorem command_eq {command : Command} (encodes : command.encode = .ok sent)
    (unbroken : c.outbound.breaking = none) : ∃ logged, Connection.command command c =
      Connection.read (Connection.echo command.opcode)
        { c with events := logged, outbound.sent := c.outbound.sent ++ sent } := by
  have sends (logged : List Event) : Connection.send sent { c with events := logged } =
      .ok () { c with events := logged, outbound.sent := c.outbound.sent ++ sent } :=
    send_eq (c := { c with events := logged }) unbroken
  let logged := c.events ++ [.sendingCommand command.opcode sent.length]
  rw [Connection.command, encodes]
  cases traced : c.settings.traceWire with
  | false =>
    refine ⟨logged, (continues rfl).trans ((continues rfl).trans ((continues rfl).trans ?_))⟩
    rw [if_neg (by simp [traced])]
    exact (continues rfl).trans (continues (sends logged))
  | true =>
    refine ⟨logged ++ [.sentBytes sent],
      (continues rfl).trans ((continues rfl).trans ((continues rfl).trans ?_))⟩
    rw [if_pos (by simp [traced])]
    exact (continues rfl).trans (continues (sends _))

theorem sends_command {command : Command} (encodes : command.encode = .ok sent) :
    Sends (Connection.command command) sent := by
  intro c unbroken
  obtain ⟨logged, answered⟩ := command_eq encodes unbroken
  have silent := sends_read (Connection.echo command.opcode)
    { c with events := logged, outbound.sent := c.outbound.sent ++ sent } unbroken
  rw [List.append_nil] at silent
  rw [remains, answered]
  exact silent

theorem sends_exchange {request : Request} {command : Command}
    (asks : request.command = .ok command) (encodes : command.encode = .ok sent) :
    Sends (exchange request) sent := by
  rw [exchange, asks]
  exact (sends_command encodes).bind_silent fun _ => sends_read request.reply

theorem outbound_emptyIfRejected {asked : Conversation LinkFollow} {link : Address}
    {which : LinkEnd} :
    (remains (emptyIfRejected link which asked) c).outbound = (remains asked c).outbound := by
  simp only [remains, emptyIfRejected]
  cases asked c with
  | ok answer after => rfl
  | error fault after =>
    by_cases rejected : fault.isRejection = true
    · simp only [if_pos rejected]
      rfl
    · simp only [if_neg rejected]

theorem sends_perform {request : Request} {command : Command}
    (asks : request.command = .ok command) (encodes : command.encode = .ok sent) :
    Sends (perform request) sent := by
  cases request with
  | followLink link which =>
    exact (sends_exchange asks encodes).congr fun _ => outbound_emptyIfRejected
  | _ => exact sends_exchange asks encodes

theorem sends_quit (encodes : Command.encode ⟨.quit, []⟩ = .ok sent) : Sends quit sent :=
  (sends_command encodes).bind_silent fun _ => (sends_log _).bind_silent fun _ => sends_close

theorem succeeds_attempt (asked : Conversation α) : Succeeds (attempt asked) := by
  intro c
  rw [attempt]
  cases asked c with
  | ok answer after => exact ⟨_, _, rfl⟩
  | error fault after => exact ⟨_, _, rfl⟩

theorem remains_attempt : remains (attempt asked) c = remains asked c := by
  simp only [remains, attempt]
  cases asked c <;> rfl

theorem sends_attempt (sends : Sends asked sent) : Sends (attempt asked) sent :=
  sends.congr fun _ => congrArg Connection.outbound remains_attempt

theorem Succeeds.bind (first : Succeeds asked) (second : ∀ x, Succeeds (next x)) :
    Succeeds (asked >>= next) := by
  intro c
  obtain ⟨x, after, found⟩ := first c
  rw [continues found]
  exact second x after

theorem succeeds_performAll (requests : List Request) : Succeeds (performAll requests) := by
  induction requests with
  | nil => exact fun c => ⟨[], c, rfl⟩
  | cons request requests ih =>
    refine (succeeds_attempt _).bind fun answer => ih.bind fun results => ?_
    exact fun c => ⟨⟨request, answer⟩ :: results, c, rfl⟩

/-- Whatever the requests before it came to, each request sends its command. -/
theorem sends_performAll {requests : List Request} {commands : List Command}
    {parts : List (List UInt8)} (asks : requests.mapM Request.command = .ok commands)
    (encodes : commands.mapM Command.encode = .ok parts) :
    Sends (performAll requests) parts.flatten := by
  induction requests generalizing commands parts with
  | nil =>
    cases asks
    cases encodes
    exact sends_pure []
  | cons request requests ih =>
    obtain ⟨command, commands, asksFirst, asksLater, rfl⟩ := mapM_cons_eq_ok.mp asks
    obtain ⟨part, parts, encodesFirst, encodesLater, rfl⟩ := mapM_cons_eq_ok.mp encodes
    refine (sends_attempt (sends_perform asksFirst encodesFirst)).bind (succeeds_attempt _) ?_
    exact fun answer => (ih asksLater encodesLater).bind_silent fun results => sends_pure _

end Docuverse.Session
