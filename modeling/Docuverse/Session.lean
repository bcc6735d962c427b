import Docuverse.Connection
import Docuverse.Request

namespace Docuverse.Session

/-- Begins a session over an unused connection. -/
def connect : Conversation Unit := Connection.handshake

/-- A request and its whole reply. -/
def exchange (request : Request) : Conversation request.Answer := do
  Connection.command (← ofExcept request.command)
  Connection.read request.reply

/-- Turns a refusal into the answer that there is nothing to follow, and logs it. -/
def emptyIfRejected (link : Address) (which : LinkEnd) (asked : Conversation LinkFollow) :
    Conversation LinkFollow := fun c =>
  match asked c with
  | .ok answer after => .ok answer after
  | .error fault after =>
    let answer : Conversation LinkFollow := do
      Connection.log (.followRejected link which)
      return .empty
    if fault.isRejection then answer after else .error fault after

/-- A link that the back end refuses to follow has no such end. No other fault is an answer. -/
def perform : (request : Request) → Conversation request.Answer
  | .followLink link which => emptyIfRejected link which (exchange (.followLink link which))
  | request => exchange request

/-- Ends the session and closes the connection. -/
def quit : Conversation Unit := do
  Connection.command ⟨.quit, []⟩
  Connection.log .sessionClosed
  Connection.close

end Docuverse.Session
