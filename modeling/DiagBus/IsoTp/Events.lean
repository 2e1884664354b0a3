import DiagBus.IsoTp.Receiving
import DiagBus.IsoTp.Sending

namespace DiagBus

variable {ω : Type}

namespace Exchange

/-- A protocol data unit arrives. -/
def receive (x : Exchange ω) (scope : Scope ω) : Pdu → Exchange ω
  | .single message => x.receiveSingle scope message
  | .first length data => x.receiveFirst scope length data
  | .consecutive sequence data => x.receiveConsecutive scope sequence data
  | .flowControl status blockSize separation => x.receiveControl scope status blockSize separation

/-- The last frame of a flow is on the bus. -/
def confirm (x : Exchange ω) (scope : Scope ω) : Direction → Exchange ω
  | .output => x.confirmOutput scope
  | .input => x.confirmInput scope

/-- An alarm went off. -/
def expire (x : Exchange ω) (scope : Scope ω) (alarm : Alarm) : Exchange ω :=
  let output := x.connection.output
  match alarm with
  | .output _ => if output.isIdle then x else x.abort scope .output .transmitTimeout
  | .input _ => if x.connection.input.isIdle then x else x.abort scope .input .receiveTimeout
  | .separation _ =>
    if output.phase = .consecutiveOut ∧ !output.unconfirmed then x.advance scope .output else x

end Exchange

end DiagBus
