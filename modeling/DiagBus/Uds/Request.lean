import DiagBus.Bytes
import DiagBus.Uds.Service

namespace DiagBus

inductive Request
  /-- Switches the diagnostic session. -/
  | session (target : UInt8)
  /-- Resets the server. -/
  | reset (kind : UInt8)
  /-- Asks for a seed (odd sub-functions) or sends a key (even ones). -/
  | security (subFunction : UInt8) (parameter : List UInt8)
  /-- Keeps a session alive. -/
  | testerPresent (subFunction : UInt8)
  /-- Reads a record by its identifier of 8 bits. -/
  | readLocal (identifier : UInt8)
  /-- Reads a record by its identifier of 16 bits. -/
  | read (identifier : UInt16)
  | write (identifier : UInt16) (record : List UInt8)
  /-- Starts, stops or queries a routine. -/
  | routine (subFunction : UInt8) (identifier : UInt16) (option : List UInt8)
  /-- Clears a group of trouble codes; a group has 24 bits. -/
  | clearCodes (group : UInt32)
  /-- Reads stored trouble codes. -/
  | readCodes (subFunction mask : UInt8)
  /-- Controls an input or output of the server. -/
  | control (identifier : UInt16) (parameter : UInt8) (state : List UInt8)
  deriving DecidableEq

def Request.service : Request → Service
  | .session .. => .sessionControl
  | .reset .. => .ecuReset
  | .security .. => .securityAccess
  | .testerPresent .. => .testerPresent
  | .readLocal .. => .readDataByLocalIdentifier
  | .read .. => .readDataByIdentifier
  | .write .. => .writeDataByIdentifier
  | .routine .. => .routineControl
  | .clearCodes .. => .clearDiagnosticInformation
  | .readCodes .. => .readDtcInformation
  | .control .. => .inputOutputControl

/-- The bytes behind the service. -/
def Request.parameters : Request → List UInt8
  | .session target => [target]
  | .reset kind => [kind]
  | .security subFunction parameter => subFunction :: parameter
  | .testerPresent subFunction => [subFunction]
  | .readLocal identifier => [identifier]
  | .read identifier => bigEndian 2 identifier.toNat
  | .write identifier record => bigEndian 2 identifier.toNat ++ record
  | .routine subFunction identifier option => subFunction :: bigEndian 2 identifier.toNat ++ option
  | .clearCodes group => bigEndian 3 group.toNat
  | .readCodes subFunction mask => [subFunction, mask]
  | .control identifier parameter state => bigEndian 2 identifier.toNat ++ parameter :: state

def Request.bytes (request : Request) : List UInt8 :=
  request.service.toByte :: request.parameters

/-- Whether the server is to answer. Only the request that keeps a session alive may ask for
silence. -/
def Request.expectsAnswer : Request → Bool
  | .testerPresent subFunction => subFunction &&& suppressAnswer = 0
  | _ => true

end DiagBus
