import DiagBus.IsoTp.Encoder
import DiagBus.IsoTp.Flow
import DiagBus.Settings
import DiagBus.Signal

namespace DiagBus

/-- Where a connection sends and what it receives. -/
structure Address where
  interface : InterfaceIndex
  /-- Identifier of the frames it sends. -/
  transmits : CanId
  /-- Identifier of the frames it receives. -/
  receives : CanId
  /-- Send flexible data-rate frames. -/
  flexible : Bool := false
  deriving DecidableEq

structure Connection where
  address : Option Address := none
  output : Flow := {}
  input : Flow := {}
  onReceived : Option Listener := none
  onSent : Option Listener := none
  onFailed : Option Listener := none
  deriving DecidableEq

def Connection.flow (connection : Connection) : Direction → Flow
  | .output => connection.output
  | .input => connection.input

def Connection.setFlow (connection : Connection) (flow : Flow) : Direction → Connection
  | .output => { connection with output := flow }
  | .input => { connection with input := flow }

/-- The frames of a connection with this address. -/
def Address.encoder (address : Address) (settings : Settings) : Encoder where
  id := address.transmits
  flexible := address.flexible
  fast := address.flexible && settings.fast
  padding := settings.padding

/-- Whether frames with this identifier on this interface are for the connection. -/
def Connection.receives (connection : Connection) (index : InterfaceIndex) (id : CanId) : Bool :=
  connection.address.any fun address => address.interface = index ∧ address.receives = id

/-- Whether the connection sends with this identifier on this interface. -/
def Connection.transmits (connection : Connection) (index : InterfaceIndex) (id : CanId) : Bool :=
  connection.address.any fun address => address.interface = index ∧ address.transmits = id

/-- The timers of the transport. -/
inductive Alarm
  /-- The sending flow waits for a confirmation or for flow control. -/
  | output (connection : Handle)
  /-- The receiving flow waits for a confirmation or for a consecutive frame. -/
  | input (connection : Handle)
  /-- The sending flow waits before its next consecutive frame. -/
  | separation (connection : Handle)
  deriving DecidableEq

def Alarm.connection : Alarm → Handle
  | .output connection => connection
  | .input connection => connection
  | .separation connection => connection

/-- A frame of a flow that its interface has confirmed. -/
structure Confirmation where
  connection : Handle
  direction : Direction
  deriving DecidableEq

end DiagBus
