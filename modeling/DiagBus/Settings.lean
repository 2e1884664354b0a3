import DiagBus.Clock
import DiagBus.Fault

namespace DiagBus

/-- The sizes of a stack's tables and the parameters of its transfers. -/
structure Settings where
  /-- Bytes shared by all message buffers. -/
  memory : Nat := 4096
  connections : Nat := 2
  subscriptions : Nat := 2
  interfaces : Nat := 2
  timers : Nat := 10
  /-- Fills the unused bytes of a frame. -/
  padding : UInt8 := 0xAA
  /-- Block size announced to the peer; 0 asks for no further flow control. -/
  blockSize : UInt8 := 0
  /-- Separation time announced to the peer, as the byte of the frame. -/
  separation : UInt8 := 0
  /-- How often a peer may ask to wait before each block. -/
  waitLimit : UInt8 := 0
  /-- Time for a frame of the sending flow to be confirmed (N_As). -/
  confirmOutput : Tick := 1000
  /-- Time for a flow control frame of the receiving flow to be confirmed (N_Ar). -/
  confirmInput : Tick := 1000
  /-- Time for the peer to send flow control (N_Bs). -/
  awaitFlowControl : Tick := 1000
  /-- Time for the peer to send its next consecutive frame (N_Cr). -/
  awaitConsecutive : Tick := 1000
  /-- Switch the bit rate in flexible data-rate frames. -/
  fast : Bool := true

/-- Tables that must not be empty are not, and every slot and interface has a number: handles
number slots with 16 bits, interfaces are numbered with 8. -/
def Settings.validate (settings : Settings) : Except Fault Unit :=
  if settings.connections = 0 ∨ settings.interfaces = 0 ∨ settings.timers = 0 ∨
      settings.memory = 0 then
    .error .argument
  else if 0xFFFF < settings.connections ∨ 0xFFFF < settings.subscriptions ∨
      0xFFFF < settings.timers ∨ 0xFF < settings.interfaces then
    .error .argument
  else .ok ()

/-- The timing of a diagnostic client and the size of its queues. -/
structure ClientSettings where
  /-- Time for the server to answer (P2). -/
  answer : Tick := 50
  /-- Time for the server to answer after it announced a delay (P2*). -/
  delayedAnswer : Tick := 500
  /-- How long a session other than the default one lasts without a request (S3). -/
  session : Tick := 9000
  /-- Keep such a session alive instead of falling back to the default one. -/
  keepSession : Bool := false
  /-- Sub-function of the request that keeps the session alive. -/
  keepAlive : UInt8 := 0x80
  /-- Room for undelivered events. -/
  events : Nat := 8

end DiagBus
