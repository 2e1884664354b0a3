import DiagBus.Bench.Bus
import DiagBus.Uds.Client

namespace DiagBus

/-- What can be asked of a diagnostic client together with a stack. -/
inductive ClientCommand
  | process
  /-- Sets the clock and lets the stack and the client process. -/
  | tick (time : Tick)
  /-- Gives the stack a frame and lets the client process. -/
  | respond (place : UInt8) (frame : Option Frame)
  | next
  | drain
  | setLevel (level : UInt8)
  | setAnswer (span : Tick)
  | setDelayedAnswer (span : Tick)
  | startSession (place : UInt8) (transmits receives : Option CanId) (flexible : Bool)
    (session : UInt8)
  | request (request : Request)
  | requestBytes (message : List UInt8)

/-- What can be asked of a bench. Identifiers and frames that do not exist are `none`. -/
inductive Command
  | setClock (time : Tick)
  | advance (span : Tick)
  | process (station : Nat)
  | check (station : Nat)
  /-- Lets all stacks process until no node holds a received frame. -/
  | pump
  | settings (station : Nat)
  | addNode (station : Nat) (kind : NodeKind)
  | removeInterface (station : Nat) (place : UInt8)
  | fail (node : Nat) (failing : Option (Nat × Refusal))
  | link (a b : Nat)
  | connect (node : Nat) (on : Bool)
  | push (node : Nat) (frame : Option Frame)
  | pushWire (node : Nat) (id : Option CanId) (bytes : List UInt8) (remote : Bool)
  | input (station : Nat) (place : UInt8) (frame : Option Frame)
  | sent (station : Nat) (place : UInt8) (frame : Option Frame)
  /-- Confirms the oldest or the newest unconfirmed frame of a node. -/
  | confirm (station : Nat) (place : UInt8) (node : Nat) (newest : Bool)
  | openConnection (station : Nat) (listening : Bool)
  | listen (station connection : Nat)
  | bind (station connection : Nat) (place : UInt8) (transmits receives : Option CanId)
    (flexible : Bool)
  | send (station connection : Nat) (message : List UInt8)
  | close (station connection : Nat)
  | phases (station connection : Nat)
  | subscribe (station : Nat) (place : UInt8)
  | rebind (station subscription : Nat) (place : UInt8)
  | unsubscribe (station subscription : Nat)
  | sendFrame (station subscription : Nat) (frame : Option Frame)
  | listenSent (station subscription : Nat)
  /-- Listens to offered frames and consumes those whose first byte, 0 for none, is in a range. -/
  | listenReceived (station subscription : Nat) (low high : UInt8)
  | openClient (station : Nat) (settings : ClientSettings)
  | closeClient (station client : Nat)
  | client (station client : Nat) (command : ClientCommand)

/-- Why a command has no meaning. -/
inductive Misuse
  | noStack
  | noConnection
  | noSubscription
  | noClient
  | noNode
  /-- No interface has the number 0. -/
  | noIndex
  | badId
  | badFrame
  | nothingUnconfirmed
  deriving DecidableEq

inductive Answer
  | done
  /-- There was no room. -/
  | nothing
  | number (value : Nat)
  | settings (settings : Settings)
  | phases (output input : Phase)
  | frame (frame : Frame)
  | client (client connection : Nat)
  | event (event : Option ClientEvent)
  | events (events : List ClientEvent)
  | failed (fault : Fault)
  | misuse (misuse : Misuse)

/-- What happened while a command ran. -/
inductive Entry
  | handed (node : Nat) (frame : Frame)
  | refused (node : Nat) (frame : Frame)
  | received (connection : Nat) (message : List UInt8)
  | sent (connection : Nat) (length : Nat)
  | failed (connection : Nat) (fault : Fault)
  | offered (subscription : Nat) (frame : Frame) (consumed : Bool)
  | frameSent (subscription : Nat) (frame : Frame)

end DiagBus
