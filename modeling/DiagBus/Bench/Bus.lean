import DiagBus.Controller

namespace DiagBus

/-- What kind of controller a node has. -/
inductive NodeKind
  /-- Keeps received frames in a queue. -/
  | queued (confirmsLater flexible : Bool)
  /-- Only sends. -/
  | sendOnly
  /-- A classic controller that is polled. -/
  | polled
  /-- The same, with standard identifiers only. -/
  | polledStandard
  deriving DecidableEq

def NodeKind.confirmsLater : NodeKind → Bool
  | .queued confirmsLater _ => confirmsLater
  | _ => false

def NodeKind.isPolled : NodeKind → Bool
  | .polled => true
  | .polledStandard => true
  | _ => false

structure Node where
  kind : NodeKind
  /-- Received frames that were not polled yet. -/
  inbox : List Frame := []
  /-- The same for a polled classic controller. -/
  wire : List WireFrame := []
  /-- Takes this many more frames and refuses all others. -/
  failing : Option (Nat × Refusal) := none
  /-- The nodes that receive what this one sends. -/
  peers : List Nat := []
  /-- Whether what it sends reaches them. -/
  connected : Bool := true
  /-- Frames taken whose confirmation is still to come, the oldest first. -/
  unconfirmed : List Frame := []

structure Bus where
  nodes : List Node := []

namespace Bus

def update (bus : Bus) (node : Nat) (change : Node → Node) : Bus :=
  { bus with nodes := bus.nodes.modify node change }

/-- Whether no node holds a received frame. -/
def isQuiet (bus : Bus) : Bool :=
  bus.nodes.all (·.inbox.isEmpty)

/-- Whether a node takes a frame now. A failing one counts the frames it still takes. -/
def accept (bus : Bus) (node : Nat) : Except Refusal Unit × Bus :=
  match bus.nodes[node]?.bind (·.failing) with
  | some (0, reason) => (.error reason, bus)
  | some (count + 1, reason) =>
    (.ok (), bus.update node ({ · with failing := some (count, reason) }))
  | none => (.ok (), bus)

/-- Queues a frame at every peer of a node. -/
def deliver (bus : Bus) (node : Nat) (frame : Frame) : Bus :=
  match bus.nodes[node]? with
  | none => bus
  | some sender =>
    if sender.connected then
      sender.peers.foldl (fun bus peer =>
        bus.update peer fun node => { node with inbox := node.inbox ++ [frame] }) bus
    else bus

/-- A node sends a frame. -/
def transmit (bus : Bus) (node : Nat) (frame : Frame) : Except Refusal Unit × Bus :=
  match bus.accept node with
  | (.error reason, bus) => (.error reason, bus)
  | (.ok (), bus) =>
    let note (node : Node) : Node :=
      if node.kind.confirmsLater then { node with unconfirmed := node.unconfirmed ++ [frame] }
      else node
    (.ok (), (bus.update node note).deliver node frame)

/-- The oldest frame that a node received. -/
def receive (bus : Bus) (node : Nat) : Option Frame × Bus :=
  match bus.nodes[node]?.map (·.inbox) with
  | some (frame :: inbox) => (some frame, bus.update node ({ · with inbox }))
  | _ => (none, bus)

/-- The classic controller of a polled node. Its links carry nothing. -/
def controller (node : Nat) (kind : NodeKind) : Controller Bus where
  represents wire := kind ≠ .polledStandard ∨ !wire.id.isExtended
  transmit _ bus :=
    match bus.accept node with
    | (.error _, bus) => (false, bus)
    | (.ok (), bus) => (true, bus)
  receive bus :=
    match bus.nodes[node]?.map (·.wire) with
    | some (frame :: wire) => (some frame, bus.update node ({ · with wire }))
    | _ => (none, bus)

/-- The interface of a node. -/
def interface (node : Nat) : NodeKind → Interface Bus
  | .queued confirmsLater flexible => {
      output := fun frame bus => bus.transmit node frame
      receive := fun bus => bus.receive node
      confirmsLater := fun _ => confirmsLater
      isFlexible := fun _ => flexible }
  | .sendOnly => { output := fun frame bus => bus.transmit node frame }
  | kind => (controller node kind).interface

/-- Two nodes receive what the other sends; a node linked to itself receives what it sends. -/
def link (bus : Bus) (a b : Nat) : Bus :=
  let bus := bus.update a fun node => { node with peers := node.peers ++ [b] }
  if a = b then bus else bus.update b fun node => { node with peers := node.peers ++ [a] }

/-- Takes the oldest or the newest frame of a node whose confirmation is still to come. -/
def takeUnconfirmed (bus : Bus) (node : Nat) (newest : Bool) : Option (Frame × Bus) := do
  let waiting := (← bus.nodes[node]?).unconfirmed
  let frame ← if newest then waiting.getLast? else waiting.head?
  let rest := if newest then waiting.dropLast else waiting.tail
  return (frame, bus.update node ({ · with unconfirmed := rest }))

end Bus

end DiagBus
