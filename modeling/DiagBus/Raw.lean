import DiagBus.Signal

namespace DiagBus

/-- A raw subscription to one interface. -/
structure Subscription (ω : Type) where
  interface : InterfaceIndex
  /-- The frame handed over and not yet confirmed. -/
  pending : Option Frame := none
  /-- Decides whether to consume an offered frame. -/
  onReceive : Option (Listener × (Frame → ω → Bool × ω)) := none
  onSent : Option Listener := none

/-- The subscriptions, and the order in which they are offered frames. -/
structure Raw (ω : Type) where
  subscriptions : Slots (Subscription ω)
  order : List Handle := []

variable {ω : Type}

def Raw.ofCapacity (capacity : Nat) : Raw ω :=
  { subscriptions := Slots.ofCapacity capacity }

/-- Opens a subscription; it is the first in the order. -/
def Raw.open (raw : Raw ω) (interface : InterfaceIndex) : Option (Handle × Raw ω) := do
  let (handle, subscriptions) ← raw.subscriptions.insert { interface }
  return (handle, { subscriptions, order := handle :: raw.order })

/-- Changes a live subscription. -/
def Raw.update (raw : Raw ω) (handle : Handle) (change : Subscription ω → Subscription ω) :
    Except Fault (Raw ω) :=
  match raw.subscriptions.get? handle with
  | none => .error .argument
  | some subscription =>
    .ok { raw with subscriptions := raw.subscriptions.set handle (change subscription) }

/-- Moves a subscription to another interface; a frame not yet confirmed is forgotten. -/
def Raw.bind (raw : Raw ω) (handle : Handle) (interface : InterfaceIndex) : Except Fault (Raw ω) :=
  raw.update handle fun subscription => { subscription with interface, pending := none }

def Raw.close (raw : Raw ω) (handle : Handle) : Except Fault (Raw ω) :=
  match raw.subscriptions.erase handle with
  | none => .error .argument
  | some (_, subscriptions) =>
    .ok { subscriptions, order := raw.order.filter (· ≠ handle) }

/-- Sends one frame; the next waits until this one is confirmed. -/
def Raw.send (raw : Raw ω) (handle : Handle) (frame : Frame) (registry : Registry ω)
    (outside : Outside ω) : Except Fault Unit × Raw ω × Outside ω :=
  match raw.subscriptions.get? handle with
  | none => (.error .argument, raw, outside)
  | some subscription =>
    if subscription.pending.isSome then (.error .inProgress, raw, outside)
    else
      match registry.hand (.raw handle) subscription.interface frame outside with
      | (.error fault, outside) => (.error fault, raw, outside)
      | (.ok true, outside) =>
        (.ok (), raw, match subscription.onSent with
          | none => outside
          | some listener => outside.tell (.frameSent listener handle frame))
      | (.ok false, outside) =>
        let subscriptions :=
          raw.subscriptions.set handle { subscription with pending := some frame }
        (.ok (), { raw with subscriptions }, outside)

/-- Offers a frame to these subscriptions in turn and returns the one that consumed it. -/
def Raw.offer (raw : Raw ω) (index : InterfaceIndex) (frame : Frame) :
    List Handle → Outside ω → Option Handle × Outside ω
  | [], outside => (none, outside)
  | handle :: rest, outside =>
    match raw.subscriptions.get? handle with
    | some { interface, onReceive := some (listener, consumes), .. } =>
      if interface = index then
        let (consumed, world) := consumes frame outside.world
        let outside := { outside with world }.tell (.offered listener handle frame consumed)
        if consumed then (some handle, outside) else raw.offer index frame rest outside
      else raw.offer index frame rest outside
    | _ => raw.offer index frame rest outside

/-- Offers a received frame to the subscriptions of its interface and says whether one consumed
it. That one is first in the order from then on. -/
def Raw.input (raw : Raw ω) (index : InterfaceIndex) (frame : Frame) (outside : Outside ω) :
    Bool × Raw ω × Outside ω :=
  match raw.offer index frame raw.order outside with
  | (none, outside) => (false, raw, outside)
  | (some handle, outside) =>
    (true, { raw with order := handle :: raw.order.erase handle }, outside)

/-- The first subscription that waits for the confirmation of this very frame. -/
def Raw.awaiting? (raw : Raw ω) (index : InterfaceIndex) (frame : Frame) :
    Option (Handle × Subscription ω) :=
  raw.subscriptions.entries.find? fun (_, subscription) =>
    subscription.interface = index ∧ subscription.pending = some frame

/-- Takes the confirmation of a frame and says whether a subscription waited for it. -/
def Raw.sent (raw : Raw ω) (index : InterfaceIndex) (frame : Frame) (outside : Outside ω) :
    Bool × Raw ω × Outside ω :=
  match raw.awaiting? index frame with
  | none => (false, raw, outside)
  | some (handle, subscription) =>
    let subscriptions := raw.subscriptions.set handle { subscription with pending := none }
    (true, { raw with subscriptions }, match subscription.onSent with
      | none => outside
      | some listener => outside.tell (.frameSent listener handle frame))

end DiagBus
