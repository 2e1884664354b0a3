import DiagBus.Interface

namespace DiagBus

/-- A classic controller: it sends and receives wire frames and knows no confirmation. -/
structure Controller (ω : Type) where
  /-- Whether the controller has a form for this frame. -/
  represents : WireFrame → Bool := fun _ => true
  /-- Sends one frame; `false` reports a failure. -/
  transmit : WireFrame → ω → Bool × ω
  /-- Polls one frame; `none` stands for a failure, also that no frame is pending. -/
  receive : ω → Option WireFrame × ω

/-- A frame without a form on the controller is refused before the controller sees it. A received
frame without a counterpart ends the polling like an empty queue. -/
def Controller.interface {ω : Type} (controller : Controller ω) : Interface ω where
  output frame world :=
    match frame.toWire?.filter controller.represents with
    | none => (.error .unsupported, world)
    | some wire =>
      match controller.transmit wire world with
      | (true, world) => (.ok (), world)
      | (false, world) => (.error .driver, world)
  receive world :=
    match controller.receive world with
    | (none, world) => (none, world)
    | (some wire, world) => (Frame.ofWire? wire, world)

end DiagBus
