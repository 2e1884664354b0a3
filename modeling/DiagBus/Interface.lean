import DiagBus.Fault
import DiagBus.Frame

namespace DiagBus

/-- What the stack asks of a controller. It is part of an outside world of type `ω`, which its
operations read and change. -/
structure Interface (ω : Type) where
  /-- Takes one frame for transmission, or refuses it. -/
  output : Frame → ω → Except Refusal Unit × ω
  /-- Polls one received frame. -/
  receive : ω → Option Frame × ω := fun world => (none, world)
  /-- Whether an accepted frame is on the bus only once this is reported by `Stack.sent`. -/
  confirmsLater : ω → Bool := fun _ => false
  /-- Whether the controller can send flexible data-rate frames. -/
  isFlexible : ω → Bool := fun _ => false

/-- The number of a registered interface, from 1 to 255, kept as its position from 0 on. -/
structure InterfaceIndex where
  position : Fin 255
  deriving DecidableEq

/-- A position can be written as a number. -/
instance (priority := high) InterfaceIndex.positionNumeral : @NeZero Nat Zero.ofOfNat0 255 :=
  ⟨by decide⟩

/-- The index with this number; no interface has the number 0. -/
def InterfaceIndex.ofNumber? (number : UInt8) : Option InterfaceIndex :=
  if h : 0 < number.toNat then
    some ⟨⟨number.toNat - 1, by have := number.toNat_lt; omega⟩⟩
  else none

def InterfaceIndex.number (index : InterfaceIndex) : Nat :=
  index.position + 1

/-- The registered interfaces; an empty place can be taken again. -/
structure Registry (ω : Type) where
  places : List (Option (Interface ω))

variable {ω : Type}

def Registry.ofCapacity (capacity : Nat) : Registry ω :=
  { places := List.replicate capacity none }

/-- Registers an interface in the first empty place. -/
def Registry.add (registry : Registry ω) (interface : Interface ω) :
    Except Fault (InterfaceIndex × Registry ω) :=
  match registry.places.findIdx? (·.isNone) with
  | none => .error .interfaceLimit
  | some position =>
    if h : position < 255 then
      .ok (⟨⟨position, h⟩⟩, { places := registry.places.set position (some interface) })
    else .error .interfaceLimit

def Registry.get? (registry : Registry ω) (index : InterfaceIndex) : Option (Interface ω) :=
  registry.places[index.position.val]?.join

def Registry.contains (registry : Registry ω) (index : InterfaceIndex) : Bool :=
  (registry.get? index).isSome

/-- Empties the place of a registered interface. -/
def Registry.remove (registry : Registry ω) (index : InterfaceIndex) : Except Fault (Registry ω) :=
  if registry.contains index then
    .ok { places := registry.places.set index.position none }
  else .error .argument

/-- Whether the interface is registered and can send flexible data-rate frames. -/
def Registry.isFlexible (registry : Registry ω) (index : InterfaceIndex) (world : ω) : Bool :=
  (registry.get? index).any (·.isFlexible world)

/-- The numbers in use, in ascending order. -/
def Registry.indexes (registry : Registry ω) : List InterfaceIndex :=
  registry.places.zipIdx.filterMap fun (place, position) =>
    if h : position < 255 then
      if place.isSome then some ⟨⟨position, h⟩⟩ else none
    else none

end DiagBus
