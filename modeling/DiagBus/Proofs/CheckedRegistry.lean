import DiagBus.Proofs.Checked
import DiagBus.Raw

namespace DiagBus

variable {ω : Type}

/-- The index with this number; with the number 0 there is none. -/
def Checked.index (number : UInt8) : Checked InterfaceIndex :=
  match InterfaceIndex.ofNumber? number with
  | none => .error .overflow
  | some index => .ok index

/-- The index of a place, whose number is one more than its position. -/
def Checked.indexAt (position : Nat) : Checked InterfaceIndex := do
  let number ← Checked.addByte position.toUInt8 1
  Checked.index number

namespace Registry

variable {registry : Registry ω} {index : InterfaceIndex}

/-- The interface at the position that is one less than the number. -/
def checkedGet? (registry : Registry ω) (index : InterfaceIndex) :
    Checked (Option (Interface ω)) := do
  let position ← Checked.sub index.number 1
  .ok registry.places[position]?.join

def checkedContains (registry : Registry ω) (index : InterfaceIndex) : Checked Bool := do
  let interface ← registry.checkedGet? index
  .ok interface.isSome

def checkedIsFlexible (registry : Registry ω) (index : InterfaceIndex) (world : ω) :
    Checked Bool := do
  let interface ← registry.checkedGet? index
  .ok (interface.any (·.isFlexible world))

def checkedHand (registry : Registry ω) (origin : Origin) (index : InterfaceIndex) (frame : Frame)
    (outside : Outside ω) : Checked (Except Fault Bool × Outside ω) := do
  match ← registry.checkedGet? index with
  | none => .ok (.error .notConnected, outside)
  | some interface =>
    match interface.output frame outside.world with
    | (.error reason, world) =>
      .ok (.error reason.fault, { outside with world }.tell (.refused origin index frame reason))
    | (.ok (), world) =>
      .ok (.ok (!interface.confirmsLater world),
        { outside with world }.tell (.handed origin index frame))

def checkedAdd (registry : Registry ω) (interface : Interface ω) :
    Checked (Except Fault (InterfaceIndex × Registry ω)) :=
  match registry.places.findIdx? (·.isNone) with
  | none => .ok (.error .interfaceLimit)
  | some position => do
    let places ← Checked.write registry.places position (some interface)
    let index ← Checked.indexAt position
    .ok (.ok (index, { places }))

def checkedRemove (registry : Registry ω) (index : InterfaceIndex) :
    Checked (Except Fault (Registry ω)) := do
  let position ← Checked.sub index.number 1
  .ok (if registry.places[position]?.join.isSome then
    .ok { places := registry.places.set position none } else .error .argument)

def checkedIndexes (registry : Registry ω) : Checked (List InterfaceIndex) :=
  (registry.places.zipIdx.filter (·.1.isSome)).mapM fun (_, position) => Checked.indexAt position

theorem position_eq (index : InterfaceIndex) :
    Checked.sub index.number 1 = .ok index.position.val :=
  Checked.sub_eq (Nat.le_add_left 1 _)

theorem indexAt_eq {position : Nat} (small : position < 255) :
    Checked.indexAt position = .ok ⟨⟨position, small⟩⟩ := by
  have byte : position.toUInt8.toNat = position := by
    simp
    omega
  have fits : position.toUInt8.toNat + (1 : UInt8).toNat ≤ 0xFF := by
    rw [byte]
    show position + 1 ≤ 255
    omega
  have number : (position.toUInt8 + 1).toNat = position + 1 := by
    rw [UInt8.toNat_add, byte]
    show (position + 1) % 256 = _
    omega
  have positive : 0 < (position.toUInt8 + 1).toNat := by omega
  unfold Checked.indexAt Checked.index InterfaceIndex.ofNumber?
  rw [Checked.addByte_eq fits, Checked.ok_bind, dif_pos positive]
  simp only [number, Nat.add_sub_cancel]

theorem checkedGet?_eq (registry : Registry ω) (index : InterfaceIndex) :
    registry.checkedGet? index = .ok (registry.get? index) := by
  unfold checkedGet?
  rw [position_eq]
  rfl

theorem checkedContains_eq (registry : Registry ω) (index : InterfaceIndex) :
    registry.checkedContains index = .ok (registry.contains index) := by
  unfold checkedContains
  rw [checkedGet?_eq]
  rfl

theorem checkedIsFlexible_eq (registry : Registry ω) (index : InterfaceIndex) (world : ω) :
    registry.checkedIsFlexible index world = .ok (registry.isFlexible index world) := by
  unfold checkedIsFlexible
  rw [checkedGet?_eq]
  rfl

theorem checkedHand_eq (registry : Registry ω) (origin : Origin) (index : InterfaceIndex)
    (frame : Frame) (outside : Outside ω) :
    registry.checkedHand origin index frame outside =
      .ok (registry.hand origin index frame outside) := by
  unfold checkedHand hand
  rw [checkedGet?_eq, Checked.ok_bind]
  cases registry.get? index with
  | none => rfl
  | some interface =>
    simp only []
    rcases interface.output frame outside.world with ⟨_ | _, _⟩ <;> rfl

theorem checkedAdd_eq (few : registry.places.length ≤ 255) (interface : Interface ω) :
    registry.checkedAdd interface = .ok (registry.add interface) := by
  unfold checkedAdd add
  cases found : registry.places.findIdx? (·.isNone) with
  | none => rfl
  | some position =>
    have inside : position < registry.places.length :=
      (List.findIdx?_eq_some_iff_findIdx_eq.mp found).1
    have small : position < 255 := by omega
    simp only [Checked.write_eq inside, Checked.ok_bind, indexAt_eq small, dif_pos small]

theorem checkedRemove_eq (registry : Registry ω) (index : InterfaceIndex) :
    registry.checkedRemove index = .ok (registry.remove index) := by
  unfold checkedRemove
  rw [position_eq]
  rfl

theorem checkedIndexes_eq (few : registry.places.length ≤ 255) :
    registry.checkedIndexes = .ok registry.indexes := by
  have small : ∀ entry ∈ registry.places.zipIdx, entry.2 < 255 := by
    rintro ⟨place, position⟩ member
    have inside := (List.mem_zipIdx' member).1
    exact inside.trans_le few
  unfold checkedIndexes indexes
  generalize registry.places.zipIdx = entries at small
  induction entries with
  | nil => rfl
  | cons entry rest ih =>
    obtain ⟨place, position⟩ := entry
    have here : position < 255 := small _ List.mem_cons_self
    have later := ih fun entry member => small entry (List.mem_cons_of_mem _ member)
    cases place with
    | none => simpa [here] using later
    | some interface => simp [here, List.mapM_cons, indexAt_eq here, later]

/-- Interfaces come and go, but the places stay. -/
theorem length_add {after : Registry ω} {interface : Interface ω} {result : InterfaceIndex}
    (added : registry.add interface = .ok (result, after)) :
    after.places.length = registry.places.length := by
  unfold add at added
  split at added
  · cases added
  · split at added
    · cases added
      exact List.length_set
    · cases added

theorem length_remove {after : Registry ω} (removed : registry.remove index = .ok after) :
    after.places.length = registry.places.length := by
  unfold remove at removed
  split at removed
  · cases removed
    exact List.length_set
  · cases removed

end Registry

section

variable {raw : Raw ω}

/-- The subscriptions in the order are live, and none is there twice. -/
structure Raw.Sound (raw : Raw ω) : Prop where
  slots : raw.subscriptions.WellFormed
  once : raw.order.Nodup
  live : ∀ handle ∈ raw.order, (raw.subscriptions.get? handle).isSome

def Raw.checkedOpen [Machine] (raw : Raw ω) (interface : InterfaceIndex) :
    Checked (Option (Handle × Raw ω)) := do
  match ← raw.subscriptions.checkedInsert { interface } with
  | none => .ok none
  | some (handle, subscriptions) =>
    .ok (some (handle, { subscriptions, order := handle :: raw.order }))

def Raw.checkedClose (raw : Raw ω) (handle : Handle) : Checked (Except Fault (Raw ω)) := do
  match ← raw.subscriptions.checkedErase handle with
  | none => .ok (.error .argument)
  | some (_, subscriptions) =>
    .ok (.ok { subscriptions, order := raw.order.filter (· ≠ handle) })

def Raw.checkedSend (raw : Raw ω) (handle : Handle) (frame : Frame) (registry : Registry ω)
    (outside : Outside ω) : Checked (Except Fault Unit × Raw ω × Outside ω) :=
  match raw.subscriptions.get? handle with
  | none => .ok (.error .argument, raw, outside)
  | some subscription =>
    if subscription.pending.isSome then .ok (.error .inProgress, raw, outside)
    else do
      match ← registry.checkedHand (.raw handle) subscription.interface frame outside with
      | (.error fault, outside) => .ok (.error fault, raw, outside)
      | (.ok true, outside) =>
        .ok (.ok (), raw, match subscription.onSent with
          | none => outside
          | some listener => outside.tell (.frameSent listener handle frame))
      | (.ok false, outside) =>
        let subscriptions :=
          raw.subscriptions.set handle { subscription with pending := some frame }
        .ok (.ok (), { raw with subscriptions }, outside)

/-- Offers a frame to the subscriptions at these positions of the order, and returns the one that
consumed it with its position. -/
def Raw.checkedOffer (raw : Raw ω) (index : InterfaceIndex) (frame : Frame) :
    List Nat → Outside ω → Checked (Option (Nat × Handle) × Outside ω)
  | [], outside => .ok (none, outside)
  | position :: rest, outside => do
    let handle ← Checked.read raw.order position
    match raw.subscriptions.get? handle with
    | some { interface, onReceive := some (listener, consumes), .. } =>
      if interface = index then
        let (consumed, world) := consumes frame outside.world
        let outside := { outside with world }.tell (.offered listener handle frame consumed)
        if consumed then .ok (some (position, handle), outside)
        else raw.checkedOffer index frame rest outside
      else raw.checkedOffer index frame rest outside
    | _ => raw.checkedOffer index frame rest outside

def Raw.checkedInput (raw : Raw ω) (index : InterfaceIndex) (frame : Frame) (outside : Outside ω) :
    Checked (Bool × Raw ω × Outside ω) := do
  match ← raw.checkedOffer index frame (List.range raw.order.length) outside with
  | (none, outside) => .ok (false, raw, outside)
  | (some (position, handle), outside) =>
    let order ← Checked.remove raw.order position
    .ok (true, { raw with order := handle :: order }, outside)

theorem Raw.checkedOpen_eq [Machine] (sound : raw.Sound) (interface : InterfaceIndex) :
    raw.checkedOpen interface = .ok (raw.open interface) := by
  unfold checkedOpen Raw.open
  rw [Slots.checkedInsert_eq sound.slots, Checked.ok_bind]
  cases raw.subscriptions.insert { interface } <;> rfl

theorem Raw.checkedClose_eq (sound : raw.Sound) (handle : Handle) :
    raw.checkedClose handle = .ok (raw.close handle) := by
  unfold checkedClose Raw.close
  rw [Slots.checkedErase_eq sound.slots, Checked.ok_bind]
  cases raw.subscriptions.erase handle <;> rfl

theorem Raw.checkedSend_eq (raw : Raw ω) (handle : Handle) (frame : Frame)
    (registry : Registry ω) (outside : Outside ω) :
    raw.checkedSend handle frame registry outside =
      .ok (raw.send handle frame registry outside) := by
  unfold checkedSend Raw.send
  cases raw.subscriptions.get? handle with
  | none => rfl
  | some subscription =>
    simp only [Registry.checkedHand_eq, Checked.ok_bind]
    split
    · rfl
    · rcases registry.hand (.raw handle) subscription.interface frame outside with
        ⟨fault | _ | _, after⟩ <;> rfl

/-- Offering the frame position by position is offering it handle by handle. -/
theorem Raw.checkedOffer_eq (raw : Raw ω) (index : InterfaceIndex) (frame : Frame)
    {earlier later : List Handle} (order : raw.order = earlier ++ later) (outside : Outside ω) :
    ∃ found, raw.checkedOffer index frame (List.range' earlier.length later.length) outside =
        .ok (found, (raw.offer index frame later outside).2) ∧
      (raw.offer index frame later outside).1 = found.map (·.2) ∧
      ∀ position handle, found = some (position, handle) → raw.order[position]? = some handle := by
  induction later generalizing earlier outside with
  | nil => exact ⟨none, rfl, rfl, by simp⟩
  | cons handle rest ih =>
    have here : raw.order[earlier.length]? = some handle := by
      rw [order, List.getElem?_append_right le_rfl, Nat.sub_self, List.getElem?_cons_zero]
    have further (outside : Outside ω) := @ih (earlier ++ [handle])
      (by rw [order, List.append_assoc, List.singleton_append]) outside
    simp only [List.length_append, List.length_singleton] at further
    rw [List.length_cons, List.range'_succ]
    unfold checkedOffer offer
    rw [Checked.read_eq here, Checked.ok_bind]
    rcases raw.subscriptions.get? handle with
      _ | ⟨interface, pending, _ | ⟨listener, consumes⟩, sent⟩
    · exact further outside
    · exact further outside
    · by_cases same : interface = index
      · simp only [if_pos same]
        rcases consumes frame outside.world with ⟨_ | _, world⟩
        · exact further _
        · refine ⟨some (earlier.length, handle), rfl, rfl, ?_⟩
          rintro _ _ ⟨⟩
          exact here
      · simp only [if_neg same]
        exact further outside

/-- The position of the subscription that consumed a frame is where the order has it. -/
theorem Raw.checkedInput_eq (sound : raw.Sound) (index : InterfaceIndex) (frame : Frame)
    (outside : Outside ω) :
    raw.checkedInput index frame outside = .ok (raw.input index frame outside) := by
  obtain ⟨found, offered, same, here⟩ := raw.checkedOffer_eq index frame
    (List.nil_append raw.order).symm outside
  rw [List.length_nil, ← List.range_eq_range'] at offered
  unfold checkedInput Raw.input
  rw [offered, Checked.ok_bind]
  rcases answer : raw.offer index frame raw.order outside with ⟨consumer, after⟩
  rw [answer] at same
  cases found with
  | none =>
    cases same
    rfl
  | some place =>
    obtain ⟨position, handle⟩ := place
    cases same
    obtain ⟨inside, at_position⟩ := List.getElem?_eq_some_iff.mp (here position handle rfl)
    have moved := sound.once.erase_getElem position inside
    rw [at_position] at moved
    simp only [Checked.remove_eq inside, Checked.ok_bind, moved]

theorem Raw.ofCapacity_sound {capacity : Nat} (bound : capacity ≤ 0x10000) :
    (Raw.ofCapacity capacity : Raw ω).Sound :=
  ⟨Slots.ofCapacity_wellFormed bound, .nil, by simp [Raw.ofCapacity]⟩

theorem Raw.Sound.open {after : Raw ω} {handle : Handle} {interface : InterfaceIndex}
    (sound : raw.Sound) (opened : raw.open interface = some (handle, after)) : after.Sound := by
  unfold Raw.open at opened
  obtain ⟨⟨fresh, subscriptions⟩, insertion, opened⟩ := Option.bind_eq_some_iff.mp opened
  cases opened
  have dead := Slots.get?_of_insert sound.slots insertion
  have found := Slots.get?_insert sound.slots insertion
  refine ⟨(Slots.insert_wellFormed sound.slots insertion).1, ?_, ?_⟩
  · refine List.nodup_cons.mpr ⟨fun member => ?_, sound.once⟩
    have live := sound.live _ member
    rw [dead] at live
    cases live
  · intro other member
    simp only [found]
    split
    · rfl
    · rename_i apart
      exact sound.live other ((List.mem_cons.mp member).resolve_left apart)

/-- Whatever a live subscription becomes, it stays in the order. -/
theorem Raw.Sound.set (sound : raw.Sound) (handle : Handle) (subscription : Subscription ω) :
    Raw.Sound { raw with subscriptions := raw.subscriptions.set handle subscription } := by
  cases live : raw.subscriptions.get? handle with
  | none =>
    rw [Slots.set_dead live]
    exact sound
  | some old =>
    refine ⟨Slots.set_wellFormed _ sound.slots live, sound.once, fun other member => ?_⟩
    rw [Slots.get?_set _ live]
    split
    · rfl
    · exact sound.live other member

theorem Raw.Sound.update {after : Raw ω} {handle : Handle}
    {change : Subscription ω → Subscription ω} (sound : raw.Sound)
    (updated : raw.update handle change = .ok after) : after.Sound := by
  unfold Raw.update at updated
  split at updated
  · cases updated
  · cases updated
    exact sound.set _ _

theorem Raw.Sound.close {after : Raw ω} {handle : Handle} (sound : raw.Sound)
    (closed : raw.close handle = .ok after) : after.Sound := by
  unfold Raw.close at closed
  cases erasure : raw.subscriptions.erase handle with
  | none =>
    rw [erasure] at closed
    cases closed
  | some erased =>
    rw [erasure] at closed
    cases closed
    refine ⟨(Slots.erase_wellFormed sound.slots erasure).1, sound.once.filter _, ?_⟩
    intro other member
    obtain ⟨listed, apart⟩ := List.mem_filter.mp member
    rw [Slots.get?_erase erasure, if_neg (by simpa using apart)]
    exact sound.live other listed

theorem Raw.Sound.send (sound : raw.Sound) (handle : Handle) (frame : Frame)
    (registry : Registry ω) (outside : Outside ω) :
    (raw.send handle frame registry outside).2.1.Sound := by
  unfold Raw.send
  cases raw.subscriptions.get? handle with
  | none => exact sound
  | some subscription =>
    simp only []
    split
    · exact sound
    · rcases registry.hand (.raw handle) subscription.interface frame outside with
        ⟨fault | _ | _, after⟩
      · exact sound
      · exact sound.set _ _
      · exact sound

/-- The subscription that consumed a frame only changes its place. -/
theorem Raw.Sound.input (sound : raw.Sound) (index : InterfaceIndex) (frame : Frame)
    (outside : Outside ω) : (raw.input index frame outside).2.1.Sound := by
  obtain ⟨found, _, same, here⟩ := raw.checkedOffer_eq index frame
    (List.nil_append raw.order).symm outside
  unfold Raw.input
  rcases answer : raw.offer index frame raw.order outside with ⟨_ | handle, after⟩
  · exact sound
  · rw [answer] at same
    obtain ⟨⟨position, _⟩, rfl, rfl⟩ := Option.map_eq_some_iff.mp same.symm
    have listed := List.mem_of_getElem? (here position _ rfl)
    have moved := List.perm_cons_erase listed
    exact ⟨sound.slots, moved.nodup_iff.mp sound.once, fun other member =>
      sound.live other (moved.mem_iff.mpr member)⟩

theorem Raw.Sound.sent (sound : raw.Sound) (index : InterfaceIndex) (frame : Frame)
    (outside : Outside ω) : (raw.sent index frame outside).2.1.Sound := by
  unfold Raw.sent
  cases raw.awaiting? index frame with
  | none => exact sound
  | some found => exact sound.set _ _

end

end DiagBus
