import DiagBus.Proofs.Moments

namespace DiagBus

variable {ω : Type}

/-- What the stack knows a confirmed frame by. -/
structure FrameKind where
  index : InterfaceIndex
  id : CanId
  /-- The flow that such frames belong to. -/
  direction : Direction
  deriving DecidableEq

def Frame.kind (frame : Frame) (index : InterfaceIndex) : FrameKind where
  index
  id := frame.id
  direction := Stack.confirmedDirection frame

/-- The frames that one flow of a connection with this address hands over. -/
def Address.kind (address : Address) (direction : Direction) : FrameKind where
  index := address.interface
  id := address.transmits
  direction

/-- The connections that await the confirmation of a frame of this kind. -/
def Stack.contenders (stack : Stack ω) (kind : FrameKind) : List Handle :=
  (stack.connections.entries.filter fun (_, connection) =>
    (connection.flow kind.direction).unconfirmed && connection.transmits kind.index kind.id).map
      (·.1)

/-- The frame that an interface reports to be on the bus in this step, unless a raw subscription
waits for the report. -/
def Moment.reported? (moment : Moment ω) : Option (InterfaceIndex × Frame) :=
  match moment.step with
  | .acknowledge index frame =>
    if (moment.before.raw.awaiting? index frame).isNone then some (index, frame) else none
  | _ => none

/-- The last frame that was reported, if that was in the last step. -/
def justReported (past : List (Moment ω)) : Option (InterfaceIndex × Frame) :=
  past.getLast?.bind (·.reported?)

/-- Whether a step is the confirmation of a frame of this flow. -/
def Step.confirms (step : Step ω) (noted : List Confirmation) (handle : Handle)
    (direction : Direction) : Bool :=
  match step with
  | .confirm _ other flow => other = handle ∧ flow = direction
  | .settle _ => noted.head? = some ⟨handle, direction⟩
  | _ => false

/-- Whether a flow goes on in this step because its frame is confirmed. -/
def Moment.confirms (moment : Moment ω) (handle : Handle) (direction : Direction) : Bool :=
  moment.step.confirms moment.before.confirmations handle direction &&
    (moment.before.connections.get? handle).any fun connection =>
      (connection.flow direction).unconfirmed

theorem Moment.confirms_eq {moment : Moment ω} {handle : Handle} {connection : Connection}
    (live : moment.before.connections.get? handle = some connection) (direction : Direction) :
    moment.confirms handle direction =
      (moment.step.confirms moment.before.confirmations handle direction &&
        (connection.flow direction).unconfirmed) := by
  unfold confirms
  rw [live]
  rfl

theorem Moment.confirms_iff {moment : Moment ω} {handle : Handle} {direction : Direction} :
    moment.confirms handle direction = true ↔
      moment.step.confirms moment.before.confirmations handle direction = true ∧
        ∃ connection, moment.before.connections.get? handle = some connection ∧
          (connection.flow direction).unconfirmed = true := by
  unfold confirms
  rw [Bool.and_eq_true, Option.any_eq_true]

/-- A step that confirms the frame of a flow has this plan. -/
theorem Moment.plans_of_confirms {moment : Moment ω} {handle : Handle} {connection : Connection}
    {direction : Direction} (confirms : moment.confirms handle direction = true)
    (sound : moment.before.Sound)
    (live : moment.before.connections.get? handle = some connection) :
    (connection.flow direction).unconfirmed = true ∧
      ∃ now, moment.before.Plans handle connection moment.step now direction
        (connection.confirmed (moment.before.scope now handle) direction) := by
  obtain ⟨named, found, there, unconfirmed⟩ := Moment.confirms_iff.mp confirms
  rw [live] at there
  cases there
  refine ⟨unconfirmed, ?_⟩
  cases step : moment.step with
  | confirm now other flow =>
    rw [step] at named
    obtain ⟨rfl, rfl⟩ := of_decide_eq_true named
    exact ⟨now, .confirm now flow⟩
  | settle now =>
    rw [step] at named
    obtain ⟨noted, _⟩ := sound.only_noted (List.mem_of_mem_head? (of_decide_eq_true named))
    exact ⟨now, .settle now noted⟩
  | _ =>
    rw [step] at named
    cases named

theorem Address.transmits_kind {connection : Connection} {address : Address}
    (bound : connection.address = some address) {kind : FrameKind} :
    connection.transmits kind.index kind.id = true ↔ address.kind kind.direction = kind := by
  obtain ⟨index, id, direction⟩ := kind
  unfold Connection.transmits
  rw [bound]
  simp [Address.kind]

theorem Stack.mem_contenders_iff {stack : Stack ω} (sound : stack.Sound) {kind : FrameKind}
    {handle : Handle} : handle ∈ stack.contenders kind ↔
      ∃ connection, stack.connections.get? handle = some connection ∧
        (connection.flow kind.direction).unconfirmed = true ∧
        connection.transmits kind.index kind.id = true := by
  unfold contenders
  rw [List.mem_map]
  constructor
  · rintro ⟨⟨name, connection⟩, member, rfl⟩
    obtain ⟨entry, test⟩ := List.mem_filter.mp member
    exact ⟨connection, (Slots.mem_entries_iff sound.slots).mp entry, by simpa using test⟩
  · rintro ⟨connection, live, test⟩
    exact ⟨(handle, connection),
      List.mem_filter.mpr ⟨(Slots.mem_entries_iff sound.slots).mpr live, by simpa using test⟩, rfl⟩

theorem Stack.findConnection?_contends {stack : Stack ω} {index : InterfaceIndex} {frame : Frame}
    {handle : Handle}
    (found : (stack.findConnection? fun connection =>
      (connection.flow (confirmedDirection frame)).unconfirmed &&
        connection.transmits index frame.id) = some handle) :
    handle ∈ stack.contenders (frame.kind index) := by
  obtain ⟨entry, here, rfl⟩ := Option.map_eq_some_iff.mp found
  have test := List.find?_some here
  exact List.mem_map_of_mem (List.mem_filter.mpr ⟨List.mem_of_find?_eq_some here, test⟩)

/-- A report goes to the raw subscription that waits for it. -/
theorem Raw.sent_eq (raw : Raw ω) (index : InterfaceIndex) (frame : Frame) (outside : Outside ω) :
    (raw.sent index frame outside).1 = (raw.awaiting? index frame).isSome := by
  unfold Raw.sent
  cases raw.awaiting? index frame <;> rfl

/-- All interfaces confirm later. -/
def Registry.Defers (registry : Registry ω) : Prop :=
  ∀ index interface, registry.get? index = some interface →
    ∀ world, interface.confirmsLater world = true

theorem Registry.Defers.hand {registry : Registry ω} (defers : registry.Defers) {origin : Origin}
    {index : InterfaceIndex} {frame : Frame} {outside after : Outside ω} {confirmed : Bool}
    (run : registry.hand origin index frame outside = (.ok confirmed, after)) :
    confirmed = false := by
  obtain ⟨interface, world, known, _, rfl, _⟩ := Registry.hand_eq_ok_iff.mp run
  rw [defers index interface known world]
  rfl

theorem Registry.Defers.ofCapacity (capacity : Nat) :
    (Registry.ofCapacity capacity : Registry ω).Defers := by
  intro index interface here
  unfold Registry.get? Registry.ofCapacity at here
  rw [List.getElem?_replicate] at here
  split at here <;> cases here

/-- One place of the registry has changed. -/
theorem Registry.Defers.set {registry : Registry ω} (defers : registry.Defers) {position : Nat}
    {place : Option (Interface ω)}
    (later : ∀ interface, place = some interface →
      ∀ world, interface.confirmsLater world = true) :
    Registry.Defers { places := registry.places.set position place } := by
  intro index interface here
  unfold Registry.get? at here
  rw [List.getElem?_set] at here
  split at here
  · split at here
    · exact later interface (by simpa using here)
    · cases here
  · exact defers index interface here

theorem Registry.Defers.add {registry after : Registry ω} (defers : registry.Defers)
    {interface : Interface ω} (later : ∀ world, interface.confirmsLater world = true)
    {index : InterfaceIndex} (run : registry.add interface = .ok (index, after)) :
    after.Defers := by
  unfold Registry.add at run
  split at run
  · cases run
  · split at run
    · cases run
      refine defers.set fun other same => ?_
      cases same
      exact later
    · cases run

theorem Registry.Defers.remove {registry after : Registry ω} (defers : registry.Defers)
    {index : InterfaceIndex} (run : registry.remove index = .ok after) : after.Defers := by
  unfold Registry.remove at run
  split at run
  · cases run
    exact defers.set fun _ same => by cases same
  · cases run

/-- Interfaces that confirm later leave no confirmation to be handled. -/
theorem Stack.Turns.defers {before after : Stack ω} {step : Step ω}
    (turns : before.Turns step after) (defers : before.registry.Defers)
    (quiet : before.confirmations = []) : after.confirmations = [] := by
  cases turns with
  | apart apart _ => exact apart.confirmations.trans quiet
  | opened _ => exact quiet
  | bound _ _ => exact quiet
  | listened _ => exact quiet
  | closed _ => exact quiet
  | acted plans acts =>
    obtain ⟨live, alarms, x, follows, rfl⟩ := acts
    show x.confirmations = []
    cases follows with
    | stay same => rw [same]
    | wait turned => exact turned.confirmations
    | handed taken turned =>
      rw [turned.confirmations, defers.hand taken]
      rfl
    | refused _ turned => exact turned.confirmations
    | rest turned => exact turned.confirmations
  | lapsed _ _ => exact quiet

/-- Why a step happens: a flow goes on only after a report, if it is a contender for it; and
interfaces confirm later. -/
def Step.Warranted (step : Step ω) (last : Option (InterfaceIndex × Frame)) (stack : Stack ω) :
    Prop :=
  match step with
  | .confirm _ handle direction => ∃ index frame, last = some (index, frame) ∧
      direction = Stack.confirmedDirection frame ∧ handle ∈ stack.contenders (frame.kind index)
  | .register registry => registry.Defers
  | _ => True

/-- Every step is warranted; `last` is what was reported just before the first of them. -/
def Stack.Warranted (stack : Stack ω) (last : Option (InterfaceIndex × Frame)) :
    List (Step ω) → Prop
  | [] => True
  | step :: rest => step.Warranted last stack ∧
      (step.run stack).Warranted (⟨stack, step⟩ : Moment ω).reported? rest

namespace Stack

variable {stack : Stack ω} {last : Option (InterfaceIndex × Frame)}

theorem Warranted.of_none {steps : List (Step ω)} (warranted : stack.Warranted none steps) :
    stack.Warranted last steps := by
  cases steps with
  | nil => trivial
  | cons step rest =>
    refine ⟨?_, warranted.2⟩
    cases step with
    | confirm now handle direction =>
      obtain ⟨_, _, absent, _⟩ := warranted.1
      cases absent
    | register registry => exact warranted.1
    | _ => trivial

theorem Warranted.append {first second : List (Step ω)} (early : stack.Warranted last first)
    (late : (stack.through first).Warranted none second) :
    stack.Warranted last (first ++ second) := by
  induction first generalizing stack last with
  | nil => exact late.of_none
  | cons step rest ih => exact ⟨early.1, ih early.2 late⟩

theorem settlingWithin_warranted (now : Tick) (fuel : Nat) (stack : Stack ω) :
    stack.Warranted none (settlingWithin now fuel stack) := by
  induction fuel generalizing stack with
  | zero => trivial
  | succ fuel ih =>
    unfold settlingWithin
    split
    · trivial
    · exact ⟨trivial, ih _⟩

theorem settled_warranted {step : Step ω} (warranted : step.Warranted last stack) (now : Tick) :
    stack.Warranted last (stack.settled now step) :=
  ⟨warranted, (settlingWithin_warranted now _ _).of_none⟩

theorem inputSteps_warranted (stack : Stack ω) (now : Tick) (index : InterfaceIndex)
    (frame : Frame) : stack.Warranted none (stack.inputSteps now index frame) := by
  unfold inputSteps
  refine ⟨trivial, ?_⟩
  split
  · trivial
  · unfold arriving
    split
    · exact settled_warranted (by trivial) now
    · exact settlingWithin_warranted now _ _

/-- The one call that reports a frame. -/
theorem sentSteps_warranted (stack : Stack ω) (now : Tick) (index : InterfaceIndex)
    (frame : Frame) : stack.Warranted none (stack.sentSteps now index frame) := by
  unfold sentSteps
  refine ⟨trivial, ?_⟩
  rw [Raw.sent_eq]
  cases waiting : stack.raw.awaiting? index frame with
  | some found => trivial
  | none =>
    have reported : (⟨stack, .acknowledge index frame⟩ : Moment ω).reported? =
        some (index, frame) := by
      simp [Moment.reported?, waiting]
    rw [reported]
    simp only [Option.isSome_none, Bool.false_eq_true, if_false, confirming]
    split
    · rename_i handle found
      exact settled_warranted
        (by exact ⟨index, frame, rfl, rfl, findConnection?_contends found⟩) now
    · exact (settlingWithin_warranted now _ _).of_none

theorem alarmSteps_warranted (now : Tick) (fuel : Nat) (stack : Stack ω) :
    stack.Warranted none (alarmSteps now fuel stack) := by
  induction fuel generalizing stack with
  | zero => trivial
  | succ fuel ih =>
    unfold alarmSteps
    split
    · trivial
    · exact (settled_warranted (by trivial) now).append (ih _)

theorem pollSteps_warranted (now : Tick) (index : InterfaceIndex) (fuel : Nat)
    (stack : Stack ω) : stack.Warranted none (pollSteps now index fuel stack) := by
  induction fuel generalizing stack with
  | zero => trivial
  | succ fuel ih =>
    unfold pollSteps
    split
    · trivial
    · simp only []
      split
      · exact ⟨trivial, trivial⟩
      · exact ⟨trivial, (inputSteps_warranted _ now index _).append (ih _)⟩

theorem pollingSteps_warranted (now : Tick) (indexes : List InterfaceIndex) (stack : Stack ω) :
    stack.Warranted none (pollingSteps now indexes stack) := by
  induction indexes generalizing stack with
  | nil => trivial
  | cons index rest ih => exact (pollSteps_warranted now index _ stack).append (ih _)

end Stack

/-- The interfaces that calls register confirm later. -/
def Call.Defers (call : Call ω) : Prop :=
  match call with
  | .addInterface interface => ∀ world, interface.confirmsLater world = true
  | _ => True

theorem Call.steps_warranted {call : Call ω} (later : call.Defers) {stack : Stack ω}
    (defers : stack.registry.Defers) : stack.Warranted none (call.steps stack) := by
  cases call with
  | addInterface interface =>
    refine ⟨?_, trivial⟩
    show Registry.Defers _
    simp only [Call.run, Stack.addInterface]
    cases run : stack.registry.add interface with
    | error fault => exact defers
    | ok added => exact defers.add later run
  | removeInterface index =>
    refine ⟨?_, trivial⟩
    show Registry.Defers _
    simp only [Call.run, Stack.removeInterface]
    cases run : stack.registry.remove index with
    | error fault => exact defers
    | ok removed => exact defers.remove run
  | send now handle message => exact Stack.settled_warranted (by trivial) now
  | input now index frame => exact stack.inputSteps_warranted now index frame
  | sent now index frame => exact stack.sentSteps_warranted now index frame
  | checkAlarms now => exact Stack.alarmSteps_warranted now _ stack
  | process now =>
    exact (Stack.pollingSteps_warranted now _ stack).append (Stack.alarmSteps_warranted now _ _)
  | _ => exact ⟨trivial, trivial⟩

theorem Step.Warranted.defers {step : Step ω} {last : Option (InterfaceIndex × Frame)}
    {stack : Stack ω} (warranted : step.Warranted last stack) (defers : stack.registry.Defers) :
    (step.run stack).registry.Defers := by
  by_cases registers : ∃ registry, step = .register registry
  · obtain ⟨registry, rfl⟩ := registers
    exact warranted
  · have same := Step.surroundings_run (not_exists.mp registers) stack
    rw [show (step.run stack).registry = stack.registry from congrArg Prod.snd same]
    exact defers

theorem Stack.Warranted.defers {stack : Stack ω} {last : Option (InterfaceIndex × Frame)}
    {steps : List (Step ω)} (warranted : stack.Warranted last steps)
    (defers : stack.registry.Defers) : (stack.through steps).registry.Defers := by
  induction steps generalizing stack last with
  | nil => exact defers
  | cons step rest ih => exact ih warranted.2 (warranted.1.defers defers)

theorem Stack.steps_warranted {calls : List (Call ω)} (later : ∀ call ∈ calls, call.Defers)
    {stack : Stack ω} (defers : stack.registry.Defers) :
    stack.Warranted none (stack.steps calls) := by
  induction calls generalizing stack with
  | nil => trivial
  | cons call rest ih =>
    obtain ⟨first, others⟩ := List.forall_mem_cons.mp later
    have early := Call.steps_warranted first defers
    have after := early.defers defers
    rw [← Call.run_eq] at after
    unfold Stack.steps
    refine early.append ?_
    rw [← Call.run_eq]
    exact ih others after

/-- Every moment of a run is warranted by what was reported just before it. -/
theorem Stack.Warranted.split {stack : Stack ω} {last : Option (InterfaceIndex × Frame)}
    {steps : List (Step ω)} (warranted : stack.Warranted last steps)
    {past rest : List (Moment ω)} {moment : Moment ω}
    (whole : stack.moments steps = past ++ moment :: rest) :
    moment.step.Warranted (past.getLast?.elim last (·.reported?)) moment.before := by
  induction past generalizing stack last steps with
  | nil =>
    obtain ⟨later, rfl, rfl, _⟩ := Stack.moments_cons whole
    exact warranted.1
  | cons first past ih =>
    obtain ⟨later, rfl, rfl, onward⟩ := Stack.moments_cons whole
    have next := ih warranted.2 onward
    cases past with
    | nil => exact next
    | cons second past =>
      rw [List.getLast?_cons_cons]
      obtain ⟨final, here⟩ := List.getLast?_isSome.mpr (List.cons_ne_nil second past) |>
        Option.isSome_iff_exists.mp
      rw [here] at next ⊢
      exact next

/-- Along a run over such interfaces no confirmation is ever noted. -/
theorem Stack.Orderly.unnoted {stack : Stack ω} {last : Option (InterfaceIndex × Frame)}
    {steps : List (Step ω)} (orderly : stack.Orderly steps)
    (warranted : stack.Warranted last steps) (defers : stack.registry.Defers)
    (quiet : stack.confirmations = []) :
    ∀ moment ∈ stack.moments steps, moment.before.confirmations = [] := by
  induction steps generalizing stack last with
  | nil => simp [Stack.moments]
  | cons step rest ih =>
    obtain ⟨⟨sound, timely⟩, later⟩ := Stack.Orderly.cons_iff.mp orderly
    have still := (sound.turns timely).defers defers quiet
    refine List.forall_mem_cons.mpr ⟨quiet, ih later warranted.2 ?_ still⟩
    exact warranted.1.defers defers

end DiagBus
