import DiagBus.Proofs.Abreast
import DiagBus.Proofs.CheckedExchange
import DiagBus.Proofs.Conservation
import DiagBus.Proofs.Office

namespace DiagBus

variable {ω : Type}

/-- A queue has to have room. -/
def Checked.queue (size : Nat) : Checked Unit :=
  if size = 0 then .error .room else .ok ()

namespace Stack

/-- A stack is made with room for two confirmations of every connection. -/
def checkedNew [Machine] (settings : Settings) (world : ω) : Checked (Except Fault (Stack ω)) :=
  match settings.validate with
  | .error fault => .ok (.error fault)
  | .ok () => do
    let room ← Checked.mul settings.connections 2
    Checked.queue room
    .ok (Stack.new settings world)

def checkedOn (stack : Stack ω) (now : Tick) (handle : Handle)
    (operation : Exchange ω → Scope ω → Checked (Exchange ω)) : Checked (Stack ω) :=
  match stack.connections.get? handle with
  | none => .ok stack
  | some connection => do
    let x ← operation (stack.exchange connection) (stack.scope now handle)
    .ok (stack.restore handle x)

def checkedSettleWithin [Machine] (now : Tick) : (fuel : Nat) → Stack ω → Checked (Stack ω)
  | 0, stack => .ok stack
  | fuel + 1, stack =>
    match stack.confirmations with
    | [] => .ok stack
    | confirmation :: rest => do
      let stack ← { stack with confirmations := rest }.checkedOn now confirmation.connection
        (·.checkedConfirm · confirmation.direction)
      checkedSettleWithin now fuel stack

def checkedSettle [Machine] (stack : Stack ω) (now : Tick) : Checked (Stack ω) :=
  checkedSettleWithin now (stack.confirmations.length + stack.memory.used) stack

def checkedAlarmsWithin [Machine] (now : Tick) : (fuel : Nat) → Stack ω → Checked (Stack ω)
  | 0, stack => .ok stack
  | fuel + 1, stack => do
    match ← stack.alarms.checkedPopDue now with
    | none => .ok stack
    | some (alarm, alarms) =>
      let stack ← { stack with alarms }.checkedOn now alarm.connection (·.checkedExpire · alarm)
      let stack ← stack.checkedSettle now
      checkedAlarmsWithin now fuel stack

def checkedAlarms [Machine] (stack : Stack ω) (now : Tick) : Checked (Stack ω) :=
  checkedAlarmsWithin now (2 * stack.alarms.size) stack

def checkedInputTransport [Machine] (stack : Stack ω) (now : Tick) (index : InterfaceIndex)
    (frame : Frame) : Checked (Stack ω) :=
  match stack.findConnection? (·.receives index frame.id) with
  | none => .ok stack
  | some handle => do
    let payload ← frame.checkedPayload
    match ← Pdu.checkedDecode payload with
    | none => .ok stack
    | some pdu => stack.checkedOn now handle (·.checkedReceive · pdu)

/-- The payload of a frame is shown to whoever traces it. -/
def checkedInput [Machine] (stack : Stack ω) (now : Tick) (index : InterfaceIndex)
    (frame : Frame) : Checked (Stack ω) := do
  let _ ← frame.checkedPayload
  match ← stack.raw.checkedInput index frame stack.outside with
  | (true, raw, outside) => .ok { stack with raw, outside }
  | (false, raw, outside) =>
    let stack ← { stack with raw, outside }.checkedInputTransport now index frame
    stack.checkedSettle now

def checkedSentTransport [Machine] (stack : Stack ω) (now : Tick) (index : InterfaceIndex)
    (frame : Frame) : Checked (Stack ω) := do
  let payload ← frame.checkedPayload
  let direction : Direction := if isFlowControl payload then .input else .output
  let awaits (connection : Connection) : Bool :=
    (connection.flow direction).unconfirmed && connection.transmits index frame.id
  match stack.findConnection? awaits with
  | none => .ok stack
  | some handle => stack.checkedOn now handle (·.checkedConfirm · direction)

def checkedSent [Machine] (stack : Stack ω) (now : Tick) (index : InterfaceIndex) (frame : Frame) :
    Checked (Stack ω) :=
  match stack.raw.sent index frame stack.outside with
  | (true, raw, outside) => .ok { stack with raw, outside }
  | (false, raw, outside) => do
    let stack ← { stack with raw, outside }.checkedSentTransport now index frame
    stack.checkedSettle now

def checkedPollWithin [Machine] (now : Tick) (index : InterfaceIndex) :
    (fuel : Nat) → Stack ω → Checked (Stack ω)
  | 0, stack => .ok stack
  | fuel + 1, stack => do
    match ← stack.registry.checkedGet? index with
    | none => .ok stack
    | some interface =>
      match interface.receive stack.outside.world with
      | (none, world) => .ok { stack with outside := { stack.outside with world } }
      | (some frame, world) =>
        let stack ← { stack with outside := { stack.outside with world } }.checkedInput now index
          frame
        checkedPollWithin now index fuel stack

def checkedPolling [Machine] (now : Tick) : List InterfaceIndex → Stack ω → Checked (Stack ω)
  | [], stack => .ok stack
  | index :: rest, stack => do
    let stack ← checkedPollWithin now index patience stack
    checkedPolling now rest stack

def checkedProcess [Machine] (stack : Stack ω) (now : Tick) : Checked (Stack ω) := do
  let indexes ← stack.registry.checkedIndexes
  let stack ← checkedPolling now indexes stack
  stack.checkedAlarms now

def checkedOpenConnection [Machine] (stack : Stack ω) : Checked (Option (Handle × Stack ω)) := do
  match ← stack.connections.checkedInsert {} with
  | none => .ok none
  | some (handle, connections) => .ok (some (handle, { stack with connections }))

def checkedBind (stack : Stack ω) (handle : Handle) (address : Address) :
    Checked (Except Fault (Stack ω)) :=
  match stack.connections.get? handle with
  | none => .ok (.error .argument)
  | some connection =>
    if !connection.output.isIdle || !connection.input.isIdle then .ok (.error .inProgress)
    else do
      let known ← stack.registry.checkedContains address.interface
      let flexible ← stack.registry.checkedIsFlexible address.interface stack.outside.world
      if address.flexible && known && !flexible then .ok (.error .argument)
      else .ok (stack.updateConnection handle ({ · with address := some address }))

def checkedClose (stack : Stack ω) (handle : Handle) : Checked (Except Fault (Stack ω)) := do
  match ← stack.connections.checkedErase handle with
  | none => .ok (.error .argument)
  | some (connection, connections) =>
    let alarms ← stack.alarms.checkedCancelAll (·.connection = handle)
    .ok (.ok { stack with
      connections
      memory := connection.input.release (connection.output.release stack.memory)
      alarms })

def checkedSend [Machine] (stack : Stack ω) (now : Tick) (handle : Handle) (message : List UInt8) :
    Checked (Except Fault Unit × Stack ω) :=
  match stack.connections.get? handle with
  | none => do
    let stack ← stack.checkedSettle now
    .ok (.error .argument, stack)
  | some connection => do
    let (result, x) ← (stack.exchange connection).checkedSend (stack.scope now handle) message
    let stack ← (stack.restore handle x).checkedSettle now
    .ok (result, stack)

/-- What a call that may fail returns, and the stack after it. -/
def replied (stack : Stack ω) (outcome : Except Fault (Stack ω)) : Reply × Stack ω :=
  (.ofOutcome outcome, stack.orStay outcome)

end Stack

/-- What a call returns, and the stack after it. -/
def Call.checkedRun [Machine] : Call ω → Stack ω → Checked (Reply × Stack ω)
  | .world change, stack =>
    .ok (.nothing,
      { stack with outside := { stack.outside with world := change stack.outside.world } })
  | .addInterface interface, stack => do
    match ← stack.registry.checkedAdd interface with
    | .error fault => .ok (.registered (.error fault), stack)
    | .ok (index, registry) => .ok (.registered (.ok index), { stack with registry })
  | .removeInterface index, stack => do
    let removed ← stack.registry.checkedRemove index
    .ok (stack.replied (removed.map fun registry => { stack with registry }))
  | .subscribe index, stack => do
    match ← stack.raw.checkedOpen index with
    | none => .ok (.opened none, stack)
    | some (handle, raw) => .ok (.opened (some handle), { stack with raw })
  | .updateSubscription handle change, stack =>
    .ok (stack.replied (stack.updateSubscription handle change))
  | .rebind handle index, stack => .ok (stack.replied (stack.rebind handle index))
  | .unsubscribe handle, stack => do
    let closed ← stack.raw.checkedClose handle
    .ok (stack.replied (closed.map fun raw => { stack with raw }))
  | .sendFrame handle frame, stack => do
    let (result, raw, outside) ← stack.raw.checkedSend handle frame stack.registry stack.outside
    .ok (.outcome result, { stack with raw, outside })
  | .openConnection, stack => do
    match ← stack.checkedOpenConnection with
    | none => .ok (.opened none, stack)
    | some (handle, after) => .ok (.opened (some handle), after)
  | .bind handle address, stack => do
    let bound ← stack.checkedBind handle address
    .ok (stack.replied bound)
  | .listen handle onReceived onSent onFailed, stack =>
    .ok (stack.replied
      (stack.updateConnection handle ({ · with onReceived, onSent, onFailed })))
  | .close handle, stack => do
    let closed ← stack.checkedClose handle
    .ok (stack.replied closed)
  | .send now handle message, stack => do
    let (result, after) ← stack.checkedSend now handle message
    .ok (.outcome result, after)
  | .input now index frame, stack => do
    let after ← stack.checkedInput now index frame
    .ok (.nothing, after)
  | .sent now index frame, stack => do
    let after ← stack.checkedSent now index frame
    .ok (.nothing, after)
  | .checkAlarms now, stack => do
    let after ← stack.checkedAlarms now
    .ok (.nothing, after)
  | .process now, stack => do
    let after ← stack.checkedProcess now
    .ok (.nothing, after)

/-- What every call finds: a sound stack with its timers and its subscriptions in order, whose
memory and places can be counted. -/
structure Stack.Fit [Machine] (stack : Stack ω) : Prop where
  kept : stack.Kept
  budgeted : stack.Budgeted
  memory : stack.settings.memory ≤ Machine.largest
  places : stack.registry.places.length ≤ 255
  raw : stack.raw.Sound

/-- A step that keeps the tables of interfaces and subscriptions in order. -/
def Step.Tidy : Step ω → Prop
  | .register registry => registry.places.length ≤ 255
  | .subscribe raw => raw.Sound
  | _ => True

section

variable [Machine] {stack : Stack ω}

theorem Stack.Fit.linked (fit : stack.Fit) : stack.alarms.Linked := by
  obtain ⟨_, overseen⟩ := fit.kept.overseen
  exact overseen.linked

omit [Machine] in
theorem Step.raw_run {step : Step ω} (tidy : step.Tidy) (sound : stack.raw.Sound) :
    (step.run stack).raw.Sound := by
  by_cases transport : step.isTransport = true
  · obtain ⟨_, _, _, _, _, same⟩ := Step.around_run transport stack
    rw [same]
    exact sound
  · cases step with
    | subscribe raw => exact tidy
    | sendFrame handle frame => exact sound.send handle frame stack.registry stack.outside
    | offer index frame => exact sound.input index frame stack.outside
    | acknowledge index frame => exact sound.sent index frame stack.outside
    | world | register => exact sound
    | _ => exact absurd rfl transport

omit [Machine] in
theorem Step.places_run {step : Step ω} (tidy : step.Tidy)
    (few : stack.registry.places.length ≤ 255) :
    (step.run stack).registry.places.length ≤ 255 := by
  by_cases registers : ∃ registry, step = .register registry
  · obtain ⟨registry, rfl⟩ := registers
    exact tidy
  · have same := congrArg Prod.snd (Step.surroundings_run (not_exists.mp registers) stack)
    rw [show (step.run stack).registry = stack.registry from same]
    exact few

/-- Every step leaves a fit stack for the next one. -/
theorem Stack.Fit.step (fit : stack.Fit) (step : Step ω) (timely : step.Timely stack)
    (tidy : step.Tidy) : (step.run stack).Fit where
  kept := fit.kept.step step timely
  budgeted := fit.budgeted.step fit.kept.sound timely
  memory := by
    rw [Step.settings_run]
    exact fit.memory
  places := Step.places_run tidy fit.places
  raw := Step.raw_run tidy fit.raw

/-- An operation on a connection finds what it needs. -/
theorem Stack.Fit.exchange (fit : stack.Fit) {handle : Handle} {connection : Connection}
    (live : stack.connections.get? handle = some connection) (now : Tick)
    {alarms : TimerQueue Alarm} (linked : alarms.Linked) (confirmations : List Confirmation) :
    Exchange.Fit { stack.exchange connection with alarms, confirmations }
      (stack.scope now handle) where
  linked := linked
  used := fit.budgeted.used
  capacity := by
    rw [show (stack.exchange connection).memory.capacity = _ from fit.budgeted.capacity]
    exact fit.memory
  flows := fit.kept.sound.flows handle connection live

omit [Machine] in
theorem Stack.checkedOn_eq {now : Tick} {handle : Handle}
    {checked : Exchange ω → Scope ω → Checked (Exchange ω)}
    {operation : Exchange ω → Scope ω → Exchange ω}
    (works : ∀ connection, stack.connections.get? handle = some connection →
      checked (stack.exchange connection) (stack.scope now handle) =
        .ok (operation (stack.exchange connection) (stack.scope now handle))) :
    stack.checkedOn now handle checked = .ok (stack.on now handle operation) := by
  unfold checkedOn Stack.on
  cases live : stack.connections.get? handle with
  | none => rfl
  | some connection => simp only [works connection live, Checked.ok_bind]

namespace Stack.Fit

theorem confirm (fit : stack.Fit) (now : Tick) (handle : Handle) (direction : Direction) :
    stack.checkedOn now handle (·.checkedConfirm · direction) =
      .ok ((Step.confirm now handle direction).run stack) := by
  rw [Step.run]
  exact checkedOn_eq fun _ live =>
    Exchange.checkedConfirm_eq (fit.exchange live now fit.linked stack.confirmations) direction

theorem arrive (fit : stack.Fit) (now : Tick) (handle : Handle) (pdu : Pdu) :
    stack.checkedOn now handle (·.checkedReceive · pdu) =
      .ok ((Step.arrive now handle pdu).run stack) := by
  rw [Step.run]
  exact checkedOn_eq fun _ live =>
    Exchange.checkedReceive_eq (fit.exchange live now fit.linked stack.confirmations) pdu

theorem settleWithin (fit : stack.Fit) (now : Tick) (fuel : Nat) :
    checkedSettleWithin now fuel stack = .ok (Stack.settleWithin now fuel stack) ∧
      (Stack.settleWithin now fuel stack).Fit := by
  induction fuel generalizing stack with
  | zero => exact ⟨rfl, fit⟩
  | succ fuel ih =>
    have next := fit.step (.settle now) trivial trivial
    unfold checkedSettleWithin Stack.settleWithin
    cases noted : stack.confirmations with
    | nil => exact ⟨rfl, fit⟩
    | cons confirmation rest =>
      have handled : { stack with confirmations := rest }.checkedOn now confirmation.connection
          (·.checkedConfirm · confirmation.direction) = .ok ((Step.settle now).run stack) := by
        simp only [Step.run, noted]
        exact checkedOn_eq fun _ live =>
          Exchange.checkedConfirm_eq (fit.exchange live now fit.linked rest) _
      simp only [handled, Checked.ok_bind]
      simp only [Step.run, noted] at next ⊢
      exact ih next

end Stack.Fit

/-- A checked program has a result, which is this stack, and the stack is fit for the next call. -/
structure Stack.Comes (checked : Checked (Stack ω)) (after : Stack ω) : Prop where
  result : checked = .ok after
  fit : after.Fit
  quiet : after.confirmations = []

theorem Stack.Comes.ready {checked : Checked (Stack ω)} {after : Stack ω}
    (comes : Stack.Comes checked after) : after.Fit ∧ after.confirmations = [] :=
  ⟨comes.fit, comes.quiet⟩

namespace Stack.Fit

theorem settle (fit : stack.Fit) (now : Tick) :
    Comes (stack.checkedSettle now) (stack.settle now) := by
  obtain ⟨result, after⟩ := fit.settleWithin now _
  refine ⟨result, after, ?_⟩
  rw [settle_eq]
  exact (settling_smooth fit.kept.sound now).quiet

/-- Whatever step was taken, the confirmations that it brought about can be handled. -/
theorem settled (fit : stack.Fit) (step : Step ω) (timely : step.Timely stack) (tidy : step.Tidy)
    {checked : Checked (Stack ω)} (result : checked = .ok (step.run stack)) (now : Tick) :
    Comes (checked >>= (·.checkedSettle now)) ((step.run stack).settle now) := by
  rw [result, Checked.ok_bind]
  exact (fit.step step timely tidy).settle now

theorem inputTransport (fit : stack.Fit) (quiet : stack.confirmations = []) (now : Tick)
    (index : InterfaceIndex) (frame : Frame) :
    Comes (stack.checkedInputTransport now index frame >>= (·.checkedSettle now))
      ((stack.inputTransport now index frame).settle now) := by
  unfold checkedInputTransport Stack.inputTransport
  cases stack.findConnection? (·.receives index frame.id) with
  | none => exact fit.settle now
  | some handle =>
    simp only [Frame.checkedPayload_eq, Pdu.checkedDecode_eq, Checked.ok_bind]
    cases Pdu.decode frame.payload with
    | none => exact fit.settle now
    | some pdu =>
      exact fit.settled (.arrive now handle pdu) quiet trivial (fit.arrive now handle pdu) now

theorem input (fit : stack.Fit) (quiet : stack.confirmations = []) (now : Tick)
    (index : InterfaceIndex) (frame : Frame) :
    Comes (stack.checkedInput now index frame) (stack.input now index frame) := by
  have offered := fit.step (.offer index frame) quiet trivial
  unfold checkedInput Stack.input
  rw [Frame.checkedPayload_eq, Checked.ok_bind, Raw.checkedInput_eq fit.raw, Checked.ok_bind]
  simp only [Step.run] at offered
  generalize stack.raw.input index frame stack.outside = taken at offered ⊢
  rcases taken with ⟨_ | _, raw, outside⟩
  · exact offered.inputTransport quiet now index frame
  · exact ⟨rfl, offered, quiet⟩

theorem sentTransport (fit : stack.Fit) (quiet : stack.confirmations = []) (now : Tick)
    (index : InterfaceIndex) (frame : Frame) :
    Comes (stack.checkedSentTransport now index frame >>= (·.checkedSettle now))
      ((stack.sentTransport now index frame).settle now) := by
  unfold checkedSentTransport Stack.sentTransport
  simp only [Frame.checkedPayload_eq, Checked.ok_bind]
  show Comes ((match stack.findConnection? fun connection =>
      (connection.flow (confirmedDirection frame)).unconfirmed &&
        connection.transmits index frame.id with
    | none => .ok stack
    | some handle => stack.checkedOn now handle (·.checkedConfirm · (confirmedDirection frame)))
      >>= _) _
  cases stack.findConnection? fun connection =>
      (connection.flow (confirmedDirection frame)).unconfirmed &&
        connection.transmits index frame.id with
  | none => exact fit.settle now
  | some handle =>
    exact fit.settled (.confirm now handle (confirmedDirection frame)) quiet trivial
      (fit.confirm now handle _) now

theorem sent (fit : stack.Fit) (quiet : stack.confirmations = []) (now : Tick)
    (index : InterfaceIndex) (frame : Frame) :
    Comes (stack.checkedSent now index frame) (stack.sent now index frame) := by
  have acknowledged := fit.step (.acknowledge index frame) quiet trivial
  unfold checkedSent Stack.sent
  simp only [Step.run] at acknowledged
  generalize stack.raw.sent index frame stack.outside = taken at acknowledged ⊢
  rcases taken with ⟨_ | _, raw, outside⟩
  · exact acknowledged.sentTransport quiet now index frame
  · exact ⟨rfl, acknowledged, quiet⟩

theorem alarmsWithin (fit : stack.Fit) (quiet : stack.confirmations = []) (now : Tick)
    (fuel : Nat) :
    Comes (checkedAlarmsWithin now fuel stack) (checkAlarmsWithin now fuel stack) := by
  induction fuel generalizing stack with
  | zero => exact ⟨rfl, fit, quiet⟩
  | succ fuel ih =>
    unfold checkedAlarmsWithin checkAlarmsWithin
    rw [TimerQueue.checkedPopDue_eq fit.linked, Checked.ok_bind]
    cases due : stack.alarms.popDue now with
    | none => exact ⟨rfl, fit, quiet⟩
    | some popped =>
      obtain ⟨alarm, alarms⟩ := popped
      have gone : { stack with alarms }.checkedOn now alarm.connection
          (·.checkedExpire · alarm) = .ok ((Step.expire now).run stack) := by
        have linked := (TimerQueue.popDue_linked fit.linked due).1
        simp only [Step.run, due]
        exact checkedOn_eq fun _ live =>
          Exchange.checkedExpire_eq (fit.exchange live now linked stack.confirmations) alarm
      have handled := (fit.step (.expire now) quiet trivial).settle now
      have again := ih handled.fit handled.quiet
      simp only [gone, Checked.ok_bind, handled.result]
      simp only [Step.run, due] at again ⊢
      exact again

theorem pollWithin (fit : stack.Fit) (quiet : stack.confirmations = []) (now : Tick)
    (index : InterfaceIndex) (fuel : Nat) :
    Comes (checkedPollWithin now index fuel stack) (Stack.pollWithin now index fuel stack) := by
  induction fuel generalizing stack with
  | zero => exact ⟨rfl, fit, quiet⟩
  | succ fuel ih =>
    unfold checkedPollWithin Stack.pollWithin
    rw [Registry.checkedGet?_eq, Checked.ok_bind]
    cases stack.registry.get? index with
    | none => exact ⟨rfl, fit, quiet⟩
    | some interface =>
      have polled := fit.step (.world fun world => (interface.receive world).2) quiet trivial
      simp only [Step.run] at polled
      simp only []
      generalize interface.receive stack.outside.world = answer at polled ⊢
      rcases answer with ⟨_ | frame, world⟩
      · exact ⟨rfl, polled, quiet⟩
      · have taken := polled.input quiet now index frame
        simp only [taken.result, Checked.ok_bind]
        exact ih taken.fit taken.quiet

theorem polling (fit : stack.Fit) (quiet : stack.confirmations = []) (now : Tick)
    (indexes : List InterfaceIndex) :
    Comes (checkedPolling now indexes stack)
      (indexes.foldl (fun stack index => stack.poll now index) stack) := by
  induction indexes generalizing stack with
  | nil => exact ⟨rfl, fit, quiet⟩
  | cons index rest ih =>
    have polled := fit.pollWithin quiet now index patience
    unfold checkedPolling
    rw [polled.result, Checked.ok_bind, List.foldl_cons]
    exact ih polled.fit polled.quiet

theorem process (fit : stack.Fit) (quiet : stack.confirmations = []) (now : Tick) :
    Comes (stack.checkedProcess now) (stack.process now) := by
  have polled := fit.polling quiet now stack.registry.indexes
  unfold checkedProcess
  rw [Registry.checkedIndexes_eq fit.places, Checked.ok_bind, polled.result, Checked.ok_bind]
  exact polled.fit.alarmsWithin polled.quiet now _

theorem send (fit : stack.Fit) (quiet : stack.confirmations = []) (now : Tick) (handle : Handle)
    (message : List UInt8) :
    stack.checkedSend now handle message = .ok (stack.send now handle message) ∧
      (stack.send now handle message).2.Fit ∧
      (stack.send now handle message).2.confirmations = [] := by
  have submitted := (fit.step (.submit now handle message) quiet trivial).settle now
  rw [← send_eq] at submitted
  refine ⟨?_, submitted.fit, submitted.quiet⟩
  have result := submitted.result
  simp only [Step.run, Stack.on, Stack.send] at result
  unfold checkedSend Stack.send
  cases live : stack.connections.get? handle with
  | none =>
    simp only [live] at result
    simp only [result, Checked.ok_bind]
  | some connection =>
    have checked : (stack.exchange connection).checkedSend (stack.scope now handle) message =
        .ok ((stack.exchange connection).send (stack.scope now handle) message) :=
      Exchange.checkedSend_eq (fit.exchange live now fit.linked stack.confirmations) message
    simp only [live] at result
    simp only [checked, Checked.ok_bind, result]

theorem openConnection (fit : stack.Fit) :
    stack.checkedOpenConnection = .ok stack.openConnection := by
  unfold checkedOpenConnection Stack.openConnection
  rw [Slots.checkedInsert_eq fit.kept.sound.slots, Checked.ok_bind]
  cases stack.connections.insert {} <;> rfl

theorem close (fit : stack.Fit) (handle : Handle) :
    stack.checkedClose handle = .ok (stack.close handle) := by
  unfold checkedClose Stack.close
  rw [Slots.checkedErase_eq fit.kept.sound.slots, Checked.ok_bind]
  cases stack.connections.erase handle with
  | none => rfl
  | some erased => simp only [TimerQueue.checkedCancelAll_eq fit.linked, Checked.ok_bind]

end Stack.Fit

omit [Machine] in
theorem Stack.checkedBind_eq (stack : Stack ω) (handle : Handle) (address : Address) :
    stack.checkedBind handle address = .ok (stack.bind handle address) := by
  unfold checkedBind Stack.bind
  cases stack.connections.get? handle with
  | none => rfl
  | some connection =>
    simp only [Registry.checkedContains_eq, Registry.checkedIsFlexible_eq, Checked.ok_bind]
    repeat' split
    all_goals rfl

/-- A call that is one plain step leaves a fit stack. -/
theorem Stack.Fit.plain (fit : stack.Fit) (quiet : stack.confirmations = []) (call : Call ω)
    {step : Step ω} (only : call.steps stack = [step]) (plain : step.isPlain = true)
    (tidy : step.Tidy) : (call.run stack).Fit ∧ (call.run stack).confirmations = [] := by
  obtain ⟨timely, _, still⟩ := fit.kept.sound.plain_step quiet plain
  rw [Call.run_eq, only]
  exact ⟨fit.step step timely tidy, still⟩

/-- After a call the stack is fit for the next one. -/
theorem Call.run_fit (call : Call ω) (fit : stack.Fit) (quiet : stack.confirmations = []) :
    (call.run stack).Fit ∧ (call.run stack).confirmations = [] := by
  cases call with
  | addInterface interface =>
    refine fit.plain quiet _ rfl rfl ?_
    simp only [Step.Tidy, Call.run, Stack.addInterface]
    cases added : stack.registry.add interface with
    | error fault => exact fit.places
    | ok result => exact (Registry.length_add added).le.trans fit.places
  | removeInterface index =>
    refine fit.plain quiet _ rfl rfl ?_
    simp only [Step.Tidy, Call.run, Stack.removeInterface]
    cases removed : stack.registry.remove index with
    | error fault => exact fit.places
    | ok registry => exact (Registry.length_remove removed).le.trans fit.places
  | subscribe index =>
    refine fit.plain quiet _ rfl rfl ?_
    simp only [Step.Tidy, Call.run, Stack.subscribe]
    cases opened : stack.raw.open index with
    | none => exact fit.raw
    | some result => exact fit.raw.open opened
  | updateSubscription handle change =>
    refine fit.plain quiet _ rfl rfl ?_
    simp only [Step.Tidy, Call.run, Stack.updateSubscription]
    cases updated : stack.raw.update handle change with
    | error fault => exact fit.raw
    | ok raw => exact fit.raw.update updated
  | rebind handle index =>
    refine fit.plain quiet _ rfl rfl ?_
    simp only [Step.Tidy, Call.run, Stack.rebind]
    cases bound : stack.raw.bind handle index with
    | error fault => exact fit.raw
    | ok raw => exact fit.raw.update bound
  | unsubscribe handle =>
    refine fit.plain quiet _ rfl rfl ?_
    simp only [Step.Tidy, Call.run, Stack.unsubscribe]
    cases closed : stack.raw.close handle with
    | error fault => exact fit.raw
    | ok raw => exact fit.raw.close closed
  | send now handle message => exact (fit.send quiet now handle message).2
  | input now index frame => exact (fit.input quiet now index frame).ready
  | sent now index frame => exact (fit.sent quiet now index frame).ready
  | checkAlarms now => exact (fit.alarmsWithin quiet now _).ready
  | process now => exact (fit.process quiet now).ready
  | _ => exact fit.plain quiet _ rfl rfl trivial

/-- Every call has a result. -/
theorem Call.checkedRun_eq (call : Call ω) (fit : stack.Fit) (quiet : stack.confirmations = []) :
    call.checkedRun stack = .ok (call.reply stack, call.run stack) := by
  cases call with
  | addInterface interface =>
    simp only [checkedRun, reply, run, Stack.addInterface, Registry.checkedAdd_eq fit.places,
      Checked.ok_bind]
    cases stack.registry.add interface <;> rfl
  | removeInterface index =>
    simp only [checkedRun, reply, run, Stack.removeInterface, Registry.checkedRemove_eq,
      Checked.ok_bind]
    cases stack.registry.remove index <;> rfl
  | subscribe index =>
    simp only [checkedRun, reply, run, Stack.subscribe, Raw.checkedOpen_eq fit.raw,
      Checked.ok_bind]
    cases stack.raw.open index <;> rfl
  | unsubscribe handle =>
    simp only [checkedRun, reply, run, Stack.unsubscribe, Raw.checkedClose_eq fit.raw,
      Checked.ok_bind]
    cases stack.raw.close handle <;> rfl
  | sendFrame handle frame =>
    simp only [checkedRun, reply, run, Raw.checkedSend_eq, Checked.ok_bind]
    rfl
  | openConnection =>
    simp only [checkedRun, reply, run, fit.openConnection, Checked.ok_bind]
    cases stack.openConnection <;> rfl
  | bind handle address =>
    simp only [checkedRun, reply, run, Stack.checkedBind_eq, Checked.ok_bind]
    rfl
  | close handle =>
    simp only [checkedRun, reply, run, fit.close, Checked.ok_bind]
    rfl
  | send now handle message =>
    simp only [checkedRun, reply, run, (fit.send quiet now handle message).1, Checked.ok_bind]
  | input now index frame =>
    simp only [checkedRun, reply, run, (fit.input quiet now index frame).result, Checked.ok_bind]
  | sent now index frame =>
    simp only [checkedRun, reply, run, (fit.sent quiet now index frame).result, Checked.ok_bind]
  | checkAlarms now =>
    have alarms : stack.checkedAlarms now = _ := (fit.alarmsWithin quiet now _).result
    simp only [checkedRun, reply, run, alarms, Checked.ok_bind]
    rfl
  | process now =>
    simp only [checkedRun, reply, run, (fit.process quiet now).result, Checked.ok_bind]
  | _ => rfl

omit [Machine] in
theorem Settings.of_validate {settings : Settings} (valid : settings.validate = .ok ()) :
    0 < settings.connections ∧ settings.connections ≤ 0xFFFF ∧ settings.subscriptions ≤ 0xFFFF ∧
      settings.interfaces ≤ 0xFF := by
  unfold Settings.validate at valid
  split at valid
  · cases valid
  · split at valid
    · cases valid
    · omega

/-- Making a stack has a result, be it a stack or a fault. -/
theorem Stack.checkedNew_eq (settings : Settings) (world : ω) :
    Stack.checkedNew settings world = .ok (Stack.new settings world) := by
  unfold checkedNew
  cases valid : settings.validate with
  | error fault =>
    unfold Stack.new
    rw [valid]
    rfl
  | ok =>
    obtain ⟨positive, few, _⟩ := Settings.of_validate valid
    have wide := Machine.wide
    have fits : settings.connections * 2 ≤ Machine.largest := by omega
    have room : settings.connections * 2 ≠ 0 := by omega
    simp only [Checked.mul_eq fits, Checked.ok_bind, Checked.queue, if_neg room]

/-- A new stack is fit for every call. -/
theorem Stack.new_fit {settings : Settings} {world : ω} {start : Stack ω}
    (run : Stack.new settings world = .ok start) (memory : settings.memory ≤ Machine.largest) :
    start.Fit ∧ start.confirmations = [] := by
  obtain ⟨sound, quiet⟩ := Stack.new_sound run
  have overseen := (Stack.new_watched run).2.overseen
  have budgeted := Stack.new_budgeted run
  have valid : settings.validate = .ok () := by
    unfold Stack.new at run
    cases valid : settings.validate with
    | error fault =>
      rw [valid] at run
      cases run
    | ok => rfl
  obtain ⟨_, _, subscriptions, interfaces⟩ := Settings.of_validate valid
  obtain ⟨_, _, _, rfl⟩ := Stack.new_eq run
  refine ⟨⟨⟨sound, _, overseen⟩, budgeted, memory, ?_, ?_⟩, quiet⟩
  · simp only [Registry.ofCapacity, List.length_replicate]
    exact interfaces
  · exact Raw.ofCapacity_sound (by omega)

end

end DiagBus
