import DiagBus.Stack

namespace DiagBus

variable {ω : Type}

inductive Step (ω : Type)
  /-- The world outside changes. -/
  | world (change : ω → ω)
  /-- Interfaces are registered or removed. -/
  | register (registry : Registry ω)
  /-- Raw subscriptions are opened, changed or closed. -/
  | subscribe (raw : Raw ω)
  /-- A raw subscription sends a frame. -/
  | sendFrame (handle : Handle) (frame : Frame)
  /-- A received frame is offered to the raw subscriptions. -/
  | offer (index : InterfaceIndex) (frame : Frame)
  /-- A raw subscription takes the confirmation of its frame. -/
  | acknowledge (index : InterfaceIndex) (frame : Frame)
  | openConnection
  | bind (handle : Handle) (address : Address)
  | listen (handle : Handle) (onReceived onSent onFailed : Option Listener)
  | close (handle : Handle)
  /-- A message is given to a connection. -/
  | submit (now : Tick) (handle : Handle) (message : List UInt8)
  /-- A unit of the peer reaches a connection. -/
  | arrive (now : Tick) (handle : Handle) (pdu : Pdu)
  /-- A frame is confirmed that its interface did not confirm at once. -/
  | confirm (now : Tick) (handle : Handle) (direction : Direction)
  /-- A confirmation that was noted is handled. -/
  | settle (now : Tick)
  /-- The first alarm goes off if it is due. -/
  | expire (now : Tick)

/-- The stack after a call that may fail; a failed one changes nothing. -/
def Stack.orStay (stack : Stack ω) (outcome : Except Fault (Stack ω)) : Stack ω :=
  match outcome with
  | .ok after => after
  | .error _ => stack

def Step.run : Step ω → Stack ω → Stack ω
  | .world change, stack =>
    { stack with outside := { stack.outside with world := change stack.outside.world } }
  | .register registry, stack => { stack with registry }
  | .subscribe raw, stack => { stack with raw }
  | .sendFrame handle frame, stack => (stack.sendFrame handle frame).2
  | .offer index frame, stack =>
    { stack with
      raw := (stack.raw.input index frame stack.outside).2.1
      outside := (stack.raw.input index frame stack.outside).2.2 }
  | .acknowledge index frame, stack =>
    { stack with
      raw := (stack.raw.sent index frame stack.outside).2.1
      outside := (stack.raw.sent index frame stack.outside).2.2 }
  | .openConnection, stack => (stack.openConnection).elim stack (·.2)
  | .bind handle address, stack => stack.orStay (stack.bind handle address)
  | .listen handle onReceived onSent onFailed, stack =>
    stack.orStay (stack.updateConnection handle ({ · with onReceived, onSent, onFailed }))
  | .close handle, stack => stack.orStay (stack.close handle)
  | .submit now handle message, stack => stack.on now handle fun x scope => (x.send scope message).2
  | .arrive now handle pdu, stack => stack.on now handle (·.receive · pdu)
  | .confirm now handle direction, stack => stack.on now handle (·.confirm · direction)
  | .settle now, stack =>
    match stack.confirmations with
    | [] => stack
    | confirmation :: rest =>
      { stack with confirmations := rest }.on now confirmation.connection
        (·.confirm · confirmation.direction)
  | .expire now, stack =>
    match stack.alarms.popDue now with
    | none => stack
    | some (alarm, alarms) =>
      { stack with alarms }.on now alarm.connection (·.expire · alarm)

/-- The stack after these steps. -/
def Stack.through (stack : Stack ω) (steps : List (Step ω)) : Stack ω :=
  steps.foldl (fun stack step => step.run stack) stack

/-- A step and the stack that takes it. -/
structure Moment (ω : Type) where
  before : Stack ω
  step : Step ω

def Moment.after (moment : Moment ω) : Stack ω :=
  moment.step.run moment.before

/-- What the outside was told in a step. -/
def Moment.news (moment : Moment ω) : List Signal :=
  moment.after.outside.signals.drop moment.before.outside.signals.length

/-- The steps with the stacks that take them. -/
def Stack.moments (stack : Stack ω) : List (Step ω) → List (Moment ω)
  | [] => []
  | step :: rest => ⟨stack, step⟩ :: (step.run stack).moments rest

theorem Stack.through_append (stack : Stack ω) (first second : List (Step ω)) :
    stack.through (first ++ second) = (stack.through first).through second := by
  simp only [Stack.through, List.foldl_append]

theorem Stack.moments_append (stack : Stack ω) (first second : List (Step ω)) :
    stack.moments (first ++ second) =
      stack.moments first ++ (stack.through first).moments second := by
  induction first generalizing stack with
  | nil => rfl
  | cons step rest ih => simp only [List.cons_append, Stack.moments, ih]; rfl

namespace Stack

/-- The confirmations that `settle` handles. -/
def settlingWithin (now : Tick) : (fuel : Nat) → Stack ω → List (Step ω)
  | 0, _ => []
  | fuel + 1, stack =>
    if stack.confirmations = [] then []
    else .settle now :: settlingWithin now fuel ((Step.settle now).run stack)

def settling (stack : Stack ω) (now : Tick) : List (Step ω) :=
  settlingWithin now (stack.confirmations.length + stack.memory.used) stack

/-- A step after which noted confirmations are handled. -/
def settled (stack : Stack ω) (now : Tick) (step : Step ω) : List (Step ω) :=
  step :: (step.run stack).settling now

/-- A received frame reaches the connection it is addressed to, if it is a unit. -/
def arriving (stack : Stack ω) (now : Tick) (index : InterfaceIndex) (frame : Frame) :
    List (Step ω) :=
  match stack.findConnection? (·.receives index frame.id), Pdu.decode frame.payload with
  | some handle, some pdu => stack.settled now (.arrive now handle pdu)
  | _, _ => stack.settling now

/-- The steps of `input`. -/
def inputSteps (stack : Stack ω) (now : Tick) (index : InterfaceIndex) (frame : Frame) :
    List (Step ω) :=
  .offer index frame ::
    if (stack.raw.input index frame stack.outside).1 then []
    else ((Step.offer index frame).run stack).arriving now index frame

/-- A confirmation reaches the first connection that waits for it. -/
def confirming (stack : Stack ω) (now : Tick) (index : InterfaceIndex) (frame : Frame) :
    List (Step ω) :=
  let direction := confirmedDirection frame
  match stack.findConnection? fun connection =>
      (connection.flow direction).unconfirmed && connection.transmits index frame.id with
  | some handle => stack.settled now (.confirm now handle direction)
  | none => stack.settling now

/-- The steps of `sent`. -/
def sentSteps (stack : Stack ω) (now : Tick) (index : InterfaceIndex) (frame : Frame) :
    List (Step ω) :=
  .acknowledge index frame ::
    if (stack.raw.sent index frame stack.outside).1 then []
    else ((Step.acknowledge index frame).run stack).confirming now index frame

/-- The steps of `checkAlarms`. -/
def alarmSteps (now : Tick) : (fuel : Nat) → Stack ω → List (Step ω)
  | 0, _ => []
  | fuel + 1, stack =>
    match stack.alarms.popDue now with
    | none => []
    | some _ =>
      stack.settled now (.expire now) ++
        alarmSteps now fuel (stack.through (stack.settled now (.expire now)))

/-- The steps of `poll`. -/
def pollSteps (now : Tick) (index : InterfaceIndex) : (fuel : Nat) → Stack ω → List (Step ω)
  | 0, _ => []
  | fuel + 1, stack =>
    match stack.registry.get? index with
    | none => []
    | some interface =>
      let polled : Step ω := .world fun world => (interface.receive world).2
      match (interface.receive stack.outside.world).1 with
      | none => [polled]
      | some frame =>
        polled :: ((polled.run stack).inputSteps now index frame ++
          pollSteps now index fuel
            ((polled.run stack).through ((polled.run stack).inputSteps now index frame)))

/-- The steps of polling these interfaces. -/
def pollingSteps (now : Tick) : List InterfaceIndex → Stack ω → List (Step ω)
  | [], _ => []
  | index :: rest, stack =>
    pollSteps now index patience stack ++
      pollingSteps now rest (stack.through (pollSteps now index patience stack))

theorem settleWithin_eq (now : Tick) (fuel : Nat) (stack : Stack ω) :
    settleWithin now fuel stack = stack.through (settlingWithin now fuel stack) := by
  induction fuel generalizing stack with
  | zero => rfl
  | succ fuel ih =>
    unfold settleWithin settlingWithin
    cases noted : stack.confirmations with
    | nil => rfl
    | cons confirmation rest =>
      simp only [ih, reduceCtorEq, if_false, Stack.through, List.foldl_cons, Step.run, noted]

theorem settle_eq (stack : Stack ω) (now : Tick) :
    stack.settle now = stack.through (stack.settling now) :=
  settleWithin_eq now _ stack

theorem settled_eq (stack : Stack ω) (now : Tick) (step : Step ω) :
    (step.run stack).settle now = stack.through (stack.settled now step) := by
  rw [settle_eq]
  rfl

theorem settleWithin_quiet {stack : Stack ω} (quiet : stack.confirmations = []) (now : Tick)
    (fuel : Nat) : settleWithin now fuel stack = stack := by
  cases fuel with
  | zero => rfl
  | succ fuel => simp only [settleWithin, quiet]

theorem settle_quiet {stack : Stack ω} (quiet : stack.confirmations = []) (now : Tick) :
    stack.settle now = stack :=
  settleWithin_quiet quiet now _

theorem send_eq (stack : Stack ω) (now : Tick) (handle : Handle) (message : List UInt8) :
    (stack.send now handle message).2 =
      ((Step.submit now handle message).run stack).settle now := by
  simp only [Step.run, send, on]
  cases stack.connections.get? handle <;> rfl

theorem arriving_eq (stack : Stack ω) (now : Tick) (index : InterfaceIndex) (frame : Frame) :
    (stack.inputTransport now index frame).settle now =
      stack.through (stack.arriving now index frame) := by
  unfold inputTransport arriving
  cases stack.findConnection? (·.receives index frame.id) with
  | none => exact settle_eq stack now
  | some handle =>
    cases Pdu.decode frame.payload with
    | none => exact settle_eq stack now
    | some pdu => exact settled_eq stack now (.arrive now handle pdu)

theorem input_eq (stack : Stack ω) (now : Tick) (index : InterfaceIndex) (frame : Frame) :
    stack.input now index frame = stack.through (stack.inputSteps now index frame) := by
  unfold input inputSteps
  rw [Stack.through, List.foldl_cons]
  show _ = ((Step.offer index frame).run stack).through _
  simp only [Step.run]
  rcases stack.raw.input index frame stack.outside with ⟨consumed, raw, outside⟩
  cases consumed with
  | true => rfl
  | false => exact arriving_eq _ _ _ _

theorem confirming_eq (stack : Stack ω) (now : Tick) (index : InterfaceIndex) (frame : Frame) :
    (stack.sentTransport now index frame).settle now =
      stack.through (stack.confirming now index frame) := by
  unfold sentTransport confirming
  simp only []
  cases stack.findConnection? fun connection =>
      (connection.flow (confirmedDirection frame)).unconfirmed &&
        connection.transmits index frame.id with
  | none => exact settle_eq stack now
  | some handle => exact settled_eq stack now (.confirm now handle (confirmedDirection frame))

theorem sent_eq (stack : Stack ω) (now : Tick) (index : InterfaceIndex) (frame : Frame) :
    stack.sent now index frame = stack.through (stack.sentSteps now index frame) := by
  unfold sent sentSteps
  rw [Stack.through, List.foldl_cons]
  show _ = ((Step.acknowledge index frame).run stack).through _
  simp only [Step.run]
  rcases stack.raw.sent index frame stack.outside with ⟨consumed, raw, outside⟩
  cases consumed with
  | true => rfl
  | false => exact confirming_eq _ _ _ _

theorem checkAlarmsWithin_eq (now : Tick) (fuel : Nat) (stack : Stack ω) :
    checkAlarmsWithin now fuel stack = stack.through (alarmSteps now fuel stack) := by
  induction fuel generalizing stack with
  | zero => rfl
  | succ fuel ih =>
    unfold checkAlarmsWithin alarmSteps
    cases due : stack.alarms.popDue now with
    | none => rfl
    | some popped =>
      obtain ⟨alarm, alarms⟩ := popped
      have gone : ({ stack with alarms }.on now alarm.connection (·.expire · alarm)) =
          (Step.expire now).run stack := by
        simp only [Step.run, due]
      simp only [Stack.through_append, ← ih, gone, settled_eq]

theorem pollWithin_eq (now : Tick) (index : InterfaceIndex) (fuel : Nat) (stack : Stack ω) :
    pollWithin now index fuel stack = stack.through (pollSteps now index fuel stack) := by
  induction fuel generalizing stack with
  | zero => rfl
  | succ fuel ih =>
    unfold pollWithin pollSteps
    cases stack.registry.get? index with
    | none => rfl
    | some interface =>
      simp only []
      rcases polled : interface.receive stack.outside.world with ⟨found, world⟩
      cases found with
      | none =>
        simp only [Stack.through, List.foldl_cons, List.foldl_nil, Step.run, polled]
      | some frame =>
        rw [Stack.through, List.foldl_cons]
        show _ = Stack.through _ _
        simp only [Stack.through_append, ← ih, ← input_eq, Step.run, polled]

theorem polling_eq (now : Tick) (indexes : List InterfaceIndex) (stack : Stack ω) :
    indexes.foldl (fun stack index => stack.poll now index) stack =
      stack.through (pollingSteps now indexes stack) := by
  induction indexes generalizing stack with
  | nil => rfl
  | cons index rest ih =>
    simp only [pollingSteps, List.foldl_cons, Stack.through_append, ih, ← pollWithin_eq]
    rfl

end Stack

/-- A call from outside, or a change of the world between two calls. -/
inductive Call (ω : Type)
  | world (change : ω → ω)
  | addInterface (interface : Interface ω)
  | removeInterface (index : InterfaceIndex)
  | subscribe (index : InterfaceIndex)
  | updateSubscription (handle : Handle) (change : Subscription ω → Subscription ω)
  | rebind (handle : Handle) (index : InterfaceIndex)
  | unsubscribe (handle : Handle)
  | sendFrame (handle : Handle) (frame : Frame)
  | openConnection
  | bind (handle : Handle) (address : Address)
  | listen (handle : Handle) (onReceived onSent onFailed : Option Listener)
  | close (handle : Handle)
  | send (now : Tick) (handle : Handle) (message : List UInt8)
  | input (now : Tick) (index : InterfaceIndex) (frame : Frame)
  | sent (now : Tick) (index : InterfaceIndex) (frame : Frame)
  | checkAlarms (now : Tick)
  | process (now : Tick)

def Call.run : Call ω → Stack ω → Stack ω
  | .world change, stack =>
    { stack with outside := { stack.outside with world := change stack.outside.world } }
  | .addInterface interface, stack =>
    stack.orStay ((stack.addInterface interface).map (·.2))
  | .removeInterface index, stack => stack.orStay (stack.removeInterface index)
  | .subscribe index, stack => (stack.subscribe index).elim stack (·.2)
  | .updateSubscription handle change, stack =>
    stack.orStay (stack.updateSubscription handle change)
  | .rebind handle index, stack => stack.orStay (stack.rebind handle index)
  | .unsubscribe handle, stack => stack.orStay (stack.unsubscribe handle)
  | .sendFrame handle frame, stack => (stack.sendFrame handle frame).2
  | .openConnection, stack => stack.openConnection.elim stack (·.2)
  | .bind handle address, stack => stack.orStay (stack.bind handle address)
  | .listen handle onReceived onSent onFailed, stack =>
    stack.orStay (stack.updateConnection handle ({ · with onReceived, onSent, onFailed }))
  | .close handle, stack => stack.orStay (stack.close handle)
  | .send now handle message, stack => (stack.send now handle message).2
  | .input now index frame, stack => stack.input now index frame
  | .sent now index frame, stack => stack.sent now index frame
  | .checkAlarms now, stack => stack.checkAlarms now
  | .process now, stack => stack.process now

/-- The steps that a call consists of. -/
def Call.steps : Call ω → Stack ω → List (Step ω)
  | .world change, _ => [.world change]
  | .addInterface interface, stack =>
    [.register ((Call.addInterface interface).run stack).registry]
  | .removeInterface index, stack => [.register ((Call.removeInterface index).run stack).registry]
  | .subscribe index, stack => [.subscribe ((Call.subscribe index).run stack).raw]
  | .updateSubscription handle change, stack =>
    [.subscribe ((Call.updateSubscription handle change).run stack).raw]
  | .rebind handle index, stack => [.subscribe ((Call.rebind handle index).run stack).raw]
  | .unsubscribe handle, stack => [.subscribe ((Call.unsubscribe handle).run stack).raw]
  | .sendFrame handle frame, _ => [.sendFrame handle frame]
  | .openConnection, _ => [.openConnection]
  | .bind handle address, _ => [.bind handle address]
  | .listen handle onReceived onSent onFailed, _ => [.listen handle onReceived onSent onFailed]
  | .close handle, _ => [.close handle]
  | .send now handle message, stack => stack.settled now (.submit now handle message)
  | .input now index frame, stack => stack.inputSteps now index frame
  | .sent now index frame, stack => stack.sentSteps now index frame
  | .checkAlarms now, stack => Stack.alarmSteps now (2 * stack.alarms.size) stack
  | .process now, stack =>
    let polled := stack.through (Stack.pollingSteps now stack.registry.indexes stack)
    Stack.pollingSteps now stack.registry.indexes stack ++
      Stack.alarmSteps now (2 * polled.alarms.size) polled

/-- Every call does what its steps do. -/
theorem Call.run_eq (call : Call ω) (stack : Stack ω) :
    call.run stack = stack.through (call.steps stack) := by
  cases call with
  | addInterface interface =>
    simp only [Call.run, Call.steps, Stack.through, List.foldl_cons, List.foldl_nil, Step.run,
      Stack.addInterface]
    cases stack.registry.add interface <;> rfl
  | removeInterface index =>
    simp only [Call.run, Call.steps, Stack.through, List.foldl_cons, List.foldl_nil, Step.run,
      Stack.removeInterface]
    cases stack.registry.remove index <;> rfl
  | subscribe index =>
    simp only [Call.run, Call.steps, Stack.through, List.foldl_cons, List.foldl_nil, Step.run,
      Stack.subscribe]
    cases stack.raw.open index <;> rfl
  | updateSubscription handle change =>
    simp only [Call.run, Call.steps, Stack.through, List.foldl_cons, List.foldl_nil, Step.run,
      Stack.updateSubscription]
    cases stack.raw.update handle change <;> rfl
  | rebind handle index =>
    simp only [Call.run, Call.steps, Stack.through, List.foldl_cons, List.foldl_nil, Step.run,
      Stack.rebind]
    cases stack.raw.bind handle index <;> rfl
  | unsubscribe handle =>
    simp only [Call.run, Call.steps, Stack.through, List.foldl_cons, List.foldl_nil, Step.run,
      Stack.unsubscribe]
    cases stack.raw.close handle <;> rfl
  | send now handle message =>
    rw [Call.steps, ← Stack.settled_eq]
    exact Stack.send_eq stack now handle message
  | input now index frame => exact Stack.input_eq stack now index frame
  | sent now index frame => exact Stack.sent_eq stack now index frame
  | checkAlarms now => exact Stack.checkAlarmsWithin_eq now _ stack
  | process now =>
    simp only [Call.run, Call.steps, Stack.through_append, ← Stack.checkAlarmsWithin_eq,
      Stack.process, Stack.polling_eq]
    rfl
  | _ => rfl

/-- The stack after these calls. -/
def Stack.calls (stack : Stack ω) (calls : List (Call ω)) : Stack ω :=
  calls.foldl (fun stack call => call.run stack) stack

/-- All steps of these calls. -/
def Stack.steps (stack : Stack ω) : List (Call ω) → List (Step ω)
  | [] => []
  | call :: rest => call.steps stack ++ (call.run stack).steps rest

/-- Everything that happens in these calls, in order. -/
def Stack.history (stack : Stack ω) (calls : List (Call ω)) : List (Moment ω) :=
  stack.moments (stack.steps calls)

theorem Stack.calls_eq (stack : Stack ω) (calls : List (Call ω)) :
    stack.calls calls = stack.through (stack.steps calls) := by
  induction calls generalizing stack with
  | nil => rfl
  | cons call rest ih =>
    rw [Stack.steps, Stack.through_append, ← Call.run_eq, ← ih]
    rfl

end DiagBus
