import DiagBus.Proofs.Watching

namespace DiagBus

variable {ω : Type}

/-- The faults of a message of which no frame is tried. -/
def hinderingFaults : List Fault :=
  [.argument, .notConnected, .inProgress, .memory]

section

variable {ε : Type}

/-- Taking out a timer that is not there leaves the queue alone, its table included. -/
theorem TimerQueue.removeFirst_absent {queue : TimerQueue ε} {test : ε → Bool}
    (absent : ∀ entry ∈ queue.pending, test entry.1 = false) : queue.removeFirst test = queue := by
  have passed : queue.chain.takeWhile (fun link => !test link.2.event) = queue.chain := by
    refine List.takeWhile_eq_self_iff.mpr fun link member => ?_
    rw [absent _ (List.mem_map_of_mem member)]
    rfl
  have nothing : queue.chain.drop (queue.chain.takeWhile fun link => !test link.2.event).length =
      [] := by
    rw [passed, List.drop_length]
  unfold TimerQueue.removeFirst
  simp only [nothing]

end

/-- A flow without alarms has none to cancel. -/
theorem TimerQueue.cancel_unwatched {queue : TimerQueue Alarm} {handle : Handle}
    {direction : Direction} (nothing : queue.watching handle direction = []) {alarm : Alarm}
    (named : alarm.watches handle direction) : queue.cancel alarm = queue := by
  refine TimerQueue.removeFirst_absent fun entry member => ?_
  refine decide_eq_false fun same => ?_
  have foreign := List.filter_eq_nil_iff.mp nothing entry member
  rw [same] at foreign
  exact foreign named

theorem TimerQueue.disarm_unwatched {queue : TimerQueue Alarm} {handle : Handle}
    {direction : Direction} (nothing : queue.watching handle direction = []) :
    queue.disarm handle direction = queue := by
  cases direction with
  | input => exact TimerQueue.cancel_unwatched nothing (Direction.alarm_watches handle .input)
  | output =>
    have separation : (Alarm.separation handle).watches handle .output := by
      simp [Alarm.watches, Alarm.connection, Alarm.direction]
    have output : queue.cancel (.output handle) = queue :=
      TimerQueue.cancel_unwatched nothing (Direction.alarm_watches handle .output)
    unfold TimerQueue.disarm
    rw [output, TimerQueue.cancel_unwatched nothing separation]

/-- The frames of a message begin with the one that its flow hands over first. -/
theorem Sent.head {encoder : Encoder} {message : List UInt8} {frame : Frame} {flow : Flow}
    (sent : Sent encoder message [frame] flow) :
    (encoder.segmentation message).head? = some frame := by
  rw [← sent.frames]
  rfl

/-- An interface that does not take a frame of a registered place refuses it. -/
theorem Registry.hand_refused {registry : Registry ω} {origin : Origin} {index : InterfaceIndex}
    {frame : Frame} {outside after : Outside ω} {fault : Fault}
    (registered : registry.contains index = true)
    (declined : registry.hand origin index frame outside = (.error fault, after)) :
    fault = .interface ∧ ∃ interface reason world, registry.get? index = some interface ∧
      interface.output frame outside.world = (.error reason, world) ∧
      after = { world, signals := outside.signals ++ [.refused origin index frame reason] } := by
  rcases Registry.hand_eq_error_iff.mp declined with
    ⟨unknown, _⟩ | ⟨interface, reason, world, found, answer, rfl, rfl⟩
  · rw [Registry.contains, unknown] at registered
    cases registered
  · exact ⟨rfl, interface, reason, world, found, answer, rfl⟩

namespace Exchange

variable {x after : Exchange ω} {scope : Scope ω} {message : List UInt8} {fault : Fault}

/-- A message that was not sent: nothing was tried, or the interface refused its first frame. -/
inductive Declines (x : Exchange ω) (scope : Scope ω) (message : List UInt8) :
    Fault → Exchange ω → Prop
  | hindered {fault : Fault} (reason : fault ∈ hinderingFaults)
      (busy : fault = .inProgress → x.connection.output.isIdle = false) :
      Declines x scope message fault x
  | refused {address : Address} {interface : Interface ω} {frame : Frame} {reason : Refusal}
      {world : ω} (bound : x.connection.address = some address)
      (found : scope.registry.get? address.interface = some interface)
      (first : ((address.encoder scope.settings).segmentation message).head? = some frame)
      (answer : interface.output frame x.outside.world = (.error reason, world)) :
      Declines x scope message .interface { x with outside := {
        world
        signals := x.outside.signals ++
          [.refused (.flow scope.handle .output) address.interface frame reason] } }

/-- A connection that does not take a message says why. -/
theorem accept_error (refusal : x.accept scope message = .error fault) :
    fault ∈ hinderingFaults ∧ (fault = .inProgress → x.connection.output.isIdle = false) := by
  unfold accept at refusal
  unfold hinderingFaults
  cases bound : x.connection.address with
  | none =>
    simp only [bound] at refusal
    split at refusal <;> cases refusal <;> simp
  | some address =>
    simp only [bound] at refusal
    split at refusal
    · cases refusal
      simp
    · split at refusal
      · cases refusal
        simp
      · split at refusal
        · cases refusal
          simp
        · split at refusal
          · cases refusal
            simp
          · split at refusal
            · rename_i busy
              cases refusal
              exact ⟨by simp, fun _ => by simpa using busy⟩
            · cases refusal

/-- A flow that was set up for a message and whose first frame was refused is put back. What is
restored is an idle flow without alarms, so it is the flow that was there before. -/
theorem stop_started (idle : x.connection.output = {})
    (nothing : x.alarms.watching scope.handle .output = []) {flow : Flow} (buffer : Buffer)
    (held : flow.held = buffer.size) (outside : Outside ω) :
    stop { connection := x.connection.setFlow flow .output
           memory := { x.memory with used := x.memory.used + buffer.size }
           alarms := x.alarms
           confirmations := x.confirmations
           outside } scope .output [] = { x with outside } := by
  have connection : (x.connection.setFlow flow .output).setFlow {} .output = x.connection := by
    rw [Connection.setFlow_setFlow, ← idle]
    rfl
  unfold stop
  simp only [connection, Connection.flow_setFlow, held, Nat.add_sub_cancel, Outside.tellAll_nil,
    TimerQueue.disarm_unwatched nothing]

/-- The flow of a message is set up, and its first frame is not taken. -/
theorem first_declines (ready : x.Ready scope) (idle : x.connection.output = {})
    (nothing : x.alarms.watching scope.handle .output = []) {address : Address}
    (bound : x.connection.address = some address)
    (registered : scope.registry.contains address.interface = true) {flow next : Flow}
    {frame : Frame} {failing : Exchange ω} (held : flow.held = message.length)
    (found : (address.encoder scope.settings).nextFrame? flow = some (frame, next))
    (first : ((address.encoder scope.settings).segmentation message).head? = some frame)
    (failed : (Exchange.setFlow { x with
        memory := { x.memory with used := x.memory.used + message.length } } flow .output).transmit
      scope .output = (.error fault, failing)) :
    x.Declines scope message fault (failing.stop scope .output []) := by
  rw [transmit_output (by exact bound)] at failed
  simp only [setFlow, Connection.setFlow, found] at failed
  rw [handOver_eq .output address.interface frame next (by exact ready.quiet) ready.connections]
    at failed
  rcases answer : scope.registry.hand (.flow scope.handle .output) address.interface frame
    x.outside with ⟨refusal | _ | _, outside⟩
  all_goals
    simp only [answer] at failed
    cases failed
  obtain ⟨rfl, interface, reason, world, known, refused, rfl⟩ :=
    Registry.hand_refused registered answer
  have declined : x.Declines scope message .interface _ := .refused bound known first refused
  have held_next : next.held = Buffer.size ⟨message⟩ := by
    unfold Flow.held at held ⊢
    rw [Encoder.nextFrame?_buffer found, held]
    rfl
  rw [← stop_started idle nothing ⟨message⟩ held_next] at declined
  exact declined

/-- What an exchange is after a message could not be sent, if an idle sending flow has no alarms. -/
theorem send_declines (ready : x.Ready scope)
    (idle : x.connection.output.isIdle = true →
      x.connection.output = {} ∧ x.alarms.watching scope.handle .output = [])
    (failed : x.send scope message = (.error fault, after)) :
    x.Declines scope message fault after := by
  unfold send at failed
  cases acceptance : x.accept scope message with
  | error reason =>
    simp only [acceptance] at failed
    cases failed
    obtain ⟨listed, busy⟩ := accept_error acceptance
    exact .hindered listed busy
  | ok address =>
    obtain ⟨filled, bound, registered, _, _, rests⟩ := accept_eq_ok_iff.mp acceptance
    obtain ⟨free, nothing⟩ := idle rests
    simp only [acceptance, allocate_eq (List.length_pos_iff.mpr filled)] at failed
    by_cases scarce : x.memory.available < message.length
    · simp only [if_pos scarce] at failed
      cases failed
      exact .hindered (by simp [hinderingFaults]) (by simp)
    · simp only [if_neg scarce, write_replicate, disarm_reset_eq] at failed
      obtain ⟨frame, flow, plan, underway, _⟩ := submitted_eq acceptance (by omega)
      have found : (address.encoder scope.settings).nextFrame?
          (outputFlow scope address ⟨message⟩) = some (frame, flow) := by
        unfold submitted at plan
        simp only [acceptance, if_neg scarce] at plan
        split at plan
        · cases plan
        · cases plan
          assumption
      split at failed
      · cases failed
      · rename_i transmission
        cases failed
        exact first_declines ready free nothing bound registered rfl found underway.sent.head
          transmission

end Exchange

/-- A stack takes back an exchange in which only the outside world has changed. -/
theorem Stack.restore_outside {stack : Stack ω} {handle : Handle} {connection : Connection}
    (live : stack.connections.get? handle = some connection) (outside : Outside ω) :
    stack.restore handle { stack.exchange connection with outside } = { stack with outside } := by
  have same : stack.connections.set handle connection = stack.connections := Slots.set_same live
  unfold Stack.restore Stack.exchange
  simp only [same]

/-- What a stack is after a message could not be sent. -/
theorem Stack.send_declines {stack after : Stack ω} {past : List (Moment ω)} (sound : stack.Sound)
    (quiet : stack.confirmations = []) (overseen : stack.Overseen past) {now : Tick}
    {handle : Handle} {message : List UInt8} {fault : Fault}
    (failed : stack.send now handle message = (.error fault, after)) :
    fault = .argument ∧ after = stack ∨
      ∃ connection x, stack.connections.get? handle = some connection ∧
        (stack.exchange connection).Declines (stack.scope now handle) message fault x ∧
        after = { stack with outside := x.outside } := by
  unfold Stack.send at failed
  cases live : stack.connections.get? handle with
  | none =>
    simp only [live, Stack.settle_quiet quiet] at failed
    cases failed
    exact Or.inl ⟨rfl, rfl⟩
  | some connection =>
    simp only [live] at failed
    have ready := sound.ready_quiet quiet live now
    rcases sending : (stack.exchange connection).send (stack.scope now handle) message with
      ⟨result, x⟩
    rw [sending] at failed
    cases failed
    have declines : (stack.exchange connection).Declines (stack.scope now handle) message fault x :=
      Exchange.send_declines ready (fun idle =>
        ⟨(sound.flows handle connection live).idle .output idle,
          (overseen.flows handle connection live .output).only.2 idle⟩) sending
    have shape : x = { stack.exchange connection with outside := x.outside } := by
      cases declines <;> rfl
    refine Or.inr ⟨connection, x, rfl, declines, ?_⟩
    rw [shape, Stack.restore_outside live]
    exact Stack.settle_quiet (by exact quiet) now

/-- A message that cannot be sent, after any calls, leaves the stack as it is: connections, memory,
alarms and noted confirmations are what they were, and nobody but the caller is told. Either no
frame is tried at all; or the interface refused the first frame of the message, and then that is all
that has happened. A connection that is busy with another message stays busy with it. -/
theorem failed_messages_leave_no_trace {settings : Settings} {world : ω} {start : Stack ω}
    (run : Stack.new settings world = .ok start) (calls : List (Call ω)) (now : Tick)
    (handle : Handle) (message : List UInt8) {fault : Fault} {after : Stack ω}
    (failed : (start.calls calls).send now handle message = (.error fault, after)) :
    (fault ∈ hinderingFaults ∧ after = start.calls calls ∨
      fault = .interface ∧ ∃ connection address interface frame reason outcome,
        (start.calls calls).connections.get? handle = some connection ∧
        connection.address = some address ∧
        (start.calls calls).registry.get? address.interface = some interface ∧
        ((address.encoder settings).segmentation message).head? = some frame ∧
        interface.output frame (start.calls calls).outside.world = (.error reason, outcome) ∧
        after = { start.calls calls with outside := {
          world := outcome
          signals := (start.calls calls).outside.signals ++
            [.refused (.flow handle .output) address.interface frame reason] } }) ∧
      (fault = .inProgress → ∃ connection,
        after.connections.get? handle = some connection ∧ connection.output.isIdle = false) := by
  obtain ⟨sound, quiet⟩ := Stack.calls_sound run calls
  have same : (start.calls calls).settings = settings := by
    rw [Stack.calls_eq, Stack.settings_through, (Stack.new_watched run).1]
  rcases Stack.send_declines sound quiet (Stack.calls_overseen run calls) failed with
    ⟨rfl, unchanged⟩ | ⟨connection, x, live, declines, rfl⟩
  · exact ⟨Or.inl ⟨by simp [hinderingFaults], unchanged⟩, by simp⟩
  · cases declines with
    | hindered reason busy =>
      exact ⟨Or.inl ⟨reason, rfl⟩, fun progress => ⟨connection, live, busy progress⟩⟩
    | @refused address interface frame reason outcome bound found first answer =>
      rw [show Scope.settings _ = _ from same] at first
      exact ⟨Or.inr ⟨rfl, connection, address, interface, frame, reason, outcome, live, bound, found,
        first, answer, rfl⟩, by simp⟩

/-- An interface that takes no frame. -/
def Interface.blocked : Interface Unit where
  output _ world := (.error .wouldBlock, world)

/-- The interface of the sample connection is replaced by one that takes no frame. -/
def sampleBlockage : List (Call Unit) :=
  sampleCalls ++ [.removeInterface sampleAddress.interface, .addInterface .blocked]

/-- A message of the sample connection is refused with its first frame. -/
theorem sample_failed_message_leaves_no_trace :
    ∃ after, (sampleStack.calls sampleBlockage).send 5 sampleHandle [1, 2, 3] =
        (.error .interface, after) ∧
      ∃ outside, after = { sampleStack.calls sampleBlockage with outside } := by
  have failed : (sampleStack.calls sampleBlockage).send 5 sampleHandle [1, 2, 3] =
      (.error .interface, ((sampleStack.calls sampleBlockage).send 5 sampleHandle [1, 2, 3]).2) :=
    Prod.ext rfl rfl
  rcases (failed_messages_leave_no_trace (rfl : Stack.new {} () = .ok sampleStack) sampleBlockage 5
    sampleHandle [1, 2, 3] failed).1 with ⟨hindered, _⟩ | ⟨_, _, _, _, _, _, _, _, _, _, _, _, same⟩
  · exact absurd hindered (by decide)
  · exact ⟨_, failed, _, same⟩

end DiagBus
