import DiagBus.Proofs.Histories
import DiagBus.Proofs.Transfer

namespace DiagBus

/-- The end of a line: frames that have come in, and frames that are to go out. -/
structure Port where
  inbox : List Frame := []
  outbox : List Frame := []

/-- A controller that keeps every frame until the line carries it on. -/
def Port.interface (flexible : Bool) : Interface Port where
  output frame port := (.ok (), { port with outbox := port.outbox ++ [frame] })
  receive port :=
    match port.inbox with
    | [] => (none, port)
    | frame :: rest => (some frame, { port with inbox := rest })
  isFlexible _ := flexible

def Signal.isSent : Signal → Bool
  | .sent .. => true
  | _ => false

def Signal.isReceived : Signal → Bool
  | .received .. => true
  | _ => false

def Signal.isFailed : Signal → Bool
  | .failed .. => true
  | _ => false

/-- What the stack has told of messages that were sent. -/
def Stack.sentNews (stack : Stack Port) : List Signal :=
  stack.outside.signals.filter Signal.isSent

/-- What the stack has told of messages that were received. -/
def Stack.receivedNews (stack : Stack Port) : List Signal :=
  stack.outside.signals.filter Signal.isReceived

/-- What the stack has told of transfers that failed. -/
def Stack.failures (stack : Stack Port) : List Signal :=
  stack.outside.signals.filter Signal.isFailed

/-- The stack of a terminal, whose only connection is `connection`. Whatever it has handed over and
what is not confirmed yet is noted. -/
structure Terminal.Runs (terminal : Terminal) (stack : Stack Port) (connection : Connection) :
    Prop where
  sound : stack.Sound
  settings : stack.settings = terminal.settings
  port : stack.registry.get? terminal.address.interface = some (Port.interface terminal.capable)
  ports : stack.registry.indexes = [terminal.address.interface]
  order : stack.raw.order = []
  live : stack.connections.get? Terminal.handle = some connection
  only : ∀ handle found, stack.connections.get? handle = some found → handle = Terminal.handle
  address : connection.address = some terminal.address
  onReceived : connection.onReceived = some terminal.onReceived
  onSent : connection.onSent = some terminal.onSent
  onFailed : connection.onFailed = some terminal.onFailed
  capacity : stack.memory.capacity = terminal.settings.memory
  used : stack.memory.used = connection.output.held + connection.input.held
  awaited : ∀ direction, (connection.flow direction).unconfirmed = true →
    stack.confirmations = [⟨Terminal.handle, direction⟩]

section

variable {terminal : Terminal} {stack after : Stack Port} {connection : Connection} {now : Tick}
  {direction : Direction} {plan : Plan}

theorem Terminal.Runs.serves (runs : terminal.Runs stack connection) (now : Tick) :
    terminal.Serves (stack.scope now Terminal.handle) connection :=
  ⟨rfl, runs.settings, runs.address, runs.onReceived, runs.onSent⟩

theorem Terminal.Runs.confirmed (runs : terminal.Runs stack connection)
    (quiet : stack.confirmations = []) (direction : Direction) :
    (connection.flow direction).unconfirmed = false := by
  by_contra busy
  have noted := runs.awaited direction (by simpa using busy)
  rw [quiet] at noted
  cases noted

/-- What is noted is the confirmation of a frame that the connection of the terminal waits for. -/
theorem Terminal.Runs.noted (runs : terminal.Runs stack connection)
    (some : stack.confirmations ≠ []) :
    ∃ direction, stack.confirmations = [⟨Terminal.handle, direction⟩] ∧
      (connection.flow direction).unconfirmed = true := by
  rcases runs.sound.noted with quiet | ⟨handle, direction, found, named, live, unconfirmed⟩
  · exact absurd quiet some
  · obtain rfl := runs.only handle found live
    rw [runs.live] at live
    cases live
    exact ⟨direction, named, unconfirmed⟩

theorem Terminal.Runs.of_same (runs : terminal.Runs stack connection) (sound : after.Sound)
    (settings : after.settings = stack.settings) (registry : after.registry = stack.registry)
    (raw : after.raw = stack.raw) (connections : after.connections = stack.connections)
    (memory : after.memory = stack.memory)
    (confirmations : after.confirmations = stack.confirmations) : terminal.Runs after connection := by
  refine ⟨sound, settings.trans runs.settings, ?_, ?_, ?_, ?_, ?_, runs.address, runs.onReceived,
    runs.onSent, runs.onFailed, ?_, ?_, ?_⟩
  · rw [registry]
    exact runs.port
  · rw [registry]
    exact runs.ports
  · rw [raw]
    exact runs.order
  · rw [connections]
    exact runs.live
  · rw [connections]
    exact runs.only
  · rw [memory]
    exact runs.capacity
  · rw [memory]
    exact runs.used
  · rw [confirmations]
    exact runs.awaited

/-- A frame that is addressed to the terminal is for its only connection. -/
theorem Terminal.Runs.finds (runs : terminal.Runs stack connection) {id : CanId}
    (own : id = terminal.address.receives) :
    stack.findConnection? (·.receives terminal.address.interface id) = some Terminal.handle := by
  have slots := runs.sound.slots
  have receives : connection.receives terminal.address.interface id = true := by
    unfold Connection.receives
    rw [runs.address]
    simp [own]
  unfold Stack.findConnection?
  cases search : stack.connections.entries.find? fun entry =>
      entry.2.receives terminal.address.interface id with
  | none =>
    have member := (Slots.mem_entries_iff slots).mpr runs.live
    have refused := List.find?_eq_none.mp search _ member
    exact absurd receives refused
  | some entry =>
    have member := List.mem_of_find?_eq_some search
    have same := runs.only entry.1 entry.2 ((Slots.mem_entries_iff slots).mp member)
    rw [Option.map_some, same]

/-- A port takes every frame and confirms it at once. -/
theorem Port.hand {registry : Registry Port} {index : InterfaceIndex} {capable : Bool}
    (known : registry.get? index = some (Port.interface capable)) (origin : Origin) (frame : Frame)
    (outside : Outside Port) :
    registry.hand origin index frame outside = (.ok true,
      Outside.tell { outside with
        world := { outside.world with outbox := outside.world.outbox ++ [frame] } }
        (.handed origin index frame)) := by
  unfold Registry.hand
  rw [known]
  rfl

/-- A plan that is carried out on a port has just the effect that it names. -/
theorem Exchange.Follows.on_port {x after : Exchange Port} {scope : Scope Port}
    (follows : x.Follows scope direction plan after) {index : InterfaceIndex} {capable : Bool}
    (known : scope.registry.get? index = some (Port.interface capable))
    (prompt : plan.Prompt (x.connection.flow direction) index)
    (held : (x.connection.flow direction).held ≤ x.memory.used) :
    ∃ noted handed, x.Turned scope direction (plan.flow (x.connection.flow direction)) noted
        { world :=
            { x.outside.world with outbox := x.outside.world.outbox ++ plan.frames }
          signals := x.outside.signals ++ plan.news ++ handed } after ∧
      ((plan.flow (x.connection.flow direction)).unconfirmed = true → noted = true) ∧
      ∀ signal ∈ handed, ∃ origin index frame, signal = .handed origin index frame := by
  cases follows with
  | @stay news _ same =>
    refine ⟨false, [], ⟨?_, ?_, ?_, ?_⟩, ?_, by simp⟩
    · rw [same]
      cases direction <;> rfl
    · have kept : x.memory.used - (x.connection.flow direction).held +
          (x.connection.flow direction).held = x.memory.used := Nat.sub_add_cancel held
      rw [same]
      show x.memory = { x.memory with used := x.memory.used -
        (x.connection.flow direction).held + (x.connection.flow direction).held }
      rw [kept]
    · rw [same]
      exact (List.append_nil _).symm
    · rw [same]
      simp [Outside.tellAll, Plan.frames, Plan.news]
    · intro unconfirmed
      have confirmed : (x.connection.flow direction).unconfirmed = false := prompt
      exact absurd unconfirmed (by simp [Plan.flow, confirmed])
  | @wait flow _ turned =>
    refine ⟨false, [], ⟨turned.connection, turned.memory, turned.confirmations, ?_⟩, ?_, by simp⟩
    · rw [turned.outside]
      simp [Plan.frames, Plan.news]
    · intro unconfirmed
      have confirmed : flow.unconfirmed = false := prompt
      exact absurd unconfirmed (by simp [Plan.flow, confirmed])
  | @handed news via frame flow refusal confirmed outside _ taken turned =>
    have same : via = index := prompt
    subst same
    rw [Port.hand known] at taken
    obtain ⟨answer, rfl⟩ := Prod.mk.inj taken
    cases answer
    refine ⟨true, [.handed (.flow scope.handle direction) via frame], turned, fun _ => rfl, ?_⟩
    intro signal member
    exact ⟨_, _, _, List.mem_singleton.mp member⟩
  | @refused news via frame flow refusal fault outside _ declined turned =>
    have same : via = index := prompt
    subst same
    rw [Port.hand known] at declined
    cases (Prod.mk.inj declined).1
  | @rest news _ turned =>
    refine ⟨false, [], ⟨turned.connection, turned.memory, turned.confirmations, ?_⟩, ?_, by simp⟩
    · rw [turned.outside]
      simp [Outside.tellAll, Plan.frames, Plan.news]
    · intro unconfirmed
      cases unconfirmed

/-- What a plan does to the line and to those who listen. -/
structure Plan.Done (plan : Plan) (before after : Stack Port) : Prop where
  world : after.outside.world =
    { before.outside.world with outbox := before.outside.world.outbox ++ plan.frames }
  told : ∃ handed, (∀ signal ∈ handed, ∃ origin index frame, signal = .handed origin index frame) ∧
    after.outside.signals = before.outside.signals ++ plan.news ++ handed

/-- One flow of the terminal's connection was replaced. -/
theorem Terminal.Runs.replaced (runs : terminal.Runs stack connection) (sound : after.Sound)
    {flow : Flow} {noted : Bool} {outside : Outside Port} {alarms : TimerQueue Alarm}
    {x : Exchange Port} (result : after = stack.restore Terminal.handle x)
    (turned : Exchange.Turned { stack.exchange connection with alarms, confirmations := [] }
      (stack.scope now Terminal.handle) direction flow noted outside x)
    (turn : stack.confirmations = [] ∨ stack.confirmations = [⟨Terminal.handle, direction⟩])
    (prompt : flow.unconfirmed = true → noted = true) :
    terminal.Runs after (connection.setFlow flow direction) := by
  have connections : after.connections =
      stack.connections.set Terminal.handle (connection.setFlow flow direction) := by
    rw [result]
    exact congrArg (stack.connections.set Terminal.handle) turned.connection
  have live := runs.live
  refine ⟨sound, ?_, ?_, ?_, ?_, ?_, ?_, ?_, ?_, ?_, ?_, ?_, ?_, ?_⟩
  · rw [result]
    exact runs.settings
  · rw [result]
    exact runs.port
  · rw [result]
    exact runs.ports
  · rw [result]
    exact runs.order
  · rw [connections, Slots.get?_set_self _ live]
  · intro handle found here
    rw [connections, Slots.get?_set _ live] at here
    by_cases same : handle = Terminal.handle
    · exact same
    · rw [if_neg same] at here
      exact runs.only handle found here
  · rw [Connection.address_setFlow]
    exact runs.address
  · have same : (connection.setFlow flow direction).onReceived = connection.onReceived := by
      cases direction <;> rfl
    exact same.trans runs.onReceived
  · have same : (connection.setFlow flow direction).onSent = connection.onSent := by
      cases direction <;> rfl
    exact same.trans runs.onSent
  · have same : (connection.setFlow flow direction).onFailed = connection.onFailed := by
      cases direction <;> rfl
    exact same.trans runs.onFailed
  · rw [result]
    show x.memory.capacity = _
    rw [turned.memory]
    exact runs.capacity
  · have used := runs.used
    have charge := connection.held_setFlow flow direction
    rw [result]
    show x.memory.used = _
    rw [turned.memory]
    show stack.memory.used - (connection.flow direction).held + flow.held = _
    unfold Connection.held at charge
    have part : (connection.flow direction).held ≤ stack.memory.used := by
      cases direction <;> simp only [Connection.flow] <;> omega
    omega
  · intro way unconfirmed
    rw [result]
    show x.confirmations = _
    rw [turned.confirmations]
    by_cases own : way = direction
    · subst own
      rw [Connection.flow_setFlow] at unconfirmed
      rw [prompt unconfirmed]
      rfl
    · have same : (connection.setFlow flow direction).flow way = connection.flow way := by
        cases way <;> cases direction <;> first | rfl | exact absurd rfl own
      rw [same] at unconfirmed
      have noted := runs.awaited way unconfirmed
      rcases turn with quiet | own_noted
      · rw [quiet] at noted
        cases noted
      · rw [own_noted] at noted
        cases noted
        exact absurd rfl own

theorem Plan.Done.filter {before : Stack Port} (done : plan.Done before after)
    (kind : Signal → Bool) (other : ∀ origin index frame, kind (.handed origin index frame) = false) :
    after.outside.signals.filter kind =
      before.outside.signals.filter kind ++ plan.news.filter kind := by
  obtain ⟨handed, plain, signals⟩ := done.told
  have nothing : handed.filter kind = [] := by
    refine List.filter_eq_nil_iff.mpr fun signal member => ?_
    obtain ⟨origin, index, frame, rfl⟩ := plain signal member
    rw [other]
    simp
  rw [signals, List.filter_append, List.filter_append, nothing, List.append_nil]

/-- A plan that is carried out at a terminal. -/
theorem Terminal.Runs.acts (runs : terminal.Runs stack connection)
    (acts : stack.Acts now Terminal.handle connection direction plan after) (sound : after.Sound)
    (turn : stack.confirmations = [] ∨ stack.confirmations = [⟨Terminal.handle, direction⟩])
    (prompt : plan.Prompt (connection.flow direction) terminal.address.interface) :
    terminal.Runs after (connection.setFlow (plan.flow (connection.flow direction)) direction) ∧
      plan.Done stack after := by
  obtain ⟨live, alarms, x, follows, result⟩ := acts
  have held : (connection.flow direction).held ≤ stack.memory.used := by
    have used := runs.used
    cases direction <;> simp only [Connection.flow] <;> omega
  obtain ⟨noted, handed, turned, awaits, plain⟩ := follows.on_port runs.port prompt held
  have outside : after.outside = x.outside := by
    rw [result]
    rfl
  have done : plan.Done stack after := by
    refine ⟨?_, handed, plain, ?_⟩
    · rw [outside, turned.outside]
      rfl
    · rw [outside, turned.outside]
      rfl
  exact ⟨runs.replaced sound result turned turn awaits, done⟩

theorem Connection.next_prompt {ω : Type} {scope : Scope ω} {address : Address}
    (bound : connection.address = some address) (old flow : Flow) :
    (connection.next scope flow).Prompt old address.interface := by
  unfold Connection.next
  simp only [bound]
  split
  · exact trivial
  · rfl

theorem Connection.answer_prompt {ω : Type} {scope : Scope ω} {address : Address}
    (bound : connection.address = some address) (news : List Signal) (old flow : Flow) :
    (connection.answer scope news flow).Prompt old address.interface := by
  rw [connection.answer_eq scope bound]
  rfl

/-- A unit of the peer leaves no frame unconfirmed but one that is handed over. -/
theorem Connection.received_prompt {ω : Type} {scope : Scope ω} {address : Address}
    (bound : connection.address = some address) (memory : Memory) (pdu : Pdu)
    (confirmed : (connection.flow pdu.direction).unconfirmed = false) :
    (connection.received scope memory pdu).Prompt (connection.flow pdu.direction)
      address.interface := by
  cases pdu with
  | single message =>
    show (connection.singleReceived scope message).Prompt _ _
    unfold Connection.singleReceived
    split <;> exact confirmed
  | first length data =>
    show (connection.firstReceived scope memory length data).Prompt _ _
    unfold Connection.firstReceived
    split
    · exact confirmed
    · split
      · exact confirmed
      · split <;> exact Connection.answer_prompt bound _ _ _
  | consecutive sequence data =>
    show (connection.consecutiveReceived scope sequence data).Prompt _ _
    unfold Connection.consecutiveReceived
    simp only []
    split
    · exact confirmed
    · split
      · exact trivial
      · split
        · exact trivial
        · split
          · exact Connection.answer_prompt bound _ _ _
          · exact confirmed
  | flowControl status blockSize separation =>
    show (connection.controlReceived scope status blockSize separation).Prompt _ _
    unfold Connection.controlReceived
    simp only []
    split
    · exact confirmed
    · cases status with
      | continueToSend => exact Connection.next_prompt bound _ _
      | wait =>
        simp only []
        split
        · exact trivial
        · exact confirmed
      | overflow => exact trivial
      | reserved nibble => exact trivial

/-- A flow whose frame is confirmed goes on. -/
theorem Connection.confirmed_prompt {ω : Type} {scope : Scope ω} {address : Address}
    {settings : Settings} (bound : connection.address = some address)
    (sound : connection.Sound settings) (direction : Direction)
    (unconfirmed : (connection.flow direction).unconfirmed = true) :
    (connection.confirmed scope direction).Prompt (connection.flow direction) address.interface := by
  cases direction with
  | output =>
    have waits : connection.output.unconfirmed = true := unconfirmed
    have busy : connection.output ≠ {} := by
      intro idle
      rw [idle] at waits
      cases waits
    obtain ⟨_, _, _, _, underway⟩ := sound.output.resolve_left busy
    unfold Connection.confirmed Connection.outputConfirmed
    rw [if_neg (by simp [waits])]
    rcases underway.unconfirmed waits with phase | phase | phase
    · simp only [phase]
      exact trivial
    · simp only [phase]
      rfl
    · simp only [phase]
      split
      · exact trivial
      · split
        · rfl
        · split
          · exact Connection.next_prompt bound _ _
          · rfl
  | input =>
    have waits : connection.input.unconfirmed = true := unconfirmed
    have busy : connection.input ≠ {} := by
      intro idle
      rw [idle] at waits
      cases waits
    have phase : connection.input.phase = .controlOut := by
      obtain ⟨_, _, refusing | ⟨_, _, _, collecting⟩⟩ := sound.input.resolve_left busy
      · rw [show connection.input = _ from refusing]
        rfl
      · rcases collecting.stage with ⟨phase, _⟩ | ⟨_, confirmed⟩
        · exact phase
        · rw [confirmed] at waits
          cases waits
    unfold Connection.confirmed Connection.inputConfirmed
    rw [if_neg (by simp [waits])]
    simp only [phase]
    split
    · exact trivial
    · rfl

theorem Connection.expired_prompt {ω : Type} {scope : Scope ω} {address : Address}
    (bound : connection.address = some address) (alarm : Alarm)
    (confirmed : (connection.flow alarm.direction).unconfirmed = false) :
    (connection.expired scope alarm).Prompt (connection.flow alarm.direction)
      address.interface := by
  cases alarm with
  | output handle =>
    unfold Connection.expired
    simp only []
    split
    · exact confirmed
    · exact trivial
  | input handle =>
    unfold Connection.expired
    simp only []
    split
    · exact confirmed
    · exact trivial
  | separation handle =>
    unfold Connection.expired
    simp only []
    split
    · exact Connection.next_prompt bound _ _
    · exact confirmed

theorem Exchange.submitted_prompt {ω : Type} {x : Exchange ω} {scope : Scope ω} {address : Address}
    (bound : x.connection.address = some address) (message : List UInt8)
    (confirmed : x.connection.output.unconfirmed = false) :
    (x.submitted scope message).Prompt x.connection.output address.interface := by
  rcases x.submitted_sends scope message with stays | ⟨via, frame, flow, acceptance, _, plan, _⟩
  · rw [stays]
    exact confirmed
  · obtain ⟨_, same, _⟩ := Exchange.accept_eq_ok_iff.mp acceptance
    rw [bound] at same
    cases same
    rw [plan]
    rfl

/-- A step at a terminal has just the effect that its plan names. -/
theorem Terminal.Runs.step (runs : terminal.Runs stack connection) {step : Step Port}
    (timely : step.Timely stack)
    (plans : stack.Plans Terminal.handle connection step now direction plan) :
    terminal.Runs (step.run stack)
        (connection.setFlow (plan.flow (connection.flow direction)) direction) ∧
      plan.Done stack (step.run stack) := by
  have acts := runs.sound.acts_of_plans timely runs.live plans
  have sound := runs.sound.step timely
  have flows := runs.sound.flows _ _ runs.live
  cases plans with
  | submit _ message =>
    exact runs.acts acts sound (Or.inl timely)
      (Exchange.submitted_prompt runs.address message (runs.confirmed timely .output))
  | arrive _ pdu =>
    exact runs.acts acts sound (Or.inl timely)
      (Connection.received_prompt runs.address _ pdu (runs.confirmed timely _))
  | confirm _ direction =>
    refine runs.acts acts sound (Or.inl timely) ?_
    cases direction with
    | output =>
      have confirmed : connection.output.unconfirmed = false := runs.confirmed timely .output
      unfold Connection.confirmed Connection.outputConfirmed
      rw [if_pos (by simp [confirmed])]
      exact confirmed
    | input =>
      have confirmed : connection.input.unconfirmed = false := runs.confirmed timely .input
      unfold Connection.confirmed Connection.inputConfirmed
      rw [if_pos (by simp [confirmed])]
      exact confirmed
  | settle _ noted =>
    refine runs.acts acts sound (Or.inr noted) ?_
    obtain ⟨_, found, live, unconfirmed⟩ :=
      runs.sound.only_noted (noted ▸ List.mem_singleton_self _)
    rw [runs.live] at live
    cases live
    exact Connection.confirmed_prompt runs.address flows _ unconfirmed
  | expire _ due own =>
    exact runs.acts acts sound (Or.inl timely)
      (Connection.expired_prompt runs.address _ (runs.confirmed timely _))

/-- An alarm of a connection that the terminal does not have changes nothing else. -/
theorem Terminal.Runs.expire_other (runs : terminal.Runs stack connection)
    (quiet : stack.confirmations = []) {alarm : Alarm} {alarms : TimerQueue Alarm}
    (due : stack.alarms.popDue now = some (alarm, alarms))
    (other : alarm.connection ≠ Terminal.handle) :
    (Step.expire now).run stack = { stack with alarms } ∧
      terminal.Runs { stack with alarms } connection := by
  have dead : stack.connections.get? alarm.connection = none := by
    cases live : stack.connections.get? alarm.connection with
    | none => rfl
    | some found => exact absurd (runs.only _ found live) other
  have after : (Step.expire now).run stack = { stack with alarms } := by
    simp only [Step.run, due]
    exact Stack.on_dead (by exact dead) now _
  have sound := runs.sound.step (show (Step.expire now).Timely stack from quiet)
  rw [after] at sound
  exact ⟨after, runs.of_same sound rfl rfl rfl rfl rfl rfl⟩

/-- The stack after its port has handed out its first frame. -/
def Stack.polled (stack : Stack Port) (rest : List Frame) : Stack Port :=
  { stack with
    outside := { stack.outside with world := { stack.outside.world with inbox := rest } } }

/-- What happens to the port outside a call does not matter to the terminal. -/
theorem Terminal.Runs.world (runs : terminal.Runs stack connection)
    (quiet : stack.confirmations = []) (change : Port → Port) :
    terminal.Runs ((Call.world change).run stack) connection := by
  have timely : (Step.world change).Timely stack := quiet
  exact runs.of_same (runs.sound.step timely) rfl rfl rfl rfl rfl rfl

theorem Terminal.Runs.polled (runs : terminal.Runs stack connection)
    (quiet : stack.confirmations = []) (rest : List Frame) :
    terminal.Runs (stack.polled rest) connection :=
  runs.world quiet fun port => { port with inbox := rest }

/-- A frame that is addressed to a terminal reaches its connection. -/
theorem Terminal.Runs.input_eq (runs : terminal.Runs stack connection) {frame : Frame} {pdu : Pdu}
    (named : frame.id = terminal.address.receives) (read : Pdu.decode frame.payload = some pdu)
    (now : Tick) : stack.input now terminal.address.interface frame =
      ((Step.arrive now Terminal.handle pdu).run stack).settle now := by
  have passed : stack.raw.input terminal.address.interface frame stack.outside =
      (false, stack.raw, stack.outside) := by
    unfold Raw.input
    rw [runs.order]
    rfl
  unfold Stack.input Stack.inputTransport
  simp only [passed]
  rw [show Stack.findConnection? { stack with raw := stack.raw, outside := stack.outside }
    (·.receives terminal.address.interface frame.id) = some Terminal.handle from runs.finds named]
  simp only [read]
  rfl

end

/-- What a terminal keeps while confirmations, frames and alarms are handled. Alarms need not be
handled unless they are calm. -/
structure Terminal.Keeps (terminal : Terminal) (calm : Moment Port → Prop)
    (holds : Stack Port → Prop) : Prop where
  runs : ∀ stack, holds stack → ∃ connection, terminal.Runs stack connection
  settle : ∀ stack now, holds stack → stack.confirmations ≠ [] → holds ((Step.settle now).run stack)
  arrive : ∀ stack now frame rest, holds stack → stack.confirmations = [] →
    stack.outside.world.inbox = frame :: rest → frame.id = terminal.address.receives ∧
      ∃ pdu, Pdu.decode frame.payload = some pdu ∧
        holds ((Step.arrive now Terminal.handle pdu).run (stack.polled rest))
  expire : ∀ stack now alarm alarms, holds stack → stack.confirmations = [] →
    stack.alarms.popDue now = some (alarm, alarms) → calm ⟨stack, .expire now⟩ →
      holds ((Step.expire now).run stack)

section

variable {terminal : Terminal} {calm : Moment Port → Prop} {holds : Stack Port → Prop}
  {stack : Stack Port} {now : Tick}

/-- All confirmations that are noted are handled. -/
theorem Terminal.Keeps.settled (keeps : terminal.Keeps calm holds) (held : holds stack) (now : Tick) :
    holds (stack.settle now) ∧ (stack.settle now).confirmations = [] := by
  have onward (fuel : Nat) : ∀ {stack : Stack Port}, holds stack →
      holds (stack.through (Stack.settlingWithin now fuel stack)) := by
    induction fuel with
    | zero => exact fun held => held
    | succ fuel ih =>
      intro stack held
      unfold Stack.settlingWithin
      by_cases quiet : stack.confirmations = []
      · rw [if_pos quiet]
        exact held
      · rw [if_neg quiet]
        exact ih (keeps.settle stack now held quiet)
  obtain ⟨_, runs⟩ := keeps.runs stack held
  have smooth := Stack.settling_smooth runs.sound now
  rw [Stack.settle_eq]
  exact ⟨onward _ held, smooth.quiet⟩

theorem Terminal.Keeps.poll (keeps : terminal.Keeps calm holds) (held : holds stack)
    (quiet : stack.confirmations = []) (now : Tick) (fuel : Nat) :
    holds (Stack.pollWithin now terminal.address.interface fuel stack) ∧
      (Stack.pollWithin now terminal.address.interface fuel stack).confirmations = [] := by
  induction fuel generalizing stack with
  | zero => exact ⟨held, quiet⟩
  | succ fuel ih =>
    obtain ⟨_, runs⟩ := keeps.runs stack held
    unfold Stack.pollWithin
    simp only [runs.port, Port.interface]
    cases inbox : stack.outside.world.inbox with
    | nil => exact ⟨held, quiet⟩
    | cons frame rest =>
      obtain ⟨named, pdu, read, arrived⟩ := keeps.arrive stack now frame rest held quiet inbox
      have settled := keeps.settled arrived now
      rw [← (runs.polled quiet rest).input_eq named read now] at settled
      exact ih settled.1 settled.2

theorem Terminal.Keeps.alarms (keeps : terminal.Keeps calm holds) (held : holds stack)
    (quiet : stack.confirmations = []) (fuel : Nat)
    (peaceful : ∀ moment ∈ stack.moments (Stack.alarmSteps now fuel stack), calm moment) :
    holds (stack.through (Stack.alarmSteps now fuel stack)) ∧
      (stack.through (Stack.alarmSteps now fuel stack)).confirmations = [] := by
  induction fuel generalizing stack with
  | zero => exact ⟨held, quiet⟩
  | succ fuel ih =>
    unfold Stack.alarmSteps at peaceful ⊢
    cases due : stack.alarms.popDue now with
    | none => exact ⟨held, quiet⟩
    | some popped =>
      obtain ⟨alarm, alarms⟩ := popped
      simp only [due, Stack.moments_append, List.forall_mem_append] at peaceful
      obtain ⟨first, later⟩ := peaceful
      have gone := keeps.expire stack now alarm alarms held quiet due (first _ List.mem_cons_self)
      obtain ⟨settled, still⟩ := keeps.settled gone now
      rw [Stack.settled_eq] at settled still
      rw [Stack.through_append]
      exact ih settled still later

/-- A terminal polls its port and handles its alarms. -/
theorem Terminal.Keeps.process (keeps : terminal.Keeps calm holds) (held : holds stack)
    (quiet : stack.confirmations = []) (now : Tick)
    (peaceful : ∀ moment ∈ stack.history [.process now], calm moment) :
    holds (stack.process now) ∧ (stack.process now).confirmations = [] := by
  obtain ⟨_, runs⟩ := keeps.runs stack held
  have ports := runs.ports
  obtain ⟨polled, still⟩ := keeps.poll held quiet now Stack.patience
  have same : stack.through (Stack.pollingSteps now stack.registry.indexes stack) =
      Stack.pollWithin now terminal.address.interface Stack.patience stack := by
    rw [← Stack.polling_eq, ports]
    rfl
  unfold Stack.history Stack.steps Stack.steps at peaceful
  rw [List.append_nil] at peaceful
  unfold Call.steps at peaceful
  simp only [Stack.moments_append, List.forall_mem_append, same] at peaceful
  have handled := keeps.alarms polled still _ peaceful.2
  have result : stack.process now = _ := Call.run_eq (.process now) stack
  rw [result, Call.steps, Stack.through_append]
  simp only [same]
  exact handled

end

end DiagBus
