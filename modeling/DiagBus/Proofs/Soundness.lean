import DiagBus.Proofs.Exchange
import DiagBus.Proofs.Receiving
import DiagBus.Proofs.Sending
import DiagBus.Proofs.Slots
import DiagBus.Proofs.Steps

namespace DiagBus

variable {ω : Type}

/-- Whether a signal is of the raw subscriptions alone. -/
def Signal.isRaw : Signal → Bool
  | .handed (.raw _) .. => true
  | .refused (.raw _) .. => true
  | .offered .. => true
  | .frameSent .. => true
  | _ => false

/-- The world may have changed, but the outside was told only of raw subscriptions. -/
def Outside.ToldRaw (before after : Outside ω) : Prop :=
  ∃ news, after.signals = before.signals ++ news ∧ ∀ signal ∈ news, signal.isRaw = true

theorem Outside.ToldRaw.refl (outside : Outside ω) : outside.ToldRaw outside :=
  ⟨[], by simp⟩

theorem Outside.ToldRaw.trans {first second third : Outside ω} (early : first.ToldRaw second)
    (late : second.ToldRaw third) : first.ToldRaw third := by
  obtain ⟨news, told, raw⟩ := early
  obtain ⟨more, told', raw'⟩ := late
  refine ⟨news ++ more, by rw [told', told, List.append_assoc], ?_⟩
  intro signal member
  rcases List.mem_append.mp member with before | after
  · exact raw signal before
  · exact raw' signal after

theorem Outside.ToldRaw.tell {before after : Outside ω} (told : before.ToldRaw after)
    {signal : Signal} (raw : signal.isRaw = true) : before.ToldRaw (after.tell signal) :=
  told.trans ⟨[signal], rfl, by simpa using raw⟩

theorem Outside.ToldRaw.world {before after : Outside ω} (told : before.ToldRaw after) (world : ω) :
    before.ToldRaw { after with world } :=
  told

theorem Registry.hand_raw (registry : Registry ω) (handle : Handle) (index : InterfaceIndex)
    (frame : Frame) (outside : Outside ω) :
    outside.ToldRaw (registry.hand (.raw handle) index frame outside).2 := by
  unfold Registry.hand
  cases registry.get? index with
  | none => exact .refl outside
  | some interface =>
    simp only []
    rcases interface.output frame outside.world with ⟨reason | _, world⟩
    · exact ((Outside.ToldRaw.refl outside).world world).tell rfl
    · exact ((Outside.ToldRaw.refl outside).world world).tell rfl

theorem Raw.send_raw (raw : Raw ω) (handle : Handle) (frame : Frame) (registry : Registry ω)
    (outside : Outside ω) : outside.ToldRaw (raw.send handle frame registry outside).2.2 := by
  unfold Raw.send
  cases raw.subscriptions.get? handle with
  | none => exact .refl outside
  | some subscription =>
    have handed := registry.hand_raw handle subscription.interface frame outside
    simp only []
    split
    · exact .refl outside
    · rcases answer : registry.hand (.raw handle) subscription.interface frame outside with
        ⟨fault | _ | _, after⟩
      all_goals
        rw [answer] at handed
        simp only []
      · exact handed
      · exact handed
      · cases subscription.onSent with
        | none => exact handed
        | some listener => exact handed.tell rfl

theorem Raw.offer_raw (raw : Raw ω) (index : InterfaceIndex) (frame : Frame) (order : List Handle)
    (outside : Outside ω) : outside.ToldRaw (raw.offer index frame order outside).2 := by
  induction order generalizing outside with
  | nil => exact .refl outside
  | cons handle rest ih =>
    unfold Raw.offer
    split
    · rename_i listener consumes _ _
      split
      · have offered : outside.ToldRaw (Outside.tell
            { outside with world := (consumes frame outside.world).2 }
            (.offered listener handle frame (consumes frame outside.world).1)) :=
          ((Outside.ToldRaw.refl outside).world _).tell rfl
        simp only []
        split
        · exact offered
        · exact offered.trans (ih _)
      · exact ih outside
    · exact ih outside

theorem Raw.input_raw (raw : Raw ω) (index : InterfaceIndex) (frame : Frame) (outside : Outside ω) :
    outside.ToldRaw (raw.input index frame outside).2.2 := by
  have offered := raw.offer_raw index frame raw.order outside
  unfold Raw.input
  rcases answer : raw.offer index frame raw.order outside with ⟨_ | handle, after⟩
  all_goals
    rw [answer] at offered
    exact offered

theorem Raw.sent_raw (raw : Raw ω) (index : InterfaceIndex) (frame : Frame) (outside : Outside ω) :
    outside.ToldRaw (raw.sent index frame outside).2.2 := by
  unfold Raw.sent
  cases raw.awaiting? index frame with
  | none => exact .refl outside
  | some found =>
    simp only []
    cases found.2.onSent with
    | none => exact .refl outside
    | some listener => exact (Outside.ToldRaw.refl outside).tell rfl

/-- The bytes that a connection takes from the budget. -/
def Connection.held (connection : Connection) : Nat :=
  connection.output.held + connection.input.held

/-- Each flow is idle, with nothing left of an earlier transfer, or in the middle of one. -/
structure Connection.Sound (settings : Settings) (connection : Connection) : Prop where
  output : connection.output = {} ∨ ∃ address message emitted, connection.address = some address ∧
    Underway (address.encoder settings) message emitted connection.output
  input : connection.input = {} ∨ ∃ address, connection.address = some address ∧
    (connection.input.Refusing ∨
      ∃ length first arrived, Collecting settings length first arrived connection.input)

/-- What holds of a stack at every step. At most one confirmation is noted, and it is of a frame
that a flow waits for. -/
structure Stack.Sound (stack : Stack ω) : Prop where
  positive : 0 < stack.settings.connections
  slots : stack.connections.WellFormed
  capacity : stack.connections.capacity = stack.settings.connections
  memory : stack.memory.used = stack.connections.total Connection.held
  flows : ∀ handle connection, stack.connections.get? handle = some connection →
    connection.Sound stack.settings
  noted : stack.confirmations = [] ∨ ∃ handle direction connection,
    stack.confirmations = [⟨handle, direction⟩] ∧
      stack.connections.get? handle = some connection ∧
        (connection.flow direction).unconfirmed = true

/-- A confirmation that is noted is the only one, and a live flow waits for it. -/
theorem Stack.Sound.only_noted {stack : Stack ω} (sound : stack.Sound) {confirmation : Confirmation}
    (noted : confirmation ∈ stack.confirmations) :
    stack.confirmations = [confirmation] ∧ ∃ connection,
      stack.connections.get? confirmation.connection = some connection ∧
        (connection.flow confirmation.direction).unconfirmed = true := by
  rcases sound.noted with quiet | ⟨_, _, connection, only, live, unconfirmed⟩
  · rw [quiet] at noted
    cases noted
  · rw [only, List.mem_singleton] at noted
    subst noted
    exact ⟨only, connection, live, unconfirmed⟩

theorem Underway.unconfirmed {encoder : Encoder} {message : List UInt8} {emitted : List Frame}
    {flow : Flow} (underway : Underway encoder message emitted flow)
    (unconfirmed : flow.unconfirmed = true) :
    flow.phase = .singleOut ∨ flow.phase = .firstOut ∨ flow.phase = .consecutiveOut := by
  rcases underway.stage with ⟨phase, _⟩ | ⟨phase, _⟩ | ⟨_, confirmed, _⟩ | ⟨phase, _⟩
  · exact Or.inl phase
  · exact Or.inr (Or.inl phase)
  · rw [confirmed] at unconfirmed
    cases unconfirmed
  · exact Or.inr (Or.inr phase)

theorem Connection.Sound.idle {settings : Settings} {connection : Connection}
    (sound : connection.Sound settings) (direction : Direction)
    (idle : (connection.flow direction).isIdle = true) : connection.flow direction = {} := by
  cases direction with
  | output =>
    rcases sound.output with free | ⟨address, message, emitted, _, underway⟩
    · exact free
    · rw [show (connection.flow .output).isIdle = false from underway.not_idle] at idle
      cases idle
  | input =>
    rcases sound.input with free | ⟨address, _, refusing | ⟨length, first, arrived, collecting⟩⟩
    · exact free
    · have busy : connection.input.isIdle = false := by
        rw [show connection.input = _ from refusing]
        rfl
      rw [show (connection.flow .input).isIdle = false from busy] at idle
      cases idle
    · rw [show (connection.flow .input).isIdle = false from collecting.not_idle] at idle
      cases idle

/-- An operation on a live connection finds what it needs to carry out its plan. -/
theorem Stack.Sound.ready {stack : Stack ω} (sound : stack.Sound) {handle : Handle}
    {connection : Connection} (live : stack.connections.get? handle = some connection) (now : Tick)
    (alarms : TimerQueue Alarm) :
    Exchange.Ready { stack.exchange connection with alarms, confirmations := [] }
      (stack.scope now handle) := by
  have flows := sound.flows handle connection live
  have charged : connection.output.held + connection.input.held ≤ stack.memory.used := by
    rw [sound.memory]
    exact Slots.weigh_le_total Connection.held live
  refine ⟨rfl, sound.positive, ?_, ?_, ?_, ?_⟩
  · intro direction
    show (connection.flow direction).held ≤ stack.memory.used
    cases direction with
    | output => exact (Nat.le_add_right _ _).trans charged
    | input => exact (Nat.le_add_left _ _).trans charged
  · intro direction idle
    show (connection.flow direction).held = 0
    rw [flows.idle direction idle]
    rfl
  · intro unconfirmed
    rcases flows.output with free | ⟨address, message, emitted, _, underway⟩
    · rw [show (stack.exchange connection).connection.output = {} from free] at unconfirmed
      cases unconfirmed
    · exact underway.unconfirmed unconfirmed
  · intro unconfirmed
    rcases flows.input with free | ⟨address, _, refusing | ⟨length, first, arrived, collecting⟩⟩
    · rw [show (stack.exchange connection).connection.input = {} from free] at unconfirmed
      cases unconfirmed
    · show connection.input.phase = .controlOut
      rw [show connection.input = _ from refusing]
      rfl
    · rcases collecting.stage with ⟨phase, _⟩ | ⟨_, confirmed⟩
      · exact phase
      · rw [show (stack.exchange connection).connection.input.unconfirmed = false from confirmed]
          at unconfirmed
        cases unconfirmed

/-- A step that passes the connections by. -/
structure Stack.Apart (before after : Stack ω) : Prop where
  settings : after.settings = before.settings
  connections : after.connections = before.connections
  memory : after.memory = before.memory
  alarms : after.alarms = before.alarms
  confirmations : after.confirmations = before.confirmations
  outside : before.outside.ToldRaw after.outside

/-- A plan was carried out on a live connection. -/
structure Stack.Acts (before : Stack ω) (now : Tick) (handle : Handle) (connection : Connection)
    (direction : Direction) (plan : Plan) (after : Stack ω) : Prop where
  live : before.connections.get? handle = some connection
  carried : ∃ alarms x, Exchange.Follows
    { before.exchange connection with alarms, confirmations := [] } (before.scope now handle)
      direction plan x ∧ after = before.restore handle x

/-- The plan that a step has a live connection carry out. -/
inductive Stack.Plans (stack : Stack ω) (handle : Handle) (connection : Connection) :
    Step ω → Tick → Direction → Plan → Prop
  | submit (now : Tick) (message : List UInt8) :
      Plans stack handle connection (.submit now handle message) now .output
        ((stack.exchange connection).submitted (stack.scope now handle) message)
  | arrive (now : Tick) (pdu : Pdu) :
      Plans stack handle connection (.arrive now handle pdu) now pdu.direction
        (connection.received (stack.scope now handle) stack.memory pdu)
  | confirm (now : Tick) (direction : Direction) :
      Plans stack handle connection (.confirm now handle direction) now direction
        (connection.confirmed (stack.scope now handle) direction)
  | settle (now : Tick) {direction : Direction}
      (noted : stack.confirmations = [⟨handle, direction⟩]) :
      Plans stack handle connection (.settle now) now direction
        (connection.confirmed (stack.scope now handle) direction)
  | expire (now : Tick) {alarm : Alarm} {alarms : TimerQueue Alarm}
      (due : stack.alarms.popDue now = some (alarm, alarms)) (own : alarm.connection = handle) :
      Plans stack handle connection (.expire now) now alarm.direction
        (connection.expired (stack.scope now handle) alarm)

/-- Whether a step neither confirms nor sends a frame of a connection. -/
def Step.isPlain : Step ω → Bool
  | .submit .. => false
  | .arrive .. => false
  | .confirm .. => false
  | .settle _ => false
  | .expire _ => false
  | _ => true

theorem Stack.Plans.not_plain {stack : Stack ω} {handle : Handle} {connection : Connection}
    {step : Step ω} {now : Tick} {direction : Direction} {plan : Plan}
    (plans : stack.Plans handle connection step now direction plan) : step.isPlain = false := by
  cases plans <;> rfl

/-- A step is for one flow at most. -/
theorem Stack.Plans.unique {stack : Stack ω} {handle other : Handle}
    {connection found : Connection} {step : Step ω} {now late : Tick}
    {direction flow : Direction} {plan next : Plan}
    (plans : stack.Plans handle connection step now direction plan)
    (again : stack.Plans other found step late flow next) :
    other = handle ∧ flow = direction := by
  cases plans with
  | submit _ message =>
    cases again
    exact ⟨rfl, rfl⟩
  | arrive _ pdu =>
    cases again
    exact ⟨rfl, rfl⟩
  | confirm _ direction =>
    cases again
    exact ⟨rfl, rfl⟩
  | settle _ noted =>
    cases again with
    | settle _ same =>
      rw [noted] at same
      cases same
      exact ⟨rfl, rfl⟩
  | expire _ due own =>
    cases again with
    | expire _ same named =>
      rw [due] at same
      cases same
      exact ⟨named.symm.trans own, rfl⟩

/-- What a step can do. -/
inductive Stack.Turns (before : Stack ω) : Step ω → Stack ω → Prop
  | apart {step : Step ω} {after : Stack ω} (apart : before.Apart after)
      (elsewhere : ∀ handle connection now direction plan,
        before.connections.get? handle = some connection →
          ¬before.Plans handle connection step now direction plan) : Turns before step after
  | opened {handle : Handle} {connections : Slots Connection}
      (insertion : before.connections.insert {} = some (handle, connections)) :
      Turns before .openConnection { before with connections }
  | bound {handle : Handle} {address : Address} {connection : Connection}
      (live : before.connections.get? handle = some connection)
      (idle : ∀ direction, (connection.flow direction).isIdle = true) :
      Turns before (.bind handle address) { before with
        connections := before.connections.set handle { connection with address := some address } }
  | listened {handle : Handle} {onReceived onSent onFailed : Option Listener}
      {connection : Connection} (live : before.connections.get? handle = some connection) :
      Turns before (.listen handle onReceived onSent onFailed) { before with
        connections :=
          before.connections.set handle { connection with onReceived, onSent, onFailed } }
  | closed {handle : Handle} {connection : Connection} {connections : Slots Connection}
      (erasure : before.connections.erase handle = some (connection, connections)) :
      Turns before (.close handle) { before with
        connections
        memory := connection.input.release (connection.output.release before.memory)
        alarms := before.alarms.cancelAll (·.connection = handle) }
  | acted {step : Step ω} {now : Tick} {handle : Handle} {connection : Connection}
      {direction : Direction} {plan : Plan} {after : Stack ω}
      (plans : before.Plans handle connection step now direction plan)
      (acts : before.Acts now handle connection direction plan after) : Turns before step after
  | lapsed {now : Tick} {alarm : Alarm} {alarms : TimerQueue Alarm}
      (due : before.alarms.popDue now = some (alarm, alarms))
      (dead : before.connections.get? alarm.connection = none) :
      Turns before (.expire now) { before with alarms }

/-- Noted confirmations are handled before anything else happens. -/
def Step.Timely (step : Step ω) (stack : Stack ω) : Prop :=
  match step with
  | .settle _ => True
  | _ => stack.confirmations = []

theorem Stack.Apart.refl (stack : Stack ω) : stack.Apart stack :=
  ⟨rfl, rfl, rfl, rfl, rfl, .refl _⟩

theorem Stack.on_live {stack : Stack ω} {handle : Handle} {connection : Connection}
    (live : stack.connections.get? handle = some connection) (now : Tick)
    (operation : Exchange ω → Scope ω → Exchange ω) :
    stack.on now handle operation = stack.restore handle
      (operation (stack.exchange connection) (stack.scope now handle)) := by
  unfold Stack.on
  rw [live]

theorem Stack.on_dead {stack : Stack ω} {handle : Handle}
    (dead : stack.connections.get? handle = none) (now : Tick)
    (operation : Exchange ω → Scope ω → Exchange ω) : stack.on now handle operation = stack := by
  unfold Stack.on
  rw [dead]

theorem Stack.exchange_quiet {stack : Stack ω} (quiet : stack.confirmations = [])
    (connection : Connection) :
    { stack.exchange connection with alarms := stack.alarms, confirmations := [] } =
      stack.exchange connection := by
  unfold Stack.exchange
  rw [quiet]

/-- With no confirmation noted, an operation on a live connection finds the ledger as it needs it. -/
theorem Stack.on_quiet {stack : Stack ω} {handle : Handle} {connection : Connection}
    (live : stack.connections.get? handle = some connection) (quiet : stack.confirmations = [])
    (now : Tick) (operation : Exchange ω → Scope ω → Exchange ω) :
    stack.on now handle operation = stack.restore handle
      (operation { stack.exchange connection with alarms := stack.alarms, confirmations := [] }
        (stack.scope now handle)) := by
  rw [Stack.on_live live, Stack.exchange_quiet quiet]

theorem Stack.Sound.ready_quiet {stack : Stack ω} (sound : stack.Sound)
    (quiet : stack.confirmations = []) {handle : Handle} {connection : Connection}
    (live : stack.connections.get? handle = some connection) (now : Tick) :
    (stack.exchange connection).Ready (stack.scope now handle) := by
  rw [← Stack.exchange_quiet quiet]
  exact sound.ready live now stack.alarms

section

variable {stack : Stack ω} {handle : Handle} {connection : Connection}

theorem Stack.submit_live (live : stack.connections.get? handle = some connection) (now : Tick)
    (message : List UInt8) : (Step.submit now handle message).run stack = stack.restore handle
      ((stack.exchange connection).send (stack.scope now handle) message).2 :=
  Stack.on_live live now fun x scope => (x.send scope message).2

theorem Stack.submit_dead (dead : stack.connections.get? handle = none) (now : Tick)
    (message : List UInt8) : (Step.submit now handle message).run stack = stack :=
  Stack.on_dead dead now fun x scope => (x.send scope message).2

/-- A live connection decides whether a message is taken. -/
theorem Stack.send_live (live : stack.connections.get? handle = some connection) (now : Tick)
    (message : List UInt8) : (stack.send now handle message).1 =
      ((stack.exchange connection).send (stack.scope now handle) message).1 := by
  unfold Stack.send
  rw [live]

/-- What an operation leaves of a live connection is found under its handle. -/
theorem Stack.get?_restore (live : stack.connections.get? handle = some connection)
    (x : Exchange ω) : (stack.restore handle x).connections.get? handle = some x.connection :=
  Slots.get?_set_self x.connection live

end

theorem Stack.Sound.settle_acts {stack : Stack ω} (sound : stack.Sound) {handle : Handle}
    {direction : Direction} {connection : Connection}
    (noted : stack.confirmations = [⟨handle, direction⟩])
    (live : stack.connections.get? handle = some connection) (now : Tick) :
    stack.Acts now handle connection direction
      (connection.confirmed (stack.scope now handle) direction) ((Step.settle now).run stack) := by
  have ready := sound.ready live now stack.alarms
  simp only [Step.run, noted]
  rw [Stack.on_live (by exact live)]
  exact ⟨live, stack.alarms, _, Exchange.confirm_follows ready direction, rfl⟩

/-- A step that has a plan for a live connection carries it out. -/
theorem Stack.Sound.acts_of_plans {stack : Stack ω} (sound : stack.Sound) {step : Step ω}
    (timely : step.Timely stack) {handle : Handle} {connection : Connection}
    (live : stack.connections.get? handle = some connection) {now : Tick} {direction : Direction}
    {plan : Plan} (plans : stack.Plans handle connection step now direction plan) :
    stack.Acts now handle connection direction plan (step.run stack) := by
  have ready := sound.ready live now stack.alarms
  cases plans with
  | submit _ message =>
    simp only [Step.run]
    rw [Stack.on_quiet live timely]
    exact ⟨live, stack.alarms, _, (Exchange.send_follows ready message).1, rfl⟩
  | arrive _ pdu =>
    simp only [Step.run]
    rw [Stack.on_quiet live timely]
    exact ⟨live, stack.alarms, _, Exchange.receive_follows ready pdu, rfl⟩
  | confirm _ direction =>
    simp only [Step.run]
    rw [Stack.on_quiet live timely]
    exact ⟨live, stack.alarms, _, Exchange.confirm_follows ready direction, rfl⟩
  | settle _ noted => exact sound.settle_acts noted live now
  | @expire _ alarm alarms due own =>
    subst own
    simp only [Step.run, due]
    rw [Stack.on_quiet (by exact live) (by exact timely)]
    exact ⟨live, alarms, _, Exchange.expire_follows (sound.ready live now alarms) alarm, rfl⟩

/-- Every step does one of these things. -/
theorem Stack.Sound.turns {stack : Stack ω} (sound : stack.Sound) {step : Step ω}
    (timely : step.Timely stack) : stack.Turns step (step.run stack) := by
  have plain (plain : step.isPlain = true) : ∀ handle connection now direction plan,
      stack.connections.get? handle = some connection →
        ¬stack.Plans handle connection step now direction plan := by
    intro handle connection now direction plan _ plans
    rw [plans.not_plain] at plain
    cases plain
  have dead {name : Handle} (gone : stack.connections.get? name = none)
      (only : ∀ handle connection now direction plan,
        stack.Plans handle connection step now direction plan → handle = name) :
      ∀ handle connection now direction plan, stack.connections.get? handle = some connection →
        ¬stack.Plans handle connection step now direction plan := by
    intro handle connection now direction plan here plans
    rw [only _ _ _ _ _ plans, gone] at here
    cases here
  have acted {handle : Handle} {connection : Connection} {now : Tick} {direction : Direction}
      {plan : Plan} (live : stack.connections.get? handle = some connection)
      (plans : stack.Plans handle connection step now direction plan) :
      stack.Turns step (step.run stack) :=
    .acted plans (sound.acts_of_plans timely live plans)
  cases step with
  | world change => exact .apart ⟨rfl, rfl, rfl, rfl, rfl, .refl _⟩ (plain rfl)
  | register registry => exact .apart ⟨rfl, rfl, rfl, rfl, rfl, .refl _⟩ (plain rfl)
  | subscribe raw => exact .apart ⟨rfl, rfl, rfl, rfl, rfl, .refl _⟩ (plain rfl)
  | sendFrame handle frame =>
    exact .apart ⟨rfl, rfl, rfl, rfl, rfl,
      stack.raw.send_raw handle frame stack.registry stack.outside⟩ (plain rfl)
  | offer index frame =>
    exact .apart ⟨rfl, rfl, rfl, rfl, rfl, stack.raw.input_raw index frame stack.outside⟩ (plain rfl)
  | acknowledge index frame =>
    exact .apart ⟨rfl, rfl, rfl, rfl, rfl, stack.raw.sent_raw index frame stack.outside⟩ (plain rfl)
  | openConnection =>
    cases insertion : stack.connections.insert {} with
    | none =>
      have same : Step.openConnection.run stack = stack := by
        simp [Step.run, Stack.openConnection, insertion]
      rw [same]
      exact .apart (.refl stack) (plain rfl)
    | some opened =>
      obtain ⟨handle, connections⟩ := opened
      have after : Step.openConnection.run stack = { stack with connections } := by
        simp [Step.run, Stack.openConnection, insertion]
      rw [after]
      exact .opened insertion
  | bind handle address =>
    simp only [Step.run, Stack.bind]
    cases live : stack.connections.get? handle with
    | none => exact .apart (.refl stack) (plain rfl)
    | some connection =>
      simp only []
      split
      · exact .apart (.refl stack) (plain rfl)
      · rename_i idle
        split
        · exact .apart (.refl stack) (plain rfl)
        · simp only [Stack.updateConnection, live, Stack.orStay]
          refine .bound live fun direction => ?_
          cases direction <;> simp_all [Connection.flow]
  | listen handle onReceived onSent onFailed =>
    simp only [Step.run, Stack.updateConnection]
    cases live : stack.connections.get? handle with
    | none => exact .apart (.refl stack) (plain rfl)
    | some connection => exact .listened live
  | close handle =>
    simp only [Step.run, Stack.close]
    cases erasure : stack.connections.erase handle with
    | none => exact .apart (.refl stack) (plain rfl)
    | some erased => exact .closed erasure
  | submit now handle message =>
    cases live : stack.connections.get? handle with
    | none =>
      simp only [Step.run]
      rw [Stack.on_dead live]
      exact .apart (.refl stack) (dead live fun _ _ _ _ _ plans => by cases plans; rfl)
    | some connection => exact acted live (.submit now message)
  | arrive now handle pdu =>
    cases live : stack.connections.get? handle with
    | none =>
      simp only [Step.run]
      rw [Stack.on_dead live]
      exact .apart (.refl stack) (dead live fun _ _ _ _ _ plans => by cases plans; rfl)
    | some connection => exact acted live (.arrive now pdu)
  | confirm now handle direction =>
    cases live : stack.connections.get? handle with
    | none =>
      simp only [Step.run]
      rw [Stack.on_dead live]
      exact .apart (.refl stack) (dead live fun _ _ _ _ _ plans => by cases plans; rfl)
    | some connection => exact acted live (.confirm now direction)
  | settle now =>
    rcases sound.noted with quiet | ⟨handle, direction, connection, noted, live, _⟩
    · simp only [Step.run, quiet]
      refine .apart (.refl stack) fun _ _ _ _ _ _ plans => ?_
      cases plans with
      | settle _ noted =>
        rw [quiet] at noted
        cases noted
    · exact acted live (.settle now noted)
  | expire now =>
    cases due : stack.alarms.popDue now with
    | none =>
      simp only [Step.run, due]
      refine .apart (.refl stack) fun _ _ _ _ _ _ plans => ?_
      cases plans with
      | expire _ popped _ =>
        rw [due] at popped
        cases popped
    | some popped =>
      obtain ⟨alarm, alarms⟩ := popped
      cases live : stack.connections.get? alarm.connection with
      | none =>
        simp only [Step.run, due]
        rw [Stack.on_dead (by exact live)]
        exact .lapsed due live
      | some connection => exact acted live (.expire now due rfl)

/-- A stack that differs in its connections at most, and in what these share. -/
def Stack.Around (before after : Stack ω) : Prop :=
  ∃ connections memory alarms confirmations outside,
    after = { before with connections, memory, alarms, confirmations, outside }

theorem Stack.Around.refl (stack : Stack ω) : stack.Around stack :=
  ⟨_, _, _, _, _, rfl⟩

theorem Stack.around_on (stack : Stack ω) (now : Tick) (handle : Handle)
    (operation : Exchange ω → Scope ω → Exchange ω) :
    stack.Around (stack.on now handle operation) := by
  unfold Stack.on
  split
  · exact .refl stack
  · exact ⟨_, _, _, _, _, rfl⟩

theorem Stack.around_orStay {stack : Stack ω} {outcome : Except Fault (Stack ω)}
    (around : ∀ after, outcome = .ok after → stack.Around after) :
    stack.Around (stack.orStay outcome) := by
  unfold Stack.orStay
  split
  · exact around _ rfl
  · exact .refl stack

/-- Whether a step is about connections. -/
def Step.isTransport : Step ω → Bool
  | .world _ => false
  | .register _ => false
  | .subscribe _ => false
  | .sendFrame .. => false
  | .offer .. => false
  | .acknowledge .. => false
  | _ => true

/-- Such a step leaves everything else as it is. -/
theorem Step.around_run {step : Step ω} (transport : step.isTransport = true) (stack : Stack ω) :
    stack.Around (step.run stack) := by
  have updated (handle : Handle) (change : Connection → Connection) (after : Stack ω)
      (run : stack.updateConnection handle change = .ok after) : stack.Around after := by
    unfold Stack.updateConnection at run
    split at run
    · cases run
    · cases run
      exact ⟨_, _, _, _, _, rfl⟩
  cases step with
  | openConnection =>
    simp only [Step.run, Stack.openConnection]
    cases stack.connections.insert {} with
    | none => exact .refl stack
    | some opened => exact ⟨_, _, _, _, _, rfl⟩
  | bind handle address =>
    refine Stack.around_orStay fun after run => ?_
    unfold Stack.bind at run
    split at run
    · cases run
    · split at run
      · cases run
      · split at run
        · cases run
        · exact updated _ _ _ run
  | listen handle onReceived onSent onFailed =>
    exact Stack.around_orStay fun after run => updated _ _ _ run
  | close handle =>
    refine Stack.around_orStay fun after run => ?_
    unfold Stack.close at run
    split at run
    · cases run
    · cases run
      exact ⟨_, _, _, _, _, rfl⟩
  | submit now handle message =>
    rw [Step.run]
    exact stack.around_on now handle _
  | arrive now handle pdu =>
    rw [Step.run]
    exact stack.around_on now handle _
  | confirm now handle direction =>
    rw [Step.run]
    exact stack.around_on now handle _
  | settle now =>
    simp only [Step.run]
    split
    · exact .refl stack
    · obtain ⟨_, _, _, _, _, same⟩ := Stack.around_on { stack with confirmations := _ } now _ _
      rw [same]
      exact ⟨_, _, _, _, _, rfl⟩
  | expire now =>
    simp only [Step.run]
    split
    · exact .refl stack
    · obtain ⟨_, _, _, _, _, same⟩ := Stack.around_on { stack with alarms := _ } now _ _
      rw [same]
      exact ⟨_, _, _, _, _, rfl⟩
  | _ => cases transport

/-- What the operations on connections find and leave as it is. -/
def Stack.surroundings (stack : Stack ω) : Settings × Registry ω :=
  (stack.settings, stack.registry)

/-- Interfaces come and go only where this is the step. -/
theorem Step.surroundings_run {step : Step ω} (other : ∀ registry, step ≠ .register registry)
    (stack : Stack ω) : (step.run stack).surroundings = stack.surroundings := by
  by_cases transport : step.isTransport = true
  · obtain ⟨_, _, _, _, _, same⟩ := Step.around_run transport stack
    rw [same]
    rfl
  · cases step with
    | register registry => exact absurd rfl (other registry)
    | world | subscribe | sendFrame | offer | acknowledge => rfl
    | _ => exact absurd rfl transport

/-- No step changes the settings. -/
theorem Step.settings_run (step : Step ω) (stack : Stack ω) :
    (step.run stack).settings = stack.settings := by
  by_cases registers : ∃ registry, step = .register registry
  · obtain ⟨registry, rfl⟩ := registers
    rfl
  · exact congrArg Prod.fst (Step.surroundings_run (not_exists.mp registers) stack)

/-- Whatever flow comes out of a plan, unless it is idle, has a property. -/
def Plan.Keeps (plan : Plan) (holds : Flow → Prop) : Prop :=
  match plan with
  | .stay _ => True
  | .wait flow => holds flow
  | .hand _ _ _ flow _ => holds { flow with unconfirmed := true }
  | .rest _ => True

section

variable {connection : Connection} {settings : Settings}

theorem Connection.Sound.rest (sound : connection.Sound settings) (direction : Direction) :
    (connection.setFlow {} direction).Sound settings := by
  cases direction with
  | output => exact ⟨Or.inl rfl, sound.input⟩
  | input => exact ⟨sound.output, Or.inl rfl⟩

theorem Connection.Sends.keeps {scope : Scope ω} {address : Address} {message : List UInt8}
    {emitted : List Frame} {plan : Plan}
    (sends : connection.Sends scope address message emitted plan)
    (bound : connection.address = some address) (sound : connection.Sound scope.settings) :
    plan.Keeps fun flow => (connection.setFlow flow .output).Sound scope.settings := by
  cases sends with
  | stay => trivial
  | wait underway => exact ⟨Or.inr ⟨address, message, emitted, bound, underway⟩, sound.input⟩
  | hand underway _ => exact ⟨Or.inr ⟨address, message, _, bound, underway⟩, sound.input⟩
  | fail fault => trivial
  | finish complete length => trivial

theorem Connection.Collects.keeps {scope : Scope ω} {address : Address} {length : Nat}
    {first : List UInt8} {arrived : List (UInt8 × List UInt8)} {plan : Plan}
    (collects : connection.Collects scope address length first arrived plan)
    (bound : connection.address = some address) (sound : connection.Sound scope.settings) :
    plan.Keeps fun flow => (connection.setFlow flow .input).Sound scope.settings := by
  cases collects with
  | stay _ => trivial
  | wait collecting =>
    exact ⟨sound.output, Or.inr ⟨address, bound, Or.inr ⟨length, first, arrived, collecting⟩⟩⟩
  | hand collecting =>
    exact ⟨sound.output, Or.inr ⟨address, bound, Or.inr ⟨length, first, arrived, collecting⟩⟩⟩
  | fail fault => trivial
  | finish numbered whole => trivial

theorem Connection.Sound.received {scope : Scope ω} (sound : connection.Sound scope.settings)
    (memory : Memory) (pdu : Pdu) : (connection.received scope memory pdu).Keeps
      fun flow => (connection.setFlow flow pdu.direction).Sound scope.settings := by
  cases own : pdu.direction with
  | output =>
    cases pdu with
    | flowControl status blockSize separation =>
      rcases sound.output with free | ⟨address, message, emitted, bound, underway⟩
      · rw [Connection.received, (Connection.output_stays scope free).2.1]
        trivial
      · exact (Connection.controlReceived_sends bound underway _ _ _).keeps bound sound
    | _ => cases own
  | input =>
    rcases sound.input with free | ⟨address, bound, refusing | ⟨_, _, _, collecting⟩⟩
    · cases pdu with
      | single message =>
        simp only [Connection.received, Connection.singleReceived]
        split <;> trivial
      | first announced data =>
        have idle : connection.input.isIdle = true := by rw [free]; rfl
        simp only [Connection.received]
        cases bound : connection.address with
        | none =>
          rcases Connection.firstReceived_unbound scope bound memory announced data with
            stays | ⟨_, _, rests, _⟩
          · rw [stays]
            trivial
          · rw [rests]
            trivial
        | some address =>
          rcases Connection.firstReceived_starts scope bound idle memory announced data
            with ⟨stays, _⟩ | ⟨_, news, frame, flow, starts, started⟩
          · rw [stays]
            trivial
          · rw [starts]
            refine ⟨sound.output, Or.inr ⟨address, bound, ?_⟩⟩
            rcases started with ⟨_, _, rfl⟩ | ⟨_, _, collecting, _⟩
            · exact Or.inl rfl
            · exact Or.inr ⟨_, _, _, collecting⟩
      | consecutive sequence data =>
        rw [Connection.received, (Connection.input_stays scope free).2.1]
        trivial
      | flowControl status blockSize separation => cases own
    · rw [(Connection.refusing_rests scope refusing).2.1 memory pdu own]
      trivial
    · exact (Connection.received_collects bound collecting memory own).keeps bound sound

theorem Connection.Sound.confirmed {scope : Scope ω} (sound : connection.Sound scope.settings)
    (direction : Direction) : (connection.confirmed scope direction).Keeps
      fun flow => (connection.setFlow flow direction).Sound scope.settings := by
  cases direction with
  | output =>
    rcases sound.output with free | ⟨address, message, emitted, bound, underway⟩
    · rw [Connection.confirmed, (Connection.output_stays scope free).1]
      trivial
    · exact (Connection.outputConfirmed_sends bound underway).keeps bound sound
  | input =>
    rcases sound.input with free | ⟨address, bound, refusing | ⟨_, _, _, collecting⟩⟩
    · rw [Connection.confirmed, (Connection.input_stays scope free).1]
      trivial
    · rw [Connection.confirmed, (Connection.refusing_rests scope refusing).1]
      trivial
    · exact (Connection.inputConfirmed_collects address collecting).keeps bound sound

theorem Connection.Sound.expired {scope : Scope ω} (sound : connection.Sound scope.settings)
    (alarm : Alarm) : (connection.expired scope alarm).Keeps
      fun flow => (connection.setFlow flow alarm.direction).Sound scope.settings := by
  cases own : alarm.direction with
  | output =>
    rcases sound.output with free | ⟨address, message, emitted, bound, underway⟩
    · rw [(Connection.output_stays scope free).2.2 alarm own]
      trivial
    · exact (Connection.expired_sends bound underway own).keeps bound sound
  | input =>
    rcases sound.input with free | ⟨address, bound, refusing | ⟨_, _, _, collecting⟩⟩
    · rw [(Connection.input_stays scope free).2.2 alarm own]
      trivial
    · rw [(Connection.refusing_rests scope refusing).2.2 alarm own]
      trivial
    · exact (Connection.expired_collects address collecting own).keeps bound sound

theorem Connection.Sound.submitted {x : Exchange ω} {scope : Scope ω}
    (sound : x.connection.Sound scope.settings) (message : List UInt8) :
    (x.submitted scope message).Keeps
      fun flow => (x.connection.setFlow flow .output).Sound scope.settings := by
  rcases x.submitted_sends scope message with stays | ⟨address, frame, flow, acceptance, _, starts,
    underway⟩
  · rw [stays]
    trivial
  · obtain ⟨_, bound, _⟩ := Exchange.accept_eq_ok_iff.mp acceptance
    rw [starts]
    exact ⟨Or.inr ⟨address, message, [frame], bound, underway⟩, sound.input⟩

end

theorem Stack.Plans.keeps {stack : Stack ω} {handle : Handle} {connection : Connection}
    {step : Step ω} {now : Tick} {direction : Direction} {plan : Plan}
    (plans : stack.Plans handle connection step now direction plan)
    (sound : connection.Sound stack.settings) :
    plan.Keeps fun flow => (connection.setFlow flow direction).Sound stack.settings := by
  have viewed : connection.Sound (stack.scope now handle).settings := sound
  cases plans with
  | submit _ message =>
    have submitting : (stack.exchange connection).connection.Sound
        (stack.scope now handle).settings := sound
    exact submitting.submitted message
  | arrive _ pdu => exact viewed.received _ pdu
  | confirm _ direction => exact viewed.confirmed direction
  | settle _ noted => exact viewed.confirmed direction
  | expire _ due own => exact viewed.expired _

theorem Connection.held_setFlow (connection : Connection) (flow : Flow) (direction : Direction) :
    (connection.setFlow flow direction).held + (connection.flow direction).held =
      connection.held + flow.held := by
  cases direction <;> simp only [Connection.held, Connection.setFlow, Connection.flow] <;> omega

section

variable {stack after : Stack ω} {now : Tick} {handle : Handle} {connection : Connection}
  {direction : Direction} {plan : Plan}

/-- One flow of a live connection was replaced. -/
theorem Stack.Sound.turned (sound : stack.Sound)
    (live : stack.connections.get? handle = some connection) {alarms : TimerQueue Alarm}
    {x : Exchange ω} {flow : Flow} {noted : Bool} {outside : Outside ω}
    (turned : Exchange.Turned { stack.exchange connection with alarms, confirmations := [] }
      (stack.scope now handle) direction flow noted outside x)
    (keeps : (connection.setFlow flow direction).Sound stack.settings)
    (awaited : noted = true → flow.unconfirmed = true) : (stack.restore handle x).Sound := by
  have replaced : x.connection = connection.setFlow flow direction := turned.connection
  have charge := connection.held_setFlow flow direction
  have total := Slots.total_set (connection.setFlow flow direction) Connection.held live
  have part : (connection.flow direction).held ≤ connection.held := by
    cases direction <;> simp only [Connection.held, Connection.flow] <;> omega
  have share := Slots.weigh_le_total Connection.held live
  refine ⟨sound.positive, ?_, ?_, ?_, ?_, ?_⟩
  · exact Slots.set_wellFormed _ sound.slots live
  · exact (Slots.capacity_set _ _ _).trans sound.capacity
  · show x.memory.used = (stack.connections.set handle x.connection).total Connection.held
    have used := sound.memory
    rw [turned.memory, replaced]
    show stack.memory.used - (connection.flow direction).held + flow.held = _
    omega
  · intro other found here
    rw [show (stack.restore handle x).connections = stack.connections.set handle x.connection from
      rfl, Slots.get?_set _ live] at here
    by_cases same : other = handle
    · rw [if_pos same] at here
      cases here
      rw [replaced]
      exact keeps
    · rw [if_neg same] at here
      exact sound.flows other found here
  · cases noted with
    | false => exact Or.inl turned.confirmations
    | true =>
      refine Or.inr ⟨handle, direction, x.connection, turned.confirmations, ?_, ?_⟩
      · exact Stack.get?_restore live x
      · rw [replaced, Connection.flow_setFlow]
        exact awaited rfl

theorem Stack.Sound.acts (sound : stack.Sound)
    (acts : stack.Acts now handle connection direction plan after)
    (keeps : plan.Keeps fun flow => (connection.setFlow flow direction).Sound stack.settings) :
    after.Sound := by
  obtain ⟨live, alarms, x, follows, rfl⟩ := acts
  have rests := (sound.flows handle connection live).rest direction
  cases follows with
  | stay same =>
    have kept : (stack.restore handle x).connections = stack.connections := by
      rw [same]
      exact Slots.set_same live
    refine ⟨sound.positive, ?_, ?_, ?_, ?_, Or.inl ?_⟩
    · rw [kept]
      exact sound.slots
    · rw [kept]
      exact sound.capacity
    · rw [kept, same]
      exact sound.memory
    · rw [kept]
      exact sound.flows
    · rw [same]
      rfl
  | wait turned => exact sound.turned live turned keeps (by simp)
  | handed _ turned => exact sound.turned live turned keeps fun _ => rfl
  | refused _ turned => exact sound.turned live turned rests (by simp)
  | rest turned => exact sound.turned live turned rests (by simp)

end

/-- A connection that neither listens nor is bound otherwise is as sound as before. -/
theorem Connection.Sound.of_flows {settings : Settings} {connection other : Connection}
    (sound : connection.Sound settings) (output : other.output = connection.output)
    (input : other.input = connection.input)
    (address : other.address = connection.address ∨
      ∀ direction, (connection.flow direction).isIdle = true) : other.Sound settings := by
  rcases address with same | idle
  · refine ⟨?_, ?_⟩
    · rw [output, same]
      exact sound.output
    · rw [input, same]
      exact sound.input
  · exact ⟨Or.inl (output.trans (sound.idle .output (idle .output))),
      Or.inl (input.trans (sound.idle .input (idle .input)))⟩

theorem Stack.Sound.edited {stack : Stack ω} (sound : stack.Sound) {handle : Handle}
    {connection other : Connection} (live : stack.connections.get? handle = some connection)
    (output : other.output = connection.output) (input : other.input = connection.input)
    (address : other.address = connection.address ∨
      ∀ direction, (connection.flow direction).isIdle = true) :
    Stack.Sound { stack with connections := stack.connections.set handle other } := by
  have flows := (sound.flows handle connection live).of_flows output input address
  have total := Slots.total_set other Connection.held live
  have same : other.held = connection.held := by simp only [Connection.held, output, input]
  refine ⟨sound.positive, Slots.set_wellFormed _ sound.slots live,
    (Slots.capacity_set _ _ _).trans sound.capacity, ?_, ?_, ?_⟩
  · have used := sound.memory
    show stack.memory.used = (stack.connections.set handle other).total Connection.held
    omega
  · intro name found here
    rw [Slots.get?_set _ live] at here
    by_cases equal : name = handle
    · rw [if_pos equal] at here
      cases here
      exact flows
    · rw [if_neg equal] at here
      exact sound.flows name found here
  · rcases sound.noted with quiet | ⟨name, direction, found, noted, here, unconfirmed⟩
    · exact Or.inl quiet
    · by_cases equal : name = handle
      · subst equal
        rw [live] at here
        cases here
        refine Or.inr ⟨name, direction, other, noted, ?_, ?_⟩
        · exact Slots.get?_set_self _ live
        · cases direction with
          | output => exact (congrArg Flow.unconfirmed output).trans unconfirmed
          | input => exact (congrArg Flow.unconfirmed input).trans unconfirmed
      · refine Or.inr ⟨name, direction, found, noted, ?_, unconfirmed⟩
        exact (Slots.get?_set_of_ne _ live equal).trans here

/-- Every step keeps a stack sound. -/
theorem Stack.Sound.step {stack : Stack ω} (sound : stack.Sound) {step : Step ω}
    (timely : step.Timely stack) : (step.run stack).Sound := by
  have turns := sound.turns timely
  generalize step.run stack = after at turns
  cases turns with
  | apart apart _ =>
    refine ⟨?_, ?_, ?_, ?_, ?_, ?_⟩
    · rw [apart.settings]
      exact sound.positive
    · rw [apart.connections]
      exact sound.slots
    · rw [apart.connections, apart.settings]
      exact sound.capacity
    · rw [apart.connections, apart.memory]
      exact sound.memory
    · rw [apart.connections, apart.settings]
      exact sound.flows
    · rw [apart.connections, apart.confirmations]
      exact sound.noted
  | @opened handle connections insertion =>
    obtain ⟨slots, capacity, _⟩ := Slots.insert_wellFormed sound.slots insertion
    refine ⟨sound.positive, slots, capacity.trans sound.capacity, ?_, ?_, Or.inl timely⟩
    · exact sound.memory.trans (Slots.total_insert Connection.held sound.slots insertion).symm
    · intro other found here
      rw [Slots.get?_insert sound.slots insertion] at here
      by_cases same : other = handle
      · rw [if_pos same] at here
        cases here
        exact ⟨Or.inl rfl, Or.inl rfl⟩
      · rw [if_neg same] at here
        exact sound.flows other found here
  | bound live idle => exact sound.edited live rfl rfl (Or.inr idle)
  | listened live => exact sound.edited live rfl rfl (Or.inl rfl)
  | @closed handle connection connections erasure =>
    have total := Slots.total_erase Connection.held erasure
    refine ⟨sound.positive, (Slots.erase_wellFormed sound.slots erasure).1,
      (Slots.capacity_erase erasure).trans sound.capacity, ?_, ?_, Or.inl timely⟩
    · have used := sound.memory
      simp only [Flow.release_eq]
      unfold Connection.held at total used ⊢
      omega
    · intro other found here
      rw [Slots.get?_erase erasure] at here
      by_cases same : other = handle
      · rw [if_pos same] at here
        cases here
      · rw [if_neg same] at here
        exact sound.flows other found here
  | acted plans acts => exact sound.acts acts (plans.keeps (sound.flows _ _ acts.live))
  | lapsed due dead =>
    exact ⟨sound.positive, sound.slots, sound.capacity, sound.memory, sound.flows, sound.noted⟩

end DiagBus
