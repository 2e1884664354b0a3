import DiagBus.Proofs.Histories

namespace DiagBus

variable {ω : Type}

/-- Whether a signal is of this flow. A failure does not say which flow it is of. -/
def Signal.isOf (signal : Signal) (handle : Handle) (direction : Direction) : Bool :=
  match signal with
  | .handed (.flow connection flow) _ _ => connection = handle ∧ flow = direction
  | .refused (.flow connection flow) _ _ _ => connection = handle ∧ flow = direction
  | .received _ connection _ => connection = handle ∧ direction = .input
  | .sent _ connection _ => connection = handle ∧ direction = .output
  | _ => false

/-- Whether a signal can come from an operation on this flow. -/
def Signal.isFrom (signal : Signal) (handle : Handle) (direction : Direction) : Bool :=
  match signal with
  | .failed _ connection _ => connection = handle
  | _ => signal.isOf handle direction

theorem Signal.isOf_of_isFrom {signal : Signal} {handle other : Handle}
    {direction flow : Direction} (own : signal.isFrom other flow = true)
    (apart : ¬(other = handle ∧ flow = direction)) : signal.isOf handle direction = false := by
  cases signal with
  | handed origin index frame =>
    cases origin with
    | flow connection direction' => simp_all [isFrom, isOf]
    | raw subscription => rfl
  | refused origin index frame reason =>
    cases origin with
    | flow connection direction' => simp_all [isFrom, isOf]
    | raw subscription => rfl
  | received listener connection message =>
    simp only [isFrom, isOf, decide_eq_true_eq, decide_eq_false_iff_not] at own ⊢
    rintro ⟨rfl, rfl⟩
    exact apart ⟨own.1.symm, own.2⟩
  | sent listener connection length =>
    simp only [isFrom, isOf, decide_eq_true_eq, decide_eq_false_iff_not] at own ⊢
    rintro ⟨rfl, rfl⟩
    exact apart ⟨own.1.symm, own.2⟩
  | failed listener connection fault => rfl
  | offered listener subscription frame consumed => rfl
  | frameSent listener subscription frame => rfl

theorem Signal.isOf_of_isRaw {signal : Signal} (raw : signal.isRaw = true) (handle : Handle)
    (direction : Direction) : signal.isOf handle direction = false := by
  unfold Signal.isRaw at raw
  split at raw <;> first | rfl | cases raw

/-- The frame that a flow handed to an interface, if the signal says so. -/
def Signal.handed? (signal : Signal) (handle : Handle) (direction : Direction) :
    Option (InterfaceIndex × Frame) :=
  match signal with
  | .handed (.flow connection flow) index frame =>
    if connection = handle ∧ flow = direction then some (index, frame) else none
  | _ => none

/-- The frame that a flow offered to an interface, whether the interface took it or not. -/
def Signal.offered? (signal : Signal) (handle : Handle) (direction : Direction) :
    Option (InterfaceIndex × Frame) :=
  match signal with
  | .refused (.flow connection flow) index frame _ =>
    if connection = handle ∧ flow = direction then some (index, frame) else none
  | signal => signal.handed? handle direction

theorem Signal.offered?_of_not_isOf {signal : Signal} {handle : Handle} {direction : Direction}
    (foreign : signal.isOf handle direction = false) :
    signal.handed? handle direction = none ∧ signal.offered? handle direction = none := by
  cases signal with
  | handed origin index frame =>
    cases origin with
    | flow connection flow => simp_all [Signal.isOf, Signal.handed?, Signal.offered?]
    | raw subscription => exact ⟨rfl, rfl⟩
  | refused origin index frame reason =>
    cases origin with
    | flow connection flow => simp_all [Signal.isOf, Signal.handed?, Signal.offered?]
    | raw subscription => exact ⟨rfl, rfl⟩
  | _ => exact ⟨rfl, rfl⟩

/-- Whether a signal tells a listener of this flow. -/
def Signal.tells (signal : Signal) (handle : Handle) (direction : Direction) : Bool :=
  match signal with
  | .received _ connection _ => connection = handle ∧ direction = .input
  | .sent _ connection _ => connection = handle ∧ direction = .output
  | .failed _ connection _ => connection = handle
  | _ => false

theorem Signal.isFrom_of_tells {signal : Signal} {handle : Handle} {direction : Direction}
    (tells : signal.tells handle direction = true) : signal.isFrom handle direction = true := by
  unfold Signal.tells at tells
  split at tells
  · exact tells
  · exact tells
  · exact tells
  · cases tells

/-- All that a plan says by itself is for listeners of the flow that carries it out. -/
def Plan.Speaks (plan : Plan) (handle : Handle) (direction : Direction) : Prop :=
  match plan with
  | .stay news => ∀ signal ∈ news, signal.tells handle direction = true
  | .wait _ => True
  | .hand news _ _ _ refusal =>
    (∀ signal ∈ news, signal.tells handle direction = true) ∧
      ∀ fault, ∀ signal ∈ refusal fault, signal.tells handle direction = true
  | .rest news => ∀ signal ∈ news, signal.tells handle direction = true

theorem mem_told {listener : Option Listener} {news : Listener → Signal} {signal : Signal} :
    signal ∈ told listener news ↔ ∃ name, listener = some name ∧ signal = news name := by
  cases listener <;> simp [told]

theorem Connection.failure_tells (connection : Connection) (scope : Scope ω) (fault : Fault)
    (direction : Direction) : ∀ signal ∈ connection.failure scope fault,
      signal.tells scope.handle direction = true := by
  intro signal member
  obtain ⟨name, _, rfl⟩ := mem_told.mp member
  simp [Signal.tells]

theorem Connection.sent_tells (connection : Connection) (scope : Scope ω) :
    ∀ signal ∈ connection.sent scope, signal.tells scope.handle .output = true := by
  intro signal member
  obtain ⟨name, _, rfl⟩ := mem_told.mp member
  simp [Signal.tells]

theorem told_received_tells (listener : Option Listener) (scope : Scope ω) (message : List UInt8) :
    ∀ signal ∈ told listener (.received · scope.handle message),
      signal.tells scope.handle .input = true := by
  intro signal member
  obtain ⟨name, _, rfl⟩ := mem_told.mp member
  simp [Signal.tells]

section

variable (connection : Connection) (scope : Scope ω)

theorem Connection.next_speaks (flow : Flow) :
    (connection.next scope flow).Speaks scope.handle .output := by
  unfold Connection.next
  cases connection.address with
  | none => exact connection.failure_tells scope _ _
  | some address =>
    simp only []
    cases (address.encoder scope.settings).nextFrame? flow with
    | none => exact connection.failure_tells scope _ _
    | some found => exact ⟨by simp, fun fault => connection.failure_tells scope fault _⟩

theorem Connection.answer_speaks {news : List Signal}
    (own : ∀ signal ∈ news, signal.tells scope.handle .input = true) (flow : Flow) :
    (connection.answer scope news flow).Speaks scope.handle .input := by
  unfold Connection.answer
  cases connection.address with
  | none =>
    intro signal member
    rcases List.mem_append.mp member with early | late
    · exact own signal early
    · exact connection.failure_tells scope _ _ signal late
  | some address => exact ⟨own, fun fault => connection.failure_tells scope fault _⟩

theorem Connection.outputConfirmed_speaks :
    (connection.outputConfirmed scope).Speaks scope.handle .output := by
  unfold Connection.outputConfirmed
  split
  · simp [Plan.Speaks]
  · simp only []
    split
    · exact connection.sent_tells scope
    · trivial
    · split
      · exact connection.sent_tells scope
      · split
        · trivial
        · split
          · exact connection.next_speaks scope _
          · trivial
    · simp [Plan.Speaks]

theorem Connection.controlReceived_speaks (status : FlowStatus) (blockSize separation : UInt8) :
    (connection.controlReceived scope status blockSize separation).Speaks scope.handle .output := by
  unfold Connection.controlReceived
  by_cases elsewhere : connection.output.phase ≠ .controlIn
  · simp only [elsewhere, ne_eq, not_false_eq_true, if_true]
    simp [Plan.Speaks]
  · simp only [elsewhere, if_false]
    cases status with
    | continueToSend => exact connection.next_speaks scope _
    | wait =>
      simp only []
      split
      · exact connection.failure_tells scope _ _
      · trivial
    | overflow => exact connection.failure_tells scope _ _
    | reserved nibble => exact connection.failure_tells scope _ _

theorem Connection.inputConfirmed_speaks :
    connection.inputConfirmed.Speaks scope.handle .input := by
  unfold Connection.inputConfirmed
  split
  · simp [Plan.Speaks]
  · simp only []
    split
    · split <;> simp [Plan.Speaks]
    · simp [Plan.Speaks]

theorem Connection.consecutiveReceived_speaks (sequence : UInt8) (data : List UInt8) :
    (connection.consecutiveReceived scope sequence data).Speaks scope.handle .input := by
  unfold Connection.consecutiveReceived
  by_cases elsewhere : connection.input.phase ≠ .consecutiveIn
  · simp only [elsewhere, ne_eq, not_false_eq_true, if_true]
    simp [Plan.Speaks]
  · simp only [elsewhere, if_false]
    split
    · exact connection.failure_tells scope _ _
    · split
      · cases (connection.input.collect data).buffer with
        | none => simp [Plan.Speaks]
        | some buffer => exact told_received_tells _ _ _
      · split
        · exact connection.answer_speaks scope (by simp) _
        · trivial

/-- What a unit of the peer makes a connection tell is of the flow the unit is for. -/
theorem Connection.received_speaks (memory : Memory) (pdu : Pdu) :
    (connection.received scope memory pdu).Speaks scope.handle pdu.direction := by
  cases pdu with
  | single message =>
    simp only [Connection.received, Connection.singleReceived]
    split
    · exact told_received_tells _ _ _
    · simp [Plan.Speaks]
  | first length data =>
    simp only [Connection.received, Connection.firstReceived]
    split
    · simp [Plan.Speaks]
    · split
      · simp [Plan.Speaks]
      · split
        · exact connection.answer_speaks scope (connection.failure_tells scope _ _) _
        · exact connection.answer_speaks scope (by simp) _
  | consecutive sequence data => exact connection.consecutiveReceived_speaks scope sequence data
  | flowControl status blockSize separation =>
    exact connection.controlReceived_speaks scope status blockSize separation

theorem Connection.confirmed_speaks (direction : Direction) :
    (connection.confirmed scope direction).Speaks scope.handle direction := by
  cases direction with
  | output => exact connection.outputConfirmed_speaks scope
  | input => exact connection.inputConfirmed_speaks scope

theorem Connection.expired_speaks (alarm : Alarm) :
    (connection.expired scope alarm).Speaks scope.handle alarm.direction := by
  unfold Connection.expired
  cases alarm with
  | output handle =>
    simp only []
    split
    · simp [Plan.Speaks]
    · exact connection.failure_tells scope _ _
  | input handle =>
    simp only []
    split
    · simp [Plan.Speaks]
    · exact connection.failure_tells scope _ _
  | separation handle =>
    simp only []
    split
    · exact connection.next_speaks scope _
    · simp [Plan.Speaks]

end

theorem Exchange.submitted_speaks (x : Exchange ω) (scope : Scope ω) (message : List UInt8) :
    (x.submitted scope message).Speaks scope.handle .output := by
  rcases x.submitted_sends scope message with stays | ⟨_, _, _, _, _, starts, _⟩
  · rw [stays]
    simp [Plan.Speaks]
  · rw [starts]
    simp [Plan.Speaks]

/-- One flow of a live connection was replaced; a confirmation may have been noted. -/
structure Stack.Replaced (before : Stack ω) (handle : Handle) (connection : Connection)
    (direction : Direction) (flow : Flow) (noted : Bool) (after : Stack ω) : Prop where
  connections : after.connections =
    before.connections.set handle (connection.setFlow flow direction)
  memory : after.memory = { before.memory with
    used := before.memory.used - (connection.flow direction).held + flow.held }
  confirmations : after.confirmations = if noted then [⟨handle, direction⟩] else []

theorem Stack.Replaced.get? {before after : Stack ω} {handle : Handle} {connection : Connection}
    {direction : Direction} {flow : Flow} {noted : Bool}
    (replaced : before.Replaced handle connection direction flow noted after)
    (live : before.connections.get? handle = some connection) :
    after.connections.get? handle = some (connection.setFlow flow direction) := by
  rw [replaced.connections, Slots.get?_set_self _ live]

/-- What became of a plan, and what was told. -/
inductive Stack.Carried (before : Stack ω) (handle : Handle) (connection : Connection)
    (direction : Direction) : Plan → Stack ω → List Signal → Prop
  | stay {news : List Signal} {after : Stack ω}
      (connections : after.connections = before.connections)
      (memory : after.memory = before.memory) (confirmations : after.confirmations = []) :
      Carried before handle connection direction (.stay news) after news
  | wait {flow : Flow} {after : Stack ω}
      (replaced : before.Replaced handle connection direction flow false after) :
      Carried before handle connection direction (.wait flow) after []
  | handed {news : List Signal} {index : InterfaceIndex} {frame : Frame} {flow : Flow}
      {refusal : Fault → List Signal} {confirmed : Bool} {after : Stack ω}
      (replaced : before.Replaced handle connection direction
        { flow with unconfirmed := true } confirmed after) :
      Carried before handle connection direction (.hand news index frame flow refusal) after
        (news ++ [.handed (.flow handle direction) index frame])
  | refused {news attempt : List Signal} {index : InterfaceIndex} {frame : Frame} {flow : Flow}
      {refusal : Fault → List Signal} {after : Stack ω} (fault : Fault)
      (replaced : before.Replaced handle connection direction {} false after)
      (attempted : attempt = [] ∨
        ∃ reason, attempt = [.refused (.flow handle direction) index frame reason])
      (reason : fault ∈ handingFaults) :
      Carried before handle connection direction (.hand news index frame flow refusal) after
        (news ++ attempt ++ refusal fault)
  | rest {news : List Signal} {after : Stack ω}
      (replaced : before.Replaced handle connection direction {} false after) :
      Carried before handle connection direction (.rest news) after news

/-- What it takes for a frame to be taken. -/
theorem Registry.hand_eq_ok_iff {registry : Registry ω} {origin : Origin} {index : InterfaceIndex}
    {frame : Frame} {outside after : Outside ω} {confirmed : Bool} :
    registry.hand origin index frame outside = (.ok confirmed, after) ↔
      ∃ interface world, registry.get? index = some interface ∧
        interface.output frame outside.world = (.ok (), world) ∧
        confirmed = !interface.confirmsLater world ∧
        after = { world, signals := outside.signals ++ [.handed origin index frame] } := by
  unfold Registry.hand
  cases registry.get? index with
  | none => simp
  | some interface =>
    simp only [Option.some.injEq]
    rcases answer : interface.output frame outside.world with ⟨reason | _, world⟩
    · simp [answer]
    · simp [answer, Outside.tell, eq_comm]

/-- What it takes for a frame not to be taken. -/
theorem Registry.hand_eq_error_iff {registry : Registry ω} {origin : Origin}
    {index : InterfaceIndex} {frame : Frame} {outside after : Outside ω} {fault : Fault} :
    registry.hand origin index frame outside = (.error fault, after) ↔
      registry.get? index = none ∧ fault = .notConnected ∧ after = outside ∨
        ∃ interface reason world, registry.get? index = some interface ∧
          interface.output frame outside.world = (.error reason, world) ∧ fault = .interface ∧
          after = { world, signals := outside.signals ++ [.refused origin index frame reason] } := by
  unfold Registry.hand
  cases registry.get? index with
  | none => simp [eq_comm]
  | some interface =>
    simp only [Option.some.injEq]
    rcases answer : interface.output frame outside.world with ⟨reason | _, world⟩
    · simp [answer, Outside.tell, Refusal.fault, eq_comm]
    · simp [answer]

theorem Registry.hand_ok {registry : Registry ω} {origin : Origin} {index : InterfaceIndex}
    {frame : Frame} {outside after : Outside ω} {confirmed : Bool}
    (run : registry.hand origin index frame outside = (.ok confirmed, after)) :
    after.signals = outside.signals ++ [.handed origin index frame] := by
  obtain ⟨_, _, _, _, _, rfl⟩ := Registry.hand_eq_ok_iff.mp run
  rfl

theorem Registry.hand_error {registry : Registry ω} {origin : Origin} {index : InterfaceIndex}
    {frame : Frame} {outside after : Outside ω} {fault : Fault}
    (run : registry.hand origin index frame outside = (.error fault, after)) :
    fault ∈ handingFaults ∧ ∃ attempt, after.signals = outside.signals ++ attempt ∧
      (attempt = [] ∨ ∃ reason, attempt = [.refused origin index frame reason]) := by
  rcases Registry.hand_eq_error_iff.mp run with ⟨_, rfl, rfl⟩ | ⟨_, reason, _, _, _, rfl, rfl⟩
  · exact ⟨by simp [handingFaults], [], (List.append_nil _).symm, Or.inl rfl⟩
  · exact ⟨by simp [handingFaults], _, rfl, Or.inr ⟨reason, rfl⟩⟩

/-- What a step on a live connection comes to. -/
theorem Stack.Acts.carries_out {before after : Stack ω} {now : Tick} {handle : Handle}
    {connection : Connection} {direction : Direction} {plan : Plan}
    (acts : before.Acts now handle connection direction plan after) :
    ∃ news, after.outside.signals = before.outside.signals ++ news ∧
      before.Carried handle connection direction plan after news := by
  obtain ⟨live, alarms, x, follows, rfl⟩ := acts
  have replaced {flow : Flow} {noted : Bool} {outside : Outside ω}
      (turned : Exchange.Turned { before.exchange connection with alarms, confirmations := [] }
        (before.scope now handle) direction flow noted outside x) :
      before.Replaced handle connection direction flow noted (before.restore handle x) :=
    ⟨congrArg (before.connections.set handle) turned.connection, turned.memory, turned.confirmations⟩
  cases follows with
  | @stay news _ same =>
    refine ⟨news, by rw [same]; rfl, .stay ?_ (by rw [same]; rfl) (by rw [same]; rfl)⟩
    rw [same]
    exact Slots.set_same live
  | wait turned =>
    refine ⟨[], ?_, .wait (replaced turned)⟩
    rw [List.append_nil]
    exact congrArg Outside.signals turned.outside
  | @handed news index frame flow refusal confirmed outside _ taken turned =>
    refine ⟨_, ?_, .handed (replaced turned)⟩
    rw [show (before.restore handle x).outside = outside from turned.outside,
      Registry.hand_ok taken, ← List.append_assoc]
    rfl
  | @refused news index frame flow refusal fault outside _ declined turned =>
    obtain ⟨reason, attempt, signals, attempted⟩ := Registry.hand_error declined
    refine ⟨_, ?_, .refused fault (replaced turned) attempted reason⟩
    rw [show (before.restore handle x).outside = outside.tellAll (refusal fault) from turned.outside]
    simp only [Outside.tellAll, signals, List.append_assoc]
    rfl
  | rest turned =>
    refine ⟨_, ?_, .rest (replaced turned)⟩
    exact congrArg Outside.signals turned.outside

/-- A frame that the interface takes is handed over. -/
theorem Stack.Acts.of_taken {before after : Stack ω} {now : Tick} {handle : Handle}
    {connection : Connection} {direction : Direction} {news : List Signal} {index : InterfaceIndex}
    {frame : Frame} {flow : Flow} {refusal : Fault → List Signal}
    (acts : before.Acts now handle connection direction (.hand news index frame flow refusal) after)
    {confirmed : Bool} {outside : Outside ω}
    (taken : before.registry.hand (.flow handle direction) index frame
      (before.outside.tellAll news) = (.ok confirmed, outside)) :
    before.Replaced handle connection direction { flow with unconfirmed := true } confirmed after ∧
      after.outside = outside := by
  obtain ⟨_, alarms, x, follows, rfl⟩ := acts
  cases follows with
  | refused declined _ =>
    have other := declined.symm.trans taken
    cases other
  | handed accepted turned =>
    have same := accepted.symm.trans taken
    cases same
    exact ⟨⟨congrArg (before.connections.set handle) turned.connection, turned.memory,
      turned.confirmations⟩, turned.outside⟩

theorem Stack.Carried.speaks {before after : Stack ω} {handle : Handle} {connection : Connection}
    {direction : Direction} {plan : Plan} {news : List Signal}
    (carried : before.Carried handle connection direction plan after news)
    (speaks : plan.Speaks handle direction) :
    ∀ signal ∈ news, signal.isFrom handle direction = true := by
  cases carried with
  | stay _ _ _ => exact fun signal member => Signal.isFrom_of_tells (speaks signal member)
  | wait _ => simp
  | handed _ =>
    intro signal member
    rcases List.mem_append.mp member with early | late
    · exact Signal.isFrom_of_tells (speaks.1 signal early)
    · rw [List.mem_singleton.mp late]
      simp [Signal.isFrom, Signal.isOf]
  | refused fault _ attempted =>
    intro signal member
    rcases List.mem_append.mp member with early | late
    · rcases List.mem_append.mp early with first | attempt
      · exact Signal.isFrom_of_tells (speaks.1 signal first)
      · rcases attempted with nothing | ⟨reason, once⟩
        · rw [nothing] at attempt
          cases attempt
        · rw [once] at attempt
          rw [List.mem_singleton.mp attempt]
          simp [Signal.isFrom, Signal.isOf]
    · exact Signal.isFrom_of_tells (speaks.2 fault signal late)
  | rest _ => exact fun signal member => Signal.isFrom_of_tells (speaks signal member)

/-- A plan that changes nothing tells what it says. -/
theorem Stack.Carried.of_stay {before after : Stack ω} {handle : Handle} {connection : Connection}
    {direction : Direction} {news told : List Signal}
    (carried : before.Carried handle connection direction (.stay news) after told) :
    told = news ∧ after.connections = before.connections := by
  cases carried with
  | stay connections _ _ => exact ⟨rfl, connections⟩

/-- What a carried out plan leaves of the connections. -/
theorem Stack.Carried.get? {before after : Stack ω} {handle : Handle} {connection : Connection}
    {direction : Direction} {plan : Plan} {news : List Signal}
    (carried : before.Carried handle connection direction plan after news)
    (live : before.connections.get? handle = some connection) :
    (∀ other, other ≠ handle → after.connections.get? other = before.connections.get? other) ∧
      ∃ flow, after.connections.get? handle = some (connection.setFlow flow direction) := by
  have of_replaced {flow : Flow} {noted : Bool}
      (replaced : before.Replaced handle connection direction flow noted after) :
      (∀ other, other ≠ handle → after.connections.get? other = before.connections.get? other) ∧
        ∃ flow, after.connections.get? handle = some (connection.setFlow flow direction) := by
    rw [replaced.connections]
    refine ⟨fun other apart => ?_, flow, ?_⟩
    · rw [Slots.get?_set_of_ne _ live apart]
    · rw [Slots.get?_set_self _ live]
  cases carried with
  | stay connections _ _ =>
    rw [connections]
    refine ⟨fun _ _ => rfl, connection.flow direction, live.trans ?_⟩
    cases direction <;> rfl
  | wait replaced => exact of_replaced replaced
  | handed replaced => exact of_replaced replaced
  | refused fault replaced _ => exact of_replaced replaced
  | rest replaced => exact of_replaced replaced

theorem Stack.Plans.speaks {stack : Stack ω} {handle : Handle} {connection : Connection}
    {step : Step ω} {now : Tick} {direction : Direction} {plan : Plan}
    (plans : stack.Plans handle connection step now direction plan) :
    plan.Speaks handle direction := by
  cases plans with
  | submit _ message =>
    exact (stack.exchange connection).submitted_speaks (stack.scope now handle) message
  | arrive _ pdu => exact connection.received_speaks (stack.scope now handle) _ pdu
  | confirm _ direction => exact connection.confirmed_speaks (stack.scope now handle) direction
  | settle _ noted => exact connection.confirmed_speaks (stack.scope now handle) direction
  | expire _ due own => exact connection.expired_speaks (stack.scope now handle) _

/-- A flow is left as it is, unless its connection is opened or closed. -/
def Stack.Leaves (before after : Stack ω) (handle : Handle) (direction : Direction) : Prop :=
  ∀ connection, after.connections.get? handle = some connection →
    before.connections.get? handle = none ∧ connection = {} ∨
      ∃ earlier, before.connections.get? handle = some earlier ∧
        connection.flow direction = earlier.flow direction ∧
          (connection.address = earlier.address ∨ (earlier.flow direction).isIdle = true)

theorem Stack.Leaves.of_same {before after : Stack ω} {handle : Handle}
    (same : after.connections.get? handle = before.connections.get? handle)
    (direction : Direction) : before.Leaves after handle direction := by
  intro connection here
  rw [same] at here
  exact Or.inr ⟨connection, here, rfl, Or.inl rfl⟩

theorem Stack.Leaves.of_set {before after : Stack ω} {name : Handle} {old new : Connection}
    (live : before.connections.get? name = some old)
    (same : after.connections = before.connections.set name new) {direction : Direction}
    (flow : new.flow direction = old.flow direction)
    (address : new.address = old.address ∨ (old.flow direction).isIdle = true) (handle : Handle) :
    before.Leaves after handle direction := by
  by_cases equal : handle = name
  · intro connection here
    rw [same, Slots.get?_set _ live, if_pos equal] at here
    cases here
    exact Or.inr ⟨old, equal ▸ live, flow, address⟩
  · refine .of_same ?_ direction
    rw [same, Slots.get?_set_of_ne _ live equal]

/-- A step that passes a flow by has no plan for it, tells nothing of it and leaves it alone. -/
structure Stack.Passes (before : Stack ω) (step : Step ω) (after : Stack ω) (news : List Signal)
    (handle : Handle) (direction : Direction) : Prop where
  unplanned : ∀ connection now plan, before.connections.get? handle = some connection →
    ¬before.Plans handle connection step now direction plan
  silent : ∀ signal ∈ news, signal.isOf handle direction = false
  leaves : before.Leaves after handle direction

/-- For each flow, a step either passes it by or has it carry out a plan. -/
theorem Stack.Turns.flow_cases {before after : Stack ω} {step : Step ω} (sound : before.Sound)
    (turns : before.Turns step after) (handle : Handle) (direction : Direction) :
    ∃ news, after.outside.signals = before.outside.signals ++ news ∧
      (before.Passes step after news handle direction ∨
        ∃ connection now plan, before.connections.get? handle = some connection ∧
          before.Plans handle connection step now direction plan ∧
          before.Carried handle connection direction plan after news) := by
  have quiet {stack : Stack ω} (same : stack.outside = before.outside)
      (leaves : before.Leaves stack handle direction) (plain : step.isPlain = true) :
      ∃ news, stack.outside.signals = before.outside.signals ++ news ∧
        (before.Passes step stack news handle direction ∨
          ∃ connection now plan, before.connections.get? handle = some connection ∧
            before.Plans handle connection step now direction plan ∧
            before.Carried handle connection direction plan stack news) := by
    refine ⟨[], by rw [same, List.append_nil], Or.inl ⟨?_, by simp, leaves⟩⟩
    intro _ _ _ _ plans
    rw [plans.not_plain] at plain
    cases plain
  cases turns with
  | apart apart elsewhere =>
    obtain ⟨news, told, raw⟩ := apart.outside
    refine ⟨news, told, Or.inl ⟨fun _ _ _ here => elsewhere _ _ _ _ _ here,
      fun signal member => ?_, .of_same ?_ direction⟩⟩
    · exact Signal.isOf_of_isRaw (raw signal member) handle direction
    · rw [apart.connections]
  | @opened name connections insertion =>
    refine quiet rfl ?_ rfl
    by_cases equal : handle = name
    · intro connection here
      rw [show Slots.get? connections handle = _ from
        Slots.get?_insert sound.slots insertion handle, if_pos equal] at here
      cases here
      exact Or.inl ⟨equal ▸ Slots.get?_of_insert sound.slots insertion, rfl⟩
    · refine .of_same ?_ direction
      exact (Slots.get?_insert sound.slots insertion handle).trans (if_neg equal)
  | bound live idle =>
    refine quiet rfl (.of_set live rfl ?_ (Or.inr (idle direction)) handle) rfl
    cases direction <;> rfl
  | @listened name onReceived onSent onFailed connection live =>
    have same : ({ connection with onReceived, onSent, onFailed } : Connection).flow direction =
        connection.flow direction := by cases direction <;> rfl
    exact quiet rfl (.of_set live rfl same (Or.inl rfl) handle) rfl
  | @closed name connection connections erasure =>
    refine quiet rfl ?_ rfl
    intro found here
    rw [show Slots.get? connections handle = _ from Slots.get?_erase erasure handle] at here
    by_cases equal : handle = name
    · rw [if_pos equal] at here
      cases here
    · rw [if_neg equal] at here
      exact Or.inr ⟨found, here, rfl, Or.inl rfl⟩
  | @acted _ now name connection flow plan _ plans acts =>
    have live := acts.live
    obtain ⟨news, told, carried⟩ := acts.carries_out
    obtain ⟨others, replaced, here⟩ := carried.get? live
    refine ⟨news, told, ?_⟩
    by_cases own : name = handle ∧ flow = direction
    · obtain ⟨rfl, rfl⟩ := own
      exact Or.inr ⟨connection, now, plan, live, plans, carried⟩
    · refine Or.inl ⟨fun _ _ _ _ again => own ?_, fun signal member => ?_, ?_⟩
      · obtain ⟨same_handle, same_direction⟩ := plans.unique again
        exact ⟨same_handle.symm, same_direction.symm⟩
      · exact Signal.isOf_of_isFrom (carried.speaks plans.speaks signal member) own
      · by_cases equal : handle = name
        · subst equal
          have apart : flow ≠ direction := fun same => own ⟨rfl, same⟩
          intro found found_here
          rw [here] at found_here
          cases found_here
          refine Or.inr ⟨connection, live, ?_, Or.inl (connection.address_setFlow _ _)⟩
          cases direction <;> cases flow <;> first | rfl | exact absurd rfl apart
        · exact .of_same (others handle equal) direction
  | lapsed due dead =>
    refine ⟨[], (List.append_nil _).symm, Or.inl ⟨?_, by simp, .of_same rfl direction⟩⟩
    intro connection now plan here plans
    cases plans with
    | expire _ popped own =>
      rw [due] at popped
      cases popped
      rw [own, here] at dead
      cases dead

/-- A step that passes a flow by. -/
def Moment.Passes (moment : Moment ω) (handle : Handle) (direction : Direction) : Prop :=
  moment.before.Passes moment.step moment.after moment.news handle direction

theorem Moment.news_eq {moment : Moment ω} {news : List Signal}
    (told : moment.after.outside.signals = moment.before.outside.signals ++ news) :
    moment.news = news := by
  rw [Moment.news, told, List.drop_left]

theorem Moment.flow_cases {moment : Moment ω} (sound : moment.before.Sound)
    (timely : moment.step.Timely moment.before) (handle : Handle) (direction : Direction) :
    moment.Passes handle direction ∨ ∃ connection now plan,
      moment.before.connections.get? handle = some connection ∧
        moment.before.Plans handle connection moment.step now direction plan ∧
        moment.before.Carried handle connection direction plan moment.after moment.news := by
  obtain ⟨news, told, cases⟩ := (sound.turns timely).flow_cases sound handle direction
  have same : moment.news = news := Moment.news_eq told
  unfold Moment.Passes
  rw [same]
  exact cases

end DiagBus
