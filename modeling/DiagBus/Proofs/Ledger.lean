import DiagBus.Proofs.Conservation

namespace DiagBus

variable {ω : Type}

/-- What is entered of the transfers of one flow. -/
inductive Ledger.Entry
  /-- A message was taken to be sent, or there was memory for one that a first frame announced. -/
  | started (length : Nat)
  /-- There was no memory for the message that a first frame announced. -/
  | denied
  | sent (length : Nat)
  | received (length : Nat)
  | failed (fault : Fault)
  /-- The connection was closed in the middle of a transfer. -/
  | closed
  deriving DecidableEq

/-- The ends of a transfer of a message of this length. -/
inductive Ledger.Entry.Ends (direction : Direction) (length : Nat) : Ledger.Entry → Prop
  | sent (own : direction = .output) : Ends direction length (.sent length)
  | received (own : direction = .input) : Ends direction length (.received length)
  | failed {fault : Fault} (reason : fault ∈ direction.faults ++ handingFaults) :
      Ends direction length (.failed fault)
  | closed : Ends direction length .closed

/-- Where the ledger of a flow stands. -/
inductive Standing
  /-- Every transfer has ended. -/
  | settled
  /-- A transfer of a message of this length goes on. -/
  | pending (length : Nat)
  /-- A message was denied, and the peer is being told. -/
  | denying

/-- The ledger of a flow. Each transfer that starts has one end; a message that is denied is told so,
and then at most that the peer could not be told. -/
inductive Ledger (direction : Direction) : List Ledger.Entry → Standing → Prop
  | empty : Ledger direction [] .settled
  | started {entries : List Ledger.Entry} (length : Nat) (ledger : Ledger direction entries .settled) :
      Ledger direction (entries ++ [.started length]) (.pending length)
  | ended {entries : List Ledger.Entry} {length : Nat} {entry : Ledger.Entry}
      (ledger : Ledger direction entries (.pending length)) (ends : entry.Ends direction length) :
      Ledger direction (entries ++ [entry]) .settled
  | denied {entries : List Ledger.Entry} (own : direction = .input)
      (ledger : Ledger direction entries .settled) :
      Ledger direction (entries ++ [.denied, .failed .memory]) .denying
  | answered {entries : List Ledger.Entry} (ledger : Ledger direction entries .denying) :
      Ledger direction entries .settled
  | unanswered {entries : List Ledger.Entry} {fault : Fault} (ledger : Ledger direction entries .denying)
      (reason : fault ∈ .receiveTimeout :: handingFaults) :
      Ledger direction (entries ++ [.failed fault]) .settled
  | closed {entries : List Ledger.Entry} (ledger : Ledger direction entries .denying) :
      Ledger direction (entries ++ [.closed]) .settled

/-- A flow is where its ledger stands. -/
inductive Stack.Stands (stack : Stack ω) (handle : Handle) (direction : Direction) :
    Standing → Prop
  | settled (rests : ∀ connection, stack.connections.get? handle = some connection →
        connection.flow direction = {}) : Stands stack handle direction .settled
  | pending {connection : Connection} (live : stack.connections.get? handle = some connection)
      (holds : (connection.flow direction).Holds direction) :
      Stands stack handle direction (.pending (connection.flow direction).total)
  | denying {connection : Connection} (live : stack.connections.get? handle = some connection)
      (own : direction = .input) (refusing : (connection.flow direction).Refusing) :
      Stands stack handle direction .denying

/-- The flow that a step is for. -/
def Moment.flow? (moment : Moment ω) : Option (Handle × Direction) :=
  match moment.step with
  | .submit _ handle _ => some (handle, .output)
  | .arrive _ handle pdu => some (handle, pdu.direction)
  | .confirm _ handle direction => some (handle, direction)
  | .settle _ =>
    moment.before.confirmations.head?.map fun noted => (noted.connection, noted.direction)
  | .expire now =>
    (moment.before.alarms.popDue now).map fun due => (due.1.connection, due.1.direction)
  | _ => none

/-- Whether a whole message arrives in one frame. -/
def Step.isSingle : Step ω → Bool
  | .arrive _ _ (.single _) => true
  | _ => false

/-- The transfer that starts in a step, or is denied. -/
def Moment.starts (moment : Moment ω) (handle : Handle) (direction : Direction) : List Ledger.Entry :=
  match moment.step, direction with
  | .submit now other message, .output =>
    if other = handle ∧ (moment.before.send now handle message).1 = .ok () then
      [.started message.length]
    else []
  | .arrive _ other (.first length data), .input =>
    if other = handle ∧ data.length < length ∧
        (moment.before.connections.get? handle).any (·.input.isIdle) then
      [if length ≤ moment.before.memory.available then .started length else .denied]
    else []
  | _, _ => []

/-- What a signal says of a flow, if it is one that says so of a flow of this direction. -/
def Signal.recorded? (signal : Signal) (handle : Handle) (direction : Direction) : Option Ledger.Entry :=
  match signal, direction with
  | .sent _ other length, .output => if other = handle then some (.sent length) else none
  | .received _ other message, .input =>
    if other = handle then some (.received message.length) else none
  | .failed _ other fault, _ => if other = handle then some (.failed fault) else none
  | _, _ => none

/-- What is told in a step of the flow that the step is for. A message that arrives in one frame is
not the end of a transfer. -/
def Moment.reports (moment : Moment ω) (handle : Handle) (direction : Direction) : List Ledger.Entry :=
  if moment.flow? = some (handle, direction) ∧ moment.step.isSingle = false then
    moment.news.filterMap (·.recorded? handle direction)
  else []

/-- What a step enters into the ledger of a flow. -/
def Moment.entries (moment : Moment ω) (handle : Handle) (direction : Direction) : List Ledger.Entry :=
  moment.starts handle direction ++ moment.reports handle direction ++
    if moment.step.closes handle && moment.before.busy handle direction then [.closed] else []

/-- Whether a signal tells of a message or of a failure. -/
def Signal.isReport (signal : Signal) (handle : Handle) : Bool :=
  match signal with
  | .received _ other _ => other = handle
  | .sent _ other _ => other = handle
  | .failed _ other _ => other = handle
  | _ => false

/-- Somebody is told of everything. -/
structure Connection.Listens (connection : Connection) : Prop where
  received : connection.onReceived.isSome = true
  sent : connection.onSent.isSome = true
  failed : connection.onFailed.isSome = true

section

variable {stack before after : Stack ω} {moment : Moment ω} {handle : Handle}
  {direction : Direction} {connection : Connection} {now : Tick} {plan : Plan} {length : Nat}
  {entries : List Ledger.Entry}

theorem Stack.Stands.of_holds (live : stack.connections.get? handle = some connection)
    (holds : (connection.flow direction).Holds direction)
    (total : (connection.flow direction).total = length) :
    stack.Stands handle direction (.pending length) := by
  subst total
  exact .pending live holds

/-- Only an idle connection takes a message. -/
theorem Stack.idle_of_accepts (live : stack.connections.get? handle = some connection)
    {message : List UInt8} (accepts : (stack.send now handle message).1 = .ok ()) :
    connection.output.isIdle = true := by
  unfold Stack.send at accepts
  simp only [live] at accepts
  cases acceptance : (stack.exchange connection).accept (stack.scope now handle) message with
  | error fault => simp [Exchange.send, acceptance] at accepts
  | ok address => exact (Exchange.accept_eq_ok_iff.mp acceptance).2.2.2.2.2

theorem Stack.refuses_dead (dead : stack.connections.get? handle = none) (now : Tick)
    (message : List UInt8) : (stack.send now handle message).1 ≠ .ok () := by
  simp [Stack.send, dead]

theorem Stack.Plans.flow?_eq {step : Step ω}
    (plans : stack.Plans handle connection step now direction plan) :
    Moment.flow? ⟨stack, step⟩ = some (handle, direction) := by
  unfold Moment.flow?
  cases plans with
  | submit _ message => rfl
  | arrive _ pdu => rfl
  | confirm _ direction => rfl
  | settle _ noted =>
    simp [noted]
  | expire _ due own =>
    simp [due, own]

/-- A step that is for a flow of a live connection has a plan for it. -/
theorem Stack.Sound.plans_of_flow? (sound : moment.before.Sound)
    (own : moment.flow? = some (handle, direction)) (connection : Connection) :
    ∃ now plan, moment.before.Plans handle connection moment.step now direction plan := by
  obtain ⟨stack, step⟩ := moment
  unfold Moment.flow? at own
  cases step with
  | submit now name message =>
    cases own
    exact ⟨_, _, .submit now message⟩
  | arrive now name pdu =>
    cases own
    exact ⟨_, _, .arrive now pdu⟩
  | confirm now name direction =>
    cases own
    exact ⟨_, _, .confirm now direction⟩
  | settle now =>
    obtain ⟨confirmation, noted, same⟩ := Option.map_eq_some_iff.mp own
    cases same
    obtain ⟨only, _⟩ := sound.only_noted (List.mem_of_mem_head? noted)
    exact ⟨_, _, .settle now only⟩
  | expire now =>
    simp only [] at own
    cases due : stack.alarms.popDue now with
    | none => simp [due] at own
    | some popped =>
      obtain ⟨alarm, alarms⟩ := popped
      simp only [due, Option.map_some, Option.some.injEq, Prod.mk.injEq] at own
      obtain ⟨named, rfl⟩ := own
      exact ⟨_, _, .expire now due named⟩
  | _ => cases own

theorem Stack.Plans.entries_eq
    (plans : moment.before.Plans handle connection moment.step now direction plan) :
    moment.entries handle direction = moment.starts handle direction ++
      if moment.step.isSingle then [] else moment.news.filterMap (·.recorded? handle direction) := by
  unfold Moment.entries Moment.reports
  rw [plans.closes_eq handle, plans.flow?_eq]
  cases moment.step.isSingle <;> simp

theorem Connection.Listens.failure (listens : connection.Listens) (scope : Scope ω) (fault : Fault)
    (direction : Direction) :
    (connection.failure scope fault).filterMap (·.recorded? scope.handle direction) =
      [.failed fault] := by
  obtain ⟨listener, failed⟩ := Option.isSome_iff_exists.mp listens.failed
  unfold Connection.failure told
  rw [failed]
  cases direction <;> simp [Signal.recorded?]

theorem Connection.Listens.sent_entry (listens : connection.Listens) (scope : Scope ω) :
    (connection.sent scope).filterMap (·.recorded? scope.handle .output) =
      [.sent connection.output.total] := by
  obtain ⟨listener, sent⟩ := Option.isSome_iff_exists.mp listens.sent
  unfold Connection.sent told
  rw [sent]
  simp [Signal.recorded?]

theorem Connection.Listens.received_entry (listens : connection.Listens) (handle : Handle)
    (message : List UInt8) :
    (told connection.onReceived (.received · handle message)).filterMap
      (·.recorded? handle .input) = [.received message.length] := by
  obtain ⟨listener, received⟩ := Option.isSome_iff_exists.mp listens.received
  unfold told
  rw [received]
  simp [Signal.recorded?]

/-- Nothing is entered of frames that were handed over, or that the interface refused. -/
theorem handed_entries (origin : Origin) (index : InterfaceIndex) (frame : Frame)
    (handle : Handle) (direction : Direction) :
    [Signal.handed origin index frame].filterMap (·.recorded? handle direction) = [] := by
  cases direction <;> rfl

theorem attempt_entries {attempt : List Signal} {origin : Origin} {index : InterfaceIndex}
    {frame : Frame}
    (attempted : attempt = [] ∨ ∃ reason, attempt = [.refused origin index frame reason])
    (handle : Handle) (direction : Direction) :
    attempt.filterMap (·.recorded? handle direction) = [] := by
  rcases attempted with rfl | ⟨reason, rfl⟩
  · rfl
  · cases direction <;> rfl

/-- What a plan makes of a transfer of a message of this length: it goes on or ends. -/
inductive Connection.Proceeds (connection : Connection) (scope : Scope ω) (direction : Direction)
    (length : Nat) : Plan → Prop
  | stay : Proceeds connection scope direction length (.stay [])
  | wait {flow : Flow} (holds : flow.Holds direction) (total : flow.total = length) :
      Proceeds connection scope direction length (.wait flow)
  | hand {index : InterfaceIndex} {frame : Frame} {flow : Flow} (holds : flow.Holds direction)
      (total : flow.total = length) :
      Proceeds connection scope direction length
        (.hand [] index frame flow (connection.failure scope))
  | fail {fault : Fault} (reason : fault ∈ direction.faults) :
      Proceeds connection scope direction length (.rest (connection.failure scope fault))
  | finish {news : List Signal} {entry : Ledger.Entry} (ends : entry.Ends direction length)
      (told : news.filterMap (·.recorded? scope.handle direction) = [entry]) :
      Proceeds connection scope direction length (.rest news)

theorem Flow.Holds.busy {flow : Flow} (holds : flow.Holds direction) : flow.isIdle = false := by
  cases direction with
  | output => exact holds
  | input =>
    unfold Flow.isIdle
    rcases holds with phase | ⟨phase, _⟩ <;> simp [phase]

theorem Connection.Sends.proceeds {scope : Scope ω} {address : Address} {message : List UInt8}
    {emitted : List Frame} (sends : connection.Sends scope address message emitted plan)
    (listens : connection.Listens) :
    connection.Proceeds scope .output message.length plan := by
  cases sends with
  | stay => exact .stay
  | wait underway => exact .wait underway.not_idle underway.sent.total
  | hand underway _ => exact .hand underway.not_idle underway.sent.total
  | fail fault reason => exact .fail reason
  | finish _ total =>
    have entered := listens.sent_entry scope
    rw [total] at entered
    exact .finish (.sent rfl) entered

theorem Connection.Collects.proceeds {scope : Scope ω} {address : Address} {first : List UInt8}
    {arrived : List (UInt8 × List UInt8)}
    (collects : connection.Collects scope address length first arrived plan)
    (listens : connection.Listens) : connection.Proceeds scope .input length plan := by
  cases collects with
  | stay _ => exact .stay
  | wait collecting => exact .wait collecting.holds collecting.total
  | hand collecting => exact .hand collecting.holds collecting.total
  | fail fault reason => exact .fail reason
  | finish _ whole =>
    have entered := listens.received_entry scope.handle ((assembled first arrived).take length)
    rw [List.length_take, Nat.min_eq_left whole] at entered
    exact .finish (.received rfl) entered

theorem Stack.Replaced.settled (replaced : before.Replaced handle connection direction {} false after)
    (live : before.connections.get? handle = some connection) :
    after.Stands handle direction .settled := by
  refine .settled fun other here => ?_
  rw [replaced.get? live] at here
  cases here
  exact connection.flow_setFlow _ _

theorem Stack.Replaced.pending {flow : Flow} {noted : Bool}
    (replaced : before.Replaced handle connection direction flow noted after)
    (live : before.connections.get? handle = some connection) (holds : flow.Holds direction)
    (total : flow.total = length) : after.Stands handle direction (.pending length) := by
  refine .of_holds (replaced.get? live) ?_ ?_
  · rw [Connection.flow_setFlow]
    exact holds
  · rw [Connection.flow_setFlow]
    exact total

/-- A transfer that goes on enters nothing, and one that ends enters its end. -/
theorem Stack.Carried.proceeds {news : List Signal}
    (carried : before.Carried handle connection direction plan after news)
    (live : before.connections.get? handle = some connection) (listens : connection.Listens)
    (proceeds : connection.Proceeds (before.scope now handle) direction length plan)
    (holds : (connection.flow direction).Holds direction)
    (total : (connection.flow direction).total = length)
    (ledger : Ledger direction entries (.pending length)) :
    ∃ next, Ledger direction (entries ++ news.filterMap (·.recorded? handle direction)) next ∧
      after.Stands handle direction next := by
  have failed (fault : Fault) : (connection.failure (before.scope now handle) fault).filterMap
      (·.recorded? handle direction) = [.failed fault] := listens.failure (before.scope now handle) fault _
  cases proceeds with
  | stay =>
    cases carried with
    | stay connections _ _ =>
      refine ⟨_, ?_, .of_holds ?_ holds total⟩
      · rw [List.filterMap_nil, List.append_nil]
        exact ledger
      · rw [connections]
        exact live
  | wait holds total =>
    cases carried with
    | wait replaced =>
      refine ⟨_, ?_, replaced.pending live holds total⟩
      rw [List.filterMap_nil, List.append_nil]
      exact ledger
  | hand holds total =>
    cases carried with
    | handed replaced =>
      refine ⟨_, ?_, replaced.pending live ?_ total⟩
      · rw [List.nil_append, handed_entries, List.append_nil]
        exact ledger
      · cases direction <;> exact holds
    | refused fault replaced attempted reason =>
      refine ⟨_, ?_, replaced.settled live⟩
      rw [List.nil_append, List.filterMap_append, attempt_entries attempted, failed, List.nil_append]
      exact .ended ledger (.failed (List.mem_append_right _ reason))
  | fail reason =>
    cases carried with
    | rest replaced =>
      refine ⟨_, ?_, replaced.settled live⟩
      rw [failed]
      exact .ended ledger (.failed (List.mem_append_left _ reason))
  | @finish news entry ends told =>
    have entered : news.filterMap (·.recorded? handle direction) = [entry] := told
    cases carried with
    | rest replaced =>
      refine ⟨_, ?_, replaced.settled live⟩
      rw [entered]
      exact .ended ledger ends

theorem Moment.starts_of_no_submit
    (other : ∀ now message, moment.step ≠ .submit now handle message) :
    moment.starts handle .output = [] := by
  unfold Moment.starts
  split
  · rename_i now name message step _
    rw [if_neg]
    rintro ⟨rfl, _⟩
    exact other _ _ step
  · rename_i own
    cases own
  · rfl

theorem Moment.starts_of_no_first
    (other : ∀ now length data, moment.step ≠ .arrive now handle (.first length data)) :
    moment.starts handle .input = [] := by
  unfold Moment.starts
  split
  · rename_i own
    cases own
  · rename_i now name length data step _
    rw [if_neg]
    rintro ⟨rfl, _⟩
    exact other _ _ _ step
  · rfl

/-- A busy flow starts no other transfer. -/
theorem Moment.starts_of_busy (live : moment.before.connections.get? handle = some connection)
    (busy : (connection.flow direction).isIdle = false) : moment.starts handle direction = [] := by
  unfold Moment.starts
  split
  · rw [if_neg]
    rintro ⟨rfl, accepts⟩
    have idle := Stack.idle_of_accepts live accepts
    rw [show connection.output.isIdle = false from busy] at idle
    cases idle
  · rw [if_neg]
    rintro ⟨rfl, _, idle⟩
    rw [live, Option.any_some, show connection.input.isIdle = false from busy] at idle
    cases idle
  · rfl

/-- A message that arrives in one frame is dropped by a busy flow. -/
theorem Stack.Plans.single_stays {step : Step ω}
    (plans : stack.Plans handle connection step now direction plan) (single : step.isSingle = true)
    (busy : (connection.flow direction).isIdle = false) : plan = .stay [] := by
  cases plans with
  | arrive _ pdu =>
    cases pdu with
    | single message =>
      have busy : connection.input.isIdle = false := busy
      simp [Connection.received, Connection.singleReceived, busy]
    | _ => cases single
  | _ => cases single

theorem Stack.Plans.proceeds {step : Step ω}
    (plans : stack.Plans handle connection step now direction plan)
    (sound : connection.Sound stack.settings) (listens : connection.Listens)
    (holds : (connection.flow direction).Holds direction) :
    connection.Proceeds (stack.scope now handle) direction (connection.flow direction).total
      plan := by
  cases way : direction with
  | output =>
    rw [way] at holds
    rcases sound.output with free | ⟨address, message, emitted, bound, underway⟩
    · have idle := holds.busy
      rw [show connection.flow .output = {} from free] at idle
      cases idle
    · rw [show (connection.flow .output).total = message.length from underway.sent.total]
      exact (plans.sends way bound underway).proceeds listens
  | input =>
    rw [way] at holds
    rcases sound.input with free | ⟨address, bound, refusing | ⟨length, first, arrived, collecting⟩⟩
    · have idle := holds.busy
      rw [show connection.flow .input = {} from free] at idle
      cases idle
    · rw [show connection.flow .input = _ from refusing] at holds
      rcases holds with phase | ⟨_, status⟩
      · cases phase
      · cases status
    · rw [show (connection.flow .input).total = length from collecting.total]
      exact (plans.collects way bound collecting).proceeds listens

theorem Stack.Carried.settled {news early : List Signal}
    (carried : before.Carried handle connection direction (.stay early) after news)
    (live : before.connections.get? handle = some connection)
    (idle : connection.flow direction = {}) : after.Stands handle direction .settled := by
  refine .settled fun other here => ?_
  rw [carried.of_stay.2, live] at here
  cases here
  exact idle

/-- A message that is taken starts a transfer. One that is not enters nothing. -/
theorem Moment.submit_ledger (sound : moment.before.Sound)
    (timely : moment.step.Timely moment.before) {message : List UInt8}
    (step : moment.step = .submit now handle message)
    (live : moment.before.connections.get? handle = some connection)
    (idle : connection.output = {}) (ledger : Ledger .output entries .settled) :
    ∃ next, Ledger .output (entries ++ (moment.starts handle .output ++
        moment.news.filterMap (·.recorded? handle .output))) next ∧
      moment.after.Stands handle .output next := by
  obtain ⟨stack, step⟩ := moment
  subst step
  rcases sound.submit_cases timely live now message with
    ⟨taken, address, frame, flow, confirmed, _, _, underway, replaced, told⟩ |
    ⟨refused, news, after, told, quiet⟩
  · have news : Moment.news ⟨stack, .submit now handle message⟩ = _ :=
      @Moment.news_eq _ ⟨stack, .submit now handle message⟩ _ told
    have starts : Moment.starts ⟨stack, .submit now handle message⟩ handle .output =
        [.started message.length] := if_pos ⟨rfl, taken⟩
    rw [news, starts, handed_entries, List.append_nil]
    exact ⟨_, .started _ ledger, replaced.pending live underway.not_idle underway.sent.total⟩
  · have starts : Moment.starts ⟨stack, .submit now handle message⟩ handle .output = [] :=
      if_neg fun accepts => refused accepts.2
    have nothing : news.filterMap (·.recorded? handle .output) = [] := by
      rcases quiet with rfl | ⟨_, _, _, rfl⟩ <;> rfl
    rw [@Moment.news_eq _ ⟨stack, .submit now handle message⟩ _ told, starts, nothing,
      List.append_nil, List.append_nil]
    refine ⟨_, ledger, .settled fun other here => ?_⟩
    have found : ((Step.submit now handle message).run stack).connections.get? handle = some other :=
      here
    rw [found] at after
    rcases after with same | same
    · cases same
      exact idle
    · cases same
      rfl

/-- The peer is answered, or it cannot be. -/
theorem Stack.Carried.answered {news early : List Signal} {flow : Flow}
    (carried : before.Carried handle connection .input
      (connection.answer (before.scope now handle) early flow) after news)
    (listens : connection.Listens) :
    (∃ noted, before.Replaced handle connection .input { flow with unconfirmed := true } noted after ∧
        news.filterMap (·.recorded? handle .input) = early.filterMap (·.recorded? handle .input)) ∨
      ∃ fault ∈ handingFaults, before.Replaced handle connection .input {} false after ∧
        news.filterMap (·.recorded? handle .input) =
          early.filterMap (·.recorded? handle .input) ++ [.failed fault] := by
  have failed (fault : Fault) : (connection.failure (before.scope now handle) fault).filterMap
      (·.recorded? handle .input) = [.failed fault] := listens.failure (before.scope now handle) fault _
  unfold Connection.answer at carried
  cases bound : connection.address with
  | none =>
    simp only [bound] at carried
    cases carried with
    | rest replaced =>
      refine Or.inr ⟨.notConnected, by simp [handingFaults], replaced, ?_⟩
      rw [List.filterMap_append, failed]
  | some address =>
    simp only [bound] at carried
    cases carried with
    | handed replaced =>
      refine Or.inl ⟨_, replaced, ?_⟩
      rw [List.filterMap_append, handed_entries, List.append_nil]
    | refused fault replaced attempted reason =>
      refine Or.inr ⟨fault, reason, replaced, ?_⟩
      rw [List.filterMap_append, List.filterMap_append, failed, attempt_entries attempted,
        List.append_nil]

/-- A first frame starts a transfer if there is memory for the message, and else is denied. -/
theorem Moment.first_ledger {data : List UInt8}
    (step : moment.step = .arrive now handle (.first length data))
    (live : moment.before.connections.get? handle = some connection)
    (idle : connection.input = {}) (listens : connection.Listens)
    (carried : moment.before.Carried handle connection .input
      (connection.firstReceived (moment.before.scope now handle) moment.before.memory length data)
      moment.after moment.news)
    (ledger : Ledger .input entries .settled) :
    ∃ next, Ledger .input (entries ++ (moment.starts handle .input ++
        moment.news.filterMap (·.recorded? handle .input))) next ∧
      moment.after.Stands handle .input next := by
  have resting : connection.input.isIdle = true := by
    rw [idle]
    rfl
  have starts : moment.starts handle .input = if data.length < length then
      [if length ≤ moment.before.memory.available then .started length else .denied] else [] := by
    have any : (moment.before.connections.get? handle).any (·.input.isIdle) = true := by
      rw [live]
      exact resting
    simp only [Moment.starts, step, any, and_true, true_and]
  rw [starts]
  unfold Connection.firstReceived at carried
  simp only [resting, Bool.not_true, Bool.false_eq_true, if_false] at carried
  by_cases covered : length ≤ data.length
  · rw [if_pos covered] at carried
    rw [if_neg (by omega), carried.of_stay.1, List.filterMap_nil, List.append_nil,
      List.append_nil]
    exact ⟨_, ledger, carried.settled live idle⟩
  · rw [if_neg covered] at carried
    rw [if_pos (by omega)]
    by_cases scarce : moment.before.memory.available < length
    · rw [if_pos scarce] at carried
      rw [if_neg (by omega)]
      have denied := Ledger.denied rfl ledger
      have told : (connection.failure (moment.before.scope now handle) .memory).filterMap
          (·.recorded? handle .input) = [.failed .memory] :=
        listens.failure (moment.before.scope now handle) .memory .input
      rcases carried.answered listens with ⟨_, replaced, news⟩ | ⟨fault, reason, replaced, news⟩
      · rw [news, told]
        exact ⟨_, denied, .denying (replaced.get? live) rfl rfl⟩
      · have entered := Ledger.unanswered denied (List.mem_cons_of_mem _ reason)
        rw [news, told]
        rw [List.append_assoc] at entered
        exact ⟨_, entered, replaced.settled live⟩
    · rw [if_neg scarce] at carried
      rw [if_pos (by omega)]
      have started := Ledger.started length ledger
      rcases carried.answered listens with ⟨_, replaced, news⟩ | ⟨fault, reason, replaced, news⟩
      · rw [news, List.filterMap_nil, List.append_nil]
        exact ⟨_, started, replaced.pending live (Or.inr ⟨rfl, rfl⟩) rfl⟩
      · have entered := Ledger.ended started (.failed (List.mem_append_right _ reason))
        rw [news, List.filterMap_nil, List.nil_append]
        rw [List.append_assoc] at entered
        exact ⟨_, entered, replaced.settled live⟩

theorem Stack.Carried.replaced_of_rest {news early : List Signal}
    (carried : before.Carried handle connection direction (.rest early) after news) :
    news = early ∧ before.Replaced handle connection direction {} false after := by
  cases carried with
  | rest replaced => exact ⟨rfl, replaced⟩

/-- A flow that denies a message ends with the answer to the peer, or because there is none. -/
theorem Moment.denying_ledger
    (plans : moment.before.Plans handle connection moment.step now .input plan)
    (live : moment.before.connections.get? handle = some connection)
    (refusing : connection.input.Refusing) (listens : connection.Listens)
    (carried : moment.before.Carried handle connection .input plan moment.after moment.news)
    (ledger : Ledger .input entries .denying) :
    ∃ next, Ledger .input (entries ++ moment.news.filterMap (·.recorded? handle .input)) next ∧
      moment.after.Stands handle .input next := by
  rcases plans.of_refusing rfl refusing with rfl | rfl | rfl
  · obtain ⟨nothing, connections⟩ := carried.of_stay
    rw [nothing, List.filterMap_nil, List.append_nil]
    exact ⟨_, ledger, .denying (by rw [connections]; exact live) rfl refusing⟩
  · obtain ⟨nothing, replaced⟩ := carried.replaced_of_rest
    rw [nothing, List.filterMap_nil, List.append_nil]
    exact ⟨_, .answered ledger, replaced.settled live⟩
  · obtain ⟨news, replaced⟩ := carried.replaced_of_rest
    have told : (connection.failure (moment.before.scope now handle) .receiveTimeout).filterMap
        (·.recorded? handle .input) = [.failed .receiveTimeout] :=
      listens.failure (moment.before.scope now handle) .receiveTimeout .input
    rw [news, told]
    exact ⟨_, .unanswered ledger List.mem_cons_self, replaced.settled live⟩

theorem Stack.Plans.of_first {first : Tick} {data : List UInt8}
    (plans : stack.Plans handle connection (.arrive first handle (.first length data)) now direction
      plan) :
    first = now ∧ plan = connection.firstReceived (stack.scope now handle) stack.memory length data := by
  cases plans
  exact ⟨rfl, rfl⟩

/-- With no transfer going on, only the start of one enters anything. -/
theorem Moment.settled_ledger (sound : moment.before.Sound)
    (timely : moment.step.Timely moment.before)
    (plans : moment.before.Plans handle connection moment.step now direction plan)
    (live : moment.before.connections.get? handle = some connection)
    (idle : connection.flow direction = {}) (listens : connection.Listens)
    (carried : moment.before.Carried handle connection direction plan moment.after moment.news)
    (ledger : Ledger direction entries .settled) :
    ∃ next, Ledger direction (entries ++ (moment.starts handle direction ++
        if moment.step.isSingle then []
        else moment.news.filterMap (·.recorded? handle direction))) next ∧
      moment.after.Stands handle direction next := by
  cases way : direction with
  | output =>
    subst way
    by_cases submits : ∃ at_ message, moment.step = .submit at_ handle message
    · obtain ⟨_, message, step⟩ := submits
      have plain : moment.step.isSingle = false := by
        rw [step]
        rfl
      rw [plain]
      exact Moment.submit_ledger sound timely step live idle ledger
    · have starts := Moment.starts_of_no_submit fun at_ message step => submits ⟨at_, message, step⟩
      rcases plans.output_stays rfl idle with rfl | ⟨message, step⟩
      · rw [starts, carried.of_stay.1, List.filterMap_nil, ite_self, List.append_nil,
          List.append_nil]
        exact ⟨_, ledger, carried.settled live idle⟩
      · exact absurd ⟨now, message, step⟩ submits
  | input =>
    subst way
    by_cases first : ∃ at_ length data, moment.step = .arrive at_ handle (.first length data)
    · obtain ⟨at_, length, data, step⟩ := first
      have plain : moment.step.isSingle = false := by
        rw [step]
        rfl
      rw [step] at plans
      obtain ⟨rfl, rfl⟩ := plans.of_first
      rw [plain]
      exact Moment.first_ledger step live idle listens carried ledger
    · have starts := Moment.starts_of_no_first fun at_ length data step =>
        first ⟨at_, length, data, step⟩
      rcases plans.input_stays rfl idle with rfl | ⟨message, single, rfl⟩ | ⟨length, data, step, _⟩
      · rw [starts, carried.of_stay.1, List.filterMap_nil, ite_self, List.append_nil,
          List.append_nil]
        exact ⟨_, ledger, carried.settled live idle⟩
      · have plain : moment.step.isSingle = true := by
          rw [single]
          rfl
        rw [starts, plain]
        simp only [if_true, List.append_nil]
        exact ⟨_, ledger, carried.settled live idle⟩
      · exact absurd ⟨now, length, data, step⟩ first

/-- Whatever a step on a flow does, it is entered into the flow's ledger. -/
theorem Moment.planned_ledger (sound : moment.before.Sound)
    (timely : moment.step.Timely moment.before)
    (plans : moment.before.Plans handle connection moment.step now direction plan)
    (live : moment.before.connections.get? handle = some connection)
    (listens : connection.Listens)
    (carried : moment.before.Carried handle connection direction plan moment.after moment.news)
    {standing : Standing} (ledger : Ledger direction entries standing)
    (stands : moment.before.Stands handle direction standing) :
    ∃ next, Ledger direction (entries ++ moment.entries handle direction) next ∧
      moment.after.Stands handle direction next := by
  rw [plans.entries_eq]
  cases stands with
  | settled rests =>
    exact Moment.settled_ledger sound timely plans live (rests connection live) listens carried ledger
  | pending here holds =>
    rw [live] at here
    cases here
    rw [Moment.starts_of_busy live holds.busy, List.nil_append]
    have proceeds := plans.proceeds (sound.flows handle connection live) listens holds
    have onward := carried.proceeds live listens proceeds holds rfl ledger
    cases single : moment.step.isSingle with
    | false => exact onward
    | true =>
      obtain rfl := plans.single_stays single holds.busy
      rw [carried.of_stay.1] at onward
      exact onward
  | denying here own refusing =>
    rw [live] at here
    cases here
    subst own
    have busy : (connection.flow .input).isIdle = false := by
      rw [show connection.flow .input = _ from refusing]
      rfl
    rw [Moment.starts_of_busy live busy, List.nil_append]
    have onward := Moment.denying_ledger plans live refusing listens carried ledger
    cases single : moment.step.isSingle with
    | false => exact onward
    | true =>
      obtain rfl := plans.single_stays single busy
      rw [carried.of_stay.1] at onward
      exact onward

/-- Nothing is told in a step for a connection that is closed. -/
theorem Moment.news_of_dead (sound : moment.before.Sound)
    (timely : moment.step.Timely moment.before) (own : moment.flow? = some (handle, direction))
    (dead : moment.before.connections.get? handle = none) :
    ∀ signal ∈ moment.news, signal.isRaw = true := by
  have turns := sound.turns timely
  obtain ⟨stack, step⟩ := moment
  have nothing (same : (step.run stack).outside = stack.outside) :
      Moment.news ⟨stack, step⟩ = [] :=
    @Moment.news_eq _ ⟨stack, step⟩ _ (by rw [List.append_nil]; exact congrArg Outside.signals same)
  generalize result : step.run stack = after at turns nothing
  cases turns with
  | apart apart _ =>
    obtain ⟨news, told, raw⟩ := apart.outside
    rw [← result] at told
    rw [@Moment.news_eq _ ⟨stack, step⟩ _ told]
    exact raw
  | opened _ => cases own
  | bound _ _ => cases own
  | listened _ => cases own
  | closed _ => cases own
  | acted plans acts =>
    rw [plans.flow?_eq] at own
    cases own
    rw [acts.live] at dead
    cases dead
  | lapsed _ _ =>
    rw [nothing rfl]
    simp

theorem Step.dead_of_closes {step : Step ω} (closes : step.closes handle = true) :
    (step.run stack).connections.get? handle = none := by
  cases step with
  | close name =>
    obtain rfl : name = handle := by simpa [Step.closes] using closes
    simp only [Step.run, Stack.close]
    cases erasure : stack.connections.erase name with
    | none =>
      cases live : stack.connections.get? name with
      | none => exact live
      | some connection =>
        rw [Slots.erase_eq live] at erasure
        cases erasure
    | some erased => exact (Slots.get?_erase erasure name).trans (if_pos rfl)
  | _ => cases closes

/-- A step that passes the flow of a live connection by leaves it as it was or closes the
connection. -/
theorem Moment.Passes.left (passes : moment.Passes handle direction) (sound : moment.before.Sound)
    (timely : moment.step.Timely moment.before)
    (live : moment.before.connections.get? handle = some connection) :
    moment.step.closes handle = true ∧ moment.after.connections.get? handle = none ∨
      moment.step.closes handle = false ∧ ∃ other,
        moment.after.connections.get? handle = some other ∧
          other.flow direction = connection.flow direction := by
  cases closes : moment.step.closes handle with
  | true => exact Or.inl ⟨rfl, Step.dead_of_closes closes⟩
  | false =>
    refine Or.inr ⟨rfl, ?_⟩
    cases found : moment.after.connections.get? handle with
    | none =>
      have gone := ((sound.turns timely).closed_of_dead sound live found).1
      rw [closes] at gone
      cases gone
    | some other =>
      rcases passes.leaves other found with ⟨dead, _⟩ | ⟨earlier, here, same, _⟩
      · rw [live] at dead
        cases dead
      · rw [live] at here
        cases here
        exact ⟨other, rfl, same⟩

theorem Moment.Passes.starts_nil (passes : moment.Passes handle direction) :
    moment.starts handle direction = [] := by
  obtain ⟨stack, step⟩ := moment
  unfold Moment.starts
  split
  · rename_i now name message step_eq
    have step_eq : step = .submit now name message := step_eq
    subst step_eq
    rw [if_neg]
    rintro ⟨rfl, accepts⟩
    cases live : stack.connections.get? name with
    | none => exact Stack.refuses_dead live now message accepts
    | some connection => exact passes.unplanned connection _ _ live (.submit now message)
  · rename_i now name length data step_eq
    have step_eq : step = .arrive now name (.first length data) := step_eq
    subst step_eq
    rw [if_neg]
    rintro ⟨rfl, _, idle⟩
    have idle : (stack.connections.get? name).any (·.input.isIdle) = true := idle
    cases live : stack.connections.get? name with
    | none =>
      rw [live] at idle
      cases idle
    | some connection => exact passes.unplanned connection _ _ live (.arrive now (.first length data))
  · rfl

/-- Raw subscriptions report nothing of a connection. -/
theorem Signal.report_of_isRaw {signal : Signal} (raw : signal.isRaw = true) (handle : Handle)
    (direction : Direction) :
    signal.isReport handle = false ∧ signal.recorded? handle direction = none := by
  cases signal with
  | received listener other message => cases raw
  | sent listener other length => cases raw
  | failed listener other fault => cases raw
  | _ => exact ⟨rfl, by cases direction <;> rfl⟩

theorem Moment.Passes.reports_nil (passes : moment.Passes handle direction)
    (sound : moment.before.Sound) (timely : moment.step.Timely moment.before) :
    moment.reports handle direction = [] := by
  unfold Moment.reports
  split
  · rename_i own
    cases live : moment.before.connections.get? handle with
    | none =>
      refine List.filterMap_eq_nil_iff.mpr fun signal member => ?_
      have raw := Moment.news_of_dead sound timely own.1 live signal member
      exact (Signal.report_of_isRaw raw handle direction).2
    | some connection =>
      obtain ⟨_, _, plans⟩ := sound.plans_of_flow? own.1 connection
      exact absurd plans (passes.unplanned connection _ _ live)
  · rfl

/-- A step that passes a flow by enters nothing, unless it closes the connection in the middle of a
transfer. -/
theorem Moment.passing_ledger (sound : moment.before.Sound)
    (timely : moment.step.Timely moment.before) (passes : moment.Passes handle direction)
    {standing : Standing} (ledger : Ledger direction entries standing)
    (stands : moment.before.Stands handle direction standing) :
    ∃ next, Ledger direction (entries ++ moment.entries handle direction) next ∧
      moment.after.Stands handle direction next := by
  unfold Moment.entries
  rw [passes.starts_nil, passes.reports_nil sound timely, List.append_nil, List.nil_append]
  cases stands with
  | settled rests =>
    have idle : moment.before.busy handle direction = false := by
      unfold Stack.busy
      cases live : moment.before.connections.get? handle with
      | none => rfl
      | some connection =>
        rw [Option.any_some, rests connection live]
        rfl
    rw [idle, Bool.and_false, if_neg Bool.false_ne_true, List.append_nil]
    refine ⟨_, ledger, .settled fun connection here => ?_⟩
    rcases passes.leaves connection here with ⟨_, rfl⟩ | ⟨earlier, found, same, _⟩
    · cases direction <;> rfl
    · exact same.trans (rests earlier found)
  | pending live holds =>
    have busy : moment.before.busy handle direction = true := by
      rw [Stack.busy_eq live, holds.busy]
      rfl
    rcases passes.left sound timely live with ⟨closes, dead⟩ | ⟨open_, other, found, same⟩
    · rw [closes, busy, Bool.and_true, if_pos rfl]
      refine ⟨_, .ended ledger .closed, .settled fun connection here => ?_⟩
      rw [dead] at here
      cases here
    · rw [open_, Bool.false_and, if_neg Bool.false_ne_true, List.append_nil]
      exact ⟨_, ledger, .of_holds found (by rw [same]; exact holds) (by rw [same])⟩
  | denying live own refusing =>
    have busy : moment.before.busy handle direction = true := by
      rw [Stack.busy_eq live, show _ = _ from refusing]
      rfl
    rcases passes.left sound timely live with ⟨closes, dead⟩ | ⟨open_, other, found, same⟩
    · rw [closes, busy, Bool.and_true, if_pos rfl]
      refine ⟨_, .closed ledger, .settled fun connection here => ?_⟩
      rw [dead] at here
      cases here
    · rw [open_, Bool.false_and, if_neg Bool.false_ne_true, List.append_nil]
      refine ⟨_, ledger, .denying found own ?_⟩
      rw [same]
      exact refusing

theorem Stack.Plans.single_news {step : Step ω}
    (plans : stack.Plans handle connection step now direction plan)
    (single : step.isSingle = true) : ∃ news, plan = .stay news ∧
      ∀ signal ∈ news, ∃ listener message, signal = .received listener handle message := by
  cases plans with
  | arrive _ pdu =>
    cases pdu with
    | single message =>
      simp only [Connection.received, Connection.singleReceived]
      split
      · refine ⟨_, rfl, fun signal member => ?_⟩
        obtain ⟨listener, _, rfl⟩ := mem_told.mp member
        exact ⟨listener, message, rfl⟩
      · exact ⟨[], rfl, by simp⟩
    | _ => cases single
  | _ => cases single

/-- Whatever a step reports of a connection, it is for one of its flows. What is reported of a
message that came in one frame is that message. -/
theorem Moment.flow_of_report (sound : moment.before.Sound)
    (timely : moment.step.Timely moment.before) {signal : Signal} (member : signal ∈ moment.news)
    (report : signal.isReport handle = true) :
    ∃ direction, moment.flow? = some (handle, direction) ∧
      (signal.recorded? handle direction).isSome = true ∧
      (moment.step.isSingle = true →
        ∃ listener message, signal = .received listener handle message) := by
  have turns := sound.turns timely
  obtain ⟨stack, step⟩ := moment
  have news_eq {news : List Signal}
      (told : (step.run stack).outside.signals = stack.outside.signals ++ news) :
      Moment.news ⟨stack, step⟩ = news :=
    @Moment.news_eq _ ⟨stack, step⟩ _ told
  have quiet (same : (step.run stack).outside = stack.outside) : False := by
    rw [news_eq (by rw [List.append_nil]; exact congrArg Outside.signals same)] at member
    cases member
  generalize step.run stack = after at turns news_eq quiet
  cases turns with
  | apart apart _ =>
    obtain ⟨news, told, raw⟩ := apart.outside
    rw [news_eq told] at member
    rw [(Signal.report_of_isRaw (raw signal member) handle .output).1] at report
    cases report
  | opened _ => exact (quiet rfl).elim
  | bound _ _ => exact (quiet rfl).elim
  | listened _ => exact (quiet rfl).elim
  | closed _ => exact (quiet rfl).elim
  | @acted _ _ name _ direction _ _ plans acts =>
    obtain ⟨news, told, carried⟩ := acts.carries_out
    rw [news_eq told] at member
    have own := carried.speaks plans.speaks signal member
    have whole : step.isSingle = true →
        ∃ listener message, signal = .received listener name message := by
      intro single
      obtain ⟨early, rfl, only⟩ := plans.single_news single
      rw [carried.of_stay.1] at member
      exact only signal member
    cases signal with
    | received listener other message =>
      simp only [Signal.isReport, Signal.isFrom, Signal.isOf, decide_eq_true_eq] at report own
      obtain ⟨rfl, rfl⟩ := own
      subst report
      exact ⟨_, plans.flow?_eq, by simp [Signal.recorded?], whole⟩
    | sent listener other length =>
      simp only [Signal.isReport, Signal.isFrom, Signal.isOf, decide_eq_true_eq] at report own
      obtain ⟨rfl, rfl⟩ := own
      subst report
      exact ⟨_, plans.flow?_eq, by simp [Signal.recorded?], whole⟩
    | failed listener other fault =>
      simp only [Signal.isReport, Signal.isFrom, decide_eq_true_eq] at report own
      subst own
      subst report
      refine ⟨_, plans.flow?_eq, ?_, whole⟩
      cases direction <;> simp [Signal.recorded?]
    | _ => cases report
  | lapsed _ _ => exact (quiet rfl).elim

end

/-- Whoever is to be told of a step on one of the connection's flows is there to listen. -/
def Stack.Heeded (stack : Stack ω) (calls : List (Call ω)) (handle : Handle) : Prop :=
  ∀ moment ∈ stack.history calls, ∀ direction, moment.flow? = some (handle, direction) →
    ∀ connection, moment.before.connections.get? handle = some connection → connection.Listens

/-- What is entered of a flow while these calls are made. -/
def Stack.ledger (stack : Stack ω) (calls : List (Call ω)) (handle : Handle)
    (direction : Direction) : List Ledger.Entry :=
  (stack.history calls).flatMap (·.entries handle direction)

theorem Stack.calls_ledger {settings : Settings} {world : ω} {start : Stack ω}
    (run : Stack.new settings world = .ok start) (calls : List (Call ω)) {handle : Handle}
    (heeded : start.Heeded calls handle) (direction : Direction) :
    ∃ standing, Ledger direction (start.ledger calls handle direction) standing ∧
      (start.calls calls).Stands handle direction standing := by
  have orderly := (Stack.new_smooth run calls).orderly
  have fresh : ∀ connection, start.connections.get? handle = some connection →
      connection.flow direction = {} := by
    obtain ⟨_, _, _, rfl⟩ := Stack.new_eq run
    intro connection here
    rw [show Slots.get? _ handle = _ from Slots.get?_ofCapacity _ _] at here
    cases here
  rw [Stack.calls_eq]
  refine @Stack.Orderly.induct _ _ _ orderly (fun past stack => ∃ standing,
    Ledger direction (past.flatMap (·.entries handle direction)) standing ∧
      stack.Stands handle direction standing) [] ⟨_, .empty, .settled fresh⟩ ?_
  rintro past moment member sound timely ⟨standing, ledger, stands⟩
  rw [List.flatMap_append, List.flatMap_singleton]
  rcases moment.flow_cases sound timely handle direction with
    passes | ⟨connection, now, plan, live, plans, carried⟩
  · exact Moment.passing_ledger sound timely passes ledger stands
  · have listens := heeded moment member direction plans.flow?_eq connection live
    exact Moment.planned_ledger sound timely plans live listens carried ledger stands

/-- A message that is not taken is reported to nobody but the caller. -/
theorem Stack.Sound.refused_reports {stack : Stack ω} (sound : stack.Sound)
    (quiet : stack.confirmations = []) (now : Tick) (handle : Handle) (message : List UInt8)
    (refused : (stack.send now handle message).1 ≠ .ok ()) (other : Handle) :
    (stack.send now handle message).2.outside.signals.filter (·.isReport other) =
      stack.outside.signals.filter (·.isReport other) := by
  rw [Stack.send_eq, Stack.settle_quiet (sound.refused_submit quiet now handle message refused).2]
  cases live : stack.connections.get? handle with
  | none =>
    rw [Stack.submit_dead live]
  | some connection =>
    rcases sound.submit_cases quiet live now message with ⟨taken, _⟩ | ⟨_, news, _, told, nothing⟩
    · exact absurd taken refused
    · rw [told, List.filter_append]
      rcases nothing with rfl | ⟨_, _, _, rfl⟩
      · exact List.append_nil _
      · exact List.append_nil _

/-- Each transfer of a connection ends once. A message that was taken, or that a first frame
announced and for which there was memory, is reported to be sent or received with its length, or to
have failed for one reason, or its connection was closed; or none of this has happened yet, and just
then the flow is busy with it. A message that was denied for lack of memory is reported so, and then
at most that the peer could not be told. Whatever else is reported of the connection is a message
that came in one frame, and a message that was not taken is reported to nobody. -/
theorem transfers_end_once {settings : Settings} {world : ω} {start : Stack ω}
    (run : Stack.new settings world = .ok start) (calls : List (Call ω)) {handle : Handle}
    (heeded : start.Heeded calls handle) :
    (∀ direction, ∃ standing, Ledger direction (start.ledger calls handle direction) standing ∧
      match standing with
      | .settled => (start.calls calls).busy handle direction = false
      | .pending length => ∃ connection,
          (start.calls calls).connections.get? handle = some connection ∧
            (connection.flow direction).Holds direction ∧
            (connection.flow direction).total = length
      | .denying => direction = .input ∧ ∃ connection,
          (start.calls calls).connections.get? handle = some connection ∧
            connection.input.Refusing) ∧
      (∀ moment ∈ start.history calls, ∀ signal ∈ moment.news, signal.isReport handle = true →
        ∃ direction, moment.flow? = some (handle, direction) ∧
          (signal.recorded? handle direction).isSome = true ∧
          (moment.step.isSingle = true →
            ∃ listener message, signal = .received listener handle message)) ∧
      ∀ now message, ((start.calls calls).send now handle message).1 ≠ .ok () → ∀ other,
        ((start.calls calls).send now handle message).2.outside.signals.filter
            (·.isReport other) =
          (start.calls calls).outside.signals.filter (·.isReport other) := by
  have smooth := Stack.new_smooth run calls
  have sound := smooth.sound
  have quiet := smooth.quiet
  rw [← Stack.calls_eq] at sound quiet
  refine ⟨fun direction => ?_, fun moment member signal told report => ?_, fun now message refused =>
    sound.refused_reports quiet now handle message refused⟩
  · obtain ⟨standing, ledger, stands⟩ := Stack.calls_ledger run calls heeded direction
    refine ⟨standing, ledger, ?_⟩
    cases stands with
    | settled rests =>
      show Stack.busy _ handle direction = false
      unfold Stack.busy
      cases live : (start.calls calls).connections.get? handle with
      | none => rfl
      | some connection =>
        rw [Option.any_some, rests connection live]
        rfl
    | pending live holds => exact ⟨_, live, holds, rfl⟩
    | denying live own refusing =>
      subst own
      exact ⟨rfl, _, live, refusing⟩
  · obtain ⟨moment_sound, timely⟩ := smooth.orderly moment member
    exact moment.flow_of_report moment_sound timely told report

/-- The peer lets the sample connection go on. -/
def sampleInvitation : Frame :=
  .classic (.standard 0x7E8) 8 (paddedTo 8 0 [0x30, 0, 0])

/-- A message of two frames is taken and sent, another one is taken, and the peer does not answer in
time. -/
def sampleTransfers : List (Call Unit) :=
  sampleCalls ++ [.send 0 sampleHandle [1, 2, 3, 4, 5, 6, 7, 8], .input 1 ⟨0⟩ sampleInvitation,
    .send 2 sampleHandle [1, 2, 3, 4, 5, 6, 7, 8, 9], .process 1002]

/-- Each of the two messages has one end, and then the flow is idle. -/
theorem sample_transfers_end_once : sampleStack.Heeded sampleTransfers sampleHandle ∧
    sampleStack.ledger sampleTransfers sampleHandle .output =
      [.started 8, .sent 8, .started 9, .failed .transmitTimeout] ∧
    ∃ standing, Ledger .output
        [.started 8, .sent 8, .started 9, .failed .transmitTimeout] standing ∧
      match standing with
      | .settled => (sampleStack.calls sampleTransfers).busy sampleHandle .output = false
      | .pending length => ∃ connection,
          (sampleStack.calls sampleTransfers).connections.get? sampleHandle = some connection ∧
            (connection.flow .output).Holds .output ∧ (connection.flow .output).total = length
      | .denying => Direction.output = .input ∧ ∃ connection,
          (sampleStack.calls sampleTransfers).connections.get? sampleHandle = some connection ∧
            connection.input.Refusing := by
  have made : Stack.new {} () = .ok sampleStack := rfl
  have listening : ∀ moment ∈ sampleStack.history sampleTransfers, moment.flow?.isSome = true →
      (moment.before.connections.get? sampleHandle).all (fun connection =>
        connection.onReceived.isSome && connection.onSent.isSome && connection.onFailed.isSome) =
          true := by
    decide +kernel
  have heeded : sampleStack.Heeded sampleTransfers sampleHandle := by
    intro moment member direction own connection live
    have all := listening moment member (by rw [own]; rfl)
    rw [live, Option.all_some, Bool.and_eq_true, Bool.and_eq_true] at all
    exact ⟨all.1.1, all.1.2, all.2⟩
  have entered : sampleStack.ledger sampleTransfers sampleHandle .output =
      [.started 8, .sent 8, .started 9, .failed .transmitTimeout] := by
    decide +kernel
  have once := (transfers_end_once made sampleTransfers heeded).1 .output
  rw [entered] at once
  exact ⟨heeded, entered, once⟩

end DiagBus
