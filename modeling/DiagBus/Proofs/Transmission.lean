import DiagBus.Proofs.Moments

namespace DiagBus

variable {ω : Type}

/-- The frames that a connection handed over in a step to send its message. -/
def Moment.hands (moment : Moment ω) (handle : Handle) : List (InterfaceIndex × Frame) :=
  moment.news.filterMap (·.handed? handle .output)

/-- The frames that a connection offered in a step to send its message. -/
def Moment.offers (moment : Moment ω) (handle : Handle) : List (InterfaceIndex × Frame) :=
  moment.news.filterMap (·.offered? handle .output)

/-- Whether a message is given to the connection in this step. -/
def Step.submits (step : Step ω) (handle : Handle) : Bool :=
  match step with
  | .submit _ other _ => other = handle
  | _ => false

/-- The connection takes a message to be sent, and the caller is told so. -/
def Moment.Accepts (moment : Moment ω) (handle : Handle) (message : List UInt8) : Prop :=
  ∃ now, moment.step = .submit now handle message ∧
    (moment.before.send now handle message).1 = .ok ()

/-- These are the frames of a message: a single frame with all of it, if it fits, and else a first
frame that announces the length and consecutive frames numbered 1, 2, ..., 15, 0, 1 and so on. The
bytes they carry make up the message, and every frame but the last is full. -/
structure Encoder.Segments (encoder : Encoder) (message : List UInt8) (frames : List Frame) :
    Prop where
  short : message.length ≤ encoder.singleCapacity →
    frames = [encoder.frame (singleHeader message.length ++ message)]
  long : encoder.singleCapacity < message.length →
    ∃ (start : List UInt8) (parts : List (List UInt8)),
    message = start ++ parts.flatten ∧
      start.length = encoder.frameSize - (firstHeader message.length).length ∧
      (∀ part ∈ parts.dropLast, part.length = encoder.frameSize - 1) ∧
      (∀ part ∈ parts, 0 < part.length ∧ part.length ≤ encoder.frameSize - 1) ∧
      frames = encoder.frame (firstHeader message.length ++ start) ::
        parts.mapIdx fun i part => encoder.frame ((0x20 + (i + 1) % 16).toUInt8 :: part)

theorem Encoder.segmentation_segments (encoder : Encoder) (message : List UInt8) :
    encoder.Segments message (encoder.segmentation message) := by
  have size := encoder.frameSize_bounds
  have positive : 0 < encoder.frameSize - 1 := by omega
  refine ⟨fun short => if_pos short, fun long => ?_⟩
  have room := encoder.firstRoom_lt long
  obtain ⟨full, bounds⟩ :=
    length_pieces positive (message.drop (encoder.firstRoom message.length))
  refine ⟨message.take (encoder.firstRoom message.length),
    pieces (encoder.frameSize - 1) (message.drop (encoder.firstRoom message.length)),
    ?_, ?_, full, bounds, ?_⟩
  · rw [flatten_pieces positive, List.take_append_drop]
  · rw [List.length_take]
    exact Nat.min_eq_left room.2.le
  · unfold Encoder.segmentation Encoder.consecutives
    rw [if_neg (by omega)]
    simp only [Nat.add_comm 1]

theorem Moment.Passes.offers {moment : Moment ω} {handle : Handle}
    (passes : moment.Passes handle .output) :
    moment.hands handle = [] ∧ moment.offers handle = [] := by
  refine ⟨List.filterMap_eq_nil_iff.mpr ?_, List.filterMap_eq_nil_iff.mpr ?_⟩
  · exact fun signal member => (Signal.offered?_of_not_isOf (passes.silent signal member)).1
  · exact fun signal member => (Signal.offered?_of_not_isOf (passes.silent signal member)).2

theorem Connection.failure_offers (connection : Connection) (scope : Scope ω) (fault : Fault)
    (handle : Handle) (direction : Direction) :
    (connection.failure scope fault).filterMap (·.handed? handle direction) = [] ∧
      (connection.failure scope fault).filterMap (·.offered? handle direction) = [] := by
  unfold Connection.failure told
  cases connection.onFailed <;> exact ⟨rfl, rfl⟩

theorem Connection.sent_offers (connection : Connection) (scope : Scope ω) (handle : Handle)
    (direction : Direction) :
    (connection.sent scope).filterMap (·.handed? handle direction) = [] ∧
      (connection.sent scope).filterMap (·.offered? handle direction) = [] := by
  unfold Connection.sent told
  cases connection.onSent <;> exact ⟨rfl, rfl⟩

/-- A busy connection takes no other message. -/
theorem Exchange.submitted_busy {x : Exchange ω} {scope : Scope ω}
    (busy : x.connection.output.isIdle = false) (message : List UInt8) :
    x.submitted scope message = .stay [] := by
  rcases x.submitted_sends scope message with stays | ⟨_, _, _, acceptance, _⟩
  · exact stays
  · have idle := (Exchange.accept_eq_ok_iff.mp acceptance).2.2.2.2.2
    rw [busy] at idle
    cases idle

theorem Stack.Plans.submits_busy {stack : Stack ω} {handle : Handle} {connection : Connection}
    {step : Step ω} {now : Tick} {direction : Direction} {plan : Plan}
    (plans : stack.Plans handle connection step now direction plan)
    (busy : connection.output.isIdle = false) : plan = .stay [] ∨ step.submits handle = false := by
  cases plans with
  | submit _ message => exact Or.inl (Exchange.submitted_busy busy message)
  | _ => exact Or.inr rfl

/-- Every plan of a busy sending flow goes on with its message or ends the transfer. -/
theorem Stack.Plans.sends {stack : Stack ω} {handle : Handle} {connection : Connection}
    {step : Step ω} {now : Tick} {direction : Direction} {plan : Plan} {address : Address}
    {message : List UInt8} {emitted : List Frame}
    (plans : stack.Plans handle connection step now direction plan) (own : direction = .output)
    (bound : connection.address = some address)
    (underway : Underway (address.encoder stack.settings) message emitted connection.output) :
    connection.Sends (stack.scope now handle) address message emitted plan := by
  cases plans with
  | submit _ message =>
    rw [Exchange.submitted_busy underway.not_idle]
    exact .stay
  | arrive _ pdu =>
    cases pdu with
    | flowControl status blockSize separation =>
      exact Connection.controlReceived_sends bound underway status blockSize separation
    | _ => cases own
  | confirm _ direction =>
    cases own
    exact Connection.outputConfirmed_sends bound underway
  | settle _ noted =>
    cases own
    exact Connection.outputConfirmed_sends bound underway
  | expire _ due named => exact Connection.expired_sends bound underway own

/-- Only a new message gets an idle flow to send. -/
theorem Stack.Plans.output_stays {stack : Stack ω} {handle : Handle} {connection : Connection}
    {step : Step ω} {now : Tick} {direction : Direction} {plan : Plan}
    (plans : stack.Plans handle connection step now direction plan) (own : direction = .output)
    (idle : connection.output = {}) : plan = .stay [] ∨ ∃ message, step = .submit now handle message := by
  have stays := Connection.output_stays (stack.scope now handle) idle
  cases plans with
  | submit _ message => exact Or.inr ⟨message, rfl⟩
  | arrive _ pdu =>
    cases pdu with
    | flowControl status blockSize separation => exact Or.inl (stays.2.1 _ _ _)
    | _ => cases own
  | confirm _ direction =>
    cases own
    exact Or.inl stays.1
  | settle _ noted =>
    cases own
    exact Or.inl stays.1
  | expire _ due named => exact Or.inl (stays.2.2 _ own)

/-- A message that is given to a connection is taken, and then its first frame was handed over; or
nothing of it is handed over and the sending flow is left as it was, or idle. -/
theorem Stack.Sound.submit_cases {stack : Stack ω} (sound : stack.Sound)
    (quiet : stack.confirmations = []) {handle : Handle} {connection : Connection}
    (live : stack.connections.get? handle = some connection) (now : Tick) (message : List UInt8) :
    ((stack.send now handle message).1 = .ok () ∧
        ∃ (address : Address) (frame : Frame) (flow : Flow) (confirmed : Bool),
        connection.address = some address ∧ message ≠ [] ∧
        Underway (address.encoder stack.settings) message [frame] { flow with unconfirmed := true } ∧
        stack.Replaced handle connection .output { flow with unconfirmed := true } confirmed
          ((Step.submit now handle message).run stack) ∧
        ((Step.submit now handle message).run stack).outside.signals =
          stack.outside.signals ++ [.handed (.flow handle .output) address.interface frame]) ∨
      ((stack.send now handle message).1 ≠ .ok () ∧ ∃ news : List Signal,
        (((Step.submit now handle message).run stack).connections.get? handle = some connection ∨
          ((Step.submit now handle message).run stack).connections.get? handle =
            some (connection.setFlow {} .output)) ∧
        ((Step.submit now handle message).run stack).outside.signals =
          stack.outside.signals ++ news ∧
        (news = [] ∨ ∃ index frame reason,
          news = [.refused (.flow handle .output) index frame reason])) := by
  obtain ⟨follows, answer⟩ := Exchange.send_follows (sound.ready_quiet quiet live now) message
  rw [Stack.submit_live live, Stack.send_live live]
  generalize ((stack.exchange connection).send (stack.scope now handle) message).2 = x at follows ⊢
  have outcome := (stack.exchange connection).submitted_sends (stack.scope now handle) message
  generalize plan_eq : (stack.exchange connection).submitted (stack.scope now handle) message =
    plan at follows answer outcome
  cases follows with
  | @stay news _ same =>
    rcases outcome with stays | ⟨_, _, _, _, _, starts, _⟩
    · cases stays
      refine Or.inr ⟨fun accepted => ?_, [], Or.inl ?_, ?_, Or.inl rfl⟩
      · obtain ⟨_, _, _, _, _, _, absent, _⟩ := answer.mp accepted
        cases absent
      · rw [same]
        exact (congrArg (·.get? handle) (Slots.set_same live)).trans live
      · rw [same]
        rfl
    · cases starts
  | wait turned =>
    rcases outcome with stays | ⟨_, _, _, _, _, starts, _⟩
    · cases stays
    · cases starts
  | @handed news index frame flow refusal confirmed outside _ taken turned =>
    rcases outcome with stays | ⟨address, _, _, acceptance, _, starts, underway⟩
    · cases stays
    · cases starts
      obtain ⟨filled, bound, _⟩ := Exchange.accept_eq_ok_iff.mp acceptance
      rw [Outside.tellAll_nil] at taken
      refine Or.inl ⟨answer.mpr ⟨_, _, _, _, _, _, rfl, taken⟩, address, frame, flow, confirmed,
        bound, filled, underway, ⟨?_, turned.memory, ?_⟩, ?_⟩
      · exact congrArg (stack.connections.set handle) turned.connection
      · refine turned.confirmations.trans ?_
        rw [show (stack.exchange connection).confirmations = [] from quiet]
        rfl
      · exact (congrArg Outside.signals turned.outside).trans (Registry.hand_ok taken)
  | @refused news index frame flow refusal fault outside _ declined turned =>
    rcases outcome with stays | ⟨address, _, _, _, _, starts, _⟩
    · cases stays
    · cases starts
      obtain ⟨_, attempt, signals, attempted⟩ := Registry.hand_error declined
      rw [Outside.tellAll_nil] at declined
      refine Or.inr ⟨fun accepted => ?_, attempt, Or.inr ?_, ?_, ?_⟩
      · obtain ⟨_, _, _, _, _, _, same, taken⟩ := answer.mp accepted
        cases same
        rw [declined] at taken
        cases taken
      · exact (Stack.get?_restore live x).trans (congrArg some turned.connection)
      · refine (congrArg Outside.signals turned.outside).trans ?_
        rw [Outside.tellAll_nil, signals, Outside.tellAll_nil]
        rfl
      · rcases attempted with nothing | ⟨reason, once⟩
        · exact Or.inl nothing
        · exact Or.inr ⟨_, _, reason, once⟩
  | @rest news _ turned =>
    rcases outcome with stays | ⟨_, _, _, _, _, starts, _⟩
    · cases stays
    · cases starts

/-- The frames that were offered to send the message taken in the first of these moments. Frames of
messages that were given to the connection later and not taken are not among them. -/
def offersSince (taking : Moment ω) (handle : Handle) (later : List (Moment ω)) :
    List (InterfaceIndex × Frame) :=
  taking.offers handle ++ (later.filter (!·.step.submits handle)).flatMap (·.offers handle)

/-- Where the sending of a message stands, if the connection took no other since. -/
inductive Stack.Transmits (settings : Settings) (handle : Handle) (address : Address)
    (message : List UInt8) (taking : Moment ω) (later : List (Moment ω)) (stack : Stack ω) : Prop
  | underway {connection : Connection} {emitted : List Frame}
      (live : stack.connections.get? handle = some connection)
      (bound : connection.address = some address)
      (underway : Underway (address.encoder settings) message emitted connection.output)
      (hands : (taking :: later).flatMap (·.hands handle) = emitted.map (address.interface, ·))
      (offers : offersSince taking handle later = emitted.map (address.interface, ·)) :
      Transmits settings handle address message taking later stack
  | ended (idle : ∀ connection, stack.connections.get? handle = some connection →
        connection.output = {})
      (offers : offersSince taking handle later <+:
        ((address.encoder settings).segmentation message).map (address.interface, ·)) :
      Transmits settings handle address message taking later stack

section

variable {settings : Settings} {handle : Handle} {address : Address} {message : List UInt8}
  {taking moment : Moment ω} {later : List (Moment ω)}

theorem Underway.emitted_prefix {encoder : Encoder} {emitted : List Frame} {flow : Flow}
    (underway : Underway encoder message emitted flow) (index : InterfaceIndex) :
    emitted.map (index, ·) <+: (encoder.segmentation message).map (index, ·) := by
  rw [← underway.sent.frames, List.map_append]
  exact List.prefix_append _ _

theorem offersSince_concat (handle : Handle) (later : List (Moment ω)) (moment : Moment ω) :
    offersSince taking handle (later ++ [moment]) =
      offersSince taking handle later ++
        if moment.step.submits handle then [] else moment.offers handle := by
  unfold offersSince
  rw [List.filter_append, List.flatMap_append, ← List.append_assoc]
  cases submits : moment.step.submits handle <;> simp [submits]

/-- A step in which the flow offers nothing. -/
theorem offersSince_concat_nil (quiet : moment.offers handle = []) :
    offersSince taking handle (later ++ [moment]) = offersSince taking handle later := by
  rw [offersSince_concat, quiet, ite_self, List.append_nil]

theorem hands_concat (handle : Handle) :
    (taking :: (later ++ [moment])).flatMap (·.hands handle) =
      (taking :: later).flatMap (·.hands handle) ++ moment.hands handle := by
  simp

theorem Moment.Passes.transmits (passes : moment.Passes handle .output)
    (transmits : moment.before.Transmits settings handle address message taking later) :
    moment.after.Transmits settings handle address message taking (later ++ [moment]) := by
  obtain ⟨none_handed, none_offered⟩ := passes.offers
  cases transmits with
  | @underway connection emitted live bound underway hands offers =>
    rw [← offersSince_concat_nil none_offered] at offers
    cases found : moment.after.connections.get? handle with
    | none =>
      refine .ended (fun other here => ?_) ?_
      · rw [found] at here
        cases here
      · rw [offers]
        exact underway.emitted_prefix _
    | some other =>
      rcases passes.leaves other found with ⟨dead, _⟩ | ⟨earlier, here, flow, addressed⟩
      · rw [live] at dead
        cases dead
      · rw [live] at here
        cases here
        have output : other.output = connection.output := flow
        rcases addressed with unchanged | idle
        · refine .underway found (unchanged.trans bound) (output ▸ underway) ?_ offers
          rw [hands_concat, none_handed, List.append_nil, hands]
        · rw [show (connection.flow .output).isIdle = false from underway.not_idle] at idle
          cases idle
  | ended idle offers =>
    rw [← offersSince_concat_nil none_offered] at offers
    refine .ended (fun other here => ?_) offers
    rcases passes.leaves other here with ⟨_, rfl⟩ | ⟨earlier, found, flow, _⟩
    · rfl
    · exact flow.trans (idle earlier found)

/-- A step that ends the transfer may have offered one more frame of the message. -/
theorem Stack.Replaced.transmits {connection : Connection} {emitted attempt : List Frame}
    (replaced : moment.before.Replaced handle connection .output {} false moment.after)
    (live : moment.before.connections.get? handle = some connection)
    (offers : offersSince taking handle later = emitted.map (address.interface, ·))
    (offered : moment.offers handle = [] ∨
      moment.offers handle = attempt.map (address.interface, ·))
    (further : emitted ++ attempt <+: (address.encoder settings).segmentation message) :
    moment.after.Transmits settings handle address message taking (later ++ [moment]) := by
  refine .ended (fun other here => ?_) ?_
  · rw [replaced.get? live] at here
    cases here
    rfl
  · have whole := further.map (address.interface, ·)
    rw [List.map_append] at whole
    have part := (List.prefix_append _ _).trans whole
    rw [offersSince_concat, offers]
    split
    · rw [List.append_nil]
      exact part
    · rcases offered with nothing | once
      · rw [nothing, List.append_nil]
        exact part
      · rw [once]
        exact whole

/-- A busy flow goes on with its message or ends the transfer. -/
theorem Connection.Sends.transmits {connection : Connection} {scope : Scope ω}
    {emitted : List Frame} {plan : Plan}
    (sends : connection.Sends scope address message emitted plan)
    (carried : moment.before.Carried handle connection .output plan moment.after moment.news)
    (same : scope.settings = settings) (own : scope.handle = handle)
    (live : moment.before.connections.get? handle = some connection)
    (bound : connection.address = some address)
    (underway : Underway (address.encoder settings) message emitted connection.output)
    (plain : plan = .stay [] ∨ moment.step.submits handle = false)
    (hands : (taking :: later).flatMap (·.hands handle) = emitted.map (address.interface, ·))
    (offers : offersSince taking handle later = emitted.map (address.interface, ·)) :
    moment.after.Transmits settings handle address message taking (later ++ [moment]) := by
  have unsent : emitted ++ [] <+: (address.encoder settings).segmentation message := by
    rw [List.append_nil, ← underway.sent.frames]
    exact List.prefix_append _ _
  subst same own
  have onward {flow : Flow} {noted : Bool} {more : List Frame}
      (replaced : moment.before.Replaced scope.handle connection .output flow noted moment.after)
      (underway' : Underway (address.encoder scope.settings) message (emitted ++ more) flow)
      (handed : moment.hands scope.handle = more.map (address.interface, ·))
      (offered : moment.offers scope.handle = more.map (address.interface, ·))
      (open_ : more = [] ∨ moment.step.submits scope.handle = false) :
      moment.after.Transmits scope.settings scope.handle address message taking
        (later ++ [moment]) := by
    refine .underway (replaced.get? live) ((connection.address_setFlow _ _).trans bound)
      underway' ?_ ?_
    · rw [hands_concat, hands, handed, List.map_append]
    · rw [offersSince_concat, offers, List.map_append, offered]
      rcases open_ with nothing | elsewhere
      · rw [nothing, List.map_nil, ite_self]
      · rw [elsewhere]
        rfl
  have ended {attempt : List Frame}
      (replaced : moment.before.Replaced scope.handle connection .output {} false moment.after)
      (offered : moment.offers scope.handle = [] ∨
        moment.offers scope.handle = attempt.map (address.interface, ·))
      (further : emitted ++ attempt <+: (address.encoder scope.settings).segmentation message) :
      moment.after.Transmits scope.settings scope.handle address message taking
        (later ++ [moment]) :=
    replaced.transmits live offers offered further
  generalize after_eq : moment.after = after at carried onward ended ⊢
  generalize news_eq : moment.news = news at carried
  have hands_eq : moment.hands scope.handle = news.filterMap (·.handed? scope.handle .output) := by
    rw [← news_eq]
    rfl
  have offers_eq : moment.offers scope.handle =
      news.filterMap (·.offered? scope.handle .output) := by
    rw [← news_eq]
    rfl
  cases sends with
  | stay =>
    cases carried with
    | stay connections _ _ =>
      rw [← offersSince_concat_nil offers_eq] at offers
      refine .underway (by rw [connections]; exact live) bound underway ?_ offers
      rw [hands_concat, hands_eq, hands]
      exact List.append_nil _
  | @wait flow underway' =>
    cases carried with
    | wait replaced =>
      have whole : Underway (address.encoder scope.settings) message (emitted ++ []) flow := by
        rw [List.append_nil]
        exact underway'
      exact onward replaced whole hands_eq offers_eq (Or.inl rfl)
  | @hand frame flow underway' _ =>
    have elsewhere : moment.step.submits scope.handle = false := by
      rcases plain with stays | elsewhere
      · cases stays
      · exact elsewhere
    cases carried with
    | handed replaced =>
      refine onward replaced underway' ?_ ?_ (Or.inr elsewhere)
      · simp [hands_eq, Signal.handed?]
      · simp [offers_eq, Signal.offered?, Signal.handed?]
    | refused fault replaced attempted =>
      have further := underway'.sent.frames ▸ List.prefix_append (emitted ++ [frame]) _
      refine ended replaced ?_ further
      rw [List.filterMap_append, (connection.failure_offers _ _ _ _).2, List.append_nil,
        List.nil_append] at offers_eq
      rcases attempted with rfl | ⟨reason, rfl⟩
      · exact Or.inl offers_eq
      · exact Or.inr (offers_eq.trans (by simp [Signal.offered?]))
  | fail fault =>
    cases carried with
    | rest replaced =>
      rw [(connection.failure_offers _ _ _ _).2] at offers_eq
      exact ended replaced (Or.inl offers_eq) unsent
  | finish complete length =>
    cases carried with
    | rest replaced =>
      rw [(connection.sent_offers _ _ _).2] at offers_eq
      exact ended replaced (Or.inl offers_eq) unsent

/-- A sending flow stays idle until a message is taken. -/
theorem Moment.rests (sound : moment.before.Sound) (timely : moment.step.Timely moment.before)
    (only : ∀ other, ¬moment.Accepts handle other)
    (idle : ∀ connection, moment.before.connections.get? handle = some connection →
      connection.output = {}) :
    ∀ connection, moment.after.connections.get? handle = some connection →
      connection.output = {} := by
  intro connection here
  rcases moment.flow_cases sound timely handle .output with
    passes | ⟨earlier, now, plan, live, plans, carried⟩
  · rcases passes.leaves connection here with ⟨_, rfl⟩ | ⟨earlier, found, flow, _⟩
    · rfl
    · exact flow.trans (idle earlier found)
  · have free := idle earlier live
    rcases plans.output_stays rfl free with stays | ⟨message', given⟩
    · rw [stays] at carried
      rw [carried.of_stay.2, live] at here
      cases here
      exact free
    · have quiet : moment.before.confirmations = [] := by
        rw [given] at timely
        exact timely
      have outcome := sound.submit_cases quiet live now message'
      rw [← given] at outcome
      rcases outcome with ⟨taken, _⟩ | ⟨_, news, kept | reset, _⟩
      · exact absurd ⟨now, given, taken⟩ (only message')
      · rw [show moment.after = moment.step.run moment.before from rfl, kept] at here
        cases here
        exact free
      · rw [show moment.after = moment.step.run moment.before from rfl, reset] at here
        cases here
        rfl

/-- Each step goes on with the message or ends its transfer. -/
theorem Stack.Transmits.step
    (transmits : moment.before.Transmits settings handle address message taking later)
    (same : moment.before.settings = settings) (sound : moment.before.Sound)
    (timely : moment.step.Timely moment.before)
    (only : ∀ other, ¬moment.Accepts handle other) :
    moment.after.Transmits settings handle address message taking (later ++ [moment]) := by
  rcases moment.flow_cases sound timely handle .output with
    passes | ⟨connection, now, plan, live, plans, carried⟩
  · exact passes.transmits transmits
  · cases transmits with
    | underway here bound underway hands offers =>
      rw [live] at here
      cases here
      exact (plans.sends rfl bound (same ▸ underway)).transmits carried same rfl live bound
        underway (plans.submits_busy underway.not_idle) hands offers
    | ended idle offers =>
      have rests := moment.rests sound timely only idle
      rcases plans.output_stays rfl (idle connection live) with stays | ⟨message', given⟩
      · rw [stays] at carried
        have nothing : moment.offers handle = [] := by
          unfold Moment.offers
          rw [carried.of_stay.1]
          rfl
        refine .ended rests ?_
        rw [offersSince_concat_nil nothing]
        exact offers
      · have submits : moment.step.submits handle = true := by
          rw [given]
          simp [Step.submits]
        refine .ended rests ?_
        rw [offersSince_concat, submits, if_pos rfl, List.append_nil]
        exact offers

theorem Connection.sent_not_mem_failure (connection : Connection) (scope : Scope ω) (fault : Fault)
    (listener : Listener) (length : Nat) :
    .sent listener handle length ∉ connection.failure scope fault := by
  intro member
  obtain ⟨name, _, absurd⟩ := mem_told.mp member
  cases absurd

/-- Success is told by a busy flow, when its transfer ends. -/
theorem Moment.finishes (sound : moment.before.Sound) (timely : moment.step.Timely moment.before)
    {listener : Listener} {length : Nat} (told : .sent listener handle length ∈ moment.news) :
    ∃ connection now, moment.before.connections.get? handle = some connection ∧
      connection.output.isIdle = false ∧
      moment.before.Plans handle connection moment.step now .output
        (.rest (connection.sent (moment.before.scope now handle))) ∧
      moment.news = connection.sent (moment.before.scope now handle) := by
  rcases moment.flow_cases sound timely handle .output with
    passes | ⟨connection, now, plan, live, plans, carried⟩
  · have foreign := passes.silent _ told
    simp [Signal.isOf] at foreign
  · rcases (sound.flows handle connection live).output with
      free | ⟨address, message, emitted, bound, underway⟩
    · rcases plans.output_stays rfl free with stays | ⟨message', given⟩
      · rw [stays] at carried
        rw [carried.of_stay.1] at told
        cases told
      · have quiet : moment.before.confirmations = [] := by
          rw [given] at timely
          exact timely
        have outcome := sound.submit_cases quiet live now message'
        rw [← given, show moment.step.run moment.before = moment.after from rfl] at outcome
        rcases outcome with ⟨_, _, _, _, _, _, _, _, _, signals⟩ | ⟨_, news, _, signals, attempted⟩
        · rw [Moment.news_eq signals] at told
          simp at told
        · rw [Moment.news_eq signals] at told
          rcases attempted with rfl | ⟨index, frame, reason, rfl⟩ <;> simp at told
    · have sends := plans.sends rfl bound underway
      generalize moment.after = after at carried
      generalize moment.news = news at carried told ⊢
      cases sends with
      | stay =>
        cases carried with
        | stay _ _ _ => cases told
      | wait _ =>
        cases carried with
        | wait _ => cases told
      | hand _ _ =>
        cases carried with
        | handed _ => simp at told
        | refused fault _ attempted =>
          rw [List.nil_append] at told
          rcases List.mem_append.mp told with attempt | late
          · rcases attempted with rfl | ⟨reason, rfl⟩ <;> simp at attempt
          · exact absurd late (connection.sent_not_mem_failure _ _ _ _)
      | fail fault =>
        cases carried with
        | rest _ => exact absurd told (connection.sent_not_mem_failure _ _ _ _)
      | finish complete whole =>
        cases carried with
        | rest _ => exact ⟨connection, now, live, underway.not_idle, plans, rfl⟩

/-- Success is told when all frames were handed over, and of the whole length. -/
theorem Stack.Transmits.sent
    (transmits : moment.before.Transmits settings handle address message taking later)
    (same : moment.before.settings = settings) (sound : moment.before.Sound)
    (timely : moment.step.Timely moment.before) {listener : Listener} {length : Nat}
    (told : .sent listener handle length ∈ moment.news) :
    length = message.length ∧ (taking :: later).flatMap (·.hands handle) =
      ((address.encoder settings).segmentation message).map (address.interface, ·) := by
  obtain ⟨connection, now, live, busy, plans, news⟩ := moment.finishes sound timely told
  rw [news] at told
  cases transmits with
  | @underway found emitted here bound underway hands offers =>
    rw [live] at here
    cases here
    have sends := plans.sends rfl bound (same ▸ underway)
    generalize plan_eq :
      Plan.rest (connection.sent (moment.before.scope now handle)) = plan at sends
    cases sends with
    | fail fault =>
      rw [Plan.rest.inj plan_eq] at told
      exact absurd told (connection.sent_not_mem_failure _ _ _ _)
    | finish complete whole =>
      obtain ⟨name, _, equal⟩ := mem_told.mp told
      cases equal
      refine ⟨whole, ?_⟩
      rw [hands, complete, ← same]
      rfl
    | _ => cases plan_eq
  | ended idle offers =>
    rw [idle connection live] at busy
    cases busy

/-- A message that was taken has handed over its first frame, whose confirmation is awaited. -/
theorem Moment.Accepts.starts (taken : taking.Accepts handle message)
    (sound : taking.before.Sound) (timely : taking.step.Timely taking.before) :
    ∃ (connection : Connection) (address : Address) (frame : Frame) (flow : Flow)
        (confirmed : Bool),
      taking.before.connections.get? handle = some connection ∧
        connection.address = some address ∧
        Underway (address.encoder taking.before.settings) message [frame]
          { flow with unconfirmed := true } ∧
        taking.before.Replaced handle connection .output { flow with unconfirmed := true }
          confirmed taking.after ∧
        taking.news = [.handed (.flow handle .output) address.interface frame] := by
  obtain ⟨now, given, accepted⟩ := taken
  cases live : taking.before.connections.get? handle with
  | none =>
    unfold Stack.send at accepted
    rw [live] at accepted
    cases accepted
  | some connection =>
    have quiet : taking.before.confirmations = [] := by
      rw [given] at timely
      exact timely
    have outcome := sound.submit_cases quiet live now message
    rw [← given, show taking.step.run taking.before = taking.after from rfl] at outcome
    rcases outcome with ⟨_, address, frame, flow, confirmed, bound, _, underway, replaced, signals⟩ |
      ⟨refused, _⟩
    · exact ⟨connection, address, frame, flow, confirmed, rfl, bound, underway, replaced,
        Moment.news_eq signals⟩
    · exact absurd accepted refused

theorem Moment.Accepts.transmits (taken : taking.Accepts handle message)
    (same : taking.before.settings = settings) (sound : taking.before.Sound)
    (timely : taking.step.Timely taking.before) :
    ∃ (connection : Connection) (address : Address) (frame : Frame),
      taking.before.connections.get? handle = some connection ∧
        connection.address = some address ∧
        taking.news = [.handed (.flow handle .output) address.interface frame] ∧
        taking.after.Transmits settings handle address message taking [] := by
  obtain ⟨connection, address, frame, flow, confirmed, live, bound, underway, replaced, news⟩ :=
    taken.starts sound timely
  refine ⟨connection, address, frame, live, bound, news, ?_⟩
  refine .underway (replaced.get? live) ((connection.address_setFlow _ _).trans bound)
    (same ▸ underway) ?_ ?_
  · simp [Moment.hands, news, Signal.handed?]
  · simp [offersSince, Moment.offers, news, Signal.offered?, Signal.handed?]

/-- The sending of a message along any run in which the connection takes no other. -/
theorem Stack.Transmits.run {steps : List (Step ω)} {stack : Stack ω}
    (orderly : stack.Orderly steps) (same : stack.settings = settings)
    (transmits : stack.Transmits settings handle address message taking [])
    (only : ∀ moment ∈ stack.moments steps, ∀ other, ¬moment.Accepts handle other) :
    (stack.through steps).settings = settings ∧
      (stack.through steps).Transmits settings handle address message taking
        (stack.moments steps) := by
  refine orderly.induct (fun past stack => stack.settings = settings ∧
    stack.Transmits settings handle address message taking past) ⟨same, transmits⟩ ?_
  intro past moment member sound timely ⟨same, transmits⟩
  exact ⟨(moment.step.settings_run _).trans same,
    transmits.step same sound timely (only moment member)⟩

end

/-- Whatever happens after a connection took a message, and until it takes another, the frames it
offers for the message are the first frames of the message, in order and as addressed when the
message was taken. Success is told when the interface took all of them, and of the whole length. -/
theorem transmission_is_segmentation {settings : Settings} {world : ω} {start : Stack ω}
    (run : Stack.new settings world = .ok start) (calls : List (Call ω))
    {past later rest : List (Moment ω)} {taking : Moment ω}
    (history : start.history calls = past ++ taking :: (later ++ rest)) {handle : Handle}
    {message : List UInt8} (taken : taking.Accepts handle message)
    (only : ∀ moment ∈ later, ∀ other, ¬moment.Accepts handle other) :
    ∃ (connection : Connection) (address : Address) (frames : List Frame),
      taking.before.connections.get? handle = some connection ∧
      connection.address = some address ∧
      (address.encoder settings).Segments message frames ∧
      offersSince taking handle later <+: frames.map (address.interface, ·) ∧
      ∀ earlier moment after, taking :: later = earlier ++ moment :: after →
        ∀ listener length, .sent listener handle length ∈ moment.news →
          length = message.length ∧
            earlier.flatMap (·.hands handle) = frames.map (address.interface, ·) := by
  have smooth := Stack.new_smooth run calls
  obtain ⟨_, _, _, created⟩ := Stack.new_eq run
  have settings_eq : start.settings = settings := by rw [created]
  obtain ⟨early, late, parts, _, onward⟩ := Stack.moments_split history
  obtain ⟨tail, next, here, onward⟩ := Stack.moments_cons onward
  obtain ⟨middle, final, split, following, _⟩ := Stack.moments_split onward
  have orderly := smooth.orderly
  rw [parts, next, split, Stack.Orderly.append_iff, Stack.Orderly.cons_iff, ← here,
    Stack.Orderly.append_iff] at orderly
  obtain ⟨_, ⟨sound, timely⟩, following_orderly, _⟩ := orderly
  have orderly : taking.after.Orderly middle := following_orderly
  have same : taking.before.settings = settings := by
    rw [here, Stack.settings_through, settings_eq]
  obtain ⟨connection, address, frame, live, bound, news, base⟩ := taken.transmits same sound timely
  have same_after : taking.after.settings = settings := (taking.step.settings_run _).trans same
  refine ⟨connection, address, _, live, bound, Encoder.segmentation_segments _ message, ?_, ?_⟩
  · have whole := Stack.Transmits.run orderly same_after base (by rw [following]; exact only)
    rw [following] at whole
    cases whole.2 with
    | underway _ _ underway _ offers =>
      rw [offers]
      exact underway.emitted_prefix _
    | ended _ offers => exact offers
  · intro earlier moment after whole listener length told
    cases earlier with
    | nil =>
      obtain ⟨rfl, _⟩ := List.cons.inj whole
      rw [news] at told
      simp at told
    | cons first earlier =>
      obtain ⟨rfl, inside⟩ := List.cons.inj whole
      rw [← following] at inside
      obtain ⟨front, back, pieces, firsts, lasts⟩ := Stack.moments_split inside
      obtain ⟨_, last, at_moment, _⟩ := Stack.moments_cons lasts
      rw [pieces, last, Stack.Orderly.append_iff, Stack.Orderly.cons_iff, ← at_moment] at orderly
      obtain ⟨orderly, ⟨sound', timely'⟩, _⟩ := orderly
      have before := Stack.Transmits.run orderly same_after base (by
        rw [firsts]
        intro moment member
        refine only moment ?_
        rw [← following, inside]
        exact List.mem_append_left _ member)
      rw [firsts, ← at_moment] at before
      exact before.2.sent before.1 sound' timely' told

/-- A message of three frames. -/
def sampleText : List UInt8 :=
  [1, 2, 3, 4, 5, 6, 7, 8, 9, 10, 11, 12, 13, 14, 15]

/-- The sample connection is given this message. -/
def sampleTaking : Moment Unit where
  before := sampleStack.calls sampleCalls
  step := .submit 0 sampleHandle sampleText

/-- The peer of the sample connection asks for blocks of two frames, ten milliseconds apart. -/
def sampleControl : Frame :=
  .classic (.standard 0x7E8) 3 #v[0x30, 2, 10, 0, 0, 0, 0, 0]

/-- The frames of the message are confirmed at once. The second of the two that the peer asks for is
handed over after the separation time. -/
def sampleSending : List (Step Unit) :=
  [.settle 0, .offer ⟨0⟩ sampleControl,
    .arrive 5 sampleHandle (.flowControl .continueToSend 2 10), .settle 5, .expire 15, .settle 15]

theorem sample_transmission_is_segmentation :
    let later := sampleTaking.after.moments sampleSending
    sampleTaking.Accepts sampleHandle sampleText ∧
      (offersSince sampleTaking sampleHandle later).length = 3 ∧
      ∃ (connection : Connection) (address : Address) (frames : List Frame),
        sampleTaking.before.connections.get? sampleHandle = some connection ∧
        connection.address = some address ∧
        (address.encoder sampleStack.settings).Segments sampleText frames ∧
        offersSince sampleTaking sampleHandle later <+: frames.map (address.interface, ·) ∧
        ∃ earlier last, sampleTaking :: later = earlier ++ [last] ∧
          .sent (.application 1) sampleHandle 15 ∈ last.news ∧
          earlier.flatMap (·.hands sampleHandle) = frames.map (address.interface, ·) := by
  intro later
  have made : Stack.new {} () = .ok sampleStack := rfl
  have taken : sampleTaking.Accepts sampleHandle sampleText := ⟨0, rfl, rfl⟩
  have history : sampleStack.history (sampleCalls ++ [.send 0 sampleHandle sampleText,
      .input 5 ⟨0⟩ sampleControl, .checkAlarms 15]) =
        sampleStack.history sampleCalls ++ sampleTaking :: (later ++ []) := rfl
  have only : ∀ moment ∈ later, ∀ other, ¬moment.Accepts sampleHandle other := by
    have steps : ∀ moment ∈ later, moment.step.submits sampleHandle = false := by decide +kernel
    rintro moment member other ⟨now, given, _⟩
    have never := steps moment member
    rw [given] at never
    simp [Step.submits] at never
  obtain ⟨connection, address, frames, live, bound, segments, offered, told⟩ :=
    transmission_is_segmentation made _ history taken only
  have whole : sampleTaking :: later = (sampleTaking :: later.take 5) ++
      [⟨sampleTaking.after.through (sampleSending.take 5), .settle 15⟩] := rfl
  have sent := told _ _ [] whole (.application 1) 15 (by decide +kernel)
  exact ⟨taken, by decide +kernel, connection, address, frames, live, bound, segments, offered, _, _,
    whole, by decide +kernel, sent.2⟩

end DiagBus
