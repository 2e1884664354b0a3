import DiagBus.Proofs.Watching

namespace DiagBus

variable {ω : Type}

/-- The connection that a signal is of: a flow of it offered a frame to an interface, or its
listeners are told. -/
def Signal.connection? : Signal → Option Handle
  | .handed (.flow connection _) _ _ => some connection
  | .refused (.flow connection _) _ _ _ => some connection
  | .received _ connection _ => some connection
  | .sent _ connection _ => some connection
  | .failed _ connection _ => some connection
  | _ => none

/-- The pending alarms of all connections but this one, in firing order. -/
def TimerQueue.apartFrom (queue : TimerQueue Alarm) (subject : Option Handle) :
    List (Alarm × Tick) :=
  queue.pending.filter fun entry => subject ≠ some entry.1.connection

/-- Whatever changed is of the subject: all other connections have the address, flows and listeners
that they had, their alarms have the same deadlines and the same order, and nothing was told of
them. -/
structure Stack.Confined (before after : Stack ω) (subject : Option Handle) : Prop where
  others : ∀ other, subject ≠ some other →
    after.connections.get? other = before.connections.get? other
  alarms : after.alarms.apartFrom subject = before.alarms.apartFrom subject
  news : ∃ news, after.outside.signals = before.outside.signals ++ news ∧
    ∀ signal ∈ news, ∀ other, signal.connection? = some other → subject = some other

/-- The connection that a step is about, if it is about one. -/
def Step.subject? (step : Step ω) (stack : Stack ω) : Option Handle :=
  match step with
  | .openConnection => stack.openConnection.map (·.1)
  | .bind handle _ => some handle
  | .listen handle _ _ _ => some handle
  | .close handle => some handle
  | .submit _ handle _ => some handle
  | .arrive _ handle _ => some handle
  | .confirm _ handle _ => some handle
  | .settle _ => stack.confirmations.head?.map (·.connection)
  | .expire now => (stack.alarms.popDue now).map (·.1.connection)
  | _ => none

/-- A live connection is bound to receive an identifier on an interface, and no other such
connection has a lower slot. -/
structure Stack.Addressed (stack : Stack ω) (index : InterfaceIndex) (id : CanId)
    (handle : Handle) : Prop where
  bound : ∃ connection address, stack.connections.get? handle = some connection ∧
    connection.address = some address ∧ address.interface = index ∧ address.receives = id
  first : ∀ other connection address, stack.connections.get? other = some connection →
    connection.address = some address → address.interface = index → address.receives = id →
      handle.slot.toNat ≤ other.slot.toNat

/-- Whether a connection has a use for a unit of the peer in its present state: a message may start
only while nothing is being received, and has to be longer than what came of it; a later part needs
a flow that waits for it, and so does flow control. -/
def Connection.expects (connection : Connection) : Pdu → Bool
  | .single _ => connection.input.isIdle
  | .first length data => connection.input.isIdle && data.length < length
  | .consecutive _ _ => connection.input.phase = .consecutiveIn
  | .flowControl _ _ _ => connection.output.phase = .controlIn

section

variable {before middle after stack : Stack ω} {subject : Option Handle}

theorem Stack.Confined.refl (stack : Stack ω) (subject : Option Handle) :
    stack.Confined stack subject :=
  ⟨fun _ _ => rfl, rfl, [], (List.append_nil _).symm, by simp⟩

theorem Stack.Confined.trans (early : before.Confined middle subject)
    (late : middle.Confined after subject) : before.Confined after subject := by
  obtain ⟨news, told, own⟩ := early.news
  obtain ⟨more, told', own'⟩ := late.news
  refine ⟨fun other apart => (late.others other apart).trans (early.others other apart),
    late.alarms.trans early.alarms, news ++ more, by rw [told', told, List.append_assoc], ?_⟩
  intro signal member
  rcases List.mem_append.mp member with first | second
  · exact own signal first
  · exact own' signal second

/-- What is about no connection leaves all of them alone, whichever one is looked at. -/
theorem Stack.Confined.of_none (confined : before.Confined after none)
    (subject : Option Handle) : before.Confined after subject := by
  obtain ⟨news, told, own⟩ := confined.news
  have pending : after.alarms.pending = before.alarms.pending := by
    simpa [TimerQueue.apartFrom] using confined.alarms
  refine ⟨fun other _ => confined.others other (by simp), ?_, news, told, ?_⟩
  · unfold TimerQueue.apartFrom
    rw [pending]
  · intro signal member other named
    cases own signal member other named

/-- What concerns at most this connection. -/
theorem Stack.Confined.of_at_most {handle : Handle} (confined : before.Confined after subject)
    (most : ∀ other, subject = some other → other = handle) :
    before.Confined after (some handle) := by
  cases subject with
  | none => exact confined.of_none _
  | some other =>
    rw [← most other rfl]
    exact confined

theorem Signal.connection?_of_isRaw {signal : Signal} (raw : signal.isRaw = true) :
    signal.connection? = none := by
  unfold Signal.isRaw at raw
  split at raw <;> first | rfl | cases raw

theorem Signal.connection?_of_isFrom {signal : Signal} {handle other : Handle}
    {direction : Direction} (own : signal.isFrom handle direction = true)
    (named : signal.connection? = some other) : other = handle := by
  cases signal with
  | handed origin index frame => cases origin <;> simp_all [connection?, isFrom, isOf]
  | refused origin index frame reason => cases origin <;> simp_all [connection?, isFrom, isOf]
  | _ => simp_all [connection?, isFrom, isOf]

/-- Alarms that are not of one flow of a connection contain all that are not of the connection. -/
theorem TimerQueue.apartFrom_of_elsewhere {queue after : TimerQueue Alarm} {handle : Handle}
    {direction : Direction}
    (same : after.elsewhere handle direction = queue.elsewhere handle direction) :
    after.apartFrom (some handle) = queue.apartFrom (some handle) := by
  have inside (queue : TimerQueue Alarm) : queue.apartFrom (some handle) =
      (queue.elsewhere handle direction).filter fun entry =>
        some handle ≠ some entry.1.connection := by
    unfold apartFrom elsewhere
    rw [List.filter_filter]
    refine List.filter_congr fun entry _ => ?_
    by_cases own : entry.1.connection = handle
    · simp [own]
    · simp [Alarm.watches, own, eq_comm]
  rw [inside, inside, same]

/-- One entry of the table was replaced. -/
theorem Stack.Confined.of_set {handle : Handle} {old new : Connection}
    (live : stack.connections.get? handle = some old) :
    stack.Confined { stack with connections := stack.connections.set handle new }
      (some handle) := by
  refine ⟨fun other apart => ?_, rfl, [], (List.append_nil _).symm, by simp⟩
  show (stack.connections.set handle new).get? other = _
  rw [Slots.get?_set_of_ne _ live fun same => apart (congrArg some same.symm)]

theorem Stack.Plans.subject_eq {handle : Handle} {connection : Connection} {step : Step ω}
    {now : Tick} {direction : Direction} {plan : Plan}
    (plans : stack.Plans handle connection step now direction plan) :
    step.subject? stack = some handle := by
  cases plans with
  | settle _ noted => simp [Step.subject?, noted]
  | expire _ due own => simp [Step.subject?, due, own]
  | _ => rfl

/-- A plan touches no connection but the one that carries it out. -/
theorem Stack.Plans.confined {past : List (Moment ω)} {handle : Handle} {connection : Connection}
    {step : Step ω} {now : Tick} {direction : Direction} {plan : Plan}
    (plans : stack.Plans handle connection step now direction plan)
    (acts : stack.Acts now handle connection direction plan (step.run stack))
    (overseen : stack.Overseen past) (sound : stack.Sound) (timely : step.Timely stack) :
    stack.Confined (step.run stack) (some handle) := by
  obtain ⟨news, told, carried⟩ := acts.carries_out
  obtain ⟨others, _⟩ := carried.get? acts.live
  refine ⟨fun other apart => others other fun same => apart (congrArg some same.symm), ?_, news, told, ?_⟩
  · have guarded := overseen.guarded acts.live now direction
    rcases plans.rearms sound timely acts.live guarded with
      ⟨_, same⟩ | ⟨_, x, result, _, rearmed, _⟩
    · rw [same]
    · rw [result]
      exact TimerQueue.apartFrom_of_elsewhere rearmed.elsewhere
  · intro signal member other named
    rw [Signal.connection?_of_isFrom (carried.speaks plans.speaks signal member) named]

/-- A step touches no connection but the one it is about. -/
theorem Stack.Overseen.confined {past : List (Moment ω)} {step : Step ω}
    (overseen : stack.Overseen past) (sound : stack.Sound) (timely : step.Timely stack) :
    stack.Confined (step.run stack) (step.subject? stack) := by
  have planned {handle : Handle} {connection : Connection} {now : Tick} {direction : Direction}
      {plan : Plan} (plans : stack.Plans handle connection step now direction plan)
      (acts : stack.Acts now handle connection direction plan (step.run stack)) :=
    plans.confined acts overseen sound timely
  have turns := sound.turns timely
  generalize step.run stack = after at turns planned ⊢
  cases turns with
  | apart apart _ =>
    obtain ⟨news, told, raw⟩ := apart.outside
    refine Stack.Confined.of_none ⟨fun other _ => ?_, ?_, news, told, ?_⟩ _
    · rw [apart.connections]
    · rw [apart.alarms]
    · intro signal member other named
      rw [Signal.connection?_of_isRaw (raw signal member)] at named
      cases named
  | @opened handle connections insertion =>
    have about : Step.openConnection.subject? stack = some handle := by
      simp [Step.subject?, Stack.openConnection, insertion]
    rw [about]
    refine ⟨fun other apart => ?_, rfl, [], (List.append_nil _).symm, by simp⟩
    show connections.get? other = _
    rw [Slots.get?_insert sound.slots insertion, if_neg fun same => apart (congrArg some same.symm)]
  | bound live _ => exact .of_set live
  | listened live => exact .of_set live
  | @closed handle connection connections erasure =>
    refine ⟨fun other apart => ?_, ?_, [], (List.append_nil _).symm, by simp⟩
    · show connections.get? other = _
      rw [Slots.get?_erase erasure, if_neg fun same => apart (congrArg some same.symm)]
    · obtain ⟨_, _, pending⟩ :=
        TimerQueue.cancelAll_linked overseen.linked (·.connection = handle)
      unfold TimerQueue.apartFrom
      rw [show _ = _ from pending, List.filter_filter]
      refine List.filter_congr fun entry _ => ?_
      simp [Step.subject?, eq_comm]
  | acted plans acts =>
    rw [plans.subject_eq]
    exact planned plans acts
  | @lapsed now alarm alarms due dead =>
    obtain ⟨_, _, deadline, _, pending⟩ := TimerQueue.popDue_linked overseen.linked due
    refine ⟨fun _ _ => rfl, ?_, [], (List.append_nil _).symm, by simp⟩
    unfold TimerQueue.apartFrom
    rw [pending]
    simp [Step.subject?, due]

/-- What a step leaves noted is a confirmation of the connection it is about. -/
theorem Stack.Sound.noted_subject {step : Step ω} (sound : stack.Sound)
    (timely : step.Timely stack) {confirmation : Confirmation}
    (noted : confirmation ∈ (step.run stack).confirmations) :
    step.subject? stack = some confirmation.connection := by
  have turns := sound.turns timely
  generalize step.run stack = after at turns noted
  have unnoted (quiet : stack.confirmations = []) (same : after.confirmations = stack.confirmations)
      {p : Prop} : p := by
    rw [same, quiet] at noted
    cases noted
  cases turns with
  | apart apart _ =>
    cases step with
    | settle now =>
      rcases sound.noted with quiet | ⟨handle, direction, _, only, _⟩
      · exact unnoted quiet apart.confirmations
      · rw [apart.confirmations, only] at noted
        rw [List.mem_singleton.mp noted]
        simp [Step.subject?, only]
    | _ => exact unnoted timely apart.confirmations
  | opened _ => exact unnoted timely rfl
  | bound _ _ => exact unnoted timely rfl
  | listened _ => exact unnoted timely rfl
  | closed _ => exact unnoted timely rfl
  | acted plans acts =>
    obtain ⟨_, _, carried⟩ := acts.carries_out
    rw [plans.subject_eq]
    rcases carried.confirmations with quiet | only
    · rw [quiet] at noted
      cases noted
    · rw [only] at noted
      rw [List.mem_singleton.mp noted]
  | lapsed _ _ => exact unnoted timely rfl

/-- While noted confirmations of one connection are handled no other one is touched. -/
theorem Stack.Overseen.settling_confined {past : List (Moment ω)} {handle : Handle} (now : Tick)
    (fuel : Nat) (overseen : stack.Overseen past) (sound : stack.Sound)
    (own : ∀ confirmation ∈ stack.confirmations, confirmation.connection = handle) :
    stack.Confined (stack.through (settlingWithin now fuel stack)) (some handle) := by
  induction fuel generalizing stack past with
  | zero => exact .refl stack _
  | succ fuel ih =>
    unfold settlingWithin
    split
    · exact .refl stack _
    · have timely : (Step.settle now).Timely stack := trivial
      have about : ∀ other, (Step.settle now).subject? stack = some other → other = handle := by
        intro other named
        obtain ⟨confirmation, first, rfl⟩ := Option.map_eq_some_iff.mp named
        exact own confirmation (List.mem_of_mem_head? first)
      have next : Stack.Overseen (Moment.after ⟨stack, .settle now⟩) _ :=
        Stack.Overseen.step overseen sound timely
      refine ((overseen.confined sound timely).of_at_most about).trans ?_
      refine ih next (sound.step timely) fun confirmation noted => ?_
      exact about _ (sound.noted_subject timely noted)

/-- A step with the confirmations that follow on it touches one connection at most. -/
theorem Stack.Overseen.settled_confined {past : List (Moment ω)} {handle : Handle} {step : Step ω}
    (overseen : stack.Overseen past) (sound : stack.Sound) (timely : step.Timely stack)
    (about : ∀ other, step.subject? stack = some other → other = handle) (now : Tick) :
    stack.Confined ((step.run stack).settle now) (some handle) := by
  have next : Stack.Overseen (Moment.after ⟨stack, step⟩) _ :=
    Stack.Overseen.step overseen sound timely
  refine ((overseen.confined sound timely).of_at_most about).trans ?_
  rw [Stack.settle_eq]
  exact Stack.Overseen.settling_confined now _ next (sound.step timely) fun confirmation noted =>
    about _ (sound.noted_subject timely noted)

end

section

variable {stack : Stack ω} {index : InterfaceIndex} {id : CanId} {handle : Handle}

theorem Connection.receives_iff {connection : Connection} :
    connection.receives index id = true ↔
      ∃ address, connection.address = some address ∧ address.interface = index ∧
        address.receives = id := by
  unfold Connection.receives
  cases connection.address <;> simp

/-- A frame is dispatched to the first connection that it is addressed to. -/
theorem Stack.findConnection?_addressed (wellFormed : stack.connections.WellFormed) :
    stack.findConnection? (·.receives index id) = some handle ↔
      stack.Addressed index id handle := by
  have least (connection : Connection) :=
    @Slots.find?_entries_eq_some_iff _ _ wellFormed (·.receives index id) handle connection
  have found : stack.findConnection? (·.receives index id) = some handle ↔
      ∃ connection, stack.connections.entries.find? (·.2.receives index id) =
        some (handle, connection) := by
    unfold Stack.findConnection?
    simp
  rw [found]
  constructor
  · rintro ⟨connection, first⟩
    obtain ⟨live, passes, lowest⟩ := (least connection).mp first
    obtain ⟨address, bound, on, receives⟩ := Connection.receives_iff.mp passes
    refine ⟨⟨connection, address, live, bound, on, receives⟩, ?_⟩
    intro other found address there bound on receives
    exact lowest other found there (Connection.receives_iff.mpr ⟨address, bound, on, receives⟩)
  · intro addressed
    obtain ⟨connection, address, live, bound, on, receives⟩ := addressed.bound
    have passes := Connection.receives_iff.mpr ⟨address, bound, on, receives⟩
    refine ⟨connection, (least connection).mpr ⟨live, passes, ?_⟩⟩
    intro other found there test
    obtain ⟨address, bound, on, receives⟩ := Connection.receives_iff.mp test
    exact addressed.first other found address there bound on receives

/-- No two connections are both the one that a frame is dispatched to. -/
theorem Stack.Addressed.unique (wellFormed : stack.connections.WellFormed) {other : Handle}
    (addressed : stack.Addressed index id handle) (again : stack.Addressed index id other) :
    other = handle := by
  rw [← Stack.findConnection?_addressed wellFormed] at addressed again
  rw [addressed] at again
  exact (Option.some.inj again).symm

end

/-- A unit that the connection does not expect changes nothing. -/
theorem Exchange.receive_unexpected {x : Exchange ω} {pdu : Pdu}
    (unexpected : x.connection.expects pdu = false) (scope : Scope ω) :
    x.receive scope pdu = x := by
  cases pdu with
  | single message =>
    have busy : x.connection.input.isIdle = false := unexpected
    simp [Exchange.receive, Exchange.receiveSingle, busy]
  | first length data =>
    simp only [Connection.expects, Bool.and_eq_false_iff, decide_eq_false_iff_not,
      Nat.not_lt] at unexpected
    rcases unexpected with busy | covered
    · simp [Exchange.receive, Exchange.receiveFirst, busy]
    · simp only [Exchange.receive, Exchange.receiveFirst, covered, if_true]
      split <;> rfl
  | consecutive sequence data =>
    have elsewhere : x.connection.input.phase ≠ .consecutiveIn := of_decide_eq_false unexpected
    simp [Exchange.receive, Exchange.receiveConsecutive, elsewhere]
  | flowControl status blockSize separation =>
    have elsewhere : x.connection.output.phase ≠ .controlIn := of_decide_eq_false unexpected
    simp [Exchange.receive, Exchange.receiveControl, elsewhere]

/-- An operation that leaves an exchange as it is leaves the stack as it is. -/
theorem Stack.on_same {stack : Stack ω} {now : Tick} {handle : Handle}
    {operation : Exchange ω → Scope ω → Exchange ω}
    (same : ∀ connection, stack.connections.get? handle = some connection →
      operation (stack.exchange connection) (stack.scope now handle) =
        stack.exchange connection) :
    stack.on now handle operation = stack := by
  cases live : stack.connections.get? handle with
  | none => exact Stack.on_dead live now operation
  | some connection =>
    rw [Stack.on_live live, same connection live]
    unfold Stack.restore Stack.exchange
    rw [Slots.set_same live]

/-- All that an offer tells is to whom the frame was offered. -/
theorem Raw.offer_offers (raw : Raw ω) (index : InterfaceIndex) (frame : Frame)
    (order : List Handle) (outside : Outside ω) :
    ∃ news, (raw.offer index frame order outside).2.signals = outside.signals ++ news ∧
      ∀ signal ∈ news, ∃ listener subscription consumed,
        signal = .offered listener subscription frame consumed := by
  induction order generalizing outside with
  | nil => exact ⟨[], (List.append_nil _).symm, by simp⟩
  | cons handle rest ih =>
    unfold Raw.offer
    split
    · rename_i listener consumes _ _
      split
      · simp only []
        split
        · refine ⟨_, rfl, fun signal member => ?_⟩
          rw [List.mem_singleton.mp member]
          exact ⟨_, _, _, rfl⟩
        · obtain ⟨news, told, offers⟩ := ih (Outside.tell
            { outside with world := (consumes frame outside.world).2 }
            (.offered listener handle frame (consumes frame outside.world).1))
          refine ⟨_, told.trans (List.append_assoc _ _ _), fun signal member => ?_⟩
          rcases List.mem_cons.mp member with rfl | later
          · exact ⟨_, _, _, rfl⟩
          · exact offers signal later
      · exact ih outside
    · exact ih outside

/-- A frame that was only offered changes neither the subscriptions nor their order. -/
theorem Raw.input_declined {raw : Raw ω} {index : InterfaceIndex} {frame : Frame}
    {outside : Outside ω} (declined : (raw.input index frame outside).1 = false) :
    raw.input index frame outside =
      (false, raw, (raw.offer index frame raw.order outside).2) := by
  unfold Raw.input at declined ⊢
  split at declined
  · rename_i offered
    rw [offered]
  · cases declined

/-- What calls do to a stack on which no confirmation is left unhandled. -/
structure Stack.Isolates (stack : Stack ω) : Prop where
  send : ∀ now handle message,
    stack.Confined (stack.send now handle message).2 (some handle)
  bind : ∀ handle address after, stack.bind handle address = .ok after →
    stack.Confined after (some handle)
  close : ∀ handle after, stack.close handle = .ok after → stack.Confined after (some handle)
  /-- A report makes at most one connection go on, and one that awaits it. -/
  sent : ∀ now index frame, ∃ subject, stack.Confined (stack.sent now index frame) subject ∧
    ∀ handle, subject = some handle → ∃ connection,
      stack.connections.get? handle = some connection ∧
        (connection.flow (Stack.confirmedDirection frame)).unconfirmed = true ∧
        connection.transmits index frame.id = true
  expire : ∀ now alarm alarms, stack.alarms.popDue now = some (alarm, alarms) →
    stack.Confined (({ stack with alarms }.on now alarm.connection (·.expire · alarm)).settle now)
      (some alarm.connection)
  consumed : ∀ now index frame, (stack.raw.input index frame stack.outside).1 = true →
    stack.Confined (stack.input now index frame) none
  /-- A frame that no raw subscription consumes is for one connection at most. -/
  single : ∀ index id handle other, stack.Addressed index id handle →
    stack.Addressed index id other → other = handle
  dispatch : ∀ now index frame handle pdu,
    (stack.raw.input index frame stack.outside).1 = false →
      stack.Addressed index frame.id handle → Pdu.decode frame.payload = some pdu →
        stack.input now index frame =
            (((Step.offer index frame).run stack).on now handle (·.receive · pdu)).settle now ∧
          stack.Confined (stack.input now index frame) (some handle)
  /-- A frame that is for no connection, is no unit, or carries one that is not expected, changes
  nothing; only the raw subscriptions that it was offered to are told. -/
  drop : ∀ now index frame, (stack.raw.input index frame stack.outside).1 = false →
    (∀ handle connection pdu, stack.Addressed index frame.id handle →
      stack.connections.get? handle = some connection → Pdu.decode frame.payload = some pdu →
        connection.expects pdu = false) →
      ∃ outside news, stack.input now index frame = { stack with outside } ∧
        outside.signals = stack.outside.signals ++ news ∧
        ∀ signal ∈ news, ∃ listener subscription consumed,
          signal = .offered listener subscription frame consumed

section

variable {stack : Stack ω} {past : List (Moment ω)}

/-- A step that neither confirms nor sends a frame of a connection leaves everything as the next
one needs it. -/
theorem Stack.Overseen.plain_step (overseen : stack.Overseen past) (sound : stack.Sound)
    (quiet : stack.confirmations = []) (step : Step ω) (plain : step.isPlain = true) :
    stack.Confined (step.run stack) (step.subject? stack) ∧
      (step.run stack).Overseen (past ++ [⟨stack, step⟩]) ∧ (step.run stack).Sound ∧
      (step.run stack).confirmations = [] := by
  obtain ⟨timely, after, still⟩ := sound.plain_step quiet plain
  have next : Stack.Overseen (Moment.after ⟨stack, step⟩) _ :=
    Stack.Overseen.step overseen sound timely
  exact ⟨overseen.confined sound timely, next, after, still⟩

/-- A call that is one step, or fails, touches the connection that the step is about. -/
theorem Stack.Overseen.call_confined (overseen : stack.Overseen past) (sound : stack.Sound)
    (quiet : stack.confirmations = []) (step : Step ω) (plain : step.isPlain = true)
    {outcome : Except Fault (Stack ω)} (same : step.run stack = stack.orStay outcome)
    {after : Stack ω} (run : outcome = .ok after) :
    stack.Confined after (step.subject? stack) := by
  have confined := (overseen.plain_step sound quiet step plain).1
  rw [same, run] at confined
  exact confined

theorem Stack.Overseen.sent_confined (overseen : stack.Overseen past) (sound : stack.Sound)
    (quiet : stack.confirmations = []) (now : Tick) (index : InterfaceIndex) (frame : Frame) :
    ∃ subject, stack.Confined (stack.sent now index frame) subject ∧
      ∀ handle, subject = some handle → ∃ connection,
        stack.connections.get? handle = some connection ∧
          (connection.flow (Stack.confirmedDirection frame)).unconfirmed = true ∧
          connection.transmits index frame.id = true := by
  obtain ⟨acknowledged, overseen', sound', quiet'⟩ :=
    overseen.plain_step sound quiet (.acknowledge index frame) rfl
  have split : stack.sent now index frame =
      if (stack.raw.sent index frame stack.outside).1 then
        (Step.acknowledge index frame).run stack
      else (((Step.acknowledge index frame).run stack).sentTransport now index frame).settle now := by
    simp only [Stack.sent, Step.run]
    rcases stack.raw.sent index frame stack.outside with ⟨taken, raw, outside⟩
    cases taken <;> rfl
  rw [split]
  split
  · exact ⟨none, acknowledged, fun _ impossible => by cases impossible⟩
  · unfold Stack.sentTransport
    simp only []
    cases found : ((Step.acknowledge index frame).run stack).findConnection? fun connection =>
        (connection.flow (Stack.confirmedDirection frame)).unconfirmed &&
          connection.transmits index frame.id with
    | none =>
      rw [Stack.settle_quiet quiet']
      exact ⟨none, acknowledged, fun _ impossible => by cases impossible⟩
    | some handle =>
      have confirmed := overseen'.settled_confined sound'
        (show (Step.confirm now handle (Stack.confirmedDirection frame)).Timely _ from quiet')
        (fun other named => (Option.some.inj named).symm) now
      refine ⟨some handle, (acknowledged.of_none _).trans confirmed, fun name same => ?_⟩
      obtain ⟨⟨_, connection⟩, here, rfl⟩ := Option.map_eq_some_iff.mp found
      cases same
      have awaits := List.find?_some here
      refine ⟨connection, ?_, by simpa using awaits⟩
      exact (Slots.mem_entries_iff sound.slots).mp (List.mem_of_find?_eq_some here)

/-- A frame that no raw subscription consumes goes on to the transport. -/
theorem Stack.input_declined {index : InterfaceIndex} {frame : Frame}
    (declined : (stack.raw.input index frame stack.outside).1 = false) (now : Tick) :
    (Step.offer index frame).run stack =
        { stack with outside := (stack.raw.offer index frame stack.raw.order stack.outside).2 } ∧
      stack.input now index frame =
        (((Step.offer index frame).run stack).inputTransport now index frame).settle now := by
  have passes := Raw.input_declined declined
  refine ⟨?_, ?_⟩
  · simp only [Step.run, passes]
  · simp only [Stack.input, Step.run, passes]

theorem Stack.Overseen.isolates (overseen : stack.Overseen past) (sound : stack.Sound)
    (quiet : stack.confirmations = []) : stack.Isolates where
  send now handle message := by
    rw [Stack.send_eq]
    exact overseen.settled_confined sound (show (Step.submit now handle message).Timely _ from quiet)
      (fun other named => (Option.some.inj named).symm) now
  bind handle address after run :=
    overseen.call_confined sound quiet (.bind handle address) rfl rfl run
  close handle after run :=
    overseen.call_confined sound quiet (.close handle) rfl rfl run
  sent := overseen.sent_confined sound quiet
  expire now alarm alarms due := by
    have gone : { stack with alarms }.on now alarm.connection (·.expire · alarm) =
        (Step.expire now).run stack := by
      simp only [Step.run, due]
    rw [gone]
    refine overseen.settled_confined sound (show (Step.expire now).Timely _ from quiet) ?_ now
    intro other named
    simp only [Step.subject?, due, Option.map_some, Option.some.injEq] at named
    exact named.symm
  consumed now index frame taken := by
    have offered := (overseen.plain_step sound quiet (.offer index frame) rfl).1
    have whole : stack.input now index frame = (Step.offer index frame).run stack := by
      simp only [Stack.input, Step.run]
      rcases answer : stack.raw.input index frame stack.outside with ⟨consumed, raw, outside⟩
      rw [answer] at taken
      cases taken
      rfl
    rw [whole]
    exact offered
  single index id handle other addressed again := addressed.unique sound.slots again
  dispatch now index frame handle pdu declined addressed decoded := by
    obtain ⟨offered, overseen', sound', quiet'⟩ :=
      overseen.plain_step sound quiet (.offer index frame) rfl
    obtain ⟨_, whole⟩ := stack.input_declined declined now
    have found : ((Step.offer index frame).run stack).findConnection?
        (·.receives index frame.id) = some handle :=
      (Stack.findConnection?_addressed sound.slots).mpr addressed
    have arrives : stack.input now index frame =
        (((Step.offer index frame).run stack).on now handle (·.receive · pdu)).settle now := by
      rw [whole]
      simp only [Stack.inputTransport, found, decoded]
    refine ⟨arrives, ?_⟩
    rw [arrives]
    exact (offered.of_none _).trans (overseen'.settled_confined sound'
      (show (Step.arrive now handle pdu).Timely _ from quiet')
      (fun other named => (Option.some.inj named).symm) now)
  drop now index frame declined unexpected := by
    obtain ⟨offered, whole⟩ := stack.input_declined declined now
    obtain ⟨news, told, offers⟩ := stack.raw.offer_offers index frame stack.raw.order stack.outside
    refine ⟨_, news, ?_, told, offers⟩
    rw [← offered, whole]
    have quiet' : ((Step.offer index frame).run stack).confirmations = [] := quiet
    have same : ((Step.offer index frame).run stack).inputTransport now index frame =
        (Step.offer index frame).run stack := by
      unfold Stack.inputTransport
      split
      · rfl
      · rename_i handle found
        have addressed : stack.Addressed index frame.id handle :=
          (Stack.findConnection?_addressed sound.slots).mp found
        split
        · rfl
        · rename_i pdu decoded
          refine Stack.on_same fun connection live => ?_
          exact Exchange.receive_unexpected
            (by exact unexpected handle connection pdu addressed live decoded) _
    rw [same]
    exact Stack.settle_quiet quiet' now

end

/-- Whatever happens on a connection leaves every other connection's address, flows, listeners and
alarms alone, and nobody hears of another connection through it. A received frame that no raw
subscription consumes reaches at most one connection, the first that is bound to it; one that no
connection expects changes nothing. -/
theorem connections_are_isolated {settings : Settings} {world : ω} {start : Stack ω}
    (run : Stack.new settings world = .ok start) (calls : List (Call ω)) :
    (∀ moment ∈ start.history calls,
      moment.before.Confined moment.after (moment.step.subject? moment.before)) ∧
      (start.calls calls).Isolates := by
  have smooth := Stack.new_smooth run calls
  have fresh := (Stack.new_watched run).2.overseen
  obtain ⟨sound, quiet⟩ := Stack.calls_sound run calls
  constructor
  · intro moment member
    obtain ⟨past, rest, whole⟩ := List.append_of_mem member
    obtain ⟨sound, timely, overseen⟩ := smooth.orderly.reach whole
      (fun past stack => stack.Overseen past) fresh
      fun past moment sound timely overseen => Stack.Overseen.step overseen sound timely
    exact overseen.confined sound timely
  · have overseen := smooth.orderly.induct (fun past stack => stack.Overseen past) fresh
      fun past moment _ sound timely overseen => Stack.Overseen.step overseen sound timely
    rw [← Stack.calls_eq] at overseen
    exact overseen.isolates sound quiet

/-- Two connections are open, and the first one has sent a first frame. -/
def sampleNeighbours : List (Call Unit) :=
  sampleCalls ++ [.openConnection,
    .bind ⟨1, 0⟩ { interface := ⟨0⟩, transmits := .standard 0x7E1, receives := .standard 0x7E9 },
    .send 5 sampleHandle [1, 2, 3, 4, 5, 6, 7, 8]]

/-- A message starts on the second connection, and the first one goes on waiting for flow control
until the time that it waited for before. -/
theorem sample_connections_are_isolated :
    Stack.new {} () = .ok sampleStack ∧
      (sampleStack.calls sampleNeighbours).Confined
        ((sampleStack.calls sampleNeighbours).input 6 ⟨0⟩
          (.classic (.standard 0x7E9) 8 #v[0x10, 9, 1, 2, 3, 4, 5, 6])) (some ⟨1, 0⟩) ∧
      ((sampleStack.calls sampleNeighbours).input 6 ⟨0⟩
        (.classic (.standard 0x7E9) 8 #v[0x10, 9, 1, 2, 3, 4, 5, 6])).alarms.pending =
          [(.output sampleHandle, Tick.after 5 1000), (.input ⟨1, 0⟩, Tick.after 6 1000)] := by
  have made : Stack.new {} () = .ok sampleStack := rfl
  obtain ⟨_, isolates⟩ := connections_are_isolated made sampleNeighbours
  obtain ⟨sound, _⟩ := Stack.calls_sound made sampleNeighbours
  have addressed : (sampleStack.calls sampleNeighbours).Addressed ⟨0⟩ (.standard 0x7E9) ⟨1, 0⟩ :=
    (Stack.findConnection?_addressed sound.slots).mp (by decide +kernel)
  obtain ⟨_, confined⟩ := isolates.dispatch 6 ⟨0⟩
    (.classic (.standard 0x7E9) 8 #v[0x10, 9, 1, 2, 3, 4, 5, 6]) ⟨1, 0⟩
    (.first 9 [1, 2, 3, 4, 5, 6]) (by decide +kernel) addressed (by decide +kernel)
  exact ⟨made, confined, by decide +kernel⟩

end DiagBus
