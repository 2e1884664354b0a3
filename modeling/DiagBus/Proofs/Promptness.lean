import DiagBus.Proofs.Abreast

namespace DiagBus

variable {ω : Type}

/-- Frames that interfaces took are reported one after the other, and so are those that they take
meanwhile, until all are reported. -/
inductive Stack.Reports (now : Tick) : List Handover → Stack ω → Stack ω → Prop
  | done (stack : Stack ω) : Reports now [] stack stack
  | report {handover : Handover} {rest : List Handover} {stack after : Stack ω}
      (onward : Reports now
        (rest ++ (stack.sent now handover.index handover.frame).takenSince stack)
        (stack.sent now handover.index handover.frame) after) :
      Reports now (handover :: rest) stack after

/-- Two stacks differ in their interfaces at most, and in which timer stands in which slot. -/
structure Stack.Agrees (early late : Stack ω) : Prop where
  settings : late.settings = early.settings
  connections : late.connections = early.connections
  memory : late.memory = early.memory
  confirmations : late.confirmations = early.confirmations
  raw : late.raw = early.raw
  /-- The same frames and the same news in the same order, and the controllers in the same state. -/
  outside : late.outside = early.outside
  pending : late.alarms.pending = early.alarms.pending

/-- No flow and no raw subscription awaits the confirmation of a frame. -/
structure Stack.Unawaiting (stack : Stack ω) : Prop where
  flows : ∀ handle connection, stack.connections.get? handle = some connection →
    ∀ direction, (connection.flow direction).unconfirmed = false
  raw : ∀ entry ∈ stack.raw.subscriptions.entries, entry.2.pending = none

section

variable {early late : Stack ω} {handle : Handle} {connection : Connection} {now : Tick}
  {direction : Direction} {plan : Plan}

/-- Two such stacks that have taken no frame differ in their interfaces at most. -/
theorem Stack.Abreast.agrees (abreast : early.Abreast late) {before : Stack ω}
    (level : before.Level early late) : early.Agrees late where
  settings := abreast.settings
  connections := abreast.connections
  memory := abreast.memory
  confirmations := level.still.trans level.quiet.symm
  raw := abreast.raw
  outside := abreast.outside
  pending := level.pending

/-- No flow but this one awaits the confirmation of a frame, and no raw subscription does. -/
structure Stack.Sole (stack : Stack ω) (handle : Handle) (direction : Direction) : Prop where
  flows : ∀ other connection, stack.connections.get? other = some connection →
    ∀ flow, (connection.flow flow).unconfirmed = true → other = handle ∧ flow = direction
  raw : ∀ entry ∈ stack.raw.subscriptions.entries, entry.2.pending = none

theorem Connection.flow_setFlow_of_ne {connection : Connection} {flow : Flow}
    {direction other : Direction} (apart : other ≠ direction) :
    (connection.setFlow flow direction).flow other = connection.flow other := by
  cases direction <;> cases other <;> first | rfl | exact absurd rfl apart

theorem Stack.Sole.acts {stack after : Stack ω} (sole : stack.Sole handle direction)
    (acts : stack.Acts now handle connection direction plan after) :
    after.Sole handle direction := by
  obtain ⟨_, _, carried⟩ := acts.carries_out
  obtain ⟨others, flow, here⟩ := carried.get? acts.live
  have raw : after.raw = stack.raw := by
    obtain ⟨_, _, _, _, rfl⟩ := acts
    rfl
  refine ⟨fun other found there way unconfirmed => ?_, raw ▸ sole.raw⟩
  by_cases own : other = handle
  · subst own
    rw [here] at there
    cases there
    by_cases same : way = direction
    · exact ⟨rfl, same⟩
    · rw [Connection.flow_setFlow_of_ne same] at unconfirmed
      exact sole.flows other connection acts.live way unconfirmed
  · rw [others other own] at there
    exact sole.flows other found there way unconfirmed

/-- Of the connections that a report may be for, the only one that awaits any is found. -/
theorem Stack.Sole.findConnection?_eq {stack : Stack ω} (sole : stack.Sole handle direction)
    (sound : stack.Sound) {index : InterfaceIndex} {frame : Frame}
    (contends : handle ∈ stack.contenders (frame.kind index)) :
    stack.findConnection? (fun connection =>
      (connection.flow (Stack.confirmedDirection frame)).unconfirmed &&
        connection.transmits index frame.id) = some handle := by
  cases first : stack.findConnection? (fun connection =>
    (connection.flow (Stack.confirmedDirection frame)).unconfirmed &&
      connection.transmits index frame.id) with
  | none =>
    rw [Stack.findConnection?, Option.map_eq_none_iff, List.find?_eq_none] at first
    obtain ⟨entry, member, _⟩ := List.mem_map.mp contends
    obtain ⟨member, test⟩ := List.mem_filter.mp member
    exact absurd test (first entry member)
  | some other =>
    obtain ⟨found, there, waits, _⟩ :=
      (Stack.mem_contenders_iff sound).mp (Stack.findConnection?_contends first)
    rw [(sole.flows other found there _ waits).1]

/-- A report of the frame that was taken reaches the flow that awaits it. -/
theorem Stack.Apace.sent {before : Stack ω} {handover : Handover}
    (apace : before.Apace early late handle direction handover) (sound : late.Sound)
    (sole : late.Sole handle direction) (now : Tick) :
    late.sent now handover.index handover.frame =
      ((Step.confirm now handle direction).run late).settle now := by
  obtain ⟨connection, address, live, unconfirmed, bound, kind⟩ := apace.awaits
  have way : Stack.confirmedDirection handover.frame = direction :=
    congrArg FrameKind.direction kind
  have untaken : late.raw.awaiting? handover.index handover.frame = none := by
    unfold Raw.awaiting?
    refine List.find?_eq_none.mpr fun entry member => ?_
    simp [sole.raw entry member]
  have contends : handle ∈ late.contenders handover.kind := by
    refine (Stack.mem_contenders_iff sound).mpr ⟨connection, live, ?_, ?_⟩
    · rw [show handover.kind.direction = direction from way]
      exact unconfirmed
    · rw [Address.transmits_kind bound, kind]
      rfl
  have found := sole.findConnection?_eq sound contends
  have passes : late.raw.sent handover.index handover.frame late.outside =
      (false, late.raw, late.outside) := by
    unfold Raw.sent
    rw [untaken]
  have reaches : late.sentTransport now handover.index handover.frame =
      (Step.confirm now handle direction).run late := by
    simp only [Stack.sentTransport, found]
    rw [way]
    rfl
  unfold Stack.sent
  rw [passes]
  exact congrArg (Stack.settle · now) reaches

/-- What a connection does upon a confirmation does not depend on the interfaces. -/
theorem Connection.confirmed_registry (connection : Connection) (scope : Scope ω)
    (registry : Registry ω) (direction : Direction) :
    connection.confirmed { scope with registry } direction =
      connection.confirmed scope direction := by
  cases direction <;> rfl

theorem Stack.Abreast.scope (abreast : early.Abreast late) (now : Tick) (handle : Handle) :
    late.scope now handle = { early.scope now handle with registry := late.registry } := by
  simp only [Stack.scope, abreast.settings]

/-- A frame that was taken is reported, and so are all that follow; at the end the stacks agree. The
induction is on the confirmations that may follow. -/
theorem Stack.Apace.reports {before : Stack ω} {handover : Handover} {fuel : Nat}
    (apace : before.Apace early late handle direction handover) (abreast : early.Abreast late)
    (kept : early.Kept) (kept' : late.Kept) (sole : late.Sole handle direction)
    (enough : early.unsettled ≤ fuel) :
    ∃ final, Stack.Reports now [handover] late final ∧
      (Stack.settleWithin now fuel early).Agrees final := by
  induction fuel generalizing before early late handover with
  | zero =>
    have fewer := kept.sound.settle_lt now (by rw [apace.noted]; simp)
    omega
  | succ fuel ih =>
    have fewer := kept.sound.settle_lt now (by rw [apace.noted]; simp)
    obtain ⟨connection, _, live', unconfirmed, _⟩ := apace.awaits
    have live : early.connections.get? handle = some connection := by
      rw [← abreast.connections]
      exact live'
    have plans : early.Plans handle connection (.settle now) now direction
        (connection.confirmed (early.scope now handle) direction) := .settle now apace.noted
    have plans' : late.Plans handle connection (.confirm now handle direction) now direction
        (connection.confirmed (early.scope now handle) direction) := by
      have same := connection.confirmed_registry (early.scope now handle) late.registry direction
      rw [← same, ← abreast.scope]
      exact .confirm now direction
    have timely : (Step.settle now).Timely early := trivial
    have timely' : (Step.confirm now handle direction).Timely late := apace.still
    obtain ⟨abreast', outcome⟩ := abreast.act kept kept' timely timely' live plans plans'
      apace.elsewhere fun news stays => by
        have settled := (kept.sound.confirmed_stay live stays).1
        rw [unconfirmed] at settled
        cases settled
    have sole' := sole.acts (kept'.sound.acts_of_plans timely' live' plans')
    have reported : late.sent now handover.index handover.frame =
        (Step.confirm now handle direction).run late := by
      rw [apace.sent kept'.sound sole]
      refine Stack.settle_quiet ?_ now
      rcases outcome with level | ⟨_, apace'⟩
      · exact level.still
      · exact apace'.still
    have onward : Stack.settleWithin now (fuel + 1) early =
        Stack.settleWithin now fuel ((Step.settle now).run early) := by
      simp only [Stack.settleWithin, Step.run, apace.noted]
    rw [onward]
    rcases outcome with level | ⟨next, apace'⟩
    · rw [Stack.settleWithin_quiet level.quiet]
      refine ⟨_, .report ?_, abreast'.agrees level⟩
      rw [reported, level.taken]
      exact .done _
    · obtain ⟨final, reports, agrees⟩ := ih apace' abreast' (kept.step _ timely)
        (kept'.step _ timely') sole' (by omega)
      refine ⟨final, .report ?_, agrees⟩
      rw [reported, apace'.taken]
      exact reports

/-- There is one way to report frames in order. -/
theorem Stack.Reports.unique {frames : List Handover} {stack after other : Stack ω}
    (reports : Stack.Reports now frames stack after)
    (again : Stack.Reports now frames stack other) : other = after := by
  induction reports with
  | done stack =>
    cases again
    rfl
  | report _ ih =>
    cases again with
    | report onward => exact ih onward

/-- What the one stack came to since then, the other one comes to once every frame that was taken is
reported. -/
structure Stack.Concurs (now : Tick) (before early late : Stack ω) : Prop where
  told : ∃ news, late.outside.signals = before.outside.signals ++ news
  reported : ∃ final, Stack.Reports now (late.takenSince before) late final ∧ early.Agrees final ∧
    ∀ other, Stack.Reports now (late.takenSince before) late other → other = final

theorem Stack.Agrees.concurs (agrees : early.Agrees late) {before : Stack ω} {news : List Signal}
    (told : late.outside.signals = before.outside.signals ++ news)
    (mute : news.filterMap Signal.handover? = []) : Stack.Concurs now before early late := by
  have untaken : late.takenSince before = [] := by
    rw [Stack.takenSince, told, List.drop_left, mute]
  refine ⟨⟨news, told⟩, late, ?_⟩
  rw [untaken]
  exact ⟨.done late, agrees, fun other reports => (Stack.Reports.done late).unique reports⟩

end

/-- What a connection does upon a unit does not depend on the interfaces. -/
theorem Connection.received_registry (connection : Connection) (scope : Scope ω)
    (registry : Registry ω) (memory : Memory) (pdu : Pdu) :
    connection.received { scope with registry } memory pdu =
      connection.received scope memory pdu := by
  cases pdu <;> rfl

def Scope.reporting (later : Bool) (scope : Scope ω) : Scope ω :=
  { scope with registry := scope.registry.reporting later }

section

variable {x : Exchange ω} {scope : Scope ω} {message : List UInt8} (later : Bool)

theorem Exchange.accept_reporting :
    x.accept (scope.reporting later) message = x.accept scope message := by
  unfold Exchange.accept
  simp only [Scope.reporting, Registry.contains_reporting, Registry.isFlexible_reporting]
  rfl

theorem Exchange.submitted_reporting :
    x.submitted (scope.reporting later) message = x.submitted scope message := by
  unfold Exchange.submitted
  rw [Exchange.accept_reporting]
  rfl

/-- Whether a frame is handed over depends on the interface alone. -/
theorem Exchange.handOver_fst (x : Exchange ω) (scope : Scope ω) (direction : Direction)
    (index : InterfaceIndex) (frame : Frame) (flow : Flow) :
    (x.handOver scope direction index frame flow).1 =
      (scope.registry.hand (.flow scope.handle direction) index frame x.outside).1.map
        fun _ => () := by
  have same : (x.setFlow flow direction).outside = x.outside := rfl
  simp only [Exchange.handOver, same]
  rcases scope.registry.hand (.flow scope.handle direction) index frame x.outside with
    ⟨fault | confirmed, outside⟩ <;> rfl

theorem Exchange.transmit_reporting (x : Exchange ω) :
    (x.transmit (scope.reporting later) .output).1 = (x.transmit scope .output).1 := by
  cases bound : x.connection.address with
  | none => simp only [Exchange.transmit, bound]
  | some address =>
    rw [Exchange.transmit_output bound, Exchange.transmit_output bound]
    have same : (scope.reporting later).settings = scope.settings := rfl
    simp only [same]
    cases (address.encoder scope.settings).nextFrame? x.connection.output with
    | none => rfl
    | some found =>
      obtain ⟨frame, flow⟩ := found
      simp only [Exchange.handOver_fst, Scope.reporting, Registry.hand_reporting]
      cases (scope.registry.hand (.flow scope.handle .output) address.interface frame
        x.outside).1 <;> rfl

theorem Exchange.send_fst (x : Exchange ω) (scope : Scope ω) (message : List UInt8) :
    (x.send scope message).1 =
      match x.accept scope message with
      | .error fault => .error fault
      | .ok address =>
        match x.memory.allocate message.length with
        | none => .error .memory
        | some (buffer, memory) =>
          ((Exchange.setFlow { x with memory }
            (outputFlow scope address (buffer.write 0 message).2) .output).transmit
              scope .output).1 := by
  unfold Exchange.send
  cases x.accept scope message with
  | error fault => rfl
  | ok address =>
    cases x.memory.allocate message.length with
    | none => rfl
    | some granted =>
      obtain ⟨buffer, memory⟩ := granted
      simp only []
      generalize Exchange.transmit _ scope .output = answer
      rcases answer with ⟨_ | _, _⟩ <;> rfl

/-- So does what the caller is told who sends a message. -/
theorem Exchange.send_reporting :
    (x.send (scope.reporting later) message).1 = (x.send scope message).1 := by
  rw [Exchange.send_fst, Exchange.send_fst, Exchange.accept_reporting]
  simp only [Exchange.transmit_reporting]
  rfl

end

/-- What a call comes to over interfaces that confirm at once, it comes to over the same interfaces
if they confirm later and every frame is then reported. -/
def Stack.Indifferent (stack : Stack ω) (now : Tick) (call : Stack ω → Stack ω) : Prop :=
  Stack.Concurs now (stack.reporting true) (call (stack.reporting false))
    (call (stack.reporting true))

section

variable {stack next : Stack ω} {now : Tick} {call : Stack ω → Stack ω}

/-- A call in which no frame is handed over, whatever the interfaces. -/
theorem Stack.indifferent_of_mute {news : List Signal}
    (same : ∀ later, call (stack.reporting later) = next.reporting later)
    (told : next.outside.signals = stack.outside.signals ++ news)
    (mute : news.filterMap Signal.handover? = []) : stack.Indifferent now call := by
  have agrees : (next.reporting false).Agrees (next.reporting true) :=
    ⟨rfl, rfl, rfl, rfl, rfl, rfl, rfl⟩
  unfold Stack.Indifferent
  rw [same, same]
  exact agrees.concurs told mute

/-- What is told before the first frame is handed over makes no difference. -/
theorem Stack.Indifferent.of_told {onward : Stack ω → Stack ω} {news : List Signal}
    (indifferent : next.Indifferent now onward)
    (same : ∀ later, call (stack.reporting later) = onward (next.reporting later))
    (told : next.outside.signals = stack.outside.signals ++ news)
    (mute : news.filterMap Signal.handover? = []) : stack.Indifferent now call := by
  obtain ⟨⟨more, behind⟩, reported⟩ := indifferent
  unfold Stack.Indifferent
  rw [same, same]
  have whole : (onward (next.reporting true)).outside.signals =
      (stack.reporting true).outside.signals ++ (news ++ more) := by
    rw [behind, ← List.append_assoc]
    exact congrArg (· ++ more) told
  have taken : (onward (next.reporting true)).takenSince (stack.reporting true) =
      (onward (next.reporting true)).takenSince (next.reporting true) := by
    unfold Stack.takenSince
    rw [whole, List.drop_left, ← whole, behind, List.drop_left, List.filterMap_append, mute]
    rfl
  rw [← taken] at reported
  exact ⟨⟨_, whole⟩, reported⟩

theorem Stack.Unawaiting.sole (unawaiting : stack.Unawaiting) (handle : Handle)
    (direction : Direction) (later : Bool) : (stack.reporting later).Sole handle direction := by
  refine ⟨fun other found there flow unconfirmed => ?_, unawaiting.raw⟩
  rw [unawaiting.flows other found there flow] at unconfirmed
  cases unconfirmed

theorem Stack.Kept.reporting (kept : stack.Kept) (quiet : stack.confirmations = [])
    (later : Bool) : (stack.reporting later).Kept :=
  kept.step (.register (stack.registry.reporting later)) quiet

/-- A step that has a connection carry out a plan that does not depend on the interfaces. -/
theorem Stack.Kept.indifferent {handle : Handle} {connection : Connection} {step : Step ω}
    {direction : Direction} {plan : Plan} (kept : stack.Kept) (quiet : stack.confirmations = [])
    (unawaiting : stack.Unawaiting) (live : stack.connections.get? handle = some connection)
    (timely : ∀ later, step.Timely (stack.reporting later))
    (plans : ∀ later,
      (stack.reporting later).Plans handle connection step now direction plan) :
    stack.Indifferent now fun stack => (step.run stack).settle now := by
  have early := kept.reporting quiet false
  have late := kept.reporting quiet true
  have abreast : (stack.reporting false).Abreast (stack.reporting true) :=
    ⟨⟨stack.registry, rfl, rfl⟩, rfl, rfl, rfl, rfl, rfl, rfl⟩
  obtain ⟨abreast', outcome⟩ := abreast.act early late (timely false) (timely true) live
    (plans false) (plans true) rfl fun _ _ => rfl
  have acts := late.sound.acts_of_plans (timely true) live (plans true)
  obtain ⟨news, told, _⟩ := acts.carries_out
  simp only [Stack.Indifferent]
  rcases outcome with level | ⟨handover, apace⟩
  · rw [Stack.settle_quiet level.quiet, Stack.settle_quiet level.still]
    refine (abreast'.agrees level).concurs told ?_
    rw [← level.taken, Stack.takenSince, told, List.drop_left]
  · rw [Stack.settle_quiet apace.still]
    have after := early.step step (timely false)
    obtain ⟨final, reports, agrees⟩ := apace.reports abreast' after (late.step step (timely true))
      ((unawaiting.sole handle direction true).acts acts) after.sound.unsettled_le
    refine ⟨⟨news, told⟩, final, ?_⟩
    rw [apace.taken]
    exact ⟨reports, agrees, fun other again => reports.unique again⟩

theorem Stack.Kept.indifferent_send (kept : stack.Kept) (quiet : stack.confirmations = [])
    (unawaiting : stack.Unawaiting) (handle : Handle) (message : List UInt8) :
    ((stack.reporting false).send now handle message).1 =
        ((stack.reporting true).send now handle message).1 ∧
      stack.Indifferent now fun stack => (stack.send now handle message).2 := by
  cases live : stack.connections.get? handle with
  | none =>
    have unchanged (later : Bool) : (stack.reporting later).send now handle message =
        (.error .argument, stack.reporting later) := by
      have dead : (stack.reporting later).connections.get? handle = none := live
      have settled := (stack.reporting later).settle_quiet quiet now
      simp only [Stack.send, dead, settled]
    refine ⟨by rw [unchanged, unchanged], ?_⟩
    exact Stack.indifferent_of_mute (fun later => by rw [unchanged]) (List.append_nil _).symm rfl
  | some connection =>
    have answer (later : Bool) : ((stack.reporting later).send now handle message).1 =
        ((stack.exchange connection).send (stack.scope now handle) message).1 := by
      have live' : (stack.reporting later).connections.get? handle = some connection := live
      rw [← Exchange.send_reporting later]
      simp only [Stack.send, live']
      rfl
    have plans (later : Bool) : (stack.reporting later).Plans handle connection
        (.submit now handle message) now .output
          ((stack.exchange connection).submitted (stack.scope now handle) message) := by
      rw [← Exchange.submitted_reporting later]
      exact .submit now message
    refine ⟨by rw [answer, answer], ?_⟩
    simp only [Stack.send_eq]
    exact kept.indifferent quiet unawaiting live (fun _ => quiet) plans

/-- A frame that no raw subscription consumes. -/
theorem Stack.Kept.indifferent_arriving (kept : stack.Kept) (quiet : stack.confirmations = [])
    (unawaiting : stack.Unawaiting) (index : InterfaceIndex) (frame : Frame) :
    stack.Indifferent now fun stack => (stack.inputTransport now index frame).settle now := by
  have unchanged (same : ∀ later, (stack.reporting later).inputTransport now index frame =
      stack.reporting later) :
      stack.Indifferent now fun stack => (stack.inputTransport now index frame).settle now := by
    refine Stack.indifferent_of_mute (fun later => ?_) (List.append_nil _).symm rfl
    rw [same]
    exact (stack.reporting later).settle_quiet quiet now
  cases found : stack.findConnection? (·.receives index frame.id) with
  | none =>
    refine unchanged fun later => ?_
    have nobody : (stack.reporting later).findConnection? (·.receives index frame.id) = none :=
      found
    simp only [Stack.inputTransport, nobody]
  | some handle =>
    cases decoded : Pdu.decode frame.payload with
    | none =>
      refine unchanged fun later => ?_
      simp only [Stack.inputTransport, decoded]
      split <;> rfl
    | some pdu =>
      obtain ⟨⟨name, connection⟩, here, rfl⟩ := Option.map_eq_some_iff.mp found
      have live : stack.connections.get? name = some connection :=
        (Slots.mem_entries_iff kept.sound.slots).mp (List.mem_of_find?_eq_some here)
      have arrives (later : Bool) : (stack.reporting later).inputTransport now index frame =
          (Step.arrive now name pdu).run (stack.reporting later) := by
        have somebody : (stack.reporting later).findConnection? (·.receives index frame.id) =
            some name := found
        simp only [Stack.inputTransport, somebody, decoded]
        rfl
      have plans (later : Bool) : (stack.reporting later).Plans name connection
          (.arrive now name pdu) now pdu.direction
            (connection.received (stack.scope now name) stack.memory pdu) := by
        rw [← connection.received_registry _ (stack.registry.reporting later)]
        exact .arrive now pdu
      simp only [Stack.Indifferent, arrives]
      exact kept.indifferent quiet unawaiting live (fun _ => quiet) plans

/-- Whoever consumes it, subscriptions are told what the order says. -/
theorem Raw.input_outside (raw : Raw ω) (index : InterfaceIndex) (frame : Frame)
    (outside : Outside ω) :
    (raw.input index frame outside).2.2 = (raw.offer index frame raw.order outside).2 := by
  unfold Raw.input
  rcases raw.offer index frame raw.order outside with ⟨_ | handle, after⟩ <;> rfl

theorem Stack.Kept.indifferent_input (kept : stack.Kept) (quiet : stack.confirmations = [])
    (unawaiting : stack.Unawaiting) (index : InterfaceIndex) (frame : Frame) :
    stack.Indifferent now fun stack => stack.input now index frame := by
  obtain ⟨news, told, offers⟩ := stack.raw.offer_offers index frame stack.raw.order stack.outside
  have mute : news.filterMap Signal.handover? = [] := by
    refine List.filterMap_eq_nil_iff.mpr fun signal member => ?_
    obtain ⟨_, _, _, rfl⟩ := offers signal member
    rfl
  rw [← Raw.input_outside] at told
  cases taken : (stack.raw.input index frame stack.outside).1 with
  | true =>
    have consumed (later : Bool) : (stack.reporting later).input now index frame =
        ((Step.offer index frame).run stack).reporting later := by
      simp only [Stack.input, Step.run, Stack.reporting]
      rcases answer : stack.raw.input index frame stack.outside with ⟨consumed, raw, outside⟩
      rw [answer] at taken
      cases taken
      rfl
    exact Stack.indifferent_of_mute consumed told mute
  | false =>
    have unchanged := (stack.input_declined taken now).1
    have unawaiting' : ((Step.offer index frame).run stack).Unawaiting := by
      rw [unchanged]
      exact ⟨unawaiting.flows, unawaiting.raw⟩
    have arriving : ((Step.offer index frame).run stack).Indifferent now _ :=
      (kept.step (.offer index frame) quiet).indifferent_arriving quiet unawaiting' index frame
    exact arriving.of_told (fun later => ((stack.reporting later).input_declined taken now).2) told
      mute

end

/-- While nothing awaits a confirmation, it makes no difference whether interfaces confirm the
frames of a call as they take them, or later, as long as they then report every frame in order. -/
theorem confirming_is_reporting_at_once {settings : Settings} {world : ω} {start : Stack ω}
    (run : Stack.new settings world = .ok start) (calls : List (Call ω))
    (unawaiting : (start.calls calls).Unawaiting) (now : Tick) :
    (∀ handle message,
      (((start.calls calls).reporting false).send now handle message).1 =
          (((start.calls calls).reporting true).send now handle message).1 ∧
        (start.calls calls).Indifferent now fun stack => (stack.send now handle message).2) ∧
      ∀ index frame,
        (start.calls calls).Indifferent now fun stack => stack.input now index frame := by
  have overseen := (Stack.new_smooth run calls).orderly.induct
    (fun past stack => stack.Overseen past) (Stack.new_watched run).2.overseen
    fun past moment _ sound timely overseen => Stack.Overseen.step overseen sound timely
  rw [← Stack.calls_eq] at overseen
  obtain ⟨sound, quiet⟩ := Stack.calls_sound run calls
  have kept : (start.calls calls).Kept := ⟨sound, _, overseen⟩
  exact ⟨kept.indifferent_send quiet unawaiting, kept.indifferent_input quiet unawaiting⟩

/-- A message of four frames is sent, and its first frame is confirmed. -/
def sampleBurst : List (Call Unit) :=
  sampleCalls ++ [.send 5 sampleHandle (List.replicate 27 0xAA)]

def sampleClearance : Frame :=
  .classic (.standard 0x7E8) 3 #v[0x30, 0, 0, 0xCC, 0xCC, 0xCC, 0xCC, 0xCC]

/-- The peer asks for the other three frames: the interface that confirms at once takes them all in
that call, the other one takes the first and each of the next when the one before is reported. -/
theorem sample_confirming_is_reporting_at_once :
    let stack (later : Bool) := (sampleStack.calls sampleBurst).reporting later
    Stack.new {} () = .ok sampleStack ∧ (sampleStack.calls sampleBurst).Unawaiting ∧
      (sampleStack.calls sampleBurst).Indifferent 6 (·.input 6 ⟨0⟩ sampleClearance) ∧
      (((stack false).input 6 ⟨0⟩ sampleClearance).takenSince (stack false)).length = 3 ∧
      (((stack true).input 6 ⟨0⟩ sampleClearance).takenSince (stack true)).length = 1 ∧
      .sent (.application 1) sampleHandle 27 ∈
        ((stack false).input 6 ⟨0⟩ sampleClearance).outside.signals := by
  have made : Stack.new {} () = .ok sampleStack := rfl
  have flows : ∀ entry ∈ (sampleStack.calls sampleBurst).connections.entries,
      entry.2.output.unconfirmed = false ∧ entry.2.input.unconfirmed = false := by
    decide +kernel
  have unawaiting : (sampleStack.calls sampleBurst).Unawaiting := by
    refine ⟨fun handle connection live direction => ?_, by decide +kernel⟩
    have sound := (Stack.calls_sound made sampleBurst).1
    obtain ⟨output, input⟩ := flows _ ((Slots.mem_entries_iff sound.slots).mpr live)
    cases direction
    · exact output
    · exact input
  obtain ⟨_, indifferent⟩ := confirming_is_reporting_at_once made sampleBurst unawaiting 6
  exact ⟨made, unawaiting, indifferent ⟨0⟩ sampleClearance, by decide +kernel, by decide +kernel,
    by decide +kernel⟩

end DiagBus
