import DiagBus.Proofs.ClockShift
import DiagBus.Proofs.Office

namespace DiagBus

variable {ω : Type}

/-- The same call at a time later by `offset`. -/
def Call.shift (offset : Tick) : Call ω → Call ω
  | .send now handle message => .send (now + offset) handle message
  | .input now index frame => .input (now + offset) index frame
  | .sent now index frame => .sent (now + offset) index frame
  | .checkAlarms now => .checkAlarms (now + offset)
  | .process now => .process (now + offset)
  | call => call

def Deed.shift (offset : Tick) : Deed ω → Deed ω
  | .call made => .call (made.shift offset)
  | .request now made => .request (now + offset) made
  | .requestBytes now message => .requestBytes (now + offset) message
  | .startSession now address session => .startSession (now + offset) address session
  | deed => deed

def DeskStep.shift (offset : Tick) : DeskStep ω → DeskStep ω
  | .deed done => .deed (done.shift offset)
  | .deliver => .deliver
  | .take now => .take (now + offset)
  | .expire now => .expire (now + offset)

def DeskCall.shift (offset : Tick) : DeskCall ω → DeskCall ω
  | .deed done => .deed (done.shift offset)
  | .process now => .process (now + offset)

section

variable (offset : Tick) (stack : Stack ω)

theorem Stack.addInterface_shift (interface : Interface ω) :
    (stack.shift offset).addInterface interface =
      (stack.addInterface interface).map fun (index, after) => (index, after.shift offset) := by
  unfold Stack.addInterface
  rw [Stack.shift_registry]
  cases stack.registry.add interface <;> rfl

theorem Stack.removeInterface_shift (index : InterfaceIndex) :
    (stack.shift offset).removeInterface index =
      (stack.removeInterface index).map (·.shift offset) := by
  unfold Stack.removeInterface
  rw [Stack.shift_registry]
  cases stack.registry.remove index <;> rfl

theorem Stack.subscribe_shift (index : InterfaceIndex) :
    (stack.shift offset).subscribe index =
      (stack.subscribe index).map fun (handle, after) => (handle, after.shift offset) := by
  unfold Stack.subscribe
  rw [Stack.shift_raw]
  cases stack.raw.open index <;> rfl

theorem Stack.updateSubscription_shift (handle : Handle)
    (change : Subscription ω → Subscription ω) :
    (stack.shift offset).updateSubscription handle change =
      (stack.updateSubscription handle change).map (·.shift offset) := by
  unfold Stack.updateSubscription
  rw [Stack.shift_raw]
  cases stack.raw.update handle change <;> rfl

theorem Stack.rebind_shift (handle : Handle) (index : InterfaceIndex) :
    (stack.shift offset).rebind handle index =
      (stack.rebind handle index).map (·.shift offset) := by
  unfold Stack.rebind
  rw [Stack.shift_raw]
  cases stack.raw.bind handle index <;> rfl

theorem Stack.unsubscribe_shift (handle : Handle) :
    (stack.shift offset).unsubscribe handle =
      (stack.unsubscribe handle).map (·.shift offset) := by
  unfold Stack.unsubscribe
  rw [Stack.shift_raw]
  cases stack.raw.close handle <;> rfl

@[simp]
theorem Stack.orStay_shift (outcome : Except Fault (Stack ω)) :
    (stack.shift offset).orStay (outcome.map (·.shift offset)) =
      (stack.orStay outcome).shift offset := by
  cases outcome <;> rfl

@[simp]
theorem Reply.ofOutcome_shift (outcome : Except Fault (Stack ω)) :
    Reply.ofOutcome (outcome.map (·.shift offset)) = .ofOutcome outcome := by
  cases outcome <;> rfl

/-- A later call returns the same, and leaves the same stack with later alarms. -/
theorem Call.shift_eq (call : Call ω) :
    (call.shift offset).reply (stack.shift offset) = call.reply stack ∧
      (call.shift offset).run (stack.shift offset) = (call.run stack).shift offset := by
  cases call with
  | addInterface interface =>
    simp only [shift, reply, run, Stack.addInterface_shift]
    cases stack.addInterface interface <;> exact ⟨rfl, rfl⟩
  | removeInterface index =>
    simp [shift, reply, run, Stack.removeInterface_shift]
  | subscribe index =>
    simp only [shift, reply, run, Stack.subscribe_shift]
    cases stack.subscribe index <;> exact ⟨rfl, rfl⟩
  | updateSubscription handle change =>
    simp [shift, reply, run, Stack.updateSubscription_shift]
  | rebind handle index => simp [shift, reply, run, Stack.rebind_shift]
  | unsubscribe handle => simp [shift, reply, run, Stack.unsubscribe_shift]
  | openConnection =>
    simp only [shift, reply, run, Stack.openConnection_shift]
    cases stack.openConnection <;> exact ⟨rfl, rfl⟩
  | bind handle address => simp [shift, reply, run, Stack.bind_shift]
  | listen handle onReceived onSent onFailed =>
    simp [shift, reply, run, Stack.updateConnection_shift]
  | close handle => simp [shift, reply, run, Stack.close_shift]
  | send now handle message => simp [shift, reply, run, Stack.send_shift]
  | input now index frame => exact ⟨rfl, stack.input_shift offset now index frame⟩
  | sent now index frame => exact ⟨rfl, stack.sent_shift offset now index frame⟩
  | checkAlarms now => exact ⟨rfl, stack.checkAlarms_shift offset now⟩
  | process now => exact ⟨rfl, stack.process_shift offset now⟩
  | _ => exact ⟨rfl, rfl⟩

end

/-- The same client, all of its timers later by `offset`. -/
def Client.shift (offset : Tick) (client : Client) : Client :=
  { client with timers := client.timers.shift offset }

namespace Client

variable (offset now : Tick) (client : Client) (stack : Stack ω)

/-- What a call to a client returns and leaves, all timers later by `offset`. -/
def shiftResult (offset : Tick) (result : Except Fault Unit × Client × Stack ω) :
    Except Fault Unit × Client × Stack ω :=
  (result.1, result.2.1.shift offset, result.2.2.shift offset)

@[simp]
theorem shift_connection : (client.shift offset).connection = client.connection := rfl

@[simp]
theorem shift_settings : (client.shift offset).settings = client.settings := rfl

@[simp]
theorem shift_mailbox : (client.shift offset).mailbox = client.mailbox := rfl

@[simp]
theorem shift_events : (client.shift offset).events = client.events := rfl

@[simp]
theorem shift_state : (client.shift offset).state = client.state := rfl

@[simp]
theorem shift_session : (client.shift offset).session = client.session := rfl

@[simp]
theorem shift_level : (client.shift offset).level = client.level := rfl

@[simp]
theorem shift_answer : (client.shift offset).answer = client.answer := rfl

@[simp]
theorem shift_delayedAnswer : (client.shift offset).delayedAnswer = client.delayedAnswer := rfl

@[simp]
theorem shift_timers : (client.shift offset).timers = client.timers.shift offset := rfl

@[simp]
theorem mk_shift (connection : Handle) (settings : ClientSettings) (mailbox : List Delivery)
    (events : List ClientEvent) (timers : TimerQueue ClientTimer) (state : RequestState)
    (session level : UInt8) (answer delayedAnswer : Tick) :
    Client.mk connection settings mailbox events (timers.shift offset) state session level answer
        delayedAnswer =
      (Client.mk connection settings mailbox events timers state session level answer
        delayedAnswer).shift offset := rfl

theorem shift_ite (test : Prop) [Decidable test] (first second : Client) :
    (if test then first else second).shift offset =
      if test then first.shift offset else second.shift offset :=
  apply_ite _ _ _ _

theorem attach_shift (settings : ClientSettings) (listener : Listener) :
    attach settings listener (stack.shift offset) =
      (attach settings listener stack).map fun (client, stack) =>
        (client.shift offset, stack.shift offset) := by
  unfold attach
  rw [Stack.openConnection_shift]
  cases stack.openConnection with
  | none => rfl
  | some opened =>
    simp only [Option.map_some, Stack.updateConnection_shift]
    cases opened.2.updateConnection opened.1 _ with
    | error fault => rfl
    | ok stack =>
      simp [Except.map, shift, TimerQueue.ofCapacity_shift, pure, Except.pure, bind, Except.bind]

@[simp]
theorem arm_shift (delay : Tick) (timer : ClientTimer) :
    (client.shift offset).arm (now + offset) delay timer =
      (client.arm now delay timer).shift offset := by
  unfold arm
  simp only [shift_timers, TimerQueue.cancel_shift, TimerQueue.schedule_shift]
  cases (client.timers.cancel timer).schedule now delay timer <;> rfl

@[simp]
theorem cancel_shift (timer : ClientTimer) :
    (client.shift offset).cancel timer = (client.cancel timer).shift offset := by
  simp [cancel, TimerQueue.cancel_shift]

@[simp]
theorem finish_shift : (client.shift offset).finish = client.finish.shift offset := by
  simp [finish]

@[simp]
theorem push_shift (event : ClientEvent) :
    (client.shift offset).push event = (client.push event).shift offset := by
  simp [push, capacity, shift_ite]

theorem deliver_shift (delivery : Delivery) :
    (client.shift offset).deliver delivery = (client.deliver delivery).shift offset := by
  simp [deliver, capacity, shift_ite]

theorem nextEvent_shift : (client.shift offset).nextEvent =
    (client.nextEvent.1, client.nextEvent.2.shift offset) := by
  unfold nextEvent
  cases events : client.events <;> simp [events]

@[simp]
theorem changeSession_shift (record : List UInt8) :
    (client.shift offset).changeSession (now + offset) record =
      (client.changeSession now record).shift offset := by
  rcases record with _ | ⟨session, _ | ⟨high, _ | ⟨low, _ | ⟨delayedHigh, _ | ⟨delayedLow, _⟩⟩⟩⟩⟩ <;>
    simp [changeSession, shift_ite]

theorem rejected_shift (service code : UInt8) :
    (client.shift offset).rejected (now + offset) service code =
      (client.rejected now service code).shift offset := by
  unfold rejected
  cases ResponseCode.ofByte code <;> simp

theorem granted_shift (service : UInt8) (record : List UInt8) :
    (client.shift offset).granted (now + offset) service record =
      (client.granted now service record).shift offset := by
  unfold granted
  by_cases session : service = Service.sessionControl.toByte <;> simp [session]

theorem hear_shift (message : List UInt8) :
    (client.shift offset).hear (now + offset) message = (client.hear now message).shift offset := by
  unfold hear
  cases asked : client.state.service? with
  | none => simp [asked]
  | some service =>
    cases rejected : rejection? service message with
    | some code => simp [asked, rejected, rejected_shift]
    | none =>
      cases granted : grant? service message <;> simp [asked, rejected, granted, granted_shift]

theorem take_shift (delivery : Delivery) :
    (client.shift offset).take (now + offset) delivery =
      (client.take now delivery).shift offset := by
  cases delivery <;> simp [take, hear_shift]

theorem openMailbox_shift :
    (client.shift offset).openMailbox (now + offset) = (client.openMailbox now).shift offset := by
  unfold openMailbox
  have all (deliveries : List Delivery) (client : Client) :
      deliveries.foldl (·.take (now + offset) ·) (client.shift offset) =
        (deliveries.foldl (·.take now ·) client).shift offset := by
    induction deliveries generalizing client with
    | nil => rfl
    | cons delivery rest ih => rw [List.foldl_cons, List.foldl_cons, take_shift, ih]
  exact all client.mailbox { client with mailbox := [] }

theorem send_shift (message : List UInt8) (expectsAnswer : Bool) :
    (client.shift offset).send (now + offset) message expectsAnswer (stack.shift offset) =
      shiftResult offset (client.send now message expectsAnswer stack) := by
  unfold send shiftResult
  rw [shift_connection, Stack.send_shift]
  rcases stack.send now client.connection message with ⟨fault | _, after⟩
  · rfl
  · cases message <;> cases expectsAnswer <;> simp [shift_ite]

theorem request_shift (made : Request) :
    (client.shift offset).request (now + offset) made (stack.shift offset) =
      shiftResult offset (client.request now made stack) := by
  unfold request
  by_cases busy : client.isBusy = true
  · rw [if_pos busy, if_pos (by exact busy)]
    rfl
  · rw [if_neg busy, if_neg (by exact busy)]
    exact client.send_shift offset now stack _ _

theorem requestBytes_shift (message : List UInt8) :
    (client.shift offset).requestBytes (now + offset) message (stack.shift offset) =
      shiftResult offset (client.requestBytes now message stack) := by
  unfold requestBytes
  by_cases empty : message.isEmpty = true
  · rw [if_pos empty, if_pos empty]
    rfl
  · by_cases busy : client.isBusy = true
    · rw [if_neg empty, if_neg empty, if_pos busy, if_pos (by exact busy)]
      rfl
    · rw [if_neg empty, if_neg empty, if_neg busy, if_neg (by exact busy)]
      exact client.send_shift offset now stack _ _

theorem startSession_shift (address : Address) (session : UInt8) :
    (client.shift offset).startSession (now + offset) address session (stack.shift offset) =
      shiftResult offset (client.startSession now address session stack) := by
  unfold startSession
  by_cases busy : client.isBusy = true
  · rw [if_pos busy, if_pos (by exact busy)]
    rfl
  · rw [if_neg busy, if_neg (by exact busy), shift_connection, Stack.bind_shift]
    cases stack.bind client.connection address with
    | error fault => rfl
    | ok after => exact client.request_shift offset now after _

theorem expire_shift (timer : ClientTimer) :
    (client.shift offset).expire (now + offset) timer (stack.shift offset) =
      ((client.expire now timer stack).1.shift offset,
        (client.expire now timer stack).2.shift offset) := by
  unfold expire
  cases timer with
  | session =>
    by_cases keeps : client.settings.keepSession = true
    · simp [keeps, request_shift, shiftResult]
    · simp [keeps]
  | _ => simp

theorem checkTimersWithin_shift (fuel : Nat) :
    checkTimersWithin (now + offset) fuel (client.shift offset, stack.shift offset) =
      ((checkTimersWithin now fuel (client, stack)).1.shift offset,
        (checkTimersWithin now fuel (client, stack)).2.shift offset) := by
  induction fuel generalizing client stack with
  | zero => rfl
  | succ fuel ih =>
    simp only [checkTimersWithin]
    rw [shift_timers, TimerQueue.popDue_shift]
    cases client.timers.popDue now with
    | none => rfl
    | some found =>
      have once := expire_shift offset now { client with timers := found.2 } stack found.1
      simp only [Option.map_some]
      rw [← ih, ← once]
      rfl

theorem process_shift :
    (client.shift offset).process (now + offset) (stack.shift offset) =
      ((client.process now stack).1.shift offset, (client.process now stack).2.shift offset) := by
  unfold process
  rw [openMailbox_shift]
  exact checkTimersWithin_shift offset now _ stack _

end Client

/-- The same desk, all timers of its client and its stack later by `offset`. -/
def Desk.shift (offset : Tick) (desk : Desk ω) : Desk ω :=
  { desk with client := desk.client.shift offset, stack := desk.stack.shift offset }

section

variable (offset : Tick) (desk : Desk ω)

theorem Desk.deliver_shift : (desk.shift offset).deliver = desk.deliver.shift offset := by
  have all (news : List Delivery) (client : Client) :
      news.foldl (·.deliver ·) (client.shift offset) =
        (news.foldl (·.deliver ·) client).shift offset := by
    induction news generalizing client with
    | nil => rfl
    | cons delivery rest ih =>
      rw [List.foldl_cons, List.foldl_cons, Client.deliver_shift, ih]
  unfold Desk.deliver
  simp only [Desk.shift, ← all]
  rfl

theorem Deed.shift_eq (deed : Deed ω) :
    (deed.shift offset).reply (desk.shift offset) = deed.reply desk ∧
      (deed.shift offset).run (desk.shift offset) = (deed.run desk).shift offset := by
  have asked {later early : Except Fault Unit × Client × Stack ω}
      (result : later = Client.shiftResult offset early) :
      Reply.outcome later.1 = .outcome early.1 ∧
        (desk.shift offset).adopt later.2 = (desk.adopt early.2).shift offset := by
    rw [result]
    exact ⟨rfl, rfl⟩
  cases deed with
  | call made =>
    obtain ⟨same, after⟩ := made.shift_eq offset desk.stack
    refine ⟨same, ?_⟩
    exact congrArg (fun stack => { desk.shift offset with stack }) after
  | request now made => exact asked (desk.client.request_shift offset now desk.stack made)
  | requestBytes now message =>
    exact asked (desk.client.requestBytes_shift offset now desk.stack message)
  | startSession now address session =>
    exact asked (desk.client.startSession_shift offset now desk.stack address session)
  | nextEvent =>
    simp only [shift, reply, run, Desk.shift, Client.nextEvent_shift, and_self]
  | _ => exact ⟨rfl, rfl⟩

theorem DeskStep.run_shift (step : DeskStep ω) :
    (step.shift offset).run (desk.shift offset) = (step.run desk).shift offset := by
  cases step with
  | deed done => exact (done.shift_eq offset desk).2
  | deliver => exact desk.deliver_shift offset
  | take now =>
    simp only [shift, run, Desk.shift, Client.shift_mailbox]
    cases desk.client.mailbox with
    | nil => rfl
    | cons delivery rest =>
      have taken := Client.take_shift offset now { desk.client with mailbox := rest } delivery
      simp only []
      rw [← taken]
      rfl
  | expire now =>
    simp only [shift, run, Desk.shift, Client.shift_timers, TimerQueue.popDue_shift]
    cases desk.client.timers.popDue now with
    | none => rfl
    | some popped =>
      have gone := Client.expire_shift offset now { desk.client with timers := popped.2 } desk.stack
        popped.1
      exact congrArg (fun state => (desk.shift offset).adopt state) gone

theorem DeskCall.shift_eq (call : DeskCall ω) :
    (call.shift offset).reply (desk.shift offset) = call.reply desk ∧
      (call.shift offset).run (desk.shift offset) = (call.run desk).shift offset := by
  cases call with
  | deed done =>
    obtain ⟨same, after⟩ := done.shift_eq offset desk
    refine ⟨same, ?_⟩
    rw [DeskCall.run, ← Desk.deliver_shift, ← after]
    rfl
  | process now =>
    refine ⟨rfl, ?_⟩
    rw [DeskCall.run, ← Desk.deliver_shift]
    exact congrArg (fun state => ((desk.shift offset).adopt state).deliver)
      (desk.client.process_shift offset now desk.stack)

end

/-- The same call at a time later by `offset`. -/
def OfficeCall.shift (offset : Tick) : OfficeCall ω → OfficeCall ω
  | .call made => .call (made.shift offset)
  | .attach settings listener => .attach settings listener
  | .client number made => .client number (made.shift offset)
  | .step number taken => .step number (taken.shift offset)

def Seat.shift (offset : Tick) (seat : Seat) : Seat :=
  { seat with client := seat.client.shift offset }

/-- The same office, all timers of the stack and of the clients later by `offset`. -/
def Office.shift (offset : Tick) (office : Office ω) : Office ω where
  stack := office.stack.shift offset
  seats := office.seats.map (·.shift offset)

section

variable (offset : Tick) (office : Office ω)

theorem Office.deliver_shift : (office.shift offset).deliver = office.deliver.shift offset := by
  unfold Office.deliver Office.shift
  simp only [List.map_map]
  congr 2
  funext seat
  exact congrArg Desk.seat ((seat.desk office.stack).deliver_shift offset)

theorem Office.adopt_shift (number : Nat) (desk : Desk ω) :
    (office.shift offset).adopt number (desk.shift offset) =
      (office.adopt number desk).shift offset := by
  unfold Office.adopt
  rw [← Office.deliver_shift]
  simp only [Office.shift, List.map_set]
  rfl

theorem Desk.attach_shift (settings : ClientSettings) (listener : Listener) (stack : Stack ω) :
    Desk.attach settings listener (stack.shift offset) =
      (Desk.attach settings listener stack).map (·.shift offset) := by
  unfold Desk.attach
  rw [Client.attach_shift]
  cases Client.attach settings listener stack <;> rfl

theorem OfficeCall.run_shift (call : OfficeCall ω) :
    (call.shift offset).run (office.shift offset) =
      ((call.run office).1, (call.run office).2.shift offset) := by
  cases call with
  | call made =>
    obtain ⟨same, after⟩ := made.shift_eq offset office.stack
    refine Prod.ext same ?_
    simp only [run, shift, ← Office.deliver_shift]
    exact congrArg (fun stack => Office.deliver { office.shift offset with stack }) after
  | attach settings listener =>
    simp only [run, shift, Office.shift, Desk.attach_shift]
    cases Desk.attach settings listener office.stack with
    | error fault => rfl
    | ok desk => simp [Except.map, Desk.shift, Desk.seat, Seat.shift]
  | client number call =>
    simp only [run, shift]
    rw [show (office.shift offset).seats[number]? = office.seats[number]?.map (·.shift offset) from
      List.getElem?_map]
    cases office.seats[number]? with
    | none => rfl
    | some seat =>
      obtain ⟨same, after⟩ := call.shift_eq offset (seat.desk office.stack)
      simp only [Option.map_some]
      rw [← Office.adopt_shift, ← after, ← same]
      rfl
  | step number step =>
    simp only [run, shift]
    rw [show (office.shift offset).seats[number]? = office.seats[number]?.map (·.shift offset) from
      List.getElem?_map]
    cases office.seats[number]? with
    | none => rfl
    | some seat =>
      have after := step.run_shift offset (seat.desk office.stack)
      simp only [Option.map_some]
      rw [← Office.adopt_shift, ← after]
      rfl

theorem Office.calls_shift (calls : List (OfficeCall ω)) :
    (office.shift offset).calls (calls.map (·.shift offset)) =
      ((office.calls calls).1, (office.calls calls).2.shift offset) := by
  induction calls generalizing office with
  | nil => rfl
  | cons call rest ih => simp only [List.map_cons, Office.calls, OfficeCall.run_shift, ih]

end

/-- Two offices differ in one thing: whatever timer is pending in the one is pending in the other
with a deadline later by `offset`. -/
structure Office.Later (offset : Tick) (early late : Office ω) : Prop where
  /-- Frames were handed over and listeners told alike, and the controllers are in the same state. -/
  outside : late.stack.outside = early.stack.outside
  settings : late.stack.settings = early.stack.settings
  registry : late.stack.registry = early.stack.registry
  connections : late.stack.connections = early.stack.connections
  memory : late.stack.memory = early.stack.memory
  confirmations : late.stack.confirmations = early.stack.confirmations
  raw : late.stack.raw = early.stack.raw
  pending : late.stack.alarms.pending =
    early.stack.alarms.pending.map fun (alarm, deadline) => (alarm, deadline + offset)
  nextAlarm : late.stack.nextAlarm = early.stack.nextAlarm.map (· + offset)
  clients : late.seats = early.seats.map (·.shift offset)

theorem Office.shift_later (offset : Tick) (office : Office ω) :
    office.Later offset (office.shift offset) where
  outside := rfl
  settings := rfl
  registry := rfl
  connections := rfl
  memory := rfl
  confirmations := rfl
  raw := rfl
  pending := office.stack.alarms.pending_shift offset
  nextAlarm := office.stack.alarms.nextDeadline_shift offset
  clients := rfl

/-- Nothing depends on where the clock stands when a stack is made. The same calls, with every
reading of the clock later by `offset` and around its end if need be, return the same and do the
same; only the deadlines are later by `offset`. -/
theorem clock_offset_is_unseen {settings : Settings} {world : ω} {start : Stack ω}
    (run : Stack.new settings world = .ok start) (offset : Tick) (calls : List (OfficeCall ω)) :
    (Office.calls { stack := start } (calls.map (·.shift offset))).1 =
        (Office.calls { stack := start } calls).1 ∧
      (Office.calls { stack := start } calls).2.Later offset
        (Office.calls { stack := start } (calls.map (·.shift offset))).2 := by
  have fresh : start.shift offset = start := by
    obtain ⟨_, _, _, rfl⟩ := Stack.new_eq run
    simp only [Stack.shift, TimerQueue.ofCapacity_shift]
  have moved := Office.calls_shift offset { stack := start } calls
  rw [show Office.shift offset { stack := start } = { stack := start } by
    simp only [Office.shift, fresh, List.map_nil]] at moved
  rw [moved]
  exact ⟨rfl, Office.shift_later offset _⟩

/-- The sample connection sends a first frame at this time, and waits for flow control. -/
def sampleWaiting (now : Tick) : List (OfficeCall Unit) :=
  (sampleCalls ++ [Call.send now sampleHandle [1, 2, 3, 4, 5, 6, 7, 8]]).map .call

/-- The sample connection waits across the end of the clock as it waits elsewhere. -/
theorem sample_clock_offset_is_unseen :
    Stack.new {} () = .ok sampleStack ∧
      (Office.calls { stack := sampleStack } (sampleWaiting 5)).2.Later 0xFFFFFF00
        (Office.calls { stack := sampleStack } (sampleWaiting 0xFFFFFF05)).2 ∧
      (Office.calls { stack := sampleStack } (sampleWaiting 0xFFFFFF05)).2.stack.nextAlarm =
        some 0x2ED := by
  have made : Stack.new {} () = .ok sampleStack := rfl
  obtain ⟨_, later⟩ := clock_offset_is_unseen made 0xFFFFFF00 (sampleWaiting 5)
  exact ⟨made, later, by decide +kernel⟩

end DiagBus
