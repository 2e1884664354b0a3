import DiagBus.Proofs.Codec
import DiagBus.Proofs.Transmission

namespace DiagBus

variable {ω : Type}

/-- Whether a payload starts like a later part of a message. -/
def isConsecutive (payload : List UInt8) : Bool :=
  payload.head?.any fun control => highNibble control = 2

/-- What flow control says: its status, the frames per block and the separation time byte. -/
structure Control where
  status : FlowStatus
  blockSize : UInt8
  separation : UInt8
  deriving DecidableEq

/-- The sending flow of a connection. A connection that is not open has none that is busy. -/
def Stack.sending (stack : Stack ω) (handle : Handle) : Flow :=
  (stack.connections.get? handle).elim {} (·.output)

/-- The consecutive frames that a connection hands over in a step. -/
def Moment.parts (moment : Moment ω) (handle : Handle) : List (InterfaceIndex × Frame) :=
  (moment.hands handle).filter fun entry => isConsecutive entry.2.payload

/-- The flow control that reaches a connection in a step while its sending flow awaits it. -/
def Moment.control? (moment : Moment ω) (handle : Handle) : Option Control :=
  match moment.step with
  | .arrive _ other (.flowControl status blockSize separation) =>
    if other = handle ∧ (moment.before.sending handle).phase = .controlIn then
      some ⟨status, blockSize, separation⟩
    else none
  | _ => none

/-- The transfer of a sending flow ends for this reason, and the listener is told so. -/
def Moment.Fails (moment : Moment ω) (handle : Handle) (fault : Fault) : Prop :=
  ∃ connection, moment.before.connections.get? handle = some connection ∧
    moment.after.connections.get? handle = some { connection with output := {} } ∧
    moment.news = told connection.onFailed (.failed · handle fault)

/-- The flow after its next frame was handed over. -/
def Flow.Onward (flow next : Flow) : Prop :=
  ∃ remaining sequence, next = { flow with remaining, sequence, unconfirmed := true }

/-- What a step does to a sending flow: the flow control that it takes, the number of consecutive
frames that it hands over, and the flow afterwards. -/
inductive Moment.Drives (moment : Moment ω) (handle : Handle) (flow : Flow) :
    Option Control → Nat → Flow → Prop
  /-- The flow stays as it is. -/
  | rest : Drives moment handle flow none 0 flow
  /-- A message is taken. -/
  | started {message : List UInt8} {next : Flow} (taken : moment.Accepts handle message)
      (phase : next.phase = .singleOut ∨ next.phase = .firstOut)
      (waits : next.waitsLeft = moment.before.settings.waitLimit) :
      Drives moment handle flow none 0 next
  /-- The transfer ends, if there was one. -/
  | ended {asked : Option Control}
      (willing : ∀ control, asked = some control → control.status = .continueToSend) :
      Drives moment handle flow asked 0 {}
  /-- The first frame is confirmed. -/
  | announced (phase : flow.phase = .firstOut) :
      Drives moment handle flow none 0 { flow with unconfirmed := false, phase := .controlIn }
  /-- The peer asks for time. -/
  | waited {control : Control} (awaited : flow.phase = .controlIn)
      (status : control.status = .wait) (left : flow.waitsLeft ≠ 0) :
      Drives moment handle flow (some control) 0
        { flow with status := some .wait, waitsLeft := flow.waitsLeft - 1 }
  /-- The peer ends the transfer, or asks for time once too often. -/
  | refused {control : Control} (unwilling : control.status ≠ .continueToSend)
      (spent : control.status = .wait → flow.waitsLeft = 0) (fails : moment.Fails handle .flowStatus) :
      Drives moment handle flow (some control) 0 {}
  /-- The peer asks for a block. -/
  | granted {control : Control} {next : Flow} (awaited : flow.phase = .controlIn)
      (status : control.status = .continueToSend)
      (onward : (flow.startBlock moment.before.settings control.blockSize
        control.separation).Onward next) :
      Drives moment handle flow (some control) 1 next
  /-- The last frame of a block is confirmed. -/
  | completed (phase : flow.phase = .consecutiveOut) (unconfirmed : flow.unconfirmed = true)
      (complete : flow.countFrame.blockComplete = true) :
      Drives moment handle flow none 0
        { flow.countFrame with unconfirmed := false, phase := .controlIn }
  /-- A frame is confirmed, and the next one has to wait for the separation time. -/
  | paused (phase : flow.phase = .consecutiveOut) (unconfirmed : flow.unconfirmed = true)
      (incomplete : ¬flow.countFrame.blockComplete = true) :
      Drives moment handle flow none 0 { flow.countFrame with unconfirmed := false }
  /-- A frame is confirmed, and the next one follows at once. -/
  | followed {next : Flow} (phase : flow.phase = .consecutiveOut)
      (unconfirmed : flow.unconfirmed = true) (incomplete : ¬flow.countFrame.blockComplete = true)
      (prompt : flow.separation = 0) (onward : flow.countFrame.Onward next) :
      Drives moment handle flow none 1 next
  /-- The separation time is over. -/
  | resumed {next : Flow} {now : Tick} {alarms : TimerQueue Alarm}
      (phase : flow.phase = .consecutiveOut) (confirmed : flow.unconfirmed = false)
      (expires : moment.step = .expire now)
      (due : moment.before.alarms.popDue now = some (.separation handle, alarms))
      (onward : flow.Onward next) :
      Drives moment handle flow none 1 next

section

variable {encoder : Encoder} {message : List UInt8}

theorem isConsecutive_of_head {payload : List UInt8} {control : UInt8}
    (first : payload.head? = some control) :
    isConsecutive payload = decide (highNibble control = 2) := by
  unfold isConsecutive
  rw [first]
  rfl

/-- The first frame of a message is no later part of it. -/
theorem Encoder.segmentation_head {frame : Frame} {later : List Frame}
    (whole : frame :: later = encoder.segmentation message) :
    isConsecutive frame.payload = false := by
  unfold Encoder.segmentation at whole
  split at whole
  · rename_i short
    obtain ⟨rfl, _⟩ := List.cons.inj whole
    obtain ⟨_, fits⟩ := Encoder.length_whole short
    obtain ⟨fill, payload, _, _⟩ := Encoder.payload_frame fits
    rw [payload]
    unfold singleHeader
    split
    · have nibble : ∀ n, n < 8 → highNibble n.toUInt8 ≠ 2 := by decide
      rw [isConsecutive_of_head rfl]
      exact decide_eq_false (nibble _ (by omega))
    · rfl
  · rename_i long
    obtain ⟨rfl, _⟩ := List.cons.inj whole
    obtain ⟨fill, payload, _, _⟩ := Encoder.payload_frame
      (Encoder.length_start (Nat.not_le.mp long)).le
    rw [payload]
    unfold firstHeader
    split
    · rename_i small
      have nibble : ∀ n, n < 16 → highNibble (0x10 ||| n.toUInt8) ≠ 2 := by decide
      unfold shortLengthLimit at small
      rw [isConsecutive_of_head rfl]
      exact decide_eq_false (nibble _ (by omega))
    · rfl

/-- Inside a block a flow hands over consecutive frames. -/
theorem Encoder.nextFrame?_isConsecutive {flow next : Flow} {frame : Frame}
    (run : encoder.nextFrame? flow = some (frame, next)) (phase : flow.phase = .consecutiveOut) :
    isConsecutive frame.payload = true := by
  unfold Encoder.nextFrame? at run
  obtain ⟨buffer, _, run⟩ := Option.bind_eq_some_iff.mp run
  simp only [phase] at run
  obtain ⟨_, _, run⟩ := Option.bind_eq_some_iff.mp run
  obtain ⟨rfl, _⟩ := Prod.mk.inj (Option.some.inj run)
  have size := encoder.frameSize_bounds
  unfold Encoder.consecutive
  simp only []
  have fits : ((0x20 ||| (flow.sequence &&& 0x0F)) :: (buffer.bytes.drop flow.offset).take
      (min (buffer.bytes.drop flow.offset).length (encoder.frameSize - 1))).length ≤
        encoder.frameSize := by
    rw [List.length_cons, List.length_take]
    omega
  obtain ⟨fill, payload, _, _⟩ := Encoder.payload_frame fits
  have nibble : ∀ byte : UInt8, highNibble (0x20 ||| (byte &&& 0x0F)) = 2 :=
    forall_byte (by decide +kernel)
  rw [payload, isConsecutive_of_head rfl]
  exact decide_eq_true (nibble flow.sequence)

end

section

variable {moment : Moment ω} {handle : Handle} {connection : Connection} {scope : Scope ω}

theorem Stack.sending_of_live {stack : Stack ω}
    (live : stack.connections.get? handle = some connection) :
    stack.sending handle = connection.output := by
  unfold sending
  rw [live]
  rfl

theorem Stack.sending_of_dead {stack : Stack ω} (dead : stack.connections.get? handle = none) :
    stack.sending handle = {} := by
  unfold sending
  rw [dead]
  rfl

/-- A flow that is busy is the one of a live connection. -/
theorem Stack.live_of_busy {stack : Stack ω} (busy : (stack.sending handle).isIdle = false) :
    ∃ connection, stack.connections.get? handle = some connection ∧
      stack.sending handle = connection.output := by
  cases live : stack.connections.get? handle with
  | none =>
    rw [Stack.sending_of_dead live] at busy
    cases busy
  | some connection => exact ⟨connection, rfl, Stack.sending_of_live live⟩

theorem Stack.Replaced.sending {before after : Stack ω} {flow : Flow} {noted : Bool}
    (replaced : before.Replaced handle connection .output flow noted after)
    (live : before.connections.get? handle = some connection) : after.sending handle = flow :=
  Stack.sending_of_live (replaced.get? live)

theorem Moment.control?_eq_some_iff {control : Control} :
    moment.control? handle = some control ↔
      (∃ now, moment.step =
        .arrive now handle (.flowControl control.status control.blockSize control.separation)) ∧
      (moment.before.sending handle).phase = .controlIn := by
  obtain ⟨status, blockSize, separation⟩ := control
  unfold Moment.control?
  constructor
  · intro found
    split at found
    · rename_i now other status' blockSize' separation' step
      split at found
      · rename_i awaited
        cases found
        rw [step, awaited.1]
        exact ⟨⟨now, rfl⟩, awaited.2⟩
      · cases found
    · cases found
  · rintro ⟨⟨now, step⟩, awaited⟩
    rw [step]
    simp [awaited]

theorem Moment.parts_of_hands (nothing : moment.hands handle = []) :
    (moment.parts handle).length = 0 := by
  unfold Moment.parts
  rw [nothing]
  rfl

/-- A step that passes the sending flow by can end its transfer only by closing the connection. -/
theorem Moment.Passes.drives (passes : moment.Passes handle .output) :
    moment.Drives handle (moment.before.sending handle) (moment.control? handle)
      (moment.parts handle).length (moment.after.sending handle) := by
  have unasked : moment.control? handle = none := by
    by_contra asked
    obtain ⟨control, found⟩ := Option.ne_none_iff_exists'.mp asked
    obtain ⟨⟨now, step⟩, awaited⟩ := Moment.control?_eq_some_iff.mp found
    have busy : (moment.before.sending handle).isIdle = false := by
      simp [Flow.isIdle, awaited]
    obtain ⟨connection, live, _⟩ := Stack.live_of_busy busy
    have unplanned := passes.unplanned connection now
    rw [step] at unplanned
    exact unplanned _ live (.arrive now _)
  rw [unasked, Moment.parts_of_hands passes.offers.1]
  cases found : moment.after.connections.get? handle with
  | none =>
    rw [Stack.sending_of_dead found]
    exact .ended (by simp)
  | some other =>
    rw [Stack.sending_of_live found]
    rcases passes.leaves other found with ⟨dead, rfl⟩ | ⟨earlier, live, flow, _⟩
    · rw [Stack.sending_of_dead dead]
      exact .rest
    · rw [Stack.sending_of_live live, show other.output = earlier.output from flow]
      exact .rest

/-- The next frame of a block is a consecutive frame, or the transfer ends. -/
theorem Connection.next_cases (connection : Connection) (scope : Scope ω) {flow : Flow}
    (phase : flow.phase = .consecutiveOut) :
    (∃ fault, connection.next scope flow = .rest (connection.failure scope fault)) ∨
      ∃ index frame next, connection.next scope flow =
          .hand [] index frame next (connection.failure scope) ∧
        isConsecutive frame.payload = true ∧ flow.Onward { next with unconfirmed := true } := by
  unfold Connection.next
  cases connection.address with
  | none => exact Or.inl ⟨_, rfl⟩
  | some address =>
    simp only []
    cases run : (address.encoder scope.settings).nextFrame? flow with
    | none => exact Or.inl ⟨_, rfl⟩
    | some found =>
      obtain ⟨frame, next⟩ := found
      obtain ⟨remaining, sequence, rfl⟩ := Encoder.nextFrame?_keeps run
      exact Or.inr ⟨_, _, _, rfl, Encoder.nextFrame?_isConsecutive run phase, remaining, sequence,
        rfl⟩

/-- A flow that becomes idle hands nothing over. -/
theorem Stack.Carried.rests {news : List Signal}
    (carried : moment.before.Carried handle connection .output (.rest news) moment.after
      moment.news)
    (live : moment.before.connections.get? handle = some connection)
    (silent : news.filterMap (·.handed? handle .output) = []) :
    moment.after.sending handle = {} ∧ (moment.parts handle).length = 0 := by
  have hands : moment.hands handle = moment.news.filterMap (·.handed? handle .output) := rfl
  generalize moment.after = after at carried ⊢
  generalize moment.news = told at carried hands
  cases carried with
  | rest replaced => exact ⟨replaced.sending live, Moment.parts_of_hands (hands.trans silent)⟩

/-- So does a flow that waits. -/
theorem Stack.Carried.waits {flow : Flow}
    (carried : moment.before.Carried handle connection .output (.wait flow) moment.after
      moment.news)
    (live : moment.before.connections.get? handle = some connection) :
    moment.after.sending handle = flow ∧ (moment.parts handle).length = 0 := by
  have hands : moment.hands handle = moment.news.filterMap (·.handed? handle .output) := rfl
  generalize moment.after = after at carried ⊢
  generalize moment.news = told at carried hands
  cases carried with
  | wait replaced => exact ⟨replaced.sending live, Moment.parts_of_hands hands⟩

theorem Stack.Carried.stays
    (carried : moment.before.Carried handle connection .output (.stay []) moment.after
      moment.news)
    (live : moment.before.connections.get? handle = some connection) :
    moment.after.sending handle = connection.output ∧ (moment.parts handle).length = 0 := by
  obtain ⟨told, same⟩ := carried.of_stay
  refine ⟨Stack.sending_of_live (by rw [same]; exact live), Moment.parts_of_hands ?_⟩
  unfold Moment.hands
  rw [told]
  rfl

/-- A flow that goes on with its block hands over one consecutive frame, or its transfer ends. -/
theorem Stack.Carried.goes_on {flow : Flow} (phase : flow.phase = .consecutiveOut)
    (carried : moment.before.Carried handle connection .output (connection.next scope flow)
      moment.after moment.news)
    (live : moment.before.connections.get? handle = some connection) :
    moment.after.sending handle = {} ∧ (moment.parts handle).length = 0 ∨
      flow.Onward (moment.after.sending handle) ∧ (moment.parts handle).length = 1 := by
  rcases connection.next_cases scope phase with
    ⟨fault, plan⟩ | ⟨index, frame, next, plan, consecutive, onward⟩
  · rw [plan] at carried
    exact Or.inl (carried.rests live (connection.failure_offers scope fault _ _).1)
  · rw [plan] at carried
    have hands : moment.hands handle = moment.news.filterMap (·.handed? handle .output) := rfl
    generalize moment.after = after at carried ⊢
    generalize moment.news = told at carried hands
    cases carried with
    | handed replaced =>
      refine Or.inr ⟨by rw [replaced.sending live]; exact onward, ?_⟩
      unfold Moment.parts
      rw [hands]
      simp [Signal.handed?, consecutive]
    | refused fault replaced attempted _ =>
      refine Or.inl ⟨replaced.sending live, Moment.parts_of_hands ?_⟩
      rw [hands, List.filterMap_append, (connection.failure_offers scope fault _ _).1,
        List.append_nil, List.nil_append]
      rcases attempted with rfl | ⟨reason, rfl⟩ <;> rfl

theorem Stack.Carried.stays_drives
    (carried : moment.before.Carried handle connection .output (.stay []) moment.after moment.news)
    (live : moment.before.connections.get? handle = some connection) :
    moment.Drives handle connection.output none (moment.parts handle).length
      (moment.after.sending handle) := by
  obtain ⟨after, unsent⟩ := carried.stays live
  rw [after, unsent]
  exact .rest

/-- A confirmation completes the message or the block, or gets the flow to go on with it. -/
theorem Stack.Carried.confirmed_drives
    (carried : moment.before.Carried handle connection .output (connection.outputConfirmed scope)
      moment.after moment.news)
    (live : moment.before.connections.get? handle = some connection) :
    moment.Drives handle connection.output none (moment.parts handle).length
      (moment.after.sending handle) := by
  have finished (carried : moment.before.Carried handle connection .output
        (.rest (connection.sent scope)) moment.after moment.news) :
      moment.Drives handle connection.output none (moment.parts handle).length
        (moment.after.sending handle) := by
    obtain ⟨after, unsent⟩ := carried.rests live (connection.sent_offers scope handle .output).1
    rw [after, unsent]
    exact .ended (by simp)
  unfold Connection.outputConfirmed at carried
  simp only [] at carried
  split at carried
  · exact carried.stays_drives live
  · rename_i awaited
    have unconfirmed : connection.output.unconfirmed = true := by simpa using awaited
    split at carried
    · exact finished carried
    · rename_i phase
      obtain ⟨after, unsent⟩ := carried.waits live
      rw [after, unsent]
      exact .announced phase
    · rename_i phase
      split at carried
      · exact finished carried
      · split at carried
        · rename_i complete
          obtain ⟨after, unsent⟩ := carried.waits live
          rw [after, unsent]
          exact .completed phase unconfirmed complete
        · rename_i incomplete
          split at carried
          · rename_i prompt
            rcases carried.goes_on (by exact phase) live with ⟨after, unsent⟩ | ⟨onward, sent⟩
            · rw [after, unsent]
              exact .ended (by simp)
            · rw [sent]
              exact .followed phase unconfirmed incomplete prompt onward
          · obtain ⟨after, unsent⟩ := carried.waits live
            rw [after, unsent]
            exact .paused phase unconfirmed incomplete
    · exact carried.stays_drives live

theorem Stack.Carried.fails {fault : Fault} (own : scope.handle = handle)
    (carried : moment.before.Carried handle connection .output
      (.rest (connection.failure scope fault)) moment.after moment.news)
    (live : moment.before.connections.get? handle = some connection) :
    moment.Fails handle fault := by
  refine ⟨connection, live, ?_⟩
  generalize moment.after = after at carried ⊢
  generalize news_eq : moment.news = news at carried ⊢
  cases carried with
  | rest replaced =>
    refine ⟨replaced.get? live, ?_⟩
    unfold Connection.failure
    rw [own]

/-- Flow control that is awaited starts a block, lets the flow wait or ends the transfer. -/
theorem Stack.Carried.control_drives {control : Control} (own : scope.handle = handle)
    (settings : scope.settings = moment.before.settings)
    (awaited : connection.output.phase = .controlIn)
    (carried : moment.before.Carried handle connection .output (connection.controlReceived scope
      control.status control.blockSize control.separation) moment.after moment.news)
    (live : moment.before.connections.get? handle = some connection) :
    moment.Drives handle connection.output (some control) (moment.parts handle).length
      (moment.after.sending handle) := by
  have refused (unwilling : control.status ≠ .continueToSend)
      (spent : control.status = .wait → connection.output.waitsLeft = 0)
      (carried : moment.before.Carried handle connection .output
        (.rest (connection.failure scope .flowStatus)) moment.after moment.news) :
      moment.Drives handle connection.output (some control) (moment.parts handle).length
        (moment.after.sending handle) := by
    obtain ⟨after, unsent⟩ := carried.rests live (connection.failure_offers scope _ _ _).1
    rw [after, unsent]
    exact .refused unwilling spent (carried.fails own live)
  unfold Connection.controlReceived at carried
  simp only [] at carried
  rw [if_neg (not_not.mpr awaited)] at carried
  cases status : control.status with
  | continueToSend =>
    rw [status] at carried
    rcases carried.goes_on rfl live with ⟨after, unsent⟩ | ⟨onward, sent⟩
    · rw [after, unsent]
      exact .ended fun asked same => by cases same; exact status
    · rw [settings] at onward
      rw [sent]
      exact .granted awaited status onward
  | wait =>
    rw [status] at carried
    simp only [] at carried
    split at carried
    · rename_i spent
      exact refused (by simp [status]) (fun _ => spent) carried
    · rename_i left
      obtain ⟨after, unsent⟩ := carried.waits live
      rw [after, unsent]
      exact .waited awaited status left
  | overflow =>
    rw [status] at carried
    exact refused (by simp [status]) (by simp [status]) carried
  | reserved nibble =>
    rw [status] at carried
    exact refused (by simp [status]) (by simp [status]) carried

/-- The separation alarm gets a flow that pauses to go on. -/
theorem Stack.Carried.expired_drives {now : Tick} {alarm : Alarm} {alarms : TimerQueue Alarm}
    (expires : moment.step = .expire now)
    (due : moment.before.alarms.popDue now = some (alarm, alarms))
    (named : alarm.connection = handle) (own : alarm.direction = .output)
    (carried : moment.before.Carried handle connection .output (connection.expired scope alarm)
      moment.after moment.news)
    (live : moment.before.connections.get? handle = some connection) :
    moment.Drives handle connection.output none (moment.parts handle).length
      (moment.after.sending handle) := by
  unfold Connection.expired at carried
  cases alarm with
  | input name => cases own
  | output name =>
    simp only [] at carried
    split at carried
    · exact carried.stays_drives live
    · obtain ⟨after, unsent⟩ := carried.rests live (connection.failure_offers scope _ _ _).1
      rw [after, unsent]
      exact .ended (by simp)
  | separation name =>
    obtain rfl : name = handle := named
    simp only [] at carried
    split at carried
    · rename_i pausing
      rcases carried.goes_on pausing.1 live with ⟨after, unsent⟩ | ⟨onward, sent⟩
      · rw [after, unsent]
        exact .ended (by simp)
      · rw [sent]
        exact .resumed pausing.1 (by simpa using pausing.2) expires due onward
    · exact carried.stays_drives live

/-- A message starts with a frame that is no consecutive frame. -/
theorem Exchange.submitted_cases (x : Exchange ω) (scope : Scope ω) (message : List UInt8) :
    x.submitted scope message = .stay [] ∨ ∃ index frame flow,
      x.submitted scope message = .hand [] index frame flow (fun _ => []) ∧
        (flow.phase = .singleOut ∨ flow.phase = .firstOut) ∧
        flow.waitsLeft = scope.settings.waitLimit ∧ isConsecutive frame.payload = false := by
  rcases x.submitted_sends scope message with
    stays | ⟨address, frame, flow, acceptance, room, starts, underway⟩
  · exact Or.inl stays
  · have kept : ∃ remaining sequence,
        flow = { outputFlow scope address ⟨message⟩ with remaining, sequence } := by
      unfold Exchange.submitted at starts
      simp only [acceptance, if_neg (Nat.not_lt.mpr room)] at starts
      split at starts
      · cases starts
      · rename_i run
        cases starts
        exact Encoder.nextFrame?_keeps run
    have first := Encoder.segmentation_head underway.sent.frames
    have phase : (outputFlow scope address ⟨message⟩).phase = .singleOut ∨
        (outputFlow scope address ⟨message⟩).phase = .firstOut := by
      unfold outputFlow
      simp only []
      split
      · exact Or.inl rfl
      · exact Or.inr rfl
    obtain ⟨_, _, rfl⟩ := kept
    exact Or.inr ⟨_, frame, _, starts, phase, rfl, first⟩

/-- A message that is given to a connection is taken, or it is not and the flow stays or is idle. -/
theorem Moment.submit_drives (sound : moment.before.Sound)
    (quiet : moment.before.confirmations = []) {now : Tick} {message : List UInt8}
    (step : moment.step = .submit now handle message)
    (carried : moment.before.Carried handle connection .output
      ((moment.before.exchange connection).submitted (moment.before.scope now handle) message)
      moment.after moment.news)
    (live : moment.before.connections.get? handle = some connection) :
    moment.Drives handle connection.output none (moment.parts handle).length
      (moment.after.sending handle) := by
  have outcome := sound.submit_cases quiet live now message
  rw [← step, show moment.step.run moment.before = moment.after from rfl] at outcome
  rcases (moment.before.exchange connection).submitted_cases (moment.before.scope now handle)
    message with stays | ⟨index, frame, flow, starts, phase, waits, first⟩
  · rw [stays] at carried
    exact carried.stays_drives live
  · rw [starts] at carried
    have hands : moment.hands handle = moment.news.filterMap (·.handed? handle .output) := rfl
    have taken_or : moment.Accepts handle message ∨
        moment.news.filterMap (·.handed? handle .output) = [] := by
      rcases outcome with ⟨taken, _⟩ | ⟨_, news, _, signals, attempted⟩
      · exact Or.inl ⟨now, step, taken⟩
      · refine Or.inr ?_
        rw [Moment.news_eq signals]
        rcases attempted with rfl | ⟨_, _, _, rfl⟩ <;> rfl
    generalize moment.after = after at carried ⊢
    generalize moment.news = told at carried hands taken_or
    cases carried with
    | handed replaced =>
      have unsent : (moment.parts handle).length = 0 := by
        unfold Moment.parts
        rw [hands]
        simp [Signal.handed?, first]
      rw [replaced.sending live, unsent]
      rcases taken_or with taken | silent
      · exact .started taken phase waits
      · simp [Signal.handed?] at silent
    | refused fault replaced attempted _ =>
      have unsent : (moment.parts handle).length = 0 := by
        refine Moment.parts_of_hands ?_
        rw [hands]
        rcases attempted with rfl | ⟨reason, rfl⟩ <;> rfl
      rw [replaced.sending live, unsent]
      exact .ended (by simp)

/-- What a step can do to a sending flow. -/
theorem Moment.drives (sound : moment.before.Sound) (timely : moment.step.Timely moment.before)
    (handle : Handle) :
    moment.Drives handle (moment.before.sending handle) (moment.control? handle)
      (moment.parts handle).length (moment.after.sending handle) := by
  rcases moment.flow_cases sound timely handle .output with
    passes | ⟨connection, now, plan, live, plans, carried⟩
  · exact passes.drives
  have unasked (other : ∀ now pdu, moment.step ≠ .arrive now handle pdu) :
      moment.control? handle = none := by
    by_contra asked
    obtain ⟨control, found⟩ := Option.ne_none_iff_exists'.mp asked
    obtain ⟨now, step⟩ := (Moment.control?_eq_some_iff.mp found).1
    exact other _ _ step
  rw [Stack.sending_of_live live]
  generalize step_eq : moment.step = step at plans
  generalize way : Direction.output = direction at plans
  cases plans with
  | submit _ message =>
    rw [unasked (by simp [step_eq])]
    rw [step_eq] at timely
    exact Moment.submit_drives sound timely step_eq carried live
  | arrive _ pdu =>
    cases pdu with
    | flowControl status blockSize separation =>
      by_cases awaited : connection.output.phase = .controlIn
      · have asked : moment.control? handle = some ⟨status, blockSize, separation⟩ := by
          rw [Moment.control?_eq_some_iff, Stack.sending_of_live live]
          exact ⟨⟨now, step_eq⟩, awaited⟩
        rw [asked]
        exact Stack.Carried.control_drives rfl rfl awaited carried live
      · have unasked : moment.control? handle = none := by
          by_contra asked
          obtain ⟨control, found⟩ := Option.ne_none_iff_exists'.mp asked
          have waiting := (Moment.control?_eq_some_iff.mp found).2
          rw [Stack.sending_of_live live] at waiting
          exact awaited waiting
        rw [unasked]
        simp only [Connection.received, Connection.controlReceived, ne_eq, awaited,
          not_false_eq_true, if_true] at carried
        exact carried.stays_drives live
    | _ => cases way
  | confirm _ direction =>
    subst way
    rw [unasked (by simp [step_eq])]
    exact carried.confirmed_drives live
  | settle _ noted =>
    subst way
    rw [unasked (by simp [step_eq])]
    exact carried.confirmed_drives live
  | expire _ due named =>
    rw [unasked (by simp [step_eq])]
    exact carried.expired_drives step_eq due named way.symm live

/-- A message is taken only by a flow that is idle, which is busy from then on. -/
theorem Moment.Accepts.begins {message : List UInt8} (taken : moment.Accepts handle message)
    (sound : moment.before.Sound) (timely : moment.step.Timely moment.before) :
    (moment.before.sending handle).isIdle = true ∧
      (moment.after.sending handle).isIdle = false := by
  obtain ⟨now, step, accepted⟩ := taken
  have quiet : moment.before.confirmations = [] := by
    rw [step] at timely
    exact timely
  cases live : moment.before.connections.get? handle with
  | none =>
    unfold Stack.send at accepted
    rw [live] at accepted
    cases accepted
  | some connection =>
    have outcome := sound.submit_cases quiet live now message
    rw [← step, show moment.step.run moment.before = moment.after from rfl] at outcome
    rcases outcome with ⟨_, _, _, _, _, _, _, underway, replaced, _⟩ | ⟨denied, _⟩
    · rw [replaced.sending live, Stack.sending_of_live live]
      refine ⟨?_, underway.not_idle⟩
      by_contra busy
      have answer := (Exchange.send_follows (sound.ready_quiet quiet live now) message).2
      rw [Stack.send_live live] at accepted
      obtain ⟨_, _, _, _, _, _, plan, _⟩ := answer.mp accepted
      rw [Exchange.submitted_busy (by exact Bool.not_eq_true _ ▸ busy)] at plan
      cases plan
    · exact absurd accepted denied

end

end DiagBus
