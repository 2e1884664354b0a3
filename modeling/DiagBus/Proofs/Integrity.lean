import DiagBus.Proofs.Conversation
import DiagBus.Proofs.Stream

namespace DiagBus

/-- What can happen on a line on which the left terminal sends messages. -/
inductive Move
  /-- The left terminal is given a message to send. -/
  | send (now : Tick) (message : List UInt8)
  /-- A terminal polls its port and handles the alarms that are due. -/
  | process (side : Side) (now : Tick)
  /-- The line takes the first frame that is to go out at this end, and it comes in at the other. -/
  | carry (side : Side)

def Move.run (terminals : Side → Terminal) (move : Move) (ends : Ends) : Ends :=
  match move with
  | .send now message =>
    (Act.send .left now).run (fun side => (terminals side).saying message) ends
  | .process side now => (Act.process side now).run terminals ends
  | .carry side => (Act.carry side).run terminals ends

/-- Both ends after all these moves. -/
def Ends.moved (terminals : Side → Terminal) (ends : Ends) (moves : List Move) : Ends :=
  moves.foldl (fun ends move => move.run terminals ends) ends

/-- The messages that the left terminal is given. -/
def Move.message? : Move → Option (List UInt8)
  | .send _ message => some message
  | _ => none

/-- Whether the left terminal takes a message that needs more than one frame. -/
def Move.begins (terminals : Side → Terminal) (ends : Ends) : Move → Bool
  | .send now message => decide ((terminals .left).encoder.singleCapacity < message.length) &&
      ((ends .left).send now Terminal.handle message).1.isOk
  | _ => false

/-- The right terminal is not receiving, and no first frame is on its way to it. -/
structure Ends.Clear (ends : Ends) : Prop where
  resting : ∃ sending, (ends .right).phases Terminal.handle = .ok (sending, .idle)
  calm : ∀ frame ∈ wire (ends .left) (ends .right), ∀ length data,
    Pdu.decode frame.payload ≠ some (.first length data)

/-- If the left terminal was told of a failure since it last took a message of several frames, it
takes the next one only when the line is clear. By then it had been told of `failures` failures. -/
def Ends.Heedful (terminals : Side → Terminal) : (failures : Nat) → Ends → List Move → Prop
  | _, _, [] => True
  | failures, ends, move :: rest =>
    (move.begins terminals ends = true → failures < (ends .left).failures.length → ends.Clear) ∧
      Heedful terminals
        (if move.begins terminals ends then (ends .left).failures.length else failures)
        (move.run terminals ends) rest

/-- A sender and a receiver, and the frames between them. The sender had been told of `failures`
failures when it last took a message of several frames. -/
structure Course (sender receiver : Terminal) (messages : List (List UInt8)) (failures : Nat)
    (here there : Stack Port) (near far : Connection) : Prop where
  runs : sender.Runs here near
  peerRuns : receiver.Runs there far
  deaf : near.input = {}
  mute : far.output = {}
  earlier : failures ≤ here.failures.length
  forth : ∃ reader place, reader.Flows sender receiver far.input ∧
    sender.Reads messages reader (wire here there) place ∧
    sender.Writes messages (failures < here.failures.length) place near.output
  back : ∀ frame ∈ wire there here, ∃ status blockSize,
    frame = receiver.encoder.flowControl status blockSize receiver.settings.separation
  delivered : ∀ signal ∈ there.receivedNews, ∃ message ∈ messages,
    signal = .received receiver.onReceived Terminal.handle message

section

variable {sender receiver : Terminal} {messages : List (List UInt8)} {failures : Nat}
  {here there : Stack Port} {near far : Connection} {now : Tick}

/-- The sending flow goes on. -/
theorem Course.of_output {step : Step Port} {plan : Plan} {reader next : Reader}
    (runs : sender.Runs here near) (peerRuns : receiver.Runs there far) (deaf : near.input = {})
    (mute : far.output = {}) (earlier : failures ≤ here.failures.length) (timely : step.Timely here)
    (plans : here.Plans Terminal.handle near step now .output plan)
    (flows : reader.Flows sender receiver far.input)
    (reads : sender.Reads messages reader (wire here there ++ plan.frames) next)
    (writes : sender.Writes messages
      (failures < (here.failures ++ plan.news.filter Signal.isFailed).length) next
      (plan.flow near.output))
    (back : ∀ frame ∈ wire there here, ∃ status blockSize,
      frame = receiver.encoder.flowControl status blockSize receiver.settings.separation)
    (delivered : ∀ signal ∈ there.receivedNews, ∃ message ∈ messages,
      signal = .received receiver.onReceived Terminal.handle message) :
    ∃ changed, Course sender receiver messages failures (step.run here) there changed far := by
  obtain ⟨changed, done⟩ := runs.step timely plans
  obtain ⟨forward, backward⟩ := done.wires there
  have failed : (step.run here).failures = here.failures ++ plan.news.filter Signal.isFailed :=
    done.filter Signal.isFailed fun _ _ _ => rfl
  refine ⟨_, changed, peerRuns, deaf, mute, ?_, ⟨reader, next, flows, ?_, ?_⟩, ?_, delivered⟩
  · rw [failed, List.length_append]
    omega
  · rw [forward]
    exact reads
  · rw [failed]
    exact writes
  · rw [backward]
    exact back

/-- The receiving flow goes on. -/
theorem Course.of_input {step : Step Port} {plan : Plan} {after : Reader}
    (runs : sender.Runs here near) (peerRuns : receiver.Runs there far) (deaf : near.input = {})
    (mute : far.output = {}) (earlier : failures ≤ here.failures.length)
    (timely : step.Timely there)
    (plans : there.Plans Terminal.handle far step now .input plan)
    (follows : plan.Follows sender receiver messages far.input (wire here there) after)
    (writes : sender.Writes messages (failures < here.failures.length) after near.output)
    (back : ∀ frame ∈ wire there here, ∃ status blockSize,
      frame = receiver.encoder.flowControl status blockSize receiver.settings.separation)
    (delivered : ∀ signal ∈ there.receivedNews, ∃ message ∈ messages,
      signal = .received receiver.onReceived Terminal.handle message) :
    ∃ changed, Course sender receiver messages failures here (step.run there) near changed := by
  obtain ⟨changed, done⟩ := peerRuns.step timely plans
  obtain ⟨forward, backward⟩ := done.wires here
  obtain ⟨reader, last, flows, reads, outcome⟩ := follows.onward
  have heard : (step.run there).receivedNews =
      there.receivedNews ++ plan.news.filter Signal.isReceived :=
    done.filter Signal.isReceived fun _ _ _ => rfl
  refine ⟨_, runs, changed, deaf, mute, earlier, ⟨reader, last, flows, ?_, writes.lapse last outcome⟩, ?_, ?_⟩
  · rw [backward]
    exact reads
  · rw [forward]
    refine List.forall_mem_append.mpr ⟨back, fun frame member => ?_⟩
    obtain ⟨status, blockSize, same⟩ := plans.answers rfl peerRuns.address frame member
    rw [peerRuns.settings] at same
    exact ⟨status, blockSize, same⟩
  · rw [heard]
    refine List.forall_mem_append.mpr ⟨delivered, fun signal member => ?_⟩
    obtain ⟨told, received⟩ := List.mem_filter.mp member
    exact follows.delivers signal told received

/-- The sender goes on with its message, or gives it up. -/
theorem Course.sends {step : Step Port} {plan : Plan}
    (course : Course sender receiver messages failures here there near far)
    (timely : step.Timely here) (plans : here.Plans Terminal.handle near step now .output plan)
    (other : ∀ message, step ≠ .submit now Terminal.handle message) :
    ∃ changed, Course sender receiver messages failures (step.run here) there changed far := by
  obtain ⟨reader, place, flows, reads, writes⟩ := course.forth
  obtain ⟨next, onward, later⟩ := writes.goes_on course.runs plans other
  have earlier := course.earlier
  refine Course.of_output course.runs course.peerRuns course.deaf course.mute earlier timely plans
    flows (reads.append onward) (later.mono ?_) course.back course.delivered
  rw [List.length_append]
  rintro (spoiled | failed)
  · omega
  · have some := List.length_pos_iff.mpr failed
    omega

/-- Nothing happens to the sender's receiving flow. -/
theorem Course.deaf_step {step : Step Port} {plan : Plan}
    (course : Course sender receiver messages failures here there near far)
    (timely : step.Timely here) (plans : here.Plans Terminal.handle near step now .input plan)
    (stays : plan = .stay []) :
    ∃ changed, Course sender receiver messages failures (step.run here) there changed far := by
  subst stays
  obtain ⟨changed, done⟩ := course.runs.step timely plans
  obtain ⟨forward, backward⟩ := done.wires there
  have failed : (step.run here).failures = here.failures ++ [] :=
    done.filter Signal.isFailed fun _ _ _ => rfl
  rw [List.append_nil] at failed
  refine ⟨_, changed, course.peerRuns, course.deaf, course.mute, ?_, ?_, ?_, course.delivered⟩
  · rw [failed]
    exact course.earlier
  · rw [failed, forward]
    show ∃ reader place, _ ∧ sender.Reads messages reader (wire here there ++ []) place ∧ _
    rw [List.append_nil]
    exact course.forth
  · rw [backward]
    exact course.back

/-- Nothing happens to the receiver's sending flow. -/
theorem Course.mute_step {step : Step Port} {plan : Plan}
    (course : Course sender receiver messages failures here there near far)
    (timely : step.Timely there) (plans : there.Plans Terminal.handle far step now .output plan)
    (stays : plan = .stay []) :
    ∃ changed, Course sender receiver messages failures here (step.run there) near changed := by
  subst stays
  obtain ⟨changed, done⟩ := course.peerRuns.step timely plans
  obtain ⟨forward, backward⟩ := done.wires here
  have heard : (step.run there).receivedNews = there.receivedNews ++ [] :=
    done.filter Signal.isReceived fun _ _ _ => rfl
  rw [List.append_nil] at heard
  refine ⟨_, course.runs, changed, course.deaf, course.mute, course.earlier, ?_, ?_, ?_⟩
  · rw [backward]
    exact course.forth
  · rw [forward]
    show ∀ frame ∈ wire there here ++ [], _
    rw [List.append_nil]
    exact course.back
  · rw [heard]
    exact course.delivered

/-- Whatever the sender handles, the course goes on. -/
theorem Course.sender_keeps (facing : sender.receives = receiver.transmits) :
    sender.Keeps (fun _ => True)
      fun stack => ∃ near, Course sender receiver messages failures stack there near far where
  runs := fun _ ⟨near, course⟩ => ⟨near, course.runs⟩
  settle := by
    rintro stack now ⟨near, course⟩ noted
    obtain ⟨direction, named, unconfirmed⟩ := course.runs.noted noted
    cases direction with
    | output => exact course.sends trivial (.settle now named) (by simp)
    | input =>
      rw [show (near.flow .input).unconfirmed = near.input.unconfirmed from rfl, course.deaf]
        at unconfirmed
      cases unconfirmed
  arrive := by
    rintro stack now frame rest ⟨near, course⟩ quiet inbox
    have coming : wire there stack = frame :: wire there (stack.polled rest) := by
      unfold wire
      rw [inbox]
      rfl
    have back := course.back
    rw [coming] at back
    obtain ⟨status, blockSize, same⟩ := back frame List.mem_cons_self
    subst same
    refine ⟨(Encoder.id_frame _ _).trans facing.symm, _, Encoder.decode_flowControl _ _ _ _, ?_⟩
    have runs := course.runs.polled quiet rest
    have polled : Course sender receiver messages failures (stack.polled rest) there near far :=
      ⟨runs, course.peerRuns, course.deaf, course.mute, course.earlier, course.forth,
        fun frame member => back frame (List.mem_cons_of_mem _ member), course.delivered⟩
    exact polled.sends quiet (.arrive now _) (by simp)
  expire := by
    rintro stack now alarm alarms ⟨near, course⟩ quiet due -
    have runs := course.runs
    by_cases named : alarm.connection = Terminal.handle
    · have plans : stack.Plans Terminal.handle near (.expire now) now _ _ := .expire now due named
      cases own : alarm.direction with
      | output =>
        rw [own] at plans
        exact course.sends quiet plans (by simp)
      | input =>
        rw [own] at plans
        exact course.deaf_step quiet plans ((near.input_stays _ course.deaf).2.2 alarm own)
    · obtain ⟨after, still⟩ := runs.expire_other quiet due named
      rw [after]
      exact ⟨near, still, course.peerRuns, course.deaf, course.mute, course.earlier, course.forth,
        course.back, course.delivered⟩

/-- Whatever the receiver handles, the course goes on. -/
theorem Course.receiver_keeps (facing : receiver.receives = sender.transmits) :
    receiver.Keeps (fun _ => True)
      fun stack => ∃ far, Course sender receiver messages failures here stack near far where
  runs := fun _ ⟨far, course⟩ => ⟨far, course.peerRuns⟩
  settle := by
    rintro stack now ⟨far, course⟩ noted
    obtain ⟨direction, named, unconfirmed⟩ := course.peerRuns.noted noted
    cases direction with
    | input =>
      obtain ⟨reader, place, flows, reads, writes⟩ := course.forth
      exact Course.of_input course.runs course.peerRuns course.deaf course.mute course.earlier trivial
        (.settle now named) (flows.confirmed (stack.scope now Terminal.handle) reads) writes
        course.back course.delivered
    | output =>
      rw [show (far.flow .output).unconfirmed = far.output.unconfirmed from rfl, course.mute]
        at unconfirmed
      cases unconfirmed
  arrive := by
    rintro stack now frame rest ⟨far, course⟩ quiet inbox
    have coming : wire here stack = frame :: wire here (stack.polled rest) := by
      unfold wire
      rw [inbox]
      rfl
    obtain ⟨reader, place, flows, reads, writes⟩ := course.forth
    rw [coming] at reads
    have runs := course.peerRuns.polled quiet rest
    have named : frame.id = receiver.address.receives :=
      (reads.frames frame List.mem_cons_self).trans facing.symm
    obtain ⟨pdu, read, own, follows⟩ :=
      flows.arrive reads (runs.serves now) (runs.confirmed quiet .input) stack.memory
    refine ⟨named, pdu, read, ?_⟩
    have plans : (stack.polled rest).Plans Terminal.handle far (.arrive now Terminal.handle pdu) now
      _ _ := .arrive now pdu
    rw [own] at plans
    exact Course.of_input course.runs runs course.deaf course.mute course.earlier quiet plans follows
      writes course.back course.delivered
  expire := by
    rintro stack now alarm alarms ⟨far, course⟩ quiet due -
    have runs := course.peerRuns
    by_cases named : alarm.connection = Terminal.handle
    · have plans : stack.Plans Terminal.handle far (.expire now) now _ _ := .expire now due named
      cases own : alarm.direction with
      | input =>
        rw [own] at plans
        obtain ⟨reader, place, flows, reads, writes⟩ := course.forth
        exact Course.of_input course.runs runs course.deaf course.mute course.earlier quiet plans
          (flows.expired reads own) writes course.back course.delivered
      | output =>
        rw [own] at plans
        exact course.mute_step quiet plans ((far.output_stays _ course.mute).2.2 alarm own)
    · obtain ⟨after, still⟩ := runs.expire_other quiet due named
      rw [after]
      exact ⟨far, course.runs, still, course.deaf, course.mute, course.earlier, course.forth,
        course.back, course.delivered⟩

/-- A reader whose flow is at rest is between two messages. -/
theorem Reader.Flows.resting {reader : Reader} {flow : Flow}
    (flows : reader.Flows sender receiver flow) (idle : flow.phase = .idle) : reader = .between := by
  cases flows with
  | rests => rfl
  | refuses refusing => rfl
  | takes reception =>
    have busy := reception.collecting.not_idle
    unfold Flow.isIdle at busy
    simp [idle] at busy

/-- The sender is given a message. -/
theorem Course.send (course : Course sender receiver messages failures here there near far)
    (facing : sender.receives = receiver.transmits) (quiet : here.confirmations = [])
    {message : List UInt8} (member : message ∈ messages) (now : Tick) {begins : Bool}
    (whether : begins = true ↔ sender.encoder.singleCapacity < message.length ∧
      (here.send now Terminal.handle message).1 = .ok ())
    (clean : begins = true → failures < here.failures.length → far.input.phase = .idle ∧
      ∀ frame ∈ wire here there, ∀ length data,
        Pdu.decode frame.payload ≠ some (.first length data)) :
    (∃ changed, Course sender receiver messages
        (if begins then here.failures.length else failures)
        (here.send now Terminal.handle message).2 there changed far) ∧
      (here.send now Terminal.handle message).2.confirmations = [] := by
  obtain ⟨reader, place, flows, reads, writes⟩ := course.forth
  have timely : (Step.submit now Terminal.handle message).Timely here := quiet
  obtain ⟨silent, next, onward, later⟩ := writes.submitted course.runs quiet member whether
    (fun began spoiled => by
      obtain ⟨idle, calm⟩ := clean began spoiled
      exact reads.clear (flows.resting idle) calm) rfl
  have earlier := course.earlier
  have since : (if begins then here.failures.length else failures) ≤ here.failures.length := by
    split <;> omega
  have submitted := Course.of_output course.runs course.peerRuns course.deaf course.mute since timely
    (.submit now message) flows (reads.append onward) (later.mono ?_) course.back course.delivered
  · rw [Stack.send_eq]
    exact (Course.sender_keeps facing).settled submitted now
  · rintro ⟨spoiled, still⟩
    rw [silent, if_neg still]
    simpa using spoiled

/-- The line carries a frame on, at whichever end. -/
theorem Course.carry (course : Course sender receiver messages failures here there near far)
    (quiet : here.confirmations = []) (peerQuiet : there.confirmations = []) {frame : Frame}
    {rest : List Frame} :
    (here.outside.world.outbox = frame :: rest → Course sender receiver messages failures
      ((Call.world fun port : Port => { port with outbox := rest }).run here)
      ((Call.world fun port : Port => { port with inbox := port.inbox ++ [frame] }).run there)
      near far) ∧
    (there.outside.world.outbox = frame :: rest → Course sender receiver messages failures
      ((Call.world fun port : Port => { port with inbox := port.inbox ++ [frame] }).run here)
      ((Call.world fun port : Port => { port with outbox := rest }).run there) near far) := by
  refine ⟨fun outbox => ?_, fun outbox => ?_⟩
  · refine ⟨course.runs.world quiet _, course.peerRuns.world peerQuiet _, course.deaf, course.mute,
      course.earlier, ?_, course.back, course.delivered⟩
    rw [wire_carry outbox]
    exact course.forth
  · refine ⟨course.runs.world quiet _, course.peerRuns.world peerQuiet _, course.deaf, course.mute,
      course.earlier, course.forth, ?_, course.delivered⟩
    rw [wire_carry outbox]
    exact course.back

end

/-- A course of messages from the left terminal to the right one, with nothing left noted. -/
structure Ends.Courses (terminals : Side → Terminal) (messages : List (List UInt8)) (failures : Nat)
    (ends : Ends) : Prop where
  course : ∃ near far, Course (terminals .left) (terminals .right) messages failures (ends .left)
    (ends .right) near far
  quiet : ∀ side, (ends side).confirmations = []

section

variable {terminals : Side → Terminal} {messages : List (List UInt8)} {failures : Nat} {ends : Ends}

/-- Whatever the left terminal is given, and whatever is handled and carried, the course goes on. -/
theorem Ends.Courses.move (courses : ends.Courses terminals messages failures)
    (mirrored : ∀ side, (terminals side).receives = (terminals side.other).transmits) (move : Move)
    (member : ∀ message, move.message? = some message → message ∈ messages)
    (clean : move.begins terminals ends = true → failures < (ends .left).failures.length →
      ends.Clear) :
    (move.run terminals ends).Courses terminals messages
      (if move.begins terminals ends then (ends .left).failures.length else failures) := by
  obtain ⟨⟨near, far, course⟩, quiet⟩ := courses
  cases move with
  | send now message =>
    have whether : (Move.send now message).begins terminals ends = true ↔
        (terminals .left).encoder.singleCapacity < message.length ∧
          ((ends .left).send now Terminal.handle message).1 = .ok () := by
      unfold Move.begins
      rw [Bool.and_eq_true, decide_eq_true_iff]
      refine and_congr_right fun _ => ?_
      cases ((ends .left).send now Terminal.handle message).1 <;> simp [Except.isOk, Except.toBool]
    obtain ⟨⟨changed, sent⟩, still⟩ := course.send (mirrored .left) (quiet .left)
      (member message rfl) now whether fun began spoiled => by
        obtain ⟨⟨sending, phases⟩, calm⟩ := clean began spoiled
        refine ⟨?_, calm⟩
        unfold Stack.phases at phases
        rw [course.peerRuns.live] at phases
        exact (Prod.mk.inj (Except.ok.inj phases)).2
    refine ⟨⟨changed, far, sent⟩, fun side => ?_⟩
    cases side with
    | left => exact still
    | right => exact quiet .right
  | process side now =>
    cases side with
    | left =>
      obtain ⟨⟨changed, handled⟩, still⟩ := (Course.sender_keeps (mirrored .left)).process
        ⟨near, course⟩ (quiet .left) now fun _ _ => trivial
      refine ⟨⟨changed, far, handled⟩, fun side => ?_⟩
      cases side with
      | left => exact still
      | right => exact quiet .right
    | right =>
      obtain ⟨⟨changed, handled⟩, still⟩ := (Course.receiver_keeps (mirrored .right)).process
        ⟨far, course⟩ (quiet .right) now fun _ _ => trivial
      refine ⟨⟨near, changed, handled⟩, fun side => ?_⟩
      cases side with
      | left => exact quiet .left
      | right => exact still
  | carry side =>
    show Ends.Courses terminals messages failures ((Act.carry side).run terminals ends)
    cases outbox : (ends side).outside.world.outbox with
    | nil =>
      rw [Act.carry_nil outbox]
      exact ⟨⟨near, far, course⟩, quiet⟩
    | cons frame rest =>
      obtain ⟨own, other⟩ := Act.carry_cons terminals outbox
      cases side with
      | left =>
        refine ⟨⟨near, far, ?_⟩, fun side => ?_⟩
        · rw [own, show Side.right = Side.left.other from rfl, other]
          exact (course.carry (quiet .left) (quiet .right)).1 outbox
        · cases side with
          | left =>
            rw [own]
            exact quiet .left
          | right =>
            rw [show Side.right = Side.left.other from rfl, other]
            exact quiet .right
      | right =>
        refine ⟨⟨near, far, ?_⟩, fun side => ?_⟩
        · rw [own, show Side.left = Side.right.other from rfl, other]
          exact (course.carry (quiet .left) (quiet .right)).2 outbox
        · cases side with
          | left =>
            rw [show Side.left = Side.right.other from rfl, other]
            exact quiet .left
          | right =>
            rw [own]
            exact quiet .right

theorem Ends.Courses.moved (courses : ends.Courses terminals messages failures)
    (mirrored : ∀ side, (terminals side).receives = (terminals side.other).transmits)
    (moves : List Move) (member : ∀ message ∈ moves.filterMap Move.message?, message ∈ messages)
    (heedful : ends.Heedful terminals failures moves) :
    ∃ failures, (ends.moved terminals moves).Courses terminals messages failures := by
  induction moves generalizing ends failures with
  | nil => exact ⟨failures, courses⟩
  | cons move rest ih =>
    obtain ⟨clean, later⟩ := heedful
    refine ih (courses.move mirrored move (fun message given => ?_) clean)
      (fun message given => ?_) later
    · exact member message (List.mem_filterMap.mpr ⟨move, List.mem_cons_self, given⟩)
    · obtain ⟨other, among, given⟩ := List.mem_filterMap.mp given
      exact member message (List.mem_filterMap.mpr ⟨other, List.mem_cons_of_mem _ among, given⟩)

/-- A line on which nothing has happened yet. -/
theorem Ends.opened_courses {fresh : Ends}
    (made : ∀ side, Stack.new (terminals side).settings {} = .ok (fresh side))
    (capable : ∀ side, (terminals side).flexible = true → (terminals side).capable = true)
    (messages : List (List UInt8)) :
    (Ends.opened terminals fresh).Courses terminals messages 0 := by
  have opens (side : Side) := Terminal.opens (made side) (capable side)
  have outside (side : Side) : (Ends.opened terminals fresh side).outside = { world := {} } :=
    (opens side).2
  have empty (side other : Side) :
      wire (Ends.opened terminals fresh side) (Ends.opened terminals fresh other) = [] := by
    unfold wire
    rw [outside, outside]
    rfl
  refine ⟨⟨_, _, (opens .left).1, (opens .right).1, rfl, rfl, Nat.zero_le _, ?_, ?_, ?_⟩,
    fun side => ?_⟩
  · rw [empty]
    exact ⟨.between, .between, .rests, .done _, .rests (Or.inl rfl)⟩
  · rw [empty]
    simp
  · unfold Stack.receivedNews
    rw [outside]
    simp
  · have quiet := (Stack.new_smooth (made side) (terminals side).opening).quiet
    rw [← Stack.calls_eq] at quiet
    exact quiet

end

/-- All that the right terminal is told of messages is of messages that the left one was given. -/
def Ends.Faithful (terminals : Side → Terminal) (ends : Ends) (moves : List Move) : Prop :=
  ∀ signal ∈ (ends.moved terminals moves .right).receivedNews,
    ∃ message ∈ moves.filterMap Move.message?,
      signal = .received (terminals .right).onReceived Terminal.handle message

/-- Two terminals that listen to each other are put into operation, and the left one is given
messages. Frames, confirmations and alarms are handled in whatever order and however late, and
transfers may fail at either end. If the left terminal, after a failure, takes a message of several
frames only when the right one is not receiving and no first frame is on its way to it, then every
message that the right terminal is told of is one that the left one was given. -/
theorem delivered_messages_were_given {terminals : Side → Terminal} {fresh : Ends}
    (made : ∀ side, Stack.new (terminals side).settings {} = .ok (fresh side))
    (mirrored : ∀ side, (terminals side).receives = (terminals side.other).transmits)
    (capable : ∀ side, (terminals side).flexible = true → (terminals side).capable = true)
    (moves : List Move) (heedful : (Ends.opened terminals fresh).Heedful terminals 0 moves) :
    (Ends.opened terminals fresh).Faithful terminals moves := by
  obtain ⟨_, ⟨_, _, course⟩, _⟩ := (Ends.opened_courses made capable _).moved mirrored moves
    (fun _ member => member) heedful
  exact course.delivered

/-- A message is given up by both ends, but its invitation is still on the line and lets the next
message start. -/
def sampleMoves : List Move :=
  [.send 0 [1, 2, 3, 4, 5, 6, 7, 8], .carry .left, .process .right 1, .process .left 1000,
    .process .right 1001, .send 1001 [11, 12, 13, 14, 15, 16, 17, 18], .carry .right,
    .process .left 1002, .carry .left, .carry .left, .process .right 1003]

theorem sample_delivered_messages_were_given :
    (Ends.opened sampleTerminals sampleFresh).Heedful sampleTerminals 0 sampleMoves ∧
      ((Ends.opened sampleTerminals sampleFresh).moved sampleTerminals sampleMoves .right).receivedNews =
        [.received (.application 0) Terminal.handle [11, 12, 13, 14, 15, 16, 17, 18]] ∧
      (Ends.opened sampleTerminals sampleFresh).Faithful sampleTerminals sampleMoves := by
  have made (side : Side) :
      Stack.new (sampleTerminals side).settings {} = .ok (sampleFresh side) := by
    cases side <;> rfl
  have mirrored (side : Side) :
      (sampleTerminals side).receives = (sampleTerminals side.other).transmits := by
    cases side <;> rfl
  have capable (side : Side) :
      (sampleTerminals side).flexible = true → (sampleTerminals side).capable = true := by
    cases side <;> decide
  have heedful : (Ends.opened sampleTerminals sampleFresh).Heedful sampleTerminals 0 sampleMoves := by
    have still {began : Bool} {claim : Prop} (none : began = false) : began = true → claim :=
      fun begins => absurd (none.symm.trans begins) (by decide)
    refine ⟨fun _ failed => absurd failed (by decide +kernel), still rfl, still rfl, still rfl,
      still rfl, fun _ _ => ⟨⟨.idle, rfl⟩, fun frame member => ?_⟩, still rfl, still rfl, still rfl,
      still rfl, still rfl, trivial⟩
    cases member
  have arrived : ((Ends.opened sampleTerminals sampleFresh).moved sampleTerminals sampleMoves
      .right).receivedNews =
        [.received (.application 0) Terminal.handle [11, 12, 13, 14, 15, 16, 17, 18]] := by
    rfl
  exact ⟨heedful, arrived, delivered_messages_were_given made mirrored capable sampleMoves heedful⟩

/-- The left terminal gives up a message whose first frame has not been taken in yet, and is given
another one of the same length. -/
def mixingMoves : List Move :=
  [.send 0 [1, 2, 3, 4, 5, 6, 7, 8], .carry .left, .process .left 1000,
    .send 1000 [11, 12, 13, 14, 15, 16, 17, 18], .carry .left, .process .right 1000,
    .carry .right, .process .left 1000, .carry .left, .process .right 1000]

/-- The right terminal takes the first frame of the one message and the second frame of the other,
and is told of a message that was never given. -/
theorem messages_are_mixed :
    ((Ends.opened sampleTerminals sampleFresh).moved sampleTerminals mixingMoves .right).receivedNews =
        [.received (.application 0) Terminal.handle [1, 2, 3, 4, 5, 6, 17, 18]] ∧
      ¬(Ends.opened sampleTerminals sampleFresh).Faithful sampleTerminals mixingMoves := by
  have arrived : ((Ends.opened sampleTerminals sampleFresh).moved sampleTerminals mixingMoves
      .right).receivedNews =
        [.received (.application 0) Terminal.handle [1, 2, 3, 4, 5, 6, 17, 18]] := by
    rfl
  refine ⟨arrived, fun faithful => ?_⟩
  obtain ⟨message, given, same⟩ := faithful _ (arrived ▸ List.mem_cons_self)
  obtain ⟨_, _, rfl⟩ := Signal.received.inj same
  exact absurd given (by decide)

end DiagBus
