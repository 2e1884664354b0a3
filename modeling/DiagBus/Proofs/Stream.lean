import DiagBus.Proofs.Terminals
import DiagBus.Proofs.Transmission

namespace DiagBus

/-- The terminal with another message to send. -/
def Terminal.saying (terminal : Terminal) (message : List UInt8) : Terminal :=
  { terminal with message }

/-- The terminal was given this message, and can send it. -/
structure Terminal.Given (terminal : Terminal) (messages : List (List UInt8))
    (message : List UInt8) : Prop where
  member : message ∈ messages
  fits : (terminal.saying message).Fits

/-- Where a reader of frames stands: between two messages, or inside one of which it has read some
frames. -/
inductive Reader
  | between
  | inside (message : List UInt8) (read : List Frame)

/-- Where a reader stands behind these frames of a message. -/
def Terminal.standing (terminal : Terminal) (message : List UInt8) (read : List Frame) : Reader :=
  if read = terminal.encoder.segmentation message then .between else .inside message read

/-- These frames take a reader from one place to another. It passes by consecutive frames of which
it has not read the first frame, and single frames wherever it stands; but no message begins while
it is inside another. -/
inductive Terminal.Reads (sender : Terminal) (messages : List (List UInt8)) :
    Reader → List Frame → Reader → Prop
  | done (place : Reader) : Reads sender messages place [] place
  | single {place after : Reader} {message : List UInt8} {frame : Frame} {rest : List Frame}
      (given : sender.Given messages message)
      (short : message.length ≤ sender.encoder.singleCapacity)
      (whole : [frame] = sender.encoder.segmentation message)
      (later : Reads sender messages place rest after) :
      Reads sender messages place (frame :: rest) after
  | first {after : Reader} {message : List UInt8} {frame : Frame} {others rest : List Frame}
      (given : sender.Given messages message)
      (long : sender.encoder.singleCapacity < message.length)
      (whole : frame :: others = sender.encoder.segmentation message)
      (later : Reads sender messages (sender.standing message [frame]) rest after) :
      Reads sender messages .between (frame :: rest) after
  | skip {after : Reader} {message : List UInt8} {frame : Frame} {read others rest : List Frame}
      (started : read ≠ []) (whole : read ++ frame :: others = sender.encoder.segmentation message)
      (later : Reads sender messages .between rest after) :
      Reads sender messages .between (frame :: rest) after
  | next {after : Reader} {message : List UInt8} {frame : Frame} {read others rest : List Frame}
      (given : sender.Given messages message) (started : read ≠ [])
      (whole : read ++ frame :: others = sender.encoder.segmentation message)
      (later : Reads sender messages (sender.standing message (read ++ [frame])) rest after) :
      Reads sender messages (.inside message read) (frame :: rest) after

/-- The receiving flow of a reader that stands there. -/
inductive Reader.Flows (sender receiver : Terminal) : Reader → Flow → Prop
  | rests : Flows sender receiver .between {}
  | refuses {flow : Flow} (refusing : flow.Refusing) : Flows sender receiver .between flow
  | takes {message first : List UInt8} {arrived : List (UInt8 × List UInt8)} {read : List Frame}
      {flow : Flow} (reception : Taken (sender.saying message) receiver first arrived read flow) :
      Flows sender receiver (.inside message read) flow

/-- The sending flow, while a reader of all its frames stands at this place. The reader is inside no
message but the one that is being sent, unless the line is spoiled by one that was given up. -/
inductive Terminal.Writes (sender : Terminal) (messages : List (List UInt8)) (spoiled : Prop) :
    Reader → Flow → Prop
  | rests {place : Reader} (clean : place = .between ∨ spoiled) :
      Writes sender messages spoiled place {}
  | sends {place : Reader} {message : List UInt8} {emitted : List Frame} {flow : Flow}
      (given : sender.Given messages message)
      (underway : Underway sender.encoder message emitted flow) (started : emitted ≠ [])
      (clean : place = .between ∨ place = sender.standing message emitted ∨
        spoiled ∧ emitted = sender.encoder.segmentation message) :
      Writes sender messages spoiled place flow

section

variable {sender receiver : Terminal} {messages : List (List UInt8)} {place after : Reader}
  {onWay rest : List Frame} {frame : Frame} {message : List UInt8}

theorem Terminal.Reads.append (early : sender.Reads messages place onWay after) {last : Reader}
    (late : sender.Reads messages after rest last) :
    sender.Reads messages place (onWay ++ rest) last := by
  induction early with
  | done place => exact late
  | single given short whole _ ih => exact .single given short whole (ih late)
  | first given long whole _ ih => exact .first given long whole (ih late)
  | skip started whole _ ih => exact .skip started whole (ih late)
  | next given started whole _ ih => exact .next given started whole (ih late)

/-- A reader that gives up its message can still read on. -/
theorem Terminal.Reads.lapse (reads : sender.Reads messages place onWay after) :
    ∃ last, sender.Reads messages .between onWay last ∧ (last = .between ∨ last = after) := by
  induction reads with
  | done place => exact ⟨_, .done _, Or.inl rfl⟩
  | single given short whole _ ih =>
    obtain ⟨last, reads, outcome⟩ := ih
    exact ⟨last, .single given short whole reads, outcome⟩
  | first given long whole later _ => exact ⟨_, .first given long whole later, Or.inr rfl⟩
  | skip started whole later _ => exact ⟨_, .skip started whole later, Or.inr rfl⟩
  | next given started whole _ ih =>
    obtain ⟨last, reads, outcome⟩ := ih
    exact ⟨last, .skip started whole reads, outcome⟩

/-- Without a first frame no reader gets into a message. -/
theorem Terminal.Reads.clear (reads : sender.Reads messages place onWay after)
    (between : place = .between)
    (calm : ∀ frame ∈ onWay, ∀ length data,
      Pdu.decode frame.payload ≠ some (.first length data)) : after = .between := by
  induction reads with
  | done place => exact between
  | single given short whole later ih =>
    exact ih between fun frame member => calm frame (List.mem_cons_of_mem _ member)
  | @first _ message frame _ _ given long whole later ih =>
    rw [Encoder.segmentation, if_neg (by omega)] at whole
    obtain ⟨rfl, _⟩ := List.cons.inj whole
    exact absurd (Encoder.decode_first long given.fits.announces)
      (calm _ List.mem_cons_self _ _)
  | skip started whole later ih =>
    exact ih rfl fun frame member => calm frame (List.mem_cons_of_mem _ member)
  | next given started whole later ih => cases between

/-- The frames on the line are addressed to the receiver, and none of them is flow control. -/
theorem Terminal.Reads.frames (reads : sender.Reads messages place onWay after) :
    ∀ frame ∈ onWay, frame.id = sender.address.transmits := by
  have own {message : List UInt8} {frame : Frame} (given : sender.Given messages message)
      (member : frame ∈ sender.encoder.segmentation message) :
      frame.id = sender.address.transmits :=
    (Encoder.decode_segmentation given.fits.some given.fits.announces frame member).1
  induction reads with
  | done place => simp
  | single given short whole later ih =>
    exact List.forall_mem_cons.mpr ⟨own given (whole ▸ List.mem_cons_self), ih⟩
  | first given long whole later ih =>
    exact List.forall_mem_cons.mpr ⟨own given (whole ▸ List.mem_cons_self), ih⟩
  | skip started whole later ih =>
    exact List.forall_mem_cons.mpr ⟨(Encoder.decode_later whole started).1, ih⟩
  | next given started whole later ih =>
    exact List.forall_mem_cons.mpr ⟨(Encoder.decode_later whole started).1, ih⟩

/-- A reader that still awaits frames of a message is inside it. -/
theorem Terminal.standing_of_taken {first : List UInt8} {arrived : List (UInt8 × List UInt8)}
    {read : List Frame} {flow : Flow}
    (reception : Taken (sender.saying message) receiver first arrived read flow) :
    sender.standing message read = .inside message read :=
  if_neg reception.more

theorem Terminal.Writes.lapse {spoiled : Prop} {flow : Flow}
    (writes : sender.Writes messages spoiled place flow) (last : Reader)
    (outcome : last = .between ∨ last = place) : sender.Writes messages spoiled last flow := by
  rcases outcome with rfl | rfl
  · cases writes with
    | rests clean => exact .rests (Or.inl rfl)
    | sends given underway started clean => exact .sends given underway started (Or.inl rfl)
  · exact writes

end

section

variable {ω : Type} {connection : Connection} {scope : Scope ω} {sender receiver : Terminal}
  {messages : List (List UInt8)} {place after reader : Reader} {rest : List Frame} {frame : Frame}

/-- What the receiver tells of the messages that it has put together. -/
def Plan.Delivers (plan : Plan) (receiver : Terminal) (messages : List (List UInt8)) : Prop :=
  ∀ signal ∈ plan.news, signal.isReceived = true →
    ∃ message ∈ messages, signal = .received receiver.onReceived Terminal.handle message

/-- The plan of a receiving flow takes its reader to a place from which it can read the rest. -/
structure Plan.Follows (plan : Plan) (sender receiver : Terminal) (messages : List (List UInt8))
    (old : Flow) (rest : List Frame) (after : Reader) : Prop where
  onward : ∃ (reader last : Reader), reader.Flows sender receiver (plan.flow old) ∧
    sender.Reads messages reader rest last ∧ (last = .between ∨ last = after)
  delivers : plan.Delivers receiver messages

theorem Connection.failure_delivers (connection : Connection) (scope : Scope ω) (fault : Fault)
    (receiver : Terminal) (messages : List (List UInt8)) :
    ∀ signal ∈ connection.failure scope fault, signal.isReceived = true →
      ∃ message ∈ messages, signal = .received receiver.onReceived Terminal.handle message := by
  intro signal member received
  obtain ⟨_, _, rfl⟩ := mem_told.mp member
  cases received

/-- The receiver reads the next frame on the line. -/
theorem Reader.Flows.arrive (flows : reader.Flows sender receiver connection.input)
    (reads : sender.Reads messages reader (frame :: rest) after)
    (serves : receiver.Serves scope connection)
    (confirmed : connection.input.unconfirmed = false) (memory : Memory) :
    ∃ pdu, Pdu.decode frame.payload = some pdu ∧ pdu.direction = .input ∧
      (connection.received scope memory pdu).Follows sender receiver messages connection.input rest
        after := by
  have unrefusing (refusing : connection.input.Refusing) : False := by
    rw [show connection.input = _ from refusing] at confirmed
    cases confirmed
  cases reads with
  | @single _ _ message _ _ given short whole later =>
    rw [Encoder.segmentation, if_pos short] at whole
    obtain ⟨rfl, _⟩ := List.cons.inj whole
    refine ⟨_, Encoder.decode_single given.fits.some short, rfl, ?_⟩
    show (connection.singleReceived scope message).Follows _ _ _ _ _ _
    unfold Connection.singleReceived
    generalize same : connection.input = input at flows unrefusing
    cases flows with
    | rests =>
      rw [serves.onReceived, serves.handle]
      refine ⟨⟨_, _, .rests, later, Or.inr rfl⟩, ?_⟩
      intro signal member _
      exact ⟨message, given.member, List.mem_singleton.mp member⟩
    | refuses refusing => exact (unrefusing refusing).elim
    | takes reception =>
      rw [if_neg (by simp [reception.collecting.not_idle])]
      exact ⟨⟨_, _, .takes reception, later, Or.inr rfl⟩, by simp [Plan.Delivers, Plan.news]⟩
  | @first _ message _ _ _ given long whole later =>
    generalize same : connection.input = input at flows unrefusing
    cases flows with
    | refuses refusing => exact (unrefusing refusing).elim
    | rests =>
      obtain ⟨first, read, news, answer, flow, plan, outcome⟩ :=
        Taken.starts given.fits long whole serves same memory
      refine ⟨_, read, rfl, ?_⟩
      unfold Connection.received
      simp only [plan]
      rcases outcome with ⟨_, rfl, rfl⟩ | ⟨_, rfl, _, _, reception⟩
      · obtain ⟨last, reads, lapsed⟩ := later.lapse
        exact ⟨⟨_, last, .refuses rfl, reads, lapsed⟩, connection.failure_delivers scope _ _ _⟩
      · rw [Terminal.standing_of_taken reception] at later
        exact ⟨⟨_, _, .takes reception, later, Or.inr rfl⟩, by simp [Plan.Delivers, Plan.news]⟩
  | skip started whole later =>
    obtain ⟨_, sequence, data, read⟩ := Encoder.decode_later whole started
    refine ⟨_, read, rfl, ?_⟩
    generalize same : connection.input = input at flows unrefusing
    cases flows with
    | refuses refusing => exact (unrefusing refusing).elim
    | rests =>
      have stays := (connection.input_stays scope same).2.1 sequence data
      unfold Connection.received
      simp only [stays]
      exact ⟨⟨_, _, .rests, later, Or.inr rfl⟩, by simp [Plan.Delivers, Plan.news]⟩
  | @next _ message _ read others _ given started whole later =>
    cases flows with
    | takes reception =>
      obtain ⟨pdu, decoded, own, grows⟩ := reception.received whole serves confirmed memory
      refine ⟨pdu, decoded, own, ?_⟩
      generalize connection.received scope memory pdu = plan at grows
      cases grows with
      | complete last =>
        subst last
        rw [Terminal.standing, if_pos whole] at later
        refine ⟨⟨_, _, .rests, later, Or.inr rfl⟩, ?_⟩
        intro signal member _
        exact ⟨message, given.member, List.mem_singleton.mp member⟩
      | more reception _ _ =>
        rw [Terminal.standing_of_taken reception] at later
        exact ⟨⟨_, _, .takes reception, later, Or.inr rfl⟩, by simp [Plan.Delivers, Plan.news]⟩
      | block reception _ _ _ =>
        rw [Terminal.standing_of_taken reception] at later
        exact ⟨⟨_, _, .takes reception, later, Or.inr rfl⟩, by simp [Plan.Delivers, Plan.news]⟩

/-- The receiver's answer is on the bus. -/
theorem Reader.Flows.confirmed (scope : Scope ω)
    (flows : reader.Flows sender receiver connection.input)
    (reads : sender.Reads messages reader rest after) :
    connection.inputConfirmed.Follows sender receiver messages connection.input rest after := by
  generalize same : connection.input = input at flows
  cases flows with
  | rests =>
    rw [(connection.input_stays scope same).1]
    exact ⟨⟨_, _, .rests, reads, Or.inr rfl⟩, by simp [Plan.Delivers, Plan.news]⟩
  | refuses refusing =>
    subst same
    rw [(connection.refusing_rests scope refusing).1]
    exact ⟨⟨_, _, .rests, reads, Or.inr rfl⟩, by simp [Plan.Delivers, Plan.news]⟩
  | takes reception =>
    subst same
    by_cases unconfirmed : connection.input.unconfirmed = true
    · rw [reception.inputConfirmed_eq unconfirmed]
      exact ⟨⟨_, _, .takes reception.confirmed, reads, Or.inr rfl⟩,
        by simp [Plan.Delivers, Plan.news]⟩
    · unfold Connection.inputConfirmed
      rw [if_pos (by simpa using unconfirmed)]
      exact ⟨⟨_, _, .takes reception, reads, Or.inr rfl⟩, by simp [Plan.Delivers, Plan.news]⟩

/-- The receiver gives up a message that it awaits in vain. -/
theorem Reader.Flows.expired (flows : reader.Flows sender receiver connection.input)
    (reads : sender.Reads messages reader rest after) {alarm : Alarm}
    (own : alarm.direction = .input) :
    (connection.expired scope alarm).Follows sender receiver messages connection.input rest
      after := by
  cases alarm with
  | output handle => cases own
  | separation handle => cases own
  | input handle =>
    unfold Connection.expired
    simp only []
    obtain ⟨last, lapse, outcome⟩ := reads.lapse
    split
    · exact ⟨⟨_, _, flows, reads, Or.inr rfl⟩, by simp [Plan.Delivers, Plan.news]⟩
    · exact ⟨⟨_, last, .rests, lapse, outcome⟩, connection.failure_delivers scope _ _ _⟩

/-- The receiving flow hands over nothing but flow control. -/
theorem Stack.Plans.answers {stack : Stack ω} {handle : Handle} {step : Step ω} {now : Tick}
    {direction : Direction} {plan : Plan} {address : Address}
    (plans : stack.Plans handle connection step now direction plan) (own : direction = .input)
    (bound : connection.address = some address) :
    ∀ frame ∈ plan.frames, ∃ status blockSize, frame =
      (address.encoder stack.settings).flowControl status blockSize stack.settings.separation := by
  have answer (news : List Signal) (flow : Flow) :
      ∀ frame ∈ (connection.answer (stack.scope now handle) news flow).frames,
        ∃ status blockSize, frame = (address.encoder stack.settings).flowControl status blockSize
          stack.settings.separation := by
    rw [connection.answer_eq _ bound]
    exact fun frame member => ⟨_, _, List.mem_singleton.mp member⟩
  have nothing : ∀ frame ∈ ([] : List Frame), ∃ status blockSize, frame =
      (address.encoder stack.settings).flowControl status blockSize stack.settings.separation := by
    simp
  have confirmed : ∀ frame ∈ connection.inputConfirmed.frames, ∃ status blockSize, frame =
      (address.encoder stack.settings).flowControl status blockSize stack.settings.separation := by
    unfold Connection.inputConfirmed
    split
    · exact nothing
    · simp only []
      split
      · split <;> exact nothing
      · exact nothing
  cases plans with
  | submit _ message => cases own
  | arrive _ pdu =>
    cases pdu with
    | single message =>
      unfold Connection.received Connection.singleReceived
      simp only []
      split <;> exact nothing
    | first length data =>
      unfold Connection.received Connection.firstReceived
      simp only []
      split
      · exact nothing
      · split
        · exact nothing
        · split <;> exact answer _ _
    | consecutive sequence data =>
      unfold Connection.received Connection.consecutiveReceived
      simp only []
      split
      · exact nothing
      · split
        · exact nothing
        · split
          · exact nothing
          · split
            · exact answer _ _
            · exact nothing
    | flowControl status blockSize separation => cases own
  | confirm _ direction =>
    cases own
    exact confirmed
  | settle _ noted =>
    cases own
    exact confirmed
  | @expire _ alarm _ due named =>
    cases alarm with
    | input handle =>
      unfold Connection.expired
      simp only []
      split <;> exact nothing
    | output handle => cases own
    | separation handle => cases own

/-- A sending flow goes on with its message, ends it, or gives it up. -/
theorem Terminal.Writes.goes_on {spoiled : Prop} {stack : Stack Port} {step : Step Port}
    {now : Tick} {plan : Plan} (runs : sender.Runs stack connection)
    (plans : stack.Plans Terminal.handle connection step now .output plan)
    (writes : sender.Writes messages spoiled place connection.output)
    (other : ∀ message, step ≠ .submit now Terminal.handle message) :
    ∃ next, sender.Reads messages place plan.frames next ∧
      sender.Writes messages (spoiled ∨ plan.news.filter Signal.isFailed ≠ []) next
        (plan.flow connection.output) := by
  generalize same : connection.output = output at writes
  cases writes with
  | rests clean =>
    rcases plans.output_stays rfl same with rfl | ⟨message, submits⟩
    · exact ⟨place, .done _, .rests (clean.imp_right Or.inl)⟩
    · exact absurd submits (other message)
  | @sends message emitted _ given underway started clean =>
    subst same
    have sends := plans.sends rfl runs.address (by rw [runs.settings]; exact underway)
    have still : place = .between ∨ place = sender.standing message emitted ∨
        (spoiled ∨ plan.news.filter Signal.isFailed ≠ []) ∧
          emitted = sender.encoder.segmentation message :=
      clean.imp_right (Or.imp_right (And.imp_left Or.inl))
    have encoder := (runs.serves now).encoder_eq
    cases sends with
    | stay => exact ⟨place, .done _, .sends given underway started still⟩
    | wait onward =>
      rw [encoder] at onward
      exact ⟨place, .done _, .sends given onward started still⟩
    | @hand frame flow onward shrinks =>
      rw [encoder] at onward
      have whole := onward.sent.frames
      rw [List.append_assoc, List.singleton_append] at whole
      have more : emitted ≠ sender.encoder.segmentation message := by
        intro complete
        rw [complete] at whole
        exact absurd (List.append_right_eq_self.mp whole) (by simp)
      rcases clean with rfl | rfl | ⟨_, complete⟩
      · exact ⟨.between, .skip started whole (.done _),
          .sends given onward (by simp) (Or.inl rfl)⟩
      · rw [Terminal.standing, if_neg more]
        exact ⟨_, .next given started whole (.done _),
          .sends given onward (by simp) (Or.inr (Or.inl rfl))⟩
      · exact absurd complete more
    | fail fault reason =>
      refine ⟨place, .done _, .rests (Or.inr (Or.inr ?_))⟩
      unfold Connection.failure Plan.news told
      rw [runs.onFailed]
      simp [Signal.isFailed]
    | finish complete length =>
      rw [encoder] at complete
      refine ⟨place, .done _, .rests ?_⟩
      rcases still with between | between | ⟨spoiled, _⟩
      · exact Or.inl between
      · rw [Terminal.standing, if_pos complete] at between
        exact Or.inl between
      · exact Or.inr spoiled

/-- A message is taken just if its first frame is handed over. -/
theorem Terminal.Runs.accepts_iff {stack : Stack Port} (runs : sender.Runs stack connection)
    (quiet : stack.confirmations = []) (now : Tick) (message : List UInt8) :
    (stack.send now Terminal.handle message).1 = .ok () ↔ ∃ frame flow refusal,
      (stack.exchange connection).submitted (stack.scope now Terminal.handle) message =
        .hand [] sender.address.interface frame flow refusal := by
  have ready := runs.sound.ready_quiet quiet runs.live now
  obtain ⟨_, answer⟩ := Exchange.send_follows ready message
  rw [Stack.send_live runs.live, answer]
  constructor
  · rintro ⟨index, frame, flow, refusal, confirmed, outside, plan, _⟩
    have prompt : ((stack.exchange connection).submitted (stack.scope now Terminal.handle)
        message).Prompt connection.output sender.address.interface :=
      Exchange.submitted_prompt runs.address message (runs.confirmed quiet .output)
    rw [plan] at prompt
    obtain rfl : index = sender.address.interface := prompt
    exact ⟨frame, flow, refusal, plan⟩
  · rintro ⟨frame, flow, refusal, plan⟩
    exact ⟨_, frame, flow, refusal, _, _, plan, Port.hand runs.port _ _ _⟩

theorem Terminal.Writes.mono {spoiled worse : Prop} {flow : Flow}
    (writes : sender.Writes messages spoiled place flow) (grows : spoiled → worse) :
    sender.Writes messages worse place flow := by
  cases writes with
  | rests clean => exact .rests (clean.imp_right grows)
  | sends given underway started clean =>
    exact .sends given underway started (clean.imp_right (Or.imp_right (And.imp_left grows)))

/-- The sending flow is given a message. If it takes one of several frames, the line must be clean,
and then nothing is left to spoil it. -/
theorem Terminal.Writes.submitted {spoiled : Prop} {stack : Stack Port} {now : Tick}
    {message : List UInt8} (runs : sender.Runs stack connection)
    (quiet : stack.confirmations = [])
    (writes : sender.Writes messages spoiled place connection.output) (member : message ∈ messages)
    {begins : Prop} (whether : begins ↔ sender.encoder.singleCapacity < message.length ∧
      (stack.send now Terminal.handle message).1 = .ok ())
    (clean : begins → spoiled → place = .between) {plan : Plan}
    (same : (stack.exchange connection).submitted (stack.scope now Terminal.handle) message = plan) :
    plan.news = [] ∧ ∃ next, sender.Reads messages place plan.frames next ∧
      sender.Writes messages (spoiled ∧ ¬begins) next (plan.flow connection.output) := by
  have accepts := runs.accepts_iff quiet now message
  rw [same] at accepts
  rcases (stack.exchange connection).submitted_sends (stack.scope now Terminal.handle) message with
    stays | ⟨address, frame, flow, acceptance, _, hands, underway⟩
  · rw [same] at stays
    subst stays
    refine ⟨rfl, place, .done _, writes.mono fun spoiled => ⟨spoiled, fun began => ?_⟩⟩
    obtain ⟨_, _, _, absent⟩ := accepts.mp (whether.mp began).2
    cases absent
  · rw [same] at hands
    obtain ⟨filled, bound, _, _, fits, idle⟩ := Exchange.accept_eq_ok_iff.mp acceptance
    obtain rfl : sender.address = address := Option.some.inj (runs.address.symm.trans bound)
    rw [(runs.serves now).encoder_eq] at underway fits
    have given : sender.Given messages message := ⟨member, filled, fits⟩
    have taken := accepts.mpr ⟨_, _, _, hands⟩
    subst hands
    have rested : place = .between ∨ spoiled := by
      have idle : connection.output.isIdle = true := idle
      generalize connection.output = output at writes idle
      cases writes with
      | rests clean => exact clean
      | sends _ busy _ _ =>
        rw [busy.not_idle] at idle
        cases idle
    have whole := underway.sent.frames
    refine ⟨rfl, ?_⟩
    by_cases short : message.length ≤ sender.encoder.singleCapacity
    · have single : [frame] = sender.encoder.segmentation message := by
        rw [Encoder.segmentation, if_pos short]
        rw [Encoder.segmentation, if_pos short] at whole
        exact congrArg (· :: []) (List.cons.inj whole).1
      have still : ¬begins := fun began => absurd (whether.mp began).1 (by omega)
      refine ⟨place, .single given short single (.done _), .sends given underway (by simp) ?_⟩
      exact rested.imp_right fun spoiled => Or.inr ⟨⟨spoiled, still⟩, single⟩
    · have long : sender.encoder.singleCapacity < message.length := by omega
      have between : place = .between :=
        rested.elim id fun spoiled => clean (whether.mpr ⟨long, taken⟩) spoiled
      subst between
      exact ⟨_, .first given long whole (.done _),
        .sends given underway (by simp) (Or.inr (Or.inl rfl))⟩

end

end DiagBus
