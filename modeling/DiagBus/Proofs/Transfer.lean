import DiagBus.Proofs.Codec
import DiagBus.Proofs.Receiving
import DiagBus.Proofs.Sending

namespace DiagBus

variable {ω : Type}

/-- One end of a line: a stack with one interface and one connection, and the message that it may be
asked to send. -/
structure Terminal where
  settings : Settings
  transmits : CanId
  receives : CanId
  flexible : Bool
  /-- Whether its controller can send flexible data-rate frames. -/
  capable : Bool
  onReceived : Listener
  onSent : Listener
  onFailed : Listener
  message : List UInt8

namespace Terminal

/-- The handle of the first connection of a stack. -/
def handle : Handle := ⟨0, 0⟩

def address (terminal : Terminal) : Address where
  interface := ⟨0⟩
  transmits := terminal.transmits
  receives := terminal.receives
  flexible := terminal.flexible

def encoder (terminal : Terminal) : Encoder :=
  terminal.address.encoder terminal.settings

def frames (terminal : Terminal) : List Frame :=
  terminal.encoder.segmentation terminal.message

def invitation (terminal : Terminal) : Frame :=
  terminal.address.invitation terminal.settings

/-- What the terminal is told when its message was sent. -/
def sentNews (terminal : Terminal) : Signal :=
  .sent terminal.onSent handle terminal.message.length

/-- What the terminal is told when the message of its peer has arrived. -/
def receivedNews (terminal peer : Terminal) : Signal :=
  .received terminal.onReceived handle peer.message

/-- The connection is the one of the terminal. -/
structure Serves (terminal : Terminal) (scope : Scope ω) (connection : Connection) : Prop where
  handle : scope.handle = handle
  settings : scope.settings = terminal.settings
  address : connection.address = some terminal.address
  onReceived : connection.onReceived = some terminal.onReceived
  onSent : connection.onSent = some terminal.onSent

/-- The message is neither empty nor too long for a first frame to announce. -/
structure Fits (terminal : Terminal) : Prop where
  some : terminal.message ≠ []
  bound : terminal.message.length ≤ terminal.encoder.messageLimit

end Terminal

/-- The receiving flow has taken the frames `taken` of the sender's message, and has put together
the bytes in them. -/
structure Taken (sender receiver : Terminal) (first : List UInt8)
    (arrived : List (UInt8 × List UInt8)) (taken : List Frame) (flow : Flow) : Prop where
  collecting : Collecting receiver.settings sender.message.length first arrived flow
  start : assembled first arrived = sender.message.take (assembled first arrived).length
  rest : taken ++ sender.encoder.consecutives (arrived.length + 1)
    (sender.message.drop (assembled first arrived).length) = sender.frames
  inside : receiver.settings.blockSize ≠ 0 → flow.blockCount < receiver.settings.blockSize

/-- Where the message of `sender` is on its way to `receiver`: whether it was submitted, the two
flows, the frames on the wire and those on the wire back, and what both terminals were told. -/
inductive Transfer (sender receiver : Terminal) : Bool → Flow → Flow → List Frame → List Frame →
    List Signal → List Signal → Prop
  | fresh : Transfer sender receiver false {} {} [] [] [] []
  | single {output : Flow} (short : sender.message.length ≤ sender.encoder.singleCapacity)
      (underway : Underway sender.encoder sender.message sender.frames output)
      (phase : output.phase = .singleOut) :
      Transfer sender receiver true output {} sender.frames [] [] []
  | singleSent (short : sender.message.length ≤ sender.encoder.singleCapacity) :
      Transfer sender receiver true {} {} sender.frames [] [sender.sentNews] []
  /-- The first frame is on the wire. -/
  | announced {output : Flow} {frame : Frame}
      (long : sender.encoder.singleCapacity < sender.message.length)
      (underway : Underway sender.encoder sender.message [frame] output)
      (phase : output.phase = .firstOut ∨ output.phase = .controlIn) :
      Transfer sender receiver true output {} [frame] [] [] []
  /-- The receiver has asked for a block and not yet got any of it. -/
  | invited {output input : Flow} {first : List UInt8} {arrived : List (UInt8 × List UInt8)}
      {taken : List Frame} (underway : Underway sender.encoder sender.message taken output)
      (phase : output.phase = .controlIn) (reception : Taken sender receiver first arrived taken input)
      (count : input.blockCount = 0) :
      Transfer sender receiver true output input [] [receiver.invitation] [] []
  /-- The sender is in the middle of a block. -/
  | flowing {output input : Flow} {first : List UInt8} {arrived : List (UInt8 × List UInt8)}
      {taken onWay : List Frame}
      (underway : Underway sender.encoder sender.message (taken ++ onWay) output)
      (phase : output.phase = .consecutiveOut)
      (reception : Taken sender receiver first arrived taken input)
      (blockSize : output.blockSize = receiver.settings.blockSize)
      (block : receiver.settings.blockSize ≠ 0 →
        output.blockCount < receiver.settings.blockSize ∧
          input.blockCount.toNat + onWay.length =
            output.blockCount.toNat + output.unconfirmed.toNat) :
      Transfer sender receiver true output input onWay [] [] []
  /-- The sender has sent a whole block, the end of which is still on the wire. -/
  | blocked {output input : Flow} {first : List UInt8} {arrived : List (UInt8 × List UInt8)}
      {taken onWay : List Frame}
      (underway : Underway sender.encoder sender.message (taken ++ onWay) output)
      (phase : output.phase = .controlIn)
      (reception : Taken sender receiver first arrived taken input)
      (limited : receiver.settings.blockSize ≠ 0)
      (block : input.blockCount.toNat + onWay.length = receiver.settings.blockSize.toNat) :
      Transfer sender receiver true output input onWay [] [] []
  /-- The sender has sent all frames, the last of which are still on the wire. -/
  | drained {input : Flow} {first : List UInt8} {arrived : List (UInt8 × List UInt8)}
      {taken onWay : List Frame} (whole : taken ++ onWay = sender.frames)
      (reception : Taken sender receiver first arrived taken input)
      (block : receiver.settings.blockSize ≠ 0 →
        input.blockCount.toNat + onWay.length ≤ receiver.settings.blockSize.toNat) :
      Transfer sender receiver true {} input onWay [] [sender.sentNews] []
  | delivered :
      Transfer sender receiver true {} {} [] [] [sender.sentNews] [receiver.receivedNews sender]

/-- The flow after a plan, if the interface takes every frame. -/
def Plan.flow (old : Flow) : Plan → Flow
  | .stay _ => old
  | .wait flow => flow
  | .hand _ _ _ flow _ => { flow with unconfirmed := true }
  | .rest _ => {}

/-- The frames that a plan hands over. -/
def Plan.frames : Plan → List Frame
  | .hand _ _ frame _ _ => [frame]
  | _ => []

/-- What a plan tells, if the interface takes every frame. -/
def Plan.news : Plan → List Signal
  | .stay news => news
  | .wait _ => []
  | .hand news _ _ _ _ => news
  | .rest news => news

/-- Frames go to this interface, and no frame stays unconfirmed but one that is handed over. -/
def Plan.Prompt (old : Flow) (index : InterfaceIndex) : Plan → Prop
  | .stay _ => old.unconfirmed = false
  | .wait flow => flow.unconfirmed = false
  | .hand _ via _ _ _ => via = index
  | .rest _ => True

/-- A plan of the sending flow takes the transfer one step on. -/
structure Plan.Forwards (plan : Plan) (sender receiver : Terminal) (asked : Bool) (old input : Flow)
    (onWay back : List Frame) (told got : List Signal) : Prop where
  prompt : plan.Prompt old sender.address.interface
  transfer : Transfer sender receiver asked (plan.flow old) input (onWay ++ plan.frames) back
    (told ++ plan.news) got

/-- A plan of the receiving flow takes the transfer one step on. -/
structure Plan.Backs (plan : Plan) (sender receiver : Terminal) (asked : Bool) (output old : Flow)
    (onWay back : List Frame) (told got : List Signal) : Prop where
  prompt : plan.Prompt old receiver.address.interface
  transfer : Transfer sender receiver asked output (plan.flow old) onWay (back ++ plan.frames) told
    (got ++ plan.news)

section

variable {scope : Scope ω} {connection : Connection} {sender receiver : Terminal} {asked : Bool}
  {input output : Flow} {onWay back : List Frame} {told got : List Signal}

theorem Terminal.Serves.encoder_eq {terminal : Terminal} (serves : terminal.Serves scope connection) :
    terminal.address.encoder scope.settings = terminal.encoder := by
  rw [serves.settings]
  rfl

theorem Terminal.Serves.sent_eq (serves : sender.Serves scope connection)
    (total : connection.output.total = sender.message.length) :
    connection.sent scope = [sender.sentNews] := by
  unfold Connection.sent told
  rw [serves.onSent, serves.handle, total]
  rfl

/-- A message that is submitted starts on its way. -/
theorem Transfer.submitted {x : Exchange ω}
    (transfer : Transfer sender receiver false x.connection.output input onWay back told got)
    (serves : sender.Serves scope x.connection)
    (acceptance : x.accept scope sender.message = .ok sender.address)
    (room : sender.message.length ≤ x.memory.available) :
    (x.submitted scope sender.message).Forwards sender receiver true x.connection.output input
      onWay back told got := by
  obtain ⟨frame, flow, plan, underway, phase⟩ := Exchange.submitted_eq acceptance room
  rw [serves.encoder_eq] at underway phase
  rw [plan]
  generalize x.connection.output = old at transfer ⊢
  cases transfer
  refine ⟨rfl, ?_⟩
  show Transfer sender receiver true { flow with unconfirmed := true } {} [frame] [] [] []
  by_cases short : sender.message.length ≤ sender.encoder.singleCapacity
  · have whole : [frame] = sender.frames := by
      have frames := underway.sent.frames
      unfold Terminal.frames
      rw [Encoder.segmentation, if_pos short] at frames ⊢
      exact congrArg (· :: []) (List.cons.inj frames).1
    rw [if_pos short] at phase
    rw [whole] at underway ⊢
    exact .single short underway phase
  · rw [if_neg short] at phase
    exact .announced (by omega) underway (Or.inl phase)

/-- The sender goes on into a block that has room for another frame. -/
theorem Transfer.next {old flow : Flow} {first : List UInt8} {arrived : List (UInt8 × List UInt8)}
    {taken : List Frame} (serves : sender.Serves scope connection)
    (sent : Sent sender.encoder sender.message (taken ++ onWay) flow)
    (phase : flow.phase = .consecutiveOut) (left : 0 < flow.remaining)
    (reception : Taken sender receiver first arrived taken input)
    (blockSize : flow.blockSize = receiver.settings.blockSize)
    (block : receiver.settings.blockSize ≠ 0 →
      flow.blockCount < receiver.settings.blockSize ∧
        input.blockCount.toNat + onWay.length = flow.blockCount.toNat) :
    (connection.next scope flow).Forwards sender receiver true old input onWay [] [] [] := by
  rw [← serves.encoder_eq] at sent
  obtain ⟨frame, after, plan, result, onward⟩ := Connection.next_eq serves.address sent phase left
  rw [serves.encoder_eq] at onward
  rw [plan]
  refine ⟨rfl, ?_⟩
  show Transfer sender receiver true { after with unconfirmed := true } input (onWay ++ [frame]) [] []
    []
  rw [List.append_assoc] at onward
  refine .flowing ⟨onward.of_same rfl rfl rfl rfl, .consecutive ?_ (by simp)⟩ ?_ reception ?_ ?_
  · rw [result]
    exact phase
  · rw [result]
    exact phase
  · rw [result]
    exact blockSize
  · intro limited
    obtain ⟨inside, count⟩ := block limited
    rw [result]
    refine ⟨inside, ?_⟩
    rw [List.length_append, List.length_singleton, ← Nat.add_assoc, count]
    rfl

/-- The frame that was handed over last is on the wire. -/
theorem Transfer.outputConfirmed
    (transfer : Transfer sender receiver asked connection.output input onWay back told got)
    (serves : sender.Serves scope connection) (unconfirmed : connection.output.unconfirmed = true) :
    (connection.outputConfirmed scope).Forwards sender receiver asked connection.output input onWay
      back told got := by
  unfold Connection.outputConfirmed
  rw [if_neg (by simp [unconfirmed])]
  generalize same : connection.output = old at transfer unconfirmed ⊢
  cases transfer with
  | fresh => cases unconfirmed
  | single short underway phase =>
    have news := serves.sent_eq (same ▸ underway.sent.total)
    simp only [phase, news]
    refine ⟨trivial, ?_⟩
    show Transfer sender receiver true {} {} (sender.frames ++ []) [] [sender.sentNews] []
    rw [List.append_nil]
    exact .singleSent short
  | singleSent short => cases unconfirmed
  | announced long underway phase =>
    rcases phase with phase | phase
    · have left := underway.stage.of_first phase
      simp only [phase]
      refine ⟨rfl, ?_⟩
      exact .announced long ⟨underway.sent.of_same rfl rfl rfl rfl, .control rfl rfl left⟩ (Or.inr rfl)
    · rw [(underway.stage.of_control phase).1] at unconfirmed
      cases unconfirmed
  | invited underway phase reception count =>
    rw [(underway.stage.of_control phase).1] at unconfirmed
    cases unconfirmed
  | flowing underway phase reception blockSize block =>
    simp only [phase]
    by_cases done : old.remaining = 0
    · have news := serves.sent_eq (same ▸ underway.sent.total)
      rw [if_pos done, news]
      refine ⟨trivial, ?_⟩
      show Transfer sender receiver true {} input (onWay ++ []) [] [sender.sentNews] []
      rw [List.append_nil]
      refine .drained (underway.sent.complete done) reception fun limited => ?_
      obtain ⟨inside, count⟩ := block limited
      have below := UInt8.lt_iff_toNat_lt.mp inside
      rw [count, unconfirmed]
      exact below
    · have left : 0 < old.remaining := Nat.pos_of_ne_zero done
      have size : old.blockSize ≠ 0 → old.blockCount < old.blockSize := by
        rw [blockSize]
        exact fun limited => (block limited).1
      have criterion := Flow.countFrame_complete size
      let counted : Flow := { old with phase := .consecutiveOut, unconfirmed := false }.countFrame
      have same_complete : counted.blockComplete = old.countFrame.blockComplete := rfl
      rw [← blockSize] at block
      rw [if_neg done]
      show Plan.Forwards (if counted.blockComplete then .wait { counted with phase := .controlIn }
        else if counted.separation = 0 then connection.next scope counted else .wait counted) _ _ _ _
          _ _ _ _ _
      by_cases complete : counted.blockComplete = true
      · obtain ⟨limited, last⟩ := criterion.mp (same_complete ▸ complete)
        obtain ⟨_, count⟩ := block limited
        rw [unconfirmed, Bool.toNat_true] at count
        rw [if_pos complete]
        refine ⟨rfl, ?_⟩
        show Transfer sender receiver true { counted with phase := .controlIn } input (onWay ++ []) []
          [] []
        rw [List.append_nil]
        refine .blocked ⟨underway.sent.of_same rfl rfl rfl rfl, .control rfl rfl left⟩ rfl reception
          (blockSize ▸ limited) ?_
        rw [← blockSize, count, last]
      · have room : receiver.settings.blockSize ≠ 0 →
            counted.blockCount < receiver.settings.blockSize ∧
              input.blockCount.toNat + onWay.length = counted.blockCount.toNat := by
          rw [← blockSize]
          intro limited
          obtain ⟨inside, count⟩ := block limited
          obtain ⟨grown, open_⟩ := Flow.countFrame_unfilled size (same_complete ▸ complete) limited
          rw [unconfirmed, Bool.toNat_true] at count
          exact ⟨open_, count.trans grown.symm⟩
        rw [if_neg complete]
        split
        · exact Transfer.next serves (underway.sent.of_same rfl rfl rfl rfl) rfl left reception
            blockSize room
        · refine ⟨rfl, ?_⟩
          show Transfer sender receiver true counted input (onWay ++ []) [] [] []
          rw [List.append_nil]
          exact .flowing ⟨underway.sent.of_same rfl rfl rfl rfl, .consecutive rfl fun _ => left⟩ rfl
            reception blockSize room
  | blocked underway phase reception limited block =>
    rw [(underway.stage.of_control phase).1] at unconfirmed
    cases unconfirmed
  | drained whole reception block => cases unconfirmed
  | delivered => cases unconfirmed

/-- The sender gets the block that the receiver has asked it for. -/
theorem Transfer.controlReceived {frame : Frame}
    (transfer : Transfer sender receiver asked connection.output input onWay (frame :: back) told got)
    (serves : sender.Serves scope connection) :
    frame = receiver.invitation ∧ (connection.controlReceived scope .continueToSend
      receiver.settings.blockSize receiver.settings.separation).Forwards sender receiver asked
        connection.output input onWay back told got := by
  unfold Connection.controlReceived
  generalize connection.output = old at transfer ⊢
  cases transfer with
  | invited underway phase reception count =>
    obtain ⟨_, left⟩ := underway.stage.of_control phase
    simp only [phase, ne_eq, not_true_eq_false, if_false, true_and]
    refine Transfer.next serves ?_ rfl left reception rfl fun limited => ⟨?_, ?_⟩
    · rw [List.append_nil]
      exact underway.sent.of_same rfl rfl rfl rfl
    · exact UInt8.pos_iff_ne_zero.mpr limited
    · rw [count]
      rfl

/-- The pause between two frames of a block is over. -/
theorem Transfer.pauseEnds (handle : Handle)
    (transfer : Transfer sender receiver asked connection.output input onWay back told got)
    (serves : sender.Serves scope connection) (confirmed : connection.output.unconfirmed = false) :
    (connection.expired scope (.separation handle)).Forwards sender receiver asked connection.output
      input onWay back told got := by
  unfold Connection.expired
  simp only [confirmed, Bool.not_false, and_true]
  have stays (apart : connection.output.phase ≠ .consecutiveOut) :
      (if connection.output.phase = .consecutiveOut then connection.next scope connection.output
        else .stay []).Forwards sender receiver asked connection.output input onWay back told got := by
    rw [if_neg apart]
    refine ⟨confirmed, ?_⟩
    show Transfer sender receiver asked connection.output input (onWay ++ []) back (told ++ []) got
    rw [List.append_nil, List.append_nil]
    exact transfer
  by_cases pausing : connection.output.phase = .consecutiveOut
  · generalize connection.output = old at transfer confirmed pausing ⊢
    rw [if_pos pausing]
    cases transfer with
    | flowing underway phase reception blockSize block =>
      have left := underway.stage.of_consecutive phase confirmed
      rw [confirmed] at block
      exact Transfer.next serves underway.sent phase left reception blockSize block
    | announced _ _ phase =>
      rcases phase with phase | phase
      · rw [pausing] at phase
        cases phase
      · rw [pausing] at phase
        cases phase
    | single _ _ phase =>
      rw [pausing] at phase
      cases phase
    | invited _ phase _ _ =>
      rw [pausing] at phase
      cases phase
    | blocked _ phase _ _ _ =>
      rw [pausing] at phase
      cases phase
    | _ => cases pausing
  · exact stays pausing

/-- The next frame of the message is the one that the receiver awaits. It either completes the
message, and then it is the last one, or it adds its bytes to those that have arrived. -/
theorem Taken.next {first : List UInt8} {arrived : List (UInt8 × List UInt8)} {taken : List Frame}
    {frame : Frame} {later : List Frame}
    (reception : Taken sender receiver first arrived taken input)
    (whole : taken ++ frame :: later = sender.frames) :
    ∃ data, Pdu.decode frame.payload =
        some (.consecutive (sequenceAfter (arrived.length + 1)) data) ∧
      ∀ grown, grown = assembled first (arrived ++ [(sequenceAfter (arrived.length + 1), data)]) →
        if sender.message.length ≤ grown.length then
          later = [] ∧ grown.take sender.message.length = sender.message
        else
          grown = sender.message.take grown.length ∧
            taken ++ [frame] ++ sender.encoder.consecutives
              ((arrived ++ [(sequenceAfter (arrived.length + 1), data)]).length + 1)
              (sender.message.drop grown.length) = sender.frames := by
  have received := reception.collecting.received
  have left := reception.collecting.left
  have size := sender.encoder.frameSize_bounds
  have start := reception.start
  let position := (assembled first arrived).length
  let piece := (sender.message.drop position).take (sender.encoder.frameSize - 1)
  have behind : (sender.message.drop position).length = sender.message.length - position :=
    List.length_drop
  have cut : sender.encoder.consecutives (arrived.length + 1) (sender.message.drop position) =
      frame :: later := List.append_cancel_left (reception.rest.trans whole.symm)
  have some_left : sender.message.drop position ≠ [] := by
    rw [← List.length_pos_iff, behind]
    omega
  rw [Encoder.consecutives_cons _ _ some_left] at cut
  obtain ⟨here, rest⟩ := List.cons.inj cut
  have piece_length : piece.length =
      min (sender.encoder.frameSize - 1) (sender.message.length - position) := by
    rw [← behind]
    exact List.length_take
  have fits : piece.length ≤ sender.encoder.frameSize - 1 := by omega
  obtain ⟨fill, read, within⟩ := sender.encoder.decode_consecutive (arrived.length + 1) fits
  refine ⟨piece ++ fill, here ▸ read, ?_⟩
  rintro grown rfl
  rw [assembled_concat]
  have grown_length : (assembled first arrived ++ (piece ++ fill)).length =
      position + (piece.length + fill.length) := by
    rw [List.length_append, List.length_append]
  split
  · rename_i enough
    have all : piece = sender.message.drop position := List.take_of_length_le (by omega)
    refine ⟨?_, ?_⟩
    · rw [← rest, List.drop_of_length_le (by omega), Encoder.consecutives_nil]
    · rw [all, start, ← List.append_assoc, List.take_append_drop, List.take_left]
  · rename_i short
    have full : piece.length = sender.encoder.frameSize - 1 := by omega
    have unpadded : fill = [] := List.eq_nil_of_length_eq_zero (by omega)
    have joined : assembled first arrived ++ (piece ++ fill) =
        sender.message.take (position + (sender.encoder.frameSize - 1)) := by
      rw [unpadded, List.append_nil, List.take_add, ← start]
    have joined_length : (sender.message.take (position + (sender.encoder.frameSize - 1))).length =
        position + (sender.encoder.frameSize - 1) := by
      rw [List.length_take]
      omega
    rw [joined, joined_length]
    refine ⟨rfl, ?_⟩
    rw [← whole, List.append_assoc, List.singleton_append, ← rest, List.drop_drop,
      List.length_append]
    rfl

/-- A receiver that still awaits bytes has not taken all frames. -/
theorem Taken.more {first : List UInt8} {arrived : List (UInt8 × List UInt8)} {taken : List Frame}
    (reception : Taken sender receiver first arrived taken input) : taken ≠ sender.frames := by
  intro whole
  have rest := reception.rest
  have received := reception.collecting.received
  have left := reception.collecting.left
  have some_left : sender.message.drop (assembled first arrived).length ≠ [] := by
    rw [← List.length_pos_iff, List.length_drop]
    omega
  rw [whole, Encoder.consecutives_cons _ _ some_left] at rest
  exact absurd rest (by simp)

/-- A sender that has bytes left has not handed over all frames. -/
theorem Sent.more {emitted : List Frame} {flow : Flow}
    (sent : Sent sender.encoder sender.message emitted flow) (left : 0 < flow.remaining) :
    ∃ frame later, emitted ++ frame :: later = sender.frames := by
  have whole := sent.offset_add_remaining
  have some_left : sender.message.drop flow.offset ≠ [] := by
    rw [← List.length_pos_iff, List.length_drop]
    omega
  have frames := sent.frames
  rw [Encoder.consecutives_cons _ _ some_left] at frames
  exact ⟨_, _, frames⟩

theorem Taken.confirmed {first : List UInt8} {arrived : List (UInt8 × List UInt8)}
    {taken : List Frame} (reception : Taken sender receiver first arrived taken input) :
    Taken sender receiver first arrived taken
      { input with phase := .consecutiveIn, unconfirmed := false } := by
  obtain ⟨⟨buffer, total, received, left, numbered, sequence, status, blockSize, _⟩, start, rest,
    inside⟩ := reception
  exact ⟨⟨buffer, total, received, left, numbered, sequence, status, blockSize, Or.inr ⟨rfl, rfl⟩⟩,
    start, rest, inside⟩

theorem Taken.phase_eq {first : List UInt8} {arrived : List (UInt8 × List UInt8)}
    {taken : List Frame} (reception : Taken sender receiver first arrived taken input) :
    input.phase = if input.unconfirmed then .controlOut else .consecutiveIn := by
  rcases reception.collecting.stage with ⟨phase, unconfirmed⟩ | ⟨phase, confirmed⟩
  · rw [phase, unconfirmed, if_pos rfl]
  · rw [phase, confirmed, if_neg (by simp)]

/-- The receiver awaits the frames of a block once it has asked for them. -/
theorem Taken.inputConfirmed_eq {first : List UInt8} {arrived : List (UInt8 × List UInt8)}
    {taken : List Frame} (reception : Taken sender receiver first arrived taken connection.input)
    (unconfirmed : connection.input.unconfirmed = true) :
    connection.inputConfirmed =
      .wait { connection.input with phase := .consecutiveIn, unconfirmed := false } := by
  have phase := reception.phase_eq
  rw [if_pos unconfirmed] at phase
  have status := reception.collecting.status
  unfold Connection.inputConfirmed
  simp [unconfirmed, phase, status]

/-- The receiver's invitation is on the wire. -/
theorem Transfer.inputConfirmed
    (transfer : Transfer sender receiver asked output connection.input onWay back told got)
    (unconfirmed : connection.input.unconfirmed = true) :
    connection.inputConfirmed.Backs sender receiver asked output connection.input onWay back told
      got := by
  have goes {first : List UInt8} {arrived : List (UInt8 × List UInt8)} {taken : List Frame}
      (reception : Taken sender receiver first arrived taken connection.input) :=
    reception.inputConfirmed_eq unconfirmed
  have moves (onward : Transfer sender receiver asked output
      { connection.input with phase := .consecutiveIn, unconfirmed := false } onWay back told got) :
      (Plan.wait { connection.input with phase := .consecutiveIn, unconfirmed := false }).Backs sender
        receiver asked output connection.input onWay back told got := by
    refine ⟨rfl, ?_⟩
    show Transfer sender receiver asked output _ onWay (back ++ []) told (got ++ [])
    rw [List.append_nil, List.append_nil]
    exact onward
  generalize connection.input = old at transfer unconfirmed goes moves ⊢
  cases transfer with
  | invited underway phase reception count =>
    rw [goes reception]
    exact moves (.invited underway phase reception.confirmed count)
  | flowing underway phase reception blockSize block =>
    rw [goes reception]
    exact moves (.flowing underway phase reception.confirmed blockSize block)
  | blocked underway phase reception limited block =>
    rw [goes reception]
    exact moves (.blocked underway phase reception.confirmed limited block)
  | drained whole reception block =>
    rw [goes reception]
    exact moves (.drained whole reception.confirmed block)
  | _ => cases unconfirmed

/-- What the next frame of the message does to the receiver: it completes the message, or it is one
more frame of the block, or the last one of the block. -/
inductive Taken.Grows (sender receiver : Terminal) (taken : List Frame) (old : Flow)
    (complete : Prop) : Plan → Prop
  | complete (last : complete) : Grows sender receiver taken old complete
      (.rest [receiver.receivedNews sender])
  | more {first : List UInt8} {arrived : List (UInt8 × List UInt8)} {flow : Flow}
      (reception : Taken sender receiver first arrived taken flow)
      (confirmed : flow.unconfirmed = false)
      (count : receiver.settings.blockSize ≠ 0 →
        flow.blockCount.toNat = old.blockCount.toNat + 1) :
      Grows sender receiver taken old complete (.wait flow)
  | block {first : List UInt8} {arrived : List (UInt8 × List UInt8)} {flow : Flow}
      {refusal : Fault → List Signal}
      (reception : Taken sender receiver first arrived taken { flow with unconfirmed := true })
      (limited : receiver.settings.blockSize ≠ 0)
      (last : old.blockCount.toNat + 1 = receiver.settings.blockSize.toNat)
      (count : flow.blockCount = 0) :
      Grows sender receiver taken old complete
        (.hand [] receiver.address.interface receiver.invitation flow refusal)

theorem Taken.received {first : List UInt8} {arrived : List (UInt8 × List UInt8)}
    {taken : List Frame} {frame : Frame} {later : List Frame}
    (reception : Taken sender receiver first arrived taken connection.input)
    (whole : taken ++ frame :: later = sender.frames) (serves : receiver.Serves scope connection)
    (confirmed : connection.input.unconfirmed = false) (memory : Memory) :
    ∃ pdu, Pdu.decode frame.payload = some pdu ∧ pdu.direction = .input ∧
      Taken.Grows sender receiver (taken ++ [frame]) connection.input (later = [])
        (connection.received scope memory pdu) := by
  obtain ⟨data, read, outcome⟩ := reception.next whole
  have waiting := reception.phase_eq
  rw [if_neg (by simp [confirmed])] at waiting
  have settings := serves.settings
  have collecting : Collecting scope.settings sender.message.length first arrived connection.input := by
    rw [settings]
    exact reception.collecting
  have cases := Connection.consecutiveReceived_cases serves.address collecting waiting
    (sequenceAfter (arrived.length + 1)) data
  refine ⟨_, read, rfl, ?_⟩
  show Taken.Grows _ _ _ _ _ (connection.consecutiveReceived scope _ data)
  rw [if_pos rfl] at cases
  have outcome := outcome _ rfl
  have size := reception.collecting.blockSize
  have inside := reception.inside
  rw [← size] at inside
  have criterion := Flow.countFrame_complete inside
  rw [size] at criterion
  split at cases
  · rename_i enough
    rw [if_pos enough] at outcome
    rw [cases, outcome.2, serves.onReceived, serves.handle]
    exact .complete outcome.1
  · rename_i short
    rw [if_neg short] at outcome
    obtain ⟨start, rest⟩ := outcome
    rcases cases with ⟨flow, plan, grown, settled, incomplete, count⟩ | ⟨flow, plan, grown, complete, count⟩
    · rw [settings] at grown
      rw [plan]
      have unfilled := Flow.countFrame_unfilled inside (by simp [incomplete])
      rw [size, ← count] at unfilled
      exact .more ⟨grown, start, rest, fun limited => (unfilled limited).2⟩ settled
        fun limited => (unfilled limited).1
    · rw [settings] at grown plan
      obtain ⟨limited, last⟩ := criterion.mp complete
      rw [plan]
      refine .block ⟨grown, start, rest, fun _ => ?_⟩ limited last count
      show flow.blockCount < _
      rw [count]
      exact UInt8.pos_iff_ne_zero.mpr limited

theorem Terminal.Fits.announces (fits : sender.Fits) : sender.message.length ≤ 0xFFFFFFFF := by
  have bound := fits.bound
  unfold Encoder.messageLimit shortLengthLimit at bound
  split at bound <;> omega

/-- The message is in the frame that arrives. -/
theorem Transfer.singleReceived {frame : Frame} (fits : sender.Fits)
    (short : sender.message.length ≤ sender.encoder.singleCapacity)
    (whole : frame :: onWay = sender.frames) (serves : receiver.Serves scope connection)
    (idle : connection.input = {}) (memory : Memory) :
    ∃ pdu, Pdu.decode frame.payload = some pdu ∧ pdu.direction = .input ∧
      (connection.received scope memory pdu).Backs sender receiver true {} {} onWay []
        [sender.sentNews] [] := by
  unfold Terminal.frames at whole
  rw [Encoder.segmentation, if_pos short] at whole
  obtain ⟨rfl, rfl⟩ := List.cons.inj whole
  refine ⟨_, Encoder.decode_single fits.some short, rfl, ?_⟩
  have plan : connection.received scope memory (.single sender.message) =
      .stay [receiver.receivedNews sender] := by
    show connection.singleReceived scope sender.message = _
    unfold Connection.singleReceived
    rw [idle, serves.onReceived, serves.handle]
    rfl
  rw [plan]
  exact ⟨rfl, .delivered⟩

/-- A receiver at rest takes the first frame of a message and asks for the first block, unless it
has no room for the message. -/
theorem Taken.starts {frame : Frame} {later : List Frame} (fits : sender.Fits)
    (long : sender.encoder.singleCapacity < sender.message.length)
    (whole : frame :: later = sender.frames) (serves : receiver.Serves scope connection)
    (idle : connection.input = {}) (memory : Memory) :
    ∃ first, Pdu.decode frame.payload = some (.first sender.message.length first) ∧
      ∃ news answer flow, connection.firstReceived scope memory sender.message.length first =
          .hand news receiver.address.interface answer flow (connection.failure scope) ∧
        (memory.available < sender.message.length ∧ news = connection.failure scope .memory ∧
            flow = overflowFlow ∨
          sender.message.length ≤ memory.available ∧ news = [] ∧ answer = receiver.invitation ∧
            flow.blockCount = 0 ∧
            Taken sender receiver first [] [frame] { flow with unconfirmed := true }) := by
  unfold Terminal.frames at whole
  rw [Encoder.segmentation, if_neg (by omega)] at whole
  obtain ⟨rfl, rest⟩ := List.cons.inj whole
  refine ⟨_, Encoder.decode_first long fits.announces, ?_⟩
  have resting : connection.input.isIdle = true := by
    rw [idle]
    rfl
  have taken := (sender.encoder.firstRoom_lt long).2
  have start : (sender.message.take (sender.encoder.firstRoom sender.message.length)).length =
      sender.encoder.firstRoom sender.message.length := by
    rw [List.length_take]
    omega
  rcases Connection.firstReceived_starts scope serves.address resting memory sender.message.length
    (sender.message.take (sender.encoder.firstRoom sender.message.length)) with
    ⟨_, covered⟩ | ⟨_, news, answer, flow, plan, scarce | ⟨room, quiet, collecting, same, count⟩⟩
  · omega
  · exact ⟨news, answer, flow, plan, Or.inl scarce⟩
  · rw [serves.settings] at collecting same
    refine ⟨news, answer, flow, plan, Or.inr ⟨room, quiet, same, count, collecting, ?_, ?_, ?_⟩⟩
    · simp only [assembled, List.map_nil, List.flatten_nil, List.append_nil, start]
    · simp only [assembled, List.map_nil, List.flatten_nil, List.append_nil, start]
      unfold Terminal.frames
      rw [Encoder.segmentation, if_neg (by omega)]
      rfl
    · intro limited
      show flow.blockCount < _
      rw [count]
      exact UInt8.pos_iff_ne_zero.mpr limited

/-- The receiver makes room for the message that is announced and asks for its first block. -/
theorem Transfer.firstReceived {frame : Frame} (fits : sender.Fits)
    (long : sender.encoder.singleCapacity < sender.message.length)
    (underway : Underway sender.encoder sender.message [frame] output)
    (phase : output.phase = .controlIn) (serves : receiver.Serves scope connection)
    (idle : connection.input = {}) {memory : Memory}
    (room : sender.message.length ≤ memory.available) :
    ∃ pdu, Pdu.decode frame.payload = some pdu ∧ pdu.direction = .input ∧
      (connection.received scope memory pdu).Backs sender receiver true output {} [] [] [] [] := by
  obtain ⟨first, read, news, answer, flow, plan, ⟨scarce, _⟩ | ⟨_, quiet, same, count, reception⟩⟩ :=
    Taken.starts fits long underway.sent.frames serves idle memory
  · omega
  · refine ⟨_, read, rfl, ?_⟩
    unfold Connection.received
    simp only [plan, quiet, same]
    exact ⟨rfl, .invited underway phase reception count⟩

/-- The receiver takes the next frame from the wire. -/
theorem Transfer.received {frame : Frame}
    (transfer : Transfer sender receiver asked output connection.input (frame :: onWay) back told got)
    (fits : sender.Fits) (serves : receiver.Serves scope connection)
    (sent : output.unconfirmed = false) (confirmed : connection.input.unconfirmed = false)
    {memory : Memory} (room : connection.input = {} → sender.message.length ≤ memory.available) :
    ∃ pdu, Pdu.decode frame.payload = some pdu ∧ pdu.direction = .input ∧
      (connection.received scope memory pdu).Backs sender receiver asked output connection.input
        onWay back told got := by
  generalize idle : connection.input = old at transfer
  generalize way : frame :: onWay = wire at transfer
  cases transfer with
  | fresh => cases way
  | single short underway phase =>
    have later := underway.stage.of_confirmed sent
    rw [phase] at later
    rcases later with other | other <;> cases other
  | singleSent short =>
    exact Transfer.singleReceived fits short way serves idle memory
  | announced long underway phase =>
    obtain ⟨rfl, rfl⟩ := List.cons.inj way
    have awaits : output.phase = .controlIn := by
      rcases phase with phase | phase
      · have later := underway.stage.of_confirmed sent
        rw [phase] at later
        rcases later with other | other <;> cases other
      · exact phase
    exact Transfer.firstReceived fits long underway awaits serves idle (room idle)
  | invited underway phase reception count => cases way
  | flowing underway phase reception blockSize block =>
    subst idle way
    have left := underway.stage.of_consecutive phase sent
    obtain ⟨next, later, whole⟩ := underway.sent.more left
    rw [List.append_assoc, List.cons_append] at whole
    obtain ⟨pdu, read, own, grows⟩ := reception.received whole serves confirmed memory
    refine ⟨pdu, read, own, ?_⟩
    generalize connection.received scope memory pdu = plan at grows
    rw [List.length_cons, sent, Bool.toNat_false] at block
    cases grows with
    | complete last => exact absurd last (by simp)
    | @more _ _ flow reception confirmed count =>
      refine ⟨confirmed, ?_⟩
      refine .flowing (by simpa using underway) phase reception blockSize fun limited => ?_
      obtain ⟨inside, total⟩ := block limited
      refine ⟨inside, ?_⟩
      show flow.blockCount.toNat + onWay.length = _
      rw [count limited, sent, Bool.toNat_false]
      omega
    | block reception limited last count =>
      obtain ⟨inside, total⟩ := block limited
      have below := UInt8.lt_iff_toNat_lt.mp inside
      omega
  | blocked underway phase reception limited block =>
    subst idle way
    obtain ⟨_, left⟩ := underway.stage.of_control phase
    obtain ⟨next, later, whole⟩ := underway.sent.more left
    rw [List.append_assoc, List.cons_append] at whole
    obtain ⟨pdu, read, own, grows⟩ := reception.received whole serves confirmed memory
    refine ⟨pdu, read, own, ?_⟩
    generalize connection.received scope memory pdu = plan at grows
    rw [List.length_cons] at block
    cases grows with
    | complete last => exact absurd last (by simp)
    | @more _ _ flow reception confirmed count =>
      refine ⟨confirmed, ?_⟩
      refine .blocked (by simpa using underway) phase reception limited ?_
      show flow.blockCount.toNat + onWay.length = _
      rw [count limited]
      omega
    | block reception limited last count =>
      have empty : onWay = [] := List.eq_nil_of_length_eq_zero (by omega)
      subst empty
      exact ⟨rfl, .invited underway phase reception count⟩
  | drained whole reception block =>
    subst idle way
    obtain ⟨pdu, read, own, grows⟩ := reception.received whole serves confirmed memory
    refine ⟨pdu, read, own, ?_⟩
    generalize connection.received scope memory pdu = plan at grows
    rw [List.length_cons] at block
    cases grows with
    | complete last =>
      subst last
      exact ⟨trivial, .delivered⟩
    | @more _ _ flow reception confirmed count =>
      refine ⟨confirmed, .drained (by simpa using whole) reception fun limited => ?_⟩
      have total := block limited
      show flow.blockCount.toNat + onWay.length ≤ _
      rw [count limited]
      omega
    | block reception limited last count =>
      have total := block limited
      have empty : onWay = [] := List.eq_nil_of_length_eq_zero (by omega)
      subst empty
      exact absurd whole reception.more
  | delivered => cases way

/-- Frames on the wire are from the sender, and frames on the wire back are invitations. -/
theorem Transfer.wires
    (transfer : Transfer sender receiver asked output input onWay back told got)
    (fits : sender.Fits) :
    (∀ frame ∈ onWay, frame.id = sender.address.transmits ∧ isFlowControl frame.payload = false) ∧
      ∀ frame ∈ back, frame.id = receiver.address.transmits ∧ isFlowControl frame.payload = true := by
  have part (early : List Frame) {late rest : List Frame}
      (whole : early ++ late ++ rest = sender.frames) : ∀ frame ∈ late,
        frame.id = sender.address.transmits ∧ isFlowControl frame.payload = false := by
    intro frame member
    have among : frame ∈ sender.frames := by
      rw [← whole]
      exact List.mem_append_left rest (List.mem_append_right early member)
    have read : frame.id = sender.encoder.id ∧ _ :=
      Encoder.decode_segmentation fits.some fits.announces frame among
    exact read
  have invitation : ∀ frame ∈ [receiver.invitation],
      frame.id = receiver.address.transmits ∧ isFlowControl frame.payload = true := by
    intro frame member
    rw [List.mem_singleton.mp member]
    refine ⟨Encoder.id_frame _ _, ?_⟩
    exact isFlowControl_of_decode (Encoder.decode_continue _ _ _)
  have nothing {claim : Frame → Prop} : ∀ frame ∈ [], claim frame := by simp
  cases transfer with
  | fresh => exact ⟨nothing, nothing⟩
  | single short underway phase => exact ⟨part [] (List.append_nil _), nothing⟩
  | singleSent short => exact ⟨part [] (List.append_nil _), nothing⟩
  | announced long underway phase => exact ⟨part [] underway.sent.frames, nothing⟩
  | invited underway phase reception count => exact ⟨nothing, invitation⟩
  | flowing underway phase reception blockSize block => exact ⟨part _ underway.sent.frames, nothing⟩
  | blocked underway phase reception limited block => exact ⟨part _ underway.sent.frames, nothing⟩
  | drained whole reception block =>
    exact ⟨part _ ((List.append_nil _).trans whole), nothing⟩
  | delivered => exact ⟨nothing, nothing⟩

/-- Neither end holds more than the message. -/
theorem Transfer.held_le
    (transfer : Transfer sender receiver asked output input onWay back told got) :
    output.held ≤ sender.message.length ∧ input.held ≤ sender.message.length := by
  have sending {emitted : List Frame} {flow : Flow}
      (underway : Underway sender.encoder sender.message emitted flow) :
      flow.held ≤ sender.message.length := by
    unfold Flow.held
    rw [underway.sent.buffer]
    exact Nat.le_refl _
  have receiving {first : List UInt8} {arrived : List (UInt8 × List UInt8)} {taken : List Frame}
      {flow : Flow} (reception : Taken sender receiver first arrived taken flow) :
      flow.held ≤ sender.message.length := by
    obtain ⟨rest, buffer, unfilled⟩ := reception.collecting.buffer
    have received := reception.collecting.received
    unfold Flow.held
    rw [buffer]
    show (assembled first arrived ++ rest).length ≤ _
    rw [List.length_append]
    omega
  have idle : Flow.held {} ≤ sender.message.length := Nat.zero_le _
  cases transfer with
  | fresh => exact ⟨idle, idle⟩
  | single short underway phase => exact ⟨sending underway, idle⟩
  | singleSent short => exact ⟨idle, idle⟩
  | announced long underway phase => exact ⟨sending underway, idle⟩
  | invited underway phase reception count => exact ⟨sending underway, receiving reception⟩
  | flowing underway phase reception blockSize block => exact ⟨sending underway, receiving reception⟩
  | blocked underway phase reception limited block => exact ⟨sending underway, receiving reception⟩
  | drained whole reception block => exact ⟨idle, receiving reception⟩
  | delivered => exact ⟨idle, idle⟩

/-- Nobody is told anything but that the message was sent, or that it was received. -/
theorem Transfer.news (transfer : Transfer sender receiver asked output input onWay back told got) :
    (told = [] ∨ told = [sender.sentNews]) ∧ (got = [] ∨ got = [receiver.receivedNews sender]) := by
  cases transfer with
  | singleSent short => exact ⟨Or.inr rfl, Or.inl rfl⟩
  | drained whole reception block => exact ⟨Or.inr rfl, Or.inl rfl⟩
  | delivered => exact ⟨Or.inr rfl, Or.inr rfl⟩
  | _ => exact ⟨Or.inl rfl, Or.inl rfl⟩

/-- When nothing is on the wires and the sender does not pause, the message has arrived. -/
theorem Transfer.ends
    (transfer : Transfer sender receiver asked output input onWay back told got)
    (empty : onWay = []) (answered : back = []) (moving : output.phase ≠ .consecutiveOut) :
    output = {} ∧ input = {} ∧ told = (if asked then [sender.sentNews] else []) ∧
      got = if asked then [receiver.receivedNews sender] else [] := by
  have frames : sender.frames ≠ [] := by
    unfold Terminal.frames Encoder.segmentation
    split <;> simp
  cases transfer with
  | fresh => exact ⟨rfl, rfl, rfl, rfl⟩
  | single short underway phase => exact absurd empty frames
  | singleSent short => exact absurd empty frames
  | announced long underway phase => cases empty
  | invited underway phase reception count => cases answered
  | flowing underway phase reception blockSize block => exact absurd phase moving
  | blocked underway phase reception limited block =>
    subst empty
    have inside := UInt8.lt_iff_toNat_lt.mp (reception.inside limited)
    simp only [List.length_nil] at block
    omega
  | drained whole reception block =>
    subst empty
    rw [List.append_nil] at whole
    exact absurd whole reception.more
  | delivered => exact ⟨rfl, rfl, rfl, rfl⟩

end

end DiagBus
