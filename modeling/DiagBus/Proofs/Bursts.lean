import DiagBus.Proofs.Isolation
import DiagBus.Proofs.Ledger

namespace DiagBus

variable {ω : Type}

/-- What the loop makes of a stack: it handles the first confirmation that is noted, and goes on for
as long as there is one. -/
inductive Stack.Drains (now : Tick) : Stack ω → Stack ω → Prop
  | done {stack : Stack ω} (quiet : stack.confirmations = []) : Drains now stack stack
  | next {stack after : Stack ω} {confirmation : Confirmation} {rest : List Confirmation}
      (noted : stack.confirmations = confirmation :: rest)
      (onward : Drains now ({ stack with confirmations := rest }.on now confirmation.connection
        (·.confirm · confirmation.direction)) after) : Drains now stack after

/-- An interface is registered that takes every frame and confirms it at once. -/
def Stack.Obliges (stack : Stack ω) (index : InterfaceIndex) : Prop :=
  ∃ interface, stack.registry.get? index = some interface ∧
    (∀ frame world, (interface.output frame world).1 = .ok ()) ∧
    ∀ world, interface.confirmsLater world = false

/-- Flow control arrives at a connection that waits for it, on an interface that confirms at once,
and asks for a block without separation time. -/
structure Stack.Clears (stack : Stack ω) (index : InterfaceIndex) (frame : Frame) (handle : Handle)
    (connection : Connection) (address : Address) (blockSize : UInt8) : Prop where
  declined : (stack.raw.input index frame stack.outside).1 = false
  addressed : stack.Addressed index frame.id handle
  unit : ∃ separation,
    Pdu.decode frame.payload = some (.flowControl .continueToSend blockSize separation) ∧
      separationTime separation = 0
  live : stack.connections.get? handle = some connection
  waits : connection.output.phase = .controlIn
  bound : connection.address = some address
  obliges : stack.Obliges address.interface

/-- The bytes of a message that a full consecutive frame carries. -/
def Address.partSize (address : Address) : Nat :=
  if address.flexible then 63 else 7

/-- The consecutive frames that it takes for so many bytes. -/
def Address.partsFor (address : Address) (bytes : Nat) : Nat :=
  (bytes + address.partSize - 1) / address.partSize

/-- The frames of a block that are sent if there are `whole` of them left; a block size of 0 stands
for no end. -/
def blockLength (blockSize : UInt8) (whole : Nat) : Nat :=
  if blockSize = 0 then whole else min whole blockSize.toNat

theorem Address.frameSize_encoder (address : Address) (settings : Settings) :
    (address.encoder settings).frameSize - 1 = address.partSize := by
  unfold Address.partSize Address.encoder Encoder.frameSize
  split <;> rfl

theorem Address.partSize_cases (address : Address) :
    address.partSize = 7 ∨ address.partSize = 63 := by
  unfold Address.partSize
  split <;> simp

/-- So many frames are enough, and one less is not. -/
theorem Address.partsFor_eq {address : Address} {bytes count : Nat}
    (enough : bytes ≤ count * address.partSize) (fewer : (count - 1) * address.partSize < bytes) :
    address.partsFor bytes = count := by
  unfold Address.partsFor
  rcases address.partSize_cases with size | size
  all_goals
    rw [size] at enough fewer ⊢
    omega

theorem Address.lt_partsFor {address : Address} {bytes count : Nat}
    (fewer : count * address.partSize < bytes) : count < address.partsFor bytes := by
  unfold Address.partsFor
  rcases address.partSize_cases with size | size
  all_goals
    rw [size] at fewer ⊢
    omega

/-- With as much fuel as confirmations may follow, the loop runs to its end. -/
theorem Stack.settleWithin_drains (now : Tick) {fuel : Nat} {stack : Stack ω} (sound : stack.Sound)
    (enough : stack.unsettled ≤ fuel) : stack.Drains now (settleWithin now fuel stack) := by
  induction fuel generalizing stack with
  | zero =>
    refine .done ?_
    by_contra noted
    have fewer := sound.settle_lt now noted
    omega
  | succ fuel ih =>
    unfold settleWithin
    cases noted : stack.confirmations with
    | nil => exact .done noted
    | cons confirmation rest =>
      have fewer := sound.settle_lt now (by simp [noted])
      have after : ((Step.settle now).run stack).Sound := sound.step trivial
      simp only [Step.run, noted] at fewer after
      exact .next noted (ih after (by omega))

theorem Stack.Sound.drains {stack : Stack ω} (sound : stack.Sound) (now : Tick) :
    stack.Drains now (stack.settle now) :=
  Stack.settleWithin_drains now sound sound.unsettled_le

theorem Stack.Drains.of_quiet {stack after : Stack ω} {now : Tick}
    (drains : stack.Drains now after) (quiet : stack.confirmations = []) : after = stack := by
  cases drains with
  | done _ => rfl
  | next noted _ =>
    rw [quiet] at noted
    cases noted

section

variable {stack : Stack ω} {handle : Handle} {connection : Connection} {step : Step ω} {now : Tick}
  {index : InterfaceIndex} {frame : Frame} {flow : Flow} {refusal : Fault → List Signal}

theorem Stack.Obliges.hand (obliges : stack.Obliges index) (origin : Origin) (frame : Frame)
    (outside : Outside ω) :
    ∃ after, stack.registry.hand origin index frame outside = (.ok true, after) := by
  obtain ⟨interface, found, accepts, confirms⟩ := obliges
  have accepted := accepts frame outside.world
  exact ⟨_, Registry.hand_eq_ok_iff.mpr
    ⟨interface, _, found, Prod.ext accepted rfl, by rw [confirms]; rfl, rfl⟩⟩

/-- A frame that is handed over to such an interface is noted as confirmed. -/
theorem Stack.Obliges.hands (obliges : stack.Obliges index) (sound : stack.Sound)
    (timely : step.Timely stack) (live : stack.connections.get? handle = some connection)
    (plans : stack.Plans handle connection step now .output (.hand [] index frame flow refusal)) :
    stack.Replaced handle connection .output { flow with unconfirmed := true } true
        (step.run stack) ∧
      (step.run stack).outside.signals =
        stack.outside.signals ++ [.handed (.flow handle .output) index frame] := by
  obtain ⟨outside, taken⟩ := obliges.hand (.flow handle .output) frame (stack.outside.tellAll [])
  obtain ⟨replaced, told⟩ := (sound.acts_of_plans timely live plans).of_taken taken
  refine ⟨replaced, ?_⟩
  rw [told, Registry.hand_ok taken, Outside.tellAll_nil]

/-- A step that notes a confirmation leaves no alarm of the flow. -/
theorem Stack.Plans.disarms {direction : Direction} {plan : Plan}
    (plans : stack.Plans handle connection step now direction plan) (sound : stack.Sound)
    (timely : step.Timely stack) (live : stack.connections.get? handle = some connection)
    (guarded : Exchange.Guarded { stack.exchange connection with confirmations := [] }
      (stack.scope now handle) direction) (changes : ∀ news, plan ≠ .stay news)
    (noted : (step.run stack).confirmations ≠ []) :
    stack.alarms.Rearmed (step.run stack).alarms handle direction [] := by
  rcases plans.rearms sound timely live guarded with ⟨⟨news, stays⟩, _⟩ | ⟨_, x, result, served⟩
  · exact absurd stays (changes news)
  · rw [result] at noted ⊢
    rw [Exchange.demanded_of_noted noted] at served
    obtain ⟨own, rearmed, asked | ⟨refused, _⟩, _⟩ := served
    · exact asked ▸ rearmed
    · exact refused ▸ rearmed

/-- A step that makes a flow wait arms its alarm, if there is a timer left. -/
theorem Stack.Plans.serves {direction : Direction} {flow : Flow} {alarm : Alarm} {delay : Tick}
    (plans : stack.Plans handle connection step now direction (.wait flow)) (sound : stack.Sound)
    (timely : step.Timely stack) (live : stack.connections.get? handle = some connection)
    (guarded : Exchange.Guarded { stack.exchange connection with confirmations := [] }
      (stack.scope now handle) direction)
    (busy : flow.isIdle = false)
    (watch : flow.watch stack.settings handle direction = (alarm, delay)) :
    stack.alarms.Served (step.run stack).alarms handle direction [(alarm, now.after delay)] := by
  have acts := sound.acts_of_plans timely live plans
  rcases plans.rearms sound timely live guarded with ⟨⟨news, stays⟩, _⟩ | ⟨_, x, result, served⟩
  · cases stays
  · obtain ⟨_, _, carried⟩ := acts.carries_out
    cases carried with
    | wait replaced =>
      have quiet := replaced.confirmations
      have here := replaced.get? live
      rw [result] at quiet here ⊢
      have same : x.connection = connection.setFlow flow direction := by
        rw [Stack.get?_restore live] at here
        exact Option.some.inj here
      rw [Exchange.demanded_of_busy quiet (by rw [same, Connection.flow_setFlow]) busy watch]
        at served
      exact served

end

/-- A flow that had an alarm pending gets the one that it asks for. -/
theorem TimerQueue.Served.of_pending {queue after : TimerQueue Alarm} {handle : Handle}
    {direction : Direction} {asked : List (Alarm × Tick)}
    (served : queue.Served after handle direction asked) (linked : queue.Linked)
    {entry : Alarm × Tick} (pending : entry ∈ queue.pending)
    (named : entry.1.watches handle direction) : after.watching handle direction = asked := by
  obtain ⟨own, rearmed, outcome, _⟩ := served
  rw [rearmed.own]
  have some : queue.watching handle direction ≠ [] :=
    List.ne_nil_of_mem (List.mem_filter.mpr ⟨pending, named⟩)
  exact outcome.elim id fun refused => absurd (linked.room_of_watching some) refused.2

/-- The confirmation of a consecutive frame. -/
theorem Connection.outputConfirmed_consecutive {connection : Connection}
    (phase : connection.output.phase = .consecutiveOut)
    (unconfirmed : connection.output.unconfirmed = true) (scope : Scope ω) :
    connection.outputConfirmed scope =
      if connection.output.remaining = 0 then .rest (connection.sent scope)
      else if connection.output.countFrame.blockComplete then
        .wait { connection.output.countFrame with unconfirmed := false, phase := .controlIn }
      else if connection.output.separation = 0 then
        connection.next scope { connection.output.countFrame with unconfirmed := false }
      else .wait { connection.output.countFrame with unconfirmed := false } := by
  obtain ⟨_, ⟨_, _, _, _, _, _, _, _, _, _, _⟩, _, _, _, _⟩ := connection
  cases phase
  cases unconfirmed
  rfl

/-- What a call comes to in which a connection sends a block at once. The raw subscriptions were
offered the flow control first. If these frames are all that was left of the message, the flow is
idle and this is told; and else the flow waits for flow control, watched again if it was before. -/
structure Stack.SendsBlock (before : Stack ω) (now : Tick) (handle : Handle)
    (connection : Connection) (address : Address) (blockSize : UInt8) (offers : List Signal)
    (frames : List Frame) (after : Stack ω) : Prop where
  count : frames.length = blockLength blockSize (address.partsFor connection.output.remaining)
  signals : after.outside.signals = before.outside.signals ++ offers ++
    frames.map (.handed (.flow handle .output) address.interface ·) ++
      if frames.length = address.partsFor connection.output.remaining then
        told connection.onSent (.sent · handle connection.output.total)
      else []
  leaves : ∃ flow, after.connections.get? handle = some { connection with output := flow } ∧
    if frames.length = address.partsFor connection.output.remaining then flow = {}
    else flow.phase = .controlIn ∧
      flow.remaining = connection.output.remaining - frames.length * address.partSize
  watched : frames.length ≠ address.partsFor connection.output.remaining →
    (∃ deadline, (.output handle, deadline) ∈ before.alarms.pending) →
      after.alarms.watching handle .output =
        [(.output handle, now.after before.settings.awaitFlowControl)]

/-- A connection is in the middle of a block without separation time. It has handed over these
frames of it, and the last one is noted as confirmed. -/
structure Stack.Bursts (start : Stack ω) (handle : Handle) (connection : Connection)
    (address : Address) (message : List UInt8) (emitted : List Frame) (blockSize : UInt8)
    (frames : List Frame) (stack : Stack ω) (flow : Flow) : Prop where
  sound : stack.Sound
  surroundings : stack.surroundings = start.surroundings
  noted : stack.confirmations = [⟨handle, .output⟩]
  live : stack.connections.get? handle = some { connection with output := flow }
  sent : Sent (address.encoder start.settings) message (emitted ++ frames) flow
  phase : flow.phase = .consecutiveOut
  unconfirmed : flow.unconfirmed = true
  undelayed : flow.separation = 0
  size : flow.blockSize = blockSize
  count : blockSize ≠ 0 →
    frames.length = flow.blockCount.toNat + 1 ∧ flow.blockCount < blockSize
  left : flow.remaining = connection.output.remaining - frames.length * address.partSize
  fewer : (frames.length - 1) * address.partSize < connection.output.remaining
  signals : stack.outside.signals = start.outside.signals ++
    frames.map (.handed (.flow handle .output) address.interface ·)
  alarms : start.alarms.Rearmed stack.alarms handle .output []

section

variable {start stack after : Stack ω} {handle : Handle} {connection : Connection}
  {address : Address} {message : List UInt8} {emitted frames : List Frame} {flow : Flow} {now : Tick}
  {blockSize : UInt8}

/-- The flow control starts the block with its first frame. -/
theorem Stack.Obliges.begins (obliges : start.Obliges address.interface) (sound : start.Sound)
    (quiet : start.confirmations = [])
    (live : start.connections.get? handle = some connection)
    (guarded : Exchange.Guarded { start.exchange connection with confirmations := [] }
      (start.scope now handle) .output)
    (bound : connection.address = some address) (waits : connection.output.phase = .controlIn)
    (sent : Sent (address.encoder start.settings) message emitted connection.output)
    (left : 0 < connection.output.remaining) (blockSize : UInt8) {separation : UInt8}
    (undelayed : separationTime separation = 0) :
    ∃ frame flow, start.Bursts handle connection address message emitted blockSize [frame]
      ((Step.arrive now handle (.flowControl .continueToSend blockSize separation)).run start)
        flow := by
  generalize step_eq :
    Step.arrive now handle (.flowControl .continueToSend blockSize separation) = step
  have timely : step.Timely start := by
    rw [← step_eq]
    exact quiet
  have opened : Sent (address.encoder (start.scope now handle).settings) message emitted
      (connection.output.startBlock start.settings blockSize separation) :=
    sent.of_same rfl rfl rfl rfl
  obtain ⟨frame, next, plan, shape, onward⟩ := Connection.next_eq bound opened rfl left
  have plans : start.Plans handle connection step now .output
      (.hand [] address.interface frame next (connection.failure (start.scope now handle))) := by
    rw [← plan, ← step_eq]
    have arrive : start.Plans handle connection _ now .output
      (connection.controlReceived (start.scope now handle) .continueToSend blockSize separation) :=
        .arrive now (.flowControl .continueToSend blockSize separation)
    unfold Connection.controlReceived at arrive
    rw [if_neg (not_not.mpr waits)] at arrive
    exact arrive
  obtain ⟨replaced, told⟩ := obliges.hands sound timely live plans
  have noted := replaced.confirmations
  subst shape
  refine ⟨frame, _, ⟨sound.step timely, ?_, noted, replaced.get? live,
    onward.of_same rfl rfl rfl rfl, rfl, rfl, undelayed, rfl, fun limited => ⟨rfl, ?_⟩, ?_, ?_, told,
    plans.disarms sound timely live guarded (by simp) (by simp [noted])⟩⟩
  · rw [← step_eq]
    exact Step.surroundings_run (by simp) start
  · exact UInt8.pos_iff_ne_zero.mpr limited
  · rw [← address.frameSize_encoder start.settings, List.length_singleton, Nat.one_mul]
    rfl
  · simpa using left

/-- Inside a block no alarm of the flow is pending. -/
theorem Stack.Bursts.guarded
    (bursts : start.Bursts handle connection address message emitted blockSize frames stack flow)
    (now : Tick) : Exchange.Guarded
      { stack.exchange { connection with output := flow } with confirmations := [] }
      (stack.scope now handle) .output :=
  ⟨bursts.alarms.linked, .of_nil bursts.alarms.own _, fun _ => bursts.alarms.own⟩

theorem Stack.Bursts.settings
    (bursts : start.Bursts handle connection address message emitted blockSize frames stack flow) :
    stack.settings = start.settings :=
  congrArg Prod.fst bursts.surroundings

theorem Stack.Bursts.below
    (bursts : start.Bursts handle connection address message emitted blockSize frames stack flow) :
    flow.blockSize ≠ 0 → flow.blockCount < flow.blockSize := by
  rw [bursts.size]
  exact fun limited => (bursts.count limited).2

/-- A block has no more frames than the peer has asked for. -/
theorem Stack.Bursts.few
    (bursts : start.Bursts handle connection address message emitted blockSize frames stack flow)
    (limited : blockSize ≠ 0) : frames.length ≤ blockSize.toNat := by
  obtain ⟨count, below⟩ := bursts.count limited
  have inside := UInt8.lt_iff_toNat_lt.mp below
  omega

/-- The confirmation of a frame that leaves nothing of the message ends the transfer. -/
theorem Stack.Bursts.completes
    (bursts : start.Bursts handle connection address message emitted blockSize frames stack flow)
    (done : flow.remaining = 0) (now : Tick) (sent : connection.output.total = message.length) :
    ((Step.settle now).run stack).confirmations = [] ∧
      start.SendsBlock now handle connection address blockSize [] frames
        ((Step.settle now).run stack) := by
  have plans : stack.Plans handle { connection with output := flow } (.settle now) now .output _ :=
    .settle now bursts.noted
  have plan : Connection.confirmed { connection with output := flow } (stack.scope now handle)
      .output = .rest (told connection.onSent (.sent · handle flow.total)) := by
    show Connection.outputConfirmed _ _ = _
    rw [Connection.outputConfirmed_consecutive bursts.phase bursts.unconfirmed, if_pos done]
    rfl
  rw [plan] at plans
  have timely : (Step.settle now).Timely stack := trivial
  obtain ⟨news, told, carried⟩ :=
    (bursts.sound.acts_of_plans timely bursts.live plans).carries_out
  obtain ⟨rfl, replaced⟩ := carried.replaced_of_rest
  have whole : address.partsFor connection.output.remaining = frames.length :=
    Address.partsFor_eq (by have left := bursts.left; omega) bursts.fewer
  refine ⟨replaced.confirmations, ?_, ?_, ⟨{}, ?_, ?_⟩, fun more => absurd whole.symm more⟩
  · unfold blockLength
    split
    · exact whole.symm
    · rename_i limited
      have few := bursts.few limited
      omega
  · rw [if_pos whole.symm, told, bursts.signals, bursts.sent.total, sent, List.append_nil]
  · exact replaced.get? bursts.live
  · rw [if_pos whole.symm]

/-- The confirmation of the last frame of a block has the flow wait for flow control again. -/
theorem Stack.Bursts.pauses
    (bursts : start.Bursts handle connection address message emitted blockSize frames stack flow)
    (linked : start.alarms.Linked) (left : 0 < flow.remaining) (complete : flow.countFrame.blockComplete = true) (now : Tick) :
    ((Step.settle now).run stack).confirmations = [] ∧
      start.SendsBlock now handle connection address blockSize [] frames
        ((Step.settle now).run stack) := by
  have timely : (Step.settle now).Timely stack := trivial
  have plans : stack.Plans handle { connection with output := flow } (.settle now) now .output _ :=
    .settle now bursts.noted
  have plan : Connection.confirmed { connection with output := flow } (stack.scope now handle)
      .output = .wait { flow.countFrame with unconfirmed := false, phase := .controlIn } := by
    show Connection.outputConfirmed _ _ = _
    rw [Connection.outputConfirmed_consecutive bursts.phase bursts.unconfirmed, if_neg left.ne',
      if_pos complete]
  rw [plan] at plans
  obtain ⟨news, told, carried⟩ :=
    (bursts.sound.acts_of_plans timely bursts.live plans).carries_out
  have served := plans.serves bursts.sound timely bursts.live (bursts.guarded now) rfl
    (show Flow.watch _ _ _ _ = (.output handle, stack.settings.awaitFlowControl) from rfl)
  obtain ⟨limited, last⟩ := (Flow.countFrame_complete bursts.below).mp complete
  rw [bursts.size] at limited last
  have full : frames.length = blockSize.toNat := (bursts.count limited).1.trans last
  have more : frames.length < address.partsFor connection.output.remaining :=
    Address.lt_partsFor (by have some := bursts.left; omega)
  cases carried with
  | wait replaced =>
    refine ⟨replaced.confirmations, ?_, ?_, ⟨_, replaced.get? bursts.live, ?_⟩, fun _ pending => ?_⟩
    · unfold blockLength
      rw [if_neg limited]
      omega
    · rw [if_neg more.ne, told, bursts.signals, List.append_nil, List.append_nil, List.append_nil]
    · rw [if_neg more.ne]
      exact ⟨rfl, bursts.left⟩
    · rw [← bursts.settings]
      obtain ⟨deadline, member⟩ := pending
      exact (bursts.alarms.trans_served served).of_pending linked member
        (Direction.alarm_watches handle .output)

/-- The confirmation of any other frame has the next one handed over. -/
theorem Stack.Bursts.continues
    (bursts : start.Bursts handle connection address message emitted blockSize frames stack flow)
    (bound : connection.address = some address) (obliges : start.Obliges address.interface)
    (left : 0 < flow.remaining) (incomplete : ¬flow.countFrame.blockComplete = true) (now : Tick) :
    ∃ frame next, start.Bursts handle connection address message emitted blockSize
      (frames ++ [frame]) ((Step.settle now).run stack) next := by
  have timely : (Step.settle now).Timely stack := trivial
  have settings := bursts.settings
  have plans : stack.Plans handle { connection with output := flow } (.settle now) now .output _ :=
    .settle now bursts.noted
  have counted : Sent (address.encoder (stack.scope now handle).settings) message
      (emitted ++ frames) { flow.countFrame with unconfirmed := false } := by
    rw [show (stack.scope now handle).settings = start.settings from settings]
    exact bursts.sent.of_same rfl rfl rfl rfl
  have named : Connection.address { connection with output := flow } = some address := bound
  obtain ⟨frame, next, plan, shape, onward⟩ :=
    Connection.next_eq named counted bursts.phase left
  have follows : Connection.confirmed { connection with output := flow } (stack.scope now handle)
      .output = Connection.next { connection with output := flow } (stack.scope now handle)
        { flow.countFrame with unconfirmed := false } := by
    show Connection.outputConfirmed _ _ = _
    rw [Connection.outputConfirmed_consecutive bursts.phase bursts.unconfirmed, if_neg left.ne',
      if_neg incomplete, if_pos bursts.undelayed]
  rw [follows, plan] at plans
  have here : stack.Obliges address.interface := by
    have registry : stack.registry = start.registry := congrArg Prod.snd bursts.surroundings
    unfold Stack.Obliges
    rw [registry]
    exact obliges
  obtain ⟨replaced, told⟩ := here.hands bursts.sound timely bursts.live plans
  have noted := replaced.confirmations
  have disarmed := plans.disarms bursts.sound timely bursts.live (bursts.guarded now) (by simp)
    (by simp [noted])
  subst shape
  have below (limited : blockSize ≠ 0) : flow.countFrame.blockCount.toNat = frames.length ∧
      flow.countFrame.blockCount < blockSize := by
    obtain ⟨count, _⟩ := bursts.count limited
    rw [← bursts.size] at limited ⊢
    obtain ⟨counted, below⟩ := Flow.countFrame_unfilled bursts.below incomplete limited
    exact ⟨counted.trans count.symm, below⟩
  refine ⟨frame, _, bursts.sound.step timely, ?_, noted, replaced.get? bursts.live, ?_, bursts.phase,
    rfl, bursts.undelayed, bursts.size, fun limited => ⟨?_, (below limited).2⟩, ?_, ?_, ?_,
    bursts.alarms.trans disarmed⟩
  · exact (Step.surroundings_run (by simp) stack).trans bursts.surroundings
  · rw [← List.append_assoc, ← settings]
    exact onward.of_same rfl rfl rfl rfl
  · rw [List.length_append, List.length_singleton]
    exact congrArg (· + 1) (below limited).1.symm
  · have part := address.frameSize_encoder stack.settings
    have some := bursts.left
    rw [List.length_append, List.length_singleton, Nat.add_mul, Nat.one_mul, ← Nat.sub_sub, ← some,
      ← part]
    rfl
  · have some := bursts.left
    simp only [List.length_append, List.length_singleton, Nat.add_sub_cancel]
    omega
  · rw [told, bursts.signals, List.map_append, List.append_assoc]
    rfl

/-- From any frame of a block on, the loop sends the rest of it. -/
theorem Stack.Drains.sends_block (drains : stack.Drains now after)
    (bound : connection.address = some address) (obliges : start.Obliges address.interface)
    (linked : start.alarms.Linked) (total : connection.output.total = message.length)
    (bursts : start.Bursts handle connection address message emitted blockSize frames stack flow) :
    ∃ more flow, Sent (address.encoder start.settings) message (emitted ++ (frames ++ more)) flow ∧
      start.SendsBlock now handle connection address blockSize [] (frames ++ more) after := by
  -- each round confirms the last of the frames; the block ends with the round that hands over none
  induction drains generalizing frames flow with
  | done quiet =>
    rw [bursts.noted] at quiet
    cases quiet
  | @next stack after confirmation rest noted onward ih =>
    have run : (Step.settle now).run stack =
        { stack with confirmations := rest }.on now confirmation.connection
          (·.confirm · confirmation.direction) := by
      simp only [Step.run, noted]
    rw [← run] at ih onward
    have ended (outcome : ((Step.settle now).run stack).confirmations = [] ∧
        start.SendsBlock now handle connection address blockSize [] frames
          ((Step.settle now).run stack)) : ∃ more flow,
        Sent (address.encoder start.settings) message (emitted ++ (frames ++ more)) flow ∧
          start.SendsBlock now handle connection address blockSize [] (frames ++ more) after := by
      obtain ⟨quiet, sends⟩ := outcome
      rw [← onward.of_quiet quiet] at sends
      refine ⟨[], flow, ?_, ?_⟩
      · rw [List.append_nil]
        exact bursts.sent
      · rw [List.append_nil]
        exact sends
    by_cases done : flow.remaining = 0
    · exact ended (bursts.completes done now total)
    · have left : 0 < flow.remaining := Nat.pos_of_ne_zero done
      by_cases complete : flow.countFrame.blockComplete = true
      · exact ended (bursts.pauses linked left complete now)
      · obtain ⟨frame, next, further⟩ := bursts.continues bound obliges left complete now
        obtain ⟨more, last, sent, sends⟩ := ih further
        rw [List.append_assoc, List.singleton_append] at sent sends
        exact ⟨frame :: more, last, sent, sends⟩

/-- Flow control that lets a connection send a block has it sent before the call returns. -/
theorem Stack.Clears.sends_block {index : InterfaceIndex} {frame : Frame}
    (clears : stack.Clears index frame handle connection address blockSize) (sound : stack.Sound)
    (quiet : stack.confirmations = []) {past : List (Moment ω)} (overseen : stack.Overseen past)
    (now : Tick) :
    ∃ message number offers frames, connection.output.buffer = some ⟨message⟩ ∧
      connection.output.sequence = sequenceAfter number ∧
      (∀ signal ∈ offers, ∃ listener subscription consumed,
        signal = .offered listener subscription frame consumed) ∧
      frames <+: (address.encoder stack.settings).consecutives number
        (message.drop connection.output.offset) ∧
      stack.SendsBlock now handle connection address blockSize offers frames
        (stack.input now index frame) := by
  obtain ⟨offered, whole⟩ := stack.input_declined clears.declined now
  obtain ⟨_, overseen', sound', quiet'⟩ :=
    overseen.plain_step sound quiet (.offer index frame) rfl
  obtain ⟨offers, told, only⟩ := stack.raw.offer_offers index frame stack.raw.order stack.outside
  obtain ⟨separation, decoded, undelayed⟩ := clears.unit
  obtain ⟨emitted, message, sent, left⟩ : ∃ emitted message,
      Sent (address.encoder stack.settings) message emitted connection.output ∧
        0 < connection.output.remaining := by
    rcases (sound.flows handle connection clears.live).output with
      idle | ⟨other, message, emitted, bound, underway⟩
    · have waits := clears.waits
      rw [idle] at waits
      cases waits
    · rw [clears.bound] at bound
      cases bound
      exact ⟨emitted, message, underway.sent, (underway.stage.of_control clears.waits).2⟩
  rw [offered] at whole overseen' sound' quiet'
  generalize (stack.raw.offer index frame stack.raw.order stack.outside).2 = outside at *
  have arrives : Stack.inputTransport { stack with outside } now index frame =
      (Step.arrive now handle (.flowControl .continueToSend blockSize separation)).run
        { stack with outside } := by
    have found : Stack.findConnection? { stack with outside } (·.receives index frame.id) =
      some handle := (Stack.findConnection?_addressed sound.slots).mpr clears.addressed
    simp only [Stack.inputTransport, found, decoded]
    rfl
  have obliges : Stack.Obliges { stack with outside } address.interface := clears.obliges
  obtain ⟨opening, flow, bursts⟩ := obliges.begins sound' quiet' clears.live
    (overseen'.guarded clears.live now .output) clears.bound clears.waits sent left blockSize
    undelayed
  rw [← arrives] at bursts
  have drains := bursts.sound.drains now
  rw [← whole] at drains
  obtain ⟨more, last, onward, sends⟩ := drains.sends_block clears.bound obliges
    overseen'.linked sent.total bursts
  refine ⟨message, emitted.length, offers, [opening] ++ more, sent.buffer, sent.sequence, only, ?_,
    sends.count, ?_, sends.leaves, sends.watched⟩
  · have frames := onward.frames.trans sent.frames.symm
    rw [List.append_assoc, List.append_cancel_left_eq] at frames
    exact ⟨_, frames⟩
  · have signals := sends.signals
    rw [List.append_nil] at signals
    rw [signals, told]

end

/-- In every state that a stack gets to, the loop that handles confirmations ends. Where none is left
to be handled, as between any two calls, flow control that asks for a block without separation time
has it sent before the call returns, if the interface takes every frame and confirms it at once. The
block has as many consecutive frames as the peer has asked for, or as are left of the message. With
the last frame of the message the flow is idle and this is told once. Otherwise it waits for flow
control again, and it does so with a timer if one was pending before. -/
theorem confirmations_are_drained {settings : Settings} {world : ω} {start : Stack ω}
    (run : Stack.new settings world = .ok start) (calls : List (Call ω)) {moment : Moment ω}
    (reached : moment ∈ start.history calls) (now : Tick) :
    moment.after.Drains now (moment.after.settle now) ∧
      ∀ index frame handle connection address blockSize, moment.after.confirmations = [] →
        moment.after.Clears index frame handle connection address blockSize →
          ∃ message number offers frames, connection.output.buffer = some ⟨message⟩ ∧
            connection.output.sequence = sequenceAfter number ∧
            (∀ signal ∈ offers, ∃ listener subscription consumed,
              signal = .offered listener subscription frame consumed) ∧
            frames <+: (address.encoder settings).consecutives number
              (message.drop connection.output.offset) ∧
            moment.after.SendsBlock now handle connection address blockSize offers frames
              (moment.after.input now index frame) := by
  have orderly := (Stack.new_smooth run calls).orderly
  obtain ⟨configured, watched⟩ := Stack.new_watched run
  obtain ⟨past, rest, whole⟩ := List.append_of_mem reached
  obtain ⟨sound, timely, same, overseen⟩ := orderly.reach whole
    (fun past stack => stack.settings = settings ∧ stack.Overseen past)
    ⟨configured, watched.overseen⟩ fun past moment sound timely held =>
      ⟨(moment.step.settings_run _).trans held.1, held.2.step sound timely⟩
  have settled : moment.after.Sound := sound.step timely
  refine ⟨settled.drains now, ?_⟩
  intro index frame handle connection address blockSize quiet clears
  obtain ⟨message, number, offers, frames, outcome⟩ :=
    clears.sends_block settled quiet (overseen.step sound timely) now
  rw [show moment.after.settings = settings from (moment.step.settings_run _).trans same] at outcome
  exact ⟨message, number, offers, frames, outcome⟩

/-- The sample connection sends twenty bytes, of which its first frame carries six. -/
def sampleLetter : List (Call Unit) :=
  sampleCalls ++ [.send 5 sampleHandle (List.replicate 20 0)]

/-- The first frame is confirmed; from then on flow control is awaited. -/
def sampleAwaiting : Moment Unit where
  before := sampleStack.through
    (sampleStack.steps sampleCalls ++ [.submit 5 sampleHandle (List.replicate 20 0)])
  step := .settle 5

/-- The peer asks for blocks of one frame. -/
def sampleBidding : Frame :=
  .classic (.standard 0x7E8) 3 #v[0x30, 1, 0, 0, 0, 0, 0, 0]

/-- One of the two consecutive frames of the sample message is sent in the call that takes the flow
control, which is awaited again. -/
theorem sample_block_is_sent :
    ∃ connection offers frames, connection.output.remaining = 14 ∧
      sampleAwaiting.after.SendsBlock 9 sampleHandle connection sampleAddress 1 offers frames
        (sampleAwaiting.after.input 9 ⟨0⟩ sampleBidding) ∧
      frames.length = 1 ∧
      (sampleAwaiting.after.input 9 ⟨0⟩ sampleBidding).alarms.watching sampleHandle .output =
        [(.output sampleHandle, Tick.after 9 1000)] := by
  have made : Stack.new {} () = .ok sampleStack := rfl
  have steps : sampleStack.steps sampleLetter =
      (sampleStack.steps sampleCalls ++ [.submit 5 sampleHandle (List.replicate 20 0)]) ++
        [.settle 5] := rfl
  have reached : sampleAwaiting ∈ sampleStack.history sampleLetter := by
    unfold Stack.history
    rw [steps, Stack.moments_append]
    exact List.mem_append_right _ (List.mem_singleton_self _)
  have sound := (Stack.calls_sound made sampleLetter).1
  rw [Stack.calls_eq, steps, Stack.through_append] at sound
  have clears : sampleAwaiting.after.Clears ⟨0⟩ sampleBidding sampleHandle _ sampleAddress 1 :=
    { declined := rfl
      addressed := (Stack.findConnection?_addressed sound.slots).mp (by decide +kernel)
      unit := ⟨0, rfl, rfl⟩
      live := rfl
      waits := rfl
      bound := rfl
      obliges := ⟨.obliging, rfl, fun _ _ => rfl, fun _ => rfl⟩ }
  obtain ⟨_, _, offers, frames, _, _, _, _, sends⟩ :=
    (confirmations_are_drained made sampleLetter reached 9).2 _ _ _ _ _ _ rfl clears
  have once : frames.length = 1 := sends.count.trans (by decide +kernel)
  refine ⟨_, offers, frames, ?_, sends, once, sends.watched ?_ ⟨1005, ?_⟩⟩
  · decide +kernel
  · rw [once]
    decide +kernel
  · decide +kernel

end DiagBus
