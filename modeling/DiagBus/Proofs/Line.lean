import DiagBus.Proofs.Terminals

namespace DiagBus

/-- The frames on their way from one stack to the other. -/
def wire (near far : Stack Port) : List Frame :=
  far.outside.world.inbox ++ near.outside.world.outbox

/-- The frames of a message. -/
def units (frames : List Frame) : List Frame :=
  frames.filter fun frame => !isFlowControl frame.payload

def invitations (frames : List Frame) : List Frame :=
  frames.filter fun frame => isFlowControl frame.payload

/-- The terminal listens to its peer, and has room for the messages of both. -/
structure Terminal.Faces (terminal peer : Terminal) : Prop where
  fits : terminal.Fits
  receives : terminal.receives = peer.transmits
  room : terminal.message.length + peer.message.length ≤ terminal.settings.memory
  flexible : terminal.flexible = true → terminal.capable = true

/-- Two terminals on one line, and the message of each on its way to the other. -/
structure Line (own peer : Terminal) (asked answered : Bool) (here there : Stack Port)
    (near far : Connection) : Prop where
  runs : own.Runs here near
  peerRuns : peer.Runs there far
  silent : here.failures = []
  peerSilent : there.failures = []
  forth : Transfer own peer asked near.output far.input (units (wire here there))
    (invitations (wire there here)) here.sentNews there.receivedNews
  back : Transfer peer own answered far.output near.input (units (wire there here))
    (invitations (wire here there)) there.sentNews here.receivedNews

theorem units_append (first second : List Frame) :
    units (first ++ second) = units first ++ units second :=
  List.filter_append _ _

theorem invitations_append (first second : List Frame) :
    invitations (first ++ second) = invitations first ++ invitations second :=
  List.filter_append _ _

/-- Frames of one kind. -/
theorem units_of_all (frames : List Frame) {flowControl : Bool}
    (all : ∀ frame ∈ frames, isFlowControl frame.payload = flowControl) :
    units frames = (if flowControl then [] else frames) ∧
      invitations frames = if flowControl then frames else [] := by
  cases flowControl with
  | true =>
    refine ⟨List.filter_eq_nil_iff.mpr fun frame member => ?_, List.filter_eq_self.mpr all⟩
    rw [all frame member]
    simp
  | false =>
    refine ⟨List.filter_eq_self.mpr fun frame member => ?_,
      List.filter_eq_nil_iff.mpr fun frame member => ?_⟩
    · rw [all frame member]
      rfl
    · rw [all frame member]
      simp

section

variable {own peer : Terminal} {asked answered : Bool} {here there after : Stack Port}
  {near far : Connection} {now : Tick} {plan : Plan}

theorem Line.swap (line : Line own peer asked answered here there near far) :
    Line peer own answered asked there here far near :=
  ⟨line.peerRuns, line.runs, line.peerSilent, line.silent, line.back, line.forth⟩

theorem Plan.Done.wires {before : Stack Port} (done : plan.Done before after) (far : Stack Port) :
    wire after far = wire before far ++ plan.frames ∧ wire far after = wire far before := by
  unfold wire
  rw [done.world]
  exact ⟨(List.append_assoc _ _ _).symm, rfl⟩

/-- All that the plan tells is of this kind, or of no other. -/
theorem news_filter {early news : List Signal} {signal : Signal}
    (known : early ++ news = [] ∨ early ++ news = [signal]) (kind : Signal → Bool) :
    news.filter kind = if kind signal then news else [] := by
  have all : ∀ one ∈ news, one = signal := by
    intro one member
    have among : one ∈ early ++ news := List.mem_append_right early member
    rcases known with none | only
    · rw [none] at among
      cases among
    · rw [only] at among
      exact List.mem_singleton.mp among
  by_cases own : kind signal = true
  · rw [if_pos own]
    refine List.filter_eq_self.mpr fun one member => ?_
    rw [all one member]
    exact own
  · rw [if_neg own]
    refine List.filter_eq_nil_iff.mpr fun one member => ?_
    rw [all one member]
    exact own

/-- The sending flow of a terminal goes on. -/
theorem Line.of_output (runs : own.Runs here near) (peerRuns : peer.Runs there far)
    (silent : here.failures = []) (peerSilent : there.failures = [])
    (fits : own.Fits) (acts : here.Acts now Terminal.handle near .output plan after)
    (sound : after.Sound)
    (turn : here.confirmations = [] ∨ here.confirmations = [⟨Terminal.handle, .output⟩])
    (forwards : plan.Forwards own peer asked near.output far.input (units (wire here there))
      (invitations (wire there here)) here.sentNews there.receivedNews)
    (back : Transfer peer own answered far.output near.input (units (wire there here))
      (invitations (wire here there)) there.sentNews here.receivedNews) :
    ∃ changed, Line own peer asked answered after there changed far := by
  obtain ⟨prompt, transfer⟩ := forwards
  have news := transfer.news.1
  have failed := news_filter news Signal.isFailed
  have sent := news_filter news Signal.isSent
  have received := news_filter news Signal.isReceived
  have data := (transfer.wires fits).1
  obtain ⟨changed, done⟩ := runs.acts acts sound turn prompt
  obtain ⟨forward, backward⟩ := done.wires there
  obtain ⟨unit, invitation⟩ := units_of_all plan.frames fun frame member =>
    (data frame (List.mem_append_right _ member)).2
  have told : after.sentNews = here.sentNews ++ plan.news :=
    (done.filter Signal.isSent fun _ _ _ => rfl).trans (congrArg (here.sentNews ++ ·) sent)
  have heard : after.receivedNews = here.receivedNews := by
    refine (done.filter Signal.isReceived fun _ _ _ => rfl).trans ?_
    rw [received]
    exact List.append_nil _
  have quiet : after.failures = [] := by
    refine (done.filter Signal.isFailed fun _ _ _ => rfl).trans ?_
    rw [failed]
    exact (List.append_nil _).trans silent
  refine ⟨_, changed, peerRuns, quiet, peerSilent, ?_, ?_⟩
  · rw [forward, backward, units_append, unit, told]
    exact transfer
  · rw [forward, backward, invitations_append, invitation, heard]
    show Transfer peer own answered far.output near.input _ (invitations (wire here there) ++ []) _ _
    rw [List.append_nil]
    exact back

/-- The receiving flow of a terminal goes on. -/
theorem Line.of_input (runs : own.Runs here near) (peerRuns : peer.Runs there far)
    (silent : here.failures = []) (peerSilent : there.failures = [])
    (fits : peer.Fits) (acts : here.Acts now Terminal.handle near .input plan after)
    (sound : after.Sound)
    (turn : here.confirmations = [] ∨ here.confirmations = [⟨Terminal.handle, .input⟩])
    (forth : Transfer own peer asked near.output far.input (units (wire here there))
      (invitations (wire there here)) here.sentNews there.receivedNews)
    (backs : plan.Backs peer own answered far.output near.input (units (wire there here))
      (invitations (wire here there)) there.sentNews here.receivedNews) :
    ∃ changed, Line own peer asked answered after there changed far := by
  obtain ⟨prompt, transfer⟩ := backs
  have news := transfer.news.2
  have failed := news_filter news Signal.isFailed
  have sent := news_filter news Signal.isSent
  have received := news_filter news Signal.isReceived
  have control := (transfer.wires fits).2
  obtain ⟨changed, done⟩ := runs.acts acts sound turn prompt
  obtain ⟨forward, backward⟩ := done.wires there
  obtain ⟨unit, invitation⟩ := units_of_all plan.frames fun frame member =>
    (control frame (List.mem_append_right _ member)).2
  have told : after.sentNews = here.sentNews := by
    refine (done.filter Signal.isSent fun _ _ _ => rfl).trans ?_
    rw [sent]
    exact List.append_nil _
  have heard : after.receivedNews = here.receivedNews ++ plan.news :=
    (done.filter Signal.isReceived fun _ _ _ => rfl).trans
      (congrArg (here.receivedNews ++ ·) received)
  have quiet : after.failures = [] := by
    refine (done.filter Signal.isFailed fun _ _ _ => rfl).trans ?_
    rw [failed]
    exact (List.append_nil _).trans silent
  refine ⟨_, changed, peerRuns, quiet, peerSilent, ?_, ?_⟩
  · rw [forward, backward, units_append, unit, told]
    show Transfer own peer asked near.output far.input (units (wire here there) ++ []) _ _ _
    rw [List.append_nil]
    exact forth
  · rw [forward, backward, invitations_append, invitation, heard]
    exact transfer

/-- A terminal at rest has no frame unconfirmed. -/
theorem Line.quiet_flows (line : Line own peer asked answered here there near far)
    (quiet : here.confirmations = []) :
    near.output.unconfirmed = false ∧ near.input.unconfirmed = false :=
  ⟨line.runs.confirmed quiet .output, line.runs.confirmed quiet .input⟩

/-- A confirmation that is noted takes the message it is of one step on. -/
theorem Line.settle (line : Line own peer asked answered here there near far)
    (faces : own.Faces peer) (facing : peer.Faces own) (noted : here.confirmations ≠ [])
    (now : Tick) :
    ∃ changed, Line own peer asked answered ((Step.settle now).run here) there changed far := by
  have runs := line.runs
  have sound := runs.sound
  have later := sound.step (show (Step.settle now).Timely here from trivial)
  obtain ⟨direction, named, unconfirmed⟩ := runs.noted noted
  have acts := sound.settle_acts named runs.live now
  cases direction with
  | output =>
    have forwards := Transfer.outputConfirmed line.forth (runs.serves now) unconfirmed
    exact Line.of_output runs line.peerRuns line.silent line.peerSilent faces.fits acts later
      (Or.inr named) forwards line.back
  | input =>
    have backs := Transfer.inputConfirmed line.back unconfirmed
    refine Line.of_input runs line.peerRuns line.silent line.peerSilent facing.fits acts later
      (Or.inr named) line.forth ?_
    exact backs

theorem Transfer.rests {input output : Flow} {onWay back : List Frame} {told got : List Signal}
    (transfer : Transfer own peer false output input onWay back told got) : output = {} := by
  cases transfer
  rfl

/-- A frame that comes out of the port takes the message it belongs to one step on. -/
theorem Line.arrive (line : Line own peer asked answered here there near far)
    (faces : own.Faces peer) (facing : peer.Faces own) (quiet : here.confirmations = [])
    (peerQuiet : there.confirmations = []) {frame : Frame} {rest : List Frame}
    (inbox : here.outside.world.inbox = frame :: rest) (now : Tick) :
    frame.id = own.address.receives ∧ ∃ pdu, Pdu.decode frame.payload = some pdu ∧
      ∃ changed, Line own peer asked answered
        ((Step.arrive now Terminal.handle pdu).run (here.polled rest)) there changed far := by
  have runs := line.runs.polled quiet rest
  have serves := runs.serves now
  have coming : wire there here = frame :: wire there (here.polled rest) := by
    unfold wire
    rw [inbox]
    rfl
  have forth := line.forth
  have back := line.back
  have forthWires := forth.wires faces.fits
  have backWires := back.wires facing.fits
  rw [coming] at forth back forthWires backWires
  -- the frame is told apart by its payload, and either way only one transfer goes on
  by_cases control : isFlowControl frame.payload = true
  · have unit : units (frame :: wire there (here.polled rest)) = units (wire there (here.polled rest)) :=
      List.filter_cons_of_neg (by simp [control])
    have invitation : invitations (frame :: wire there (here.polled rest)) =
        frame :: invitations (wire there (here.polled rest)) := List.filter_cons_of_pos control
    rw [invitation] at forth forthWires
    rw [unit] at back
    have named : frame.id = own.address.receives :=
      (forthWires.2 frame List.mem_cons_self).1.trans faces.receives.symm
    obtain ⟨same, forwards⟩ := Transfer.controlReceived forth serves
    have read : Pdu.decode frame.payload = some (.flowControl .continueToSend
        peer.settings.blockSize peer.settings.separation) := by
      rw [same]
      exact Encoder.decode_continue _ _ _
    have timely : (Step.arrive now Terminal.handle (.flowControl .continueToSend
        peer.settings.blockSize peer.settings.separation)).Timely (here.polled rest) := quiet
    have acts := runs.sound.acts_of_plans timely runs.live (.arrive now _)
    exact ⟨named, _, read, Line.of_output runs line.peerRuns line.silent line.peerSilent faces.fits
      acts (runs.sound.step timely) (Or.inl quiet) forwards back⟩
  · have unit : units (frame :: wire there (here.polled rest)) =
        frame :: units (wire there (here.polled rest)) := List.filter_cons_of_pos (by simp [control])
    have invitation : invitations (frame :: wire there (here.polled rest)) =
        invitations (wire there (here.polled rest)) := List.filter_cons_of_neg control
    rw [invitation] at forth
    rw [unit] at back backWires
    have named : frame.id = own.address.receives :=
      (backWires.1 frame List.mem_cons_self).1.trans faces.receives.symm
    have sent := (line.swap.quiet_flows peerQuiet).1
    have confirmed := (line.quiet_flows quiet).2
    have room (idle : near.input = {}) : peer.message.length ≤ (here.polled rest).memory.available := by
      have held := line.forth.held_le.1
      have used := runs.used
      have capacity := runs.capacity
      have budget := faces.room
      have nothing : near.input.held = 0 := by
        rw [idle]
        rfl
      unfold Memory.available
      omega
    obtain ⟨pdu, read, direction, backs⟩ :=
      Transfer.received back facing.fits serves sent confirmed room
    have timely : (Step.arrive now Terminal.handle pdu).Timely (here.polled rest) := quiet
    have acts := runs.sound.acts_of_plans timely runs.live (.arrive now pdu)
    rw [direction] at acts
    exact ⟨named, pdu, read, Line.of_input runs line.peerRuns line.silent line.peerSilent
      facing.fits acts (runs.sound.step timely) (Or.inl quiet) forth backs⟩

/-- Whether an alarm goes off in this step that ends a transfer. -/
def Moment.timesOut {ω : Type} (moment : Moment ω) : Bool :=
  match moment.step with
  | .expire now =>
    match moment.before.alarms.popDue now with
    | some (.output _, _) => true
    | some (.input _, _) => true
    | _ => false
  | _ => false

/-- An alarm goes off, but none that ends a transfer. -/
theorem Line.expire (line : Line own peer asked answered here there near far)
    (faces : own.Faces peer) (quiet : here.confirmations = []) {alarm : Alarm}
    {alarms : TimerQueue Alarm} (due : here.alarms.popDue now = some (alarm, alarms))
    (punctual : Moment.timesOut ⟨here, .expire now⟩ = false) :
    ∃ changed, Line own peer asked answered ((Step.expire now).run here) there changed far := by
  have runs := line.runs
  have timely : (Step.expire now).Timely here := quiet
  have sound := runs.sound.step timely
  unfold Moment.timesOut at punctual
  simp only [due] at punctual
  cases alarm with
  | output handle => cases punctual
  | input handle => cases punctual
  | separation handle =>
    by_cases named : handle = Terminal.handle
    · subst named
      have acts := runs.sound.acts_of_plans timely runs.live (.expire now due rfl)
      have confirmed := (line.quiet_flows quiet).1
      have forwards := Transfer.pauseEnds Terminal.handle line.forth (runs.serves now) confirmed
      exact Line.of_output runs line.peerRuns line.silent line.peerSilent faces.fits acts sound
        (Or.inl quiet) forwards line.back
    · obtain ⟨after, still⟩ := runs.expire_other quiet due named
      rw [after]
      exact ⟨near, still, line.peerRuns, line.silent, line.peerSilent, line.forth, line.back⟩

/-- Whatever a terminal handles, the message of each is where it should be on its way. -/
theorem Line.keeps (faces : own.Faces peer) (facing : peer.Faces own)
    (peerQuiet : there.confirmations = []) :
    own.Keeps (fun moment => moment.timesOut = false)
      fun stack => ∃ near, Line own peer asked answered stack there near far where
  runs := fun _ ⟨near, line⟩ => ⟨near, line.runs⟩
  settle := fun _ now ⟨_, line⟩ noted => line.settle faces facing noted now
  arrive := fun _ now _ _ ⟨_, line⟩ quiet inbox =>
    line.arrive faces facing quiet peerQuiet inbox now
  expire := fun _ _ _ _ ⟨_, line⟩ quiet due punctual => line.expire faces quiet due punctual

/-- A terminal that has not sent its message yet can send it now. -/
theorem Line.send (line : Line own peer false answered here there near far)
    (faces : own.Faces peer) (facing : peer.Faces own) (quiet : here.confirmations = [])
    (peerQuiet : there.confirmations = []) (now : Tick) :
    (∃ changed, Line own peer true answered (here.send now Terminal.handle own.message).2 there
      changed far) ∧ (here.send now Terminal.handle own.message).2.confirmations = [] := by
  have runs := line.runs
  have idle := line.forth.rests
  have held := line.back.held_le.2
  have used := runs.used
  have capacity := runs.capacity
  have budget := faces.room
  have plans : here.Plans Terminal.handle near (.submit now Terminal.handle own.message) now .output _ :=
    .submit now own.message
  have timely : (Step.submit now Terminal.handle own.message).Timely here := quiet
  have acts := runs.sound.acts_of_plans timely runs.live plans
  have room : own.message.length ≤ here.memory.available := by
    have nothing : near.output.held = 0 := by
      rw [idle]
      rfl
    unfold Memory.available
    omega
  have acceptance : (here.exchange near).accept (here.scope now Terminal.handle) own.message =
      .ok own.address := by
    refine Exchange.accept_eq_ok_iff.mpr ⟨faces.fits.some, runs.address, ?_, ?_, ?_, ?_⟩
    · show (here.registry.get? own.address.interface).isSome = true
      rw [runs.port]
      rfl
    · intro flexible
      show (here.registry.get? own.address.interface).any _ = true
      rw [runs.port]
      exact faces.flexible flexible
    · show own.message.length ≤ (own.address.encoder here.settings).messageLimit
      rw [runs.settings]
      exact faces.fits.bound
    · show near.output.isIdle = true
      rw [idle]
      rfl
  have serves : own.Serves (here.scope now Terminal.handle) (here.exchange near).connection :=
    runs.serves now
  have forwards := Transfer.submitted line.forth serves acceptance room
  have submitted := Line.of_output runs line.peerRuns line.silent line.peerSilent faces.fits acts
    (runs.sound.step timely) (Or.inl quiet) forwards line.back
  rw [Stack.send_eq]
  exact (Line.keeps faces facing peerQuiet).settled submitted now

/-- A terminal polls its port and handles its alarms. -/
theorem Line.process (line : Line own peer asked answered here there near far)
    (faces : own.Faces peer) (facing : peer.Faces own) (quiet : here.confirmations = [])
    (peerQuiet : there.confirmations = [])
    (punctual : ∀ moment ∈ here.history [.process now], moment.timesOut = false) :
    (∃ changed, Line own peer asked answered (here.process now) there changed far) ∧
      (here.process now).confirmations = [] :=
  (Line.keeps faces facing peerQuiet).process ⟨near, line⟩ quiet now punctual

/-- A frame that the line carries stays on the wire. -/
theorem wire_carry {frame : Frame} {rest : List Frame}
    (outbox : here.outside.world.outbox = frame :: rest) :
    wire ((Call.world fun port : Port => { port with outbox := rest }).run here)
      ((Call.world fun port : Port => { port with inbox := port.inbox ++ [frame] }).run there) =
        wire here there := by
  unfold wire
  rw [outbox]
  exact List.append_assoc _ _ _

/-- The line carries a frame from one end to the other. -/
theorem Line.carry (line : Line own peer asked answered here there near far)
    (quiet : here.confirmations = []) (peerQuiet : there.confirmations = []) {frame : Frame}
    {rest : List Frame} (outbox : here.outside.world.outbox = frame :: rest) :
    Line own peer asked answered
      ((Call.world fun port : Port => { port with outbox := rest }).run here)
      ((Call.world fun port : Port => { port with inbox := port.inbox ++ [frame] }).run there)
      near far := by
  refine ⟨line.runs.world quiet _, line.peerRuns.world peerQuiet _, line.silent, line.peerSilent,
    ?_, ?_⟩
  · rw [wire_carry outbox]
    exact line.forth
  · rw [wire_carry outbox]
    exact line.back

end

end DiagBus
