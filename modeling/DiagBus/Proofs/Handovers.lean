import DiagBus.Proofs.Codec
import DiagBus.Proofs.Reports
import DiagBus.Proofs.Transmission

namespace DiagBus

variable {ω : Type}

/-- A frame that an interface took, and who handed it over. -/
structure Handover where
  origin : Origin
  index : InterfaceIndex
  frame : Frame
  deriving DecidableEq

def Handover.kind (handover : Handover) : FrameKind :=
  handover.frame.kind handover.index

/-- Whether a flow handed over a frame of this kind. -/
def Handover.isOf (handover : Handover) (kind : FrameKind) : Bool :=
  match handover.origin with
  | .flow _ _ => handover.kind = kind
  | .raw _ => false

def Signal.handover? : Signal → Option Handover
  | .handed origin index frame => some ⟨origin, index, frame⟩
  | _ => none

/-- The frames that interfaces took in a step. -/
def Moment.handovers (moment : Moment ω) : List Handover :=
  moment.news.filterMap Signal.handover?

/-- The last frame that passes the test among those that interfaces took. -/
def lastHandover? (past : List (Moment ω)) (test : Handover → Bool) : Option Handover :=
  ((past.flatMap Moment.handovers).filter test).getLast?

theorem lastHandover?_concat (past : List (Moment ω)) (moment : Moment ω)
    (test : Handover → Bool) : lastHandover? (past ++ [moment]) test =
      ((moment.handovers.filter test).getLast?).or (lastHandover? past test) := by
  unfold lastHandover?
  rw [List.flatMap_append, List.filter_append, List.getLast?_append, List.flatMap_singleton]

theorem lastHandover?_concat_none {past : List (Moment ω)} {moment : Moment ω}
    {test : Handover → Bool} (foreign : ∀ handover ∈ moment.handovers, test handover = false) :
    lastHandover? (past ++ [moment]) test = lastHandover? past test := by
  have nothing : moment.handovers.filter test = [] :=
    List.filter_eq_nil_iff.mpr fun handover member => by simp [foreign handover member]
  rw [lastHandover?_concat, nothing]
  rfl

theorem lastHandover?_concat_some {past : List (Moment ω)} {moment : Moment ω}
    {test : Handover → Bool} {early : List Handover} {handover : Handover}
    (taken : moment.handovers = early ++ [handover]) (own : test handover = true) :
    lastHandover? (past ++ [moment]) test = some handover := by
  rw [lastHandover?_concat, taken, List.filter_append, List.filter_singleton, own]
  simp

theorem Handover.kind_of_isOf {handover : Handover} {kind : FrameKind}
    (named : handover.isOf kind = true) : handover.kind = kind := by
  unfold isOf at named
  split at named
  · exact of_decide_eq_true named
  · cases named

/-- In this step a flow hands over a frame only if no other one awaits the confirmation of a frame
of its kind. -/
def Moment.Alone (moment : Moment ω) : Prop :=
  ∀ handover ∈ moment.handovers, handover.isOf handover.kind = true →
    ∀ handle ∈ moment.before.contenders handover.kind,
      handover.origin = .flow handle handover.kind.direction

instance (moment : Moment ω) : Decidable moment.Alone :=
  inferInstanceAs (Decidable (∀ handover ∈ moment.handovers, _ → _))

/-- Flows do not compete for confirmations: a flow hands over a frame only while no other one awaits
the confirmation of a frame of its kind; and while a flow awaits that, no frame of its kind is
reported but the last one that a flow handed over, or one that a raw subscription waits for. -/
structure Uncontested (history : List (Moment ω)) : Prop where
  alone : ∀ moment ∈ history, moment.Alone
  latest : ∀ past moment rest, history = past ++ moment :: rest →
    ∀ index frame, moment.reported? = some (index, frame) →
      moment.before.contenders (frame.kind index) ≠ [] →
        ∃ origin, lastHandover? past (·.isOf (frame.kind index)) = some ⟨origin, index, frame⟩

section

variable {encoder : Encoder}

theorem flexibleLength_pos (length : Nat) : 0 < flexibleLength (max length 8) := by
  have least : 8 ≤ max length 8 := Nat.le_max_right _ _
  unfold flexibleLength codeOfLength
  repeat' split
  all_goals first | decide | skip
  have eight : max length 8 = 8 := by omega
  rw [eight]
  decide

/-- The header of a frame is where it was put, whatever the length of the frame. -/
theorem Encoder.head?_frame (encoder : Encoder) (control : UInt8) (rest : List UInt8) :
    (encoder.frame (control :: rest)).payload.head? = some control := by
  have first {size : Nat} (positive : 0 < size) :
      (paddedTo size encoder.padding (control :: rest)).toList.head? = some control := by
    rw [List.head?_eq_getElem?, List.getElem?_eq_getElem (by simpa using positive)]
    simp [paddedTo]
  unfold Frame.payload Encoder.frame
  rw [List.head?_take]
  by_cases flexible : encoder.flexible = true
  · rw [if_pos flexible]
    exact (if_neg (flexibleLength_pos _).ne').trans (first (by decide : 0 < 64))
  · rw [if_neg flexible]
    exact first (by decide : 0 < 8)

theorem Stack.confirmedDirection_of_head {frame : Frame} {control : UInt8}
    (head : frame.payload.head? = some control) :
    confirmedDirection frame = if highNibble control = 3 then .input else .output := by
  unfold confirmedDirection isFlowControl
  rw [head]
  simp

/-- A frame of a message is not taken for flow control. -/
theorem Encoder.nextFrame?_kind {flow next : Flow} {frame : Frame}
    (run : encoder.nextFrame? flow = some (frame, next)) :
    frame.id = encoder.id ∧ Stack.confirmedDirection frame = .output := by
  have of_head {control : UInt8} {rest : List UInt8} (plain : highNibble control ≠ 3) :
      (encoder.frame (control :: rest)).id = encoder.id ∧
        Stack.confirmedDirection (encoder.frame (control :: rest)) = .output :=
    ⟨encoder.id_frame _, (Stack.confirmedDirection_of_head (encoder.head?_frame _ _)).trans
      (if_neg plain)⟩
  unfold Encoder.nextFrame? at run
  obtain ⟨buffer, _, run⟩ := Option.bind_eq_some_iff.mp run
  split at run
  · obtain ⟨single, found, run⟩ := Option.bind_eq_some_iff.mp run
    obtain ⟨rfl, _⟩ := Prod.mk.inj (Option.some.inj run)
    unfold Encoder.single? at found
    split at found
    · rename_i short
      cases found
      have nibble : ∀ n, n < 8 → highNibble n.toUInt8 ≠ 3 := by decide
      exact of_head (nibble _ (by omega))
    · split at found
      · cases found
        exact of_head (by decide)
      · cases found
  · obtain ⟨rfl, _⟩ := Prod.mk.inj (Option.some.inj run)
    unfold firstHeader
    split
    · rename_i small
      have nibble : ∀ n, n < 16 → highNibble (0x10 ||| n.toUInt8) ≠ 3 := by decide
      unfold shortLengthLimit at small
      exact of_head (nibble _ (by omega))
    · exact of_head (by decide)
  · obtain ⟨_, _, run⟩ := Option.bind_eq_some_iff.mp run
    obtain ⟨rfl, _⟩ := Prod.mk.inj (Option.some.inj run)
    have nibble : ∀ byte : UInt8, highNibble (0x20 ||| (byte &&& 0x0F)) ≠ 3 :=
      forall_byte (by decide +kernel)
    exact of_head (nibble flow.sequence)
  · cases run

theorem Encoder.flowControl_kind (encoder : Encoder) (status : FlowStatus)
    (blockSize separation : UInt8) :
    (encoder.flowControl status blockSize separation).id = encoder.id ∧
      Stack.confirmedDirection (encoder.flowControl status blockSize separation) = .input := by
  have nibble : ∀ byte : UInt8, highNibble (0x30 ||| (byte &&& 0x0F)) = 3 :=
    forall_byte (by decide +kernel)
  exact ⟨encoder.id_frame _, (Stack.confirmedDirection_of_head (encoder.head?_frame _ _)).trans
    (if_pos (nibble status.toByte))⟩

end

theorem Address.kind_eq {address : Address} {settings : Settings} {frame : Frame}
    {direction : Direction} (made : frame.id = (address.encoder settings).id ∧
      Stack.confirmedDirection frame = direction) :
    frame.kind address.interface = address.kind direction := by
  unfold Frame.kind
  rw [made.1, made.2]
  rfl

/-- A flow hands over frames of its own kind, and awaits no confirmation but of those. -/
def Plan.Tagged (plan : Plan) (connection : Connection) (direction : Direction) : Prop :=
  match plan with
  | .stay news => news.filterMap Signal.handover? = []
  | .wait flow => flow.unconfirmed = true → (connection.flow direction).unconfirmed = true
  | .hand _ index frame _ _ => ∃ address, connection.address = some address ∧
      index = address.interface ∧ frame.kind index = address.kind direction
  | .rest _ => True

theorem told_handovers (listener : Option Listener) {news : Listener → Signal}
    (other : ∀ name, (news name).handover? = none) :
    (told listener news).filterMap Signal.handover? = [] := by
  cases listener with
  | none => rfl
  | some name =>
    show [news name].filterMap Signal.handover? = []
    rw [List.filterMap_cons, other name]
    rfl

section

variable (connection : Connection) (scope : Scope ω)

theorem Connection.next_tagged (flow : Flow) :
    (connection.next scope flow).Tagged connection .output := by
  unfold Connection.next
  cases bound : connection.address with
  | none => trivial
  | some address =>
    simp only []
    cases run : (address.encoder scope.settings).nextFrame? flow with
    | none => trivial
    | some found =>
      exact ⟨address, bound, rfl, Address.kind_eq (Encoder.nextFrame?_kind run)⟩

theorem Connection.answer_tagged (news : List Signal) (flow : Flow) :
    (connection.answer scope news flow).Tagged connection .input := by
  unfold Connection.answer
  cases bound : connection.address with
  | none => trivial
  | some address =>
    exact ⟨address, bound, rfl, Address.kind_eq (Encoder.flowControl_kind _ _ _ _)⟩

theorem Connection.outputConfirmed_tagged :
    (connection.outputConfirmed scope).Tagged connection .output := by
  unfold Connection.outputConfirmed
  split
  · rfl
  · simp only []
    split
    · trivial
    · exact fun absurd => by cases absurd
    · split
      · trivial
      · split
        · exact fun absurd => by cases absurd
        · split
          · exact connection.next_tagged scope _
          · exact fun absurd => by cases absurd
    · rfl

theorem Connection.inputConfirmed_tagged :
    connection.inputConfirmed.Tagged connection .input := by
  unfold Connection.inputConfirmed
  split
  · rfl
  · simp only []
    split
    · split
      · trivial
      · exact fun absurd => by cases absurd
    · rfl

theorem Connection.confirmed_tagged (direction : Direction) :
    (connection.confirmed scope direction).Tagged connection direction := by
  cases direction with
  | output => exact connection.outputConfirmed_tagged scope
  | input => exact connection.inputConfirmed_tagged

theorem Connection.controlReceived_tagged (status : FlowStatus) (blockSize separation : UInt8) :
    (connection.controlReceived scope status blockSize separation).Tagged connection .output := by
  unfold Connection.controlReceived
  by_cases elsewhere : connection.output.phase ≠ .controlIn
  · rw [if_pos elsewhere]
    rfl
  · simp only [elsewhere, if_false]
    cases status with
    | continueToSend => exact connection.next_tagged scope _
    | wait =>
      simp only []
      split
      · trivial
      · exact id
    | overflow => trivial
    | reserved nibble => trivial

theorem Connection.consecutiveReceived_tagged (sequence : UInt8) (data : List UInt8) :
    (connection.consecutiveReceived scope sequence data).Tagged connection .input := by
  unfold Connection.consecutiveReceived
  by_cases elsewhere : connection.input.phase ≠ .consecutiveIn
  · rw [if_pos elsewhere]
    rfl
  · simp only [elsewhere, if_false]
    split
    · trivial
    · split
      · trivial
      · split
        · exact connection.answer_tagged scope _ _
        · exact id

theorem Connection.received_tagged (memory : Memory) (pdu : Pdu) :
    (connection.received scope memory pdu).Tagged connection pdu.direction := by
  cases pdu with
  | single message =>
    simp only [Connection.received, Connection.singleReceived]
    split
    · exact told_handovers _ fun _ => rfl
    · rfl
  | first length data =>
    simp only [Connection.received, Connection.firstReceived]
    split
    · rfl
    · split
      · rfl
      · split
        · exact connection.answer_tagged scope _ _
        · exact connection.answer_tagged scope _ _
  | consecutive sequence data => exact connection.consecutiveReceived_tagged scope sequence data
  | flowControl status blockSize separation =>
    exact connection.controlReceived_tagged scope status blockSize separation

theorem Connection.expired_tagged (alarm : Alarm) :
    (connection.expired scope alarm).Tagged connection alarm.direction := by
  unfold Connection.expired
  cases alarm with
  | output handle =>
    simp only []
    split
    · rfl
    · trivial
  | input handle =>
    simp only []
    split
    · rfl
    · trivial
  | separation handle =>
    simp only []
    split
    · exact connection.next_tagged scope _
    · rfl

end

theorem Exchange.submitted_tagged (x : Exchange ω) (scope : Scope ω) (message : List UInt8) :
    (x.submitted scope message).Tagged x.connection .output := by
  unfold Exchange.submitted
  cases acceptance : x.accept scope message with
  | error fault => rfl
  | ok address =>
    have bound := (Exchange.accept_eq_ok_iff.mp acceptance).2.1
    simp only []
    split
    · rfl
    · cases run : (address.encoder scope.settings).nextFrame?
          (Exchange.outputFlow scope address ⟨message⟩) with
      | none => trivial
      | some found =>
        exact ⟨address, bound, rfl, Address.kind_eq (Encoder.nextFrame?_kind run)⟩

theorem Stack.Plans.tagged {stack : Stack ω} {handle : Handle} {connection : Connection}
    {step : Step ω} {now : Tick} {direction : Direction} {plan : Plan}
    (plans : stack.Plans handle connection step now direction plan) :
    plan.Tagged connection direction := by
  cases plans with
  | submit _ message =>
    exact (stack.exchange connection).submitted_tagged (stack.scope now handle) message
  | arrive _ pdu => exact connection.received_tagged (stack.scope now handle) _ pdu
  | confirm _ direction => exact connection.confirmed_tagged (stack.scope now handle) direction
  | settle _ noted => exact connection.confirmed_tagged (stack.scope now handle) direction
  | expire _ due own => exact connection.expired_tagged (stack.scope now handle) _

/-- The frame whose confirmation a flow awaits: the last one that it handed over, and the last one
of its kind that any flow did. -/
def Stack.Attributed (stack : Stack ω) (past : List (Moment ω)) : Prop :=
  ∀ handle connection direction, stack.connections.get? handle = some connection →
    (connection.flow direction).unconfirmed = true → ∃ address frame,
      connection.address = some address ∧
      lastHandover? past (·.origin = .flow handle direction) =
        some ⟨.flow handle direction, address.interface, frame⟩ ∧
      lastHandover? past (·.isOf (address.kind direction)) =
        some ⟨.flow handle direction, address.interface, frame⟩

section

variable {moment : Moment ω} {handle : Handle} {direction : Direction}

/-- What a flow that is passed by has not handed over. -/
theorem Moment.Passes.foreign (passes : moment.Passes handle direction) :
    ∀ handover ∈ moment.handovers, handover.origin ≠ .flow handle direction := by
  rintro ⟨origin, index, frame⟩ member rfl
  obtain ⟨signal, told, same⟩ := List.mem_filterMap.mp member
  have silent := passes.silent signal told
  cases signal <;> cases same
  simp [Signal.isOf] at silent

theorem Moment.handovers_of_news {news : List Signal} (told : moment.news = news) :
    moment.handovers = news.filterMap Signal.handover? :=
  congrArg (List.filterMap Signal.handover?) told

/-- What a step hands over for others does not compete with what a flow awaits. -/
theorem Moment.Passes.last_kept (passes : moment.Passes handle direction)
    (alone : moment.Alone)
    {kind : FrameKind} (contends : handle ∈ moment.before.contenders kind)
    (own : kind.direction = direction) (past : List (Moment ω)) :
    lastHandover? (past ++ [moment]) (·.origin = .flow handle direction) =
        lastHandover? past (·.origin = .flow handle direction) ∧
      lastHandover? (past ++ [moment]) (·.isOf kind) =
        lastHandover? past (·.isOf kind) := by
  refine ⟨lastHandover?_concat_none fun handover member => ?_,
    lastHandover?_concat_none fun handover member => ?_⟩
  all_goals have foreign := passes.foreign handover member
  · exact decide_eq_false foreign
  · by_contra named
    rw [Bool.not_eq_false] at named
    have same := Handover.kind_of_isOf named
    subst same
    rw [alone handover member named handle contends, own] at foreign
    exact foreign rfl

theorem Stack.Attributed.step {past : List (Moment ω)}
    (attributed : moment.before.Attributed past) (sound : moment.before.Sound)
    (timely : moment.step.Timely moment.before)
    (alone : moment.Alone) :
    moment.after.Attributed (past ++ [moment]) := by
  intro handle connection direction live unconfirmed
  rcases moment.flow_cases sound timely handle direction with
    passes | ⟨earlier, now, plan, was, plans, carried⟩
  · rcases passes.leaves connection live with ⟨_, rfl⟩ | ⟨earlier, was, flow, kept⟩
    · cases direction <;> cases unconfirmed
    · rw [flow] at unconfirmed
      obtain ⟨address, frame, bound, own, ofKind⟩ :=
        attributed handle earlier direction was unconfirmed
      have contends : handle ∈ moment.before.contenders (address.kind direction) :=
        (Stack.mem_contenders_iff sound).mpr
          ⟨earlier, was, unconfirmed, (Address.transmits_kind bound).mpr rfl⟩
      obtain ⟨sameOwn, sameKind⟩ := passes.last_kept alone contends rfl past
      rcases kept with same | idle
      · exact ⟨address, frame, same.trans bound, sameOwn.trans own, sameKind.trans ofKind⟩
      · rw [(sound.flows handle earlier was).idle direction idle] at unconfirmed
        cases unconfirmed
  · have tagged := plans.tagged
    have handovers := moment.handovers_of_news rfl
    generalize moment.after = after at carried live
    generalize moment.news = news at carried handovers
    have waits (nothing : moment.handovers = []) (same : connection.address = earlier.address)
        (before : (earlier.flow direction).unconfirmed = true) : ∃ address frame,
          connection.address = some address ∧
          lastHandover? (past ++ [moment]) (·.origin = .flow handle direction) =
            some ⟨.flow handle direction, address.interface, frame⟩ ∧
          lastHandover? (past ++ [moment]) (·.isOf (address.kind direction)) =
            some ⟨.flow handle direction, address.interface, frame⟩ := by
      obtain ⟨address, frame, bound, own, ofKind⟩ := attributed handle earlier direction was before
      refine ⟨address, frame, same.trans bound, ?_, ?_⟩
      · rwa [lastHandover?_concat_none (by simp [nothing])]
      · rwa [lastHandover?_concat_none (by simp [nothing])]
    cases carried with
    | stay connections _ _ =>
      rw [connections, was] at live
      cases live
      exact waits (handovers.trans tagged) rfl unconfirmed
    | wait replaced =>
      rw [replaced.get? was] at live
      cases live
      rw [Connection.flow_setFlow] at unconfirmed
      exact waits handovers (earlier.address_setFlow _ _) (tagged unconfirmed)
    | @handed news index frame _ _ _ _ replaced =>
      rw [replaced.get? was] at live
      cases live
      obtain ⟨address, bound, rfl, ofKind⟩ := tagged
      rw [List.filterMap_append] at handovers
      refine ⟨address, frame, (earlier.address_setFlow _ _).trans bound, ?_, ?_⟩
      · exact lastHandover?_concat_some handovers (decide_eq_true rfl)
      · exact lastHandover?_concat_some handovers (decide_eq_true ofKind)
    | refused _ replaced _ _ =>
      rw [replaced.get? was] at live
      cases live
      rw [Connection.flow_setFlow] at unconfirmed
      cases unconfirmed
    | rest replaced =>
      rw [replaced.get? was] at live
      cases live
      rw [Connection.flow_setFlow] at unconfirmed
      cases unconfirmed

end

theorem Stack.Attributed.of_idle {stack : Stack ω}
    (idle : ∀ handle, stack.connections.get? handle = none) : stack.Attributed [] := by
  intro handle connection direction live
  rw [idle handle] at live
  cases live

/-- A report is told to raw subscriptions only, and no frame is taken in its step. -/
theorem Moment.handovers_of_reported {moment : Moment ω} {report : InterfaceIndex × Frame}
    (reported : moment.reported? = some report) : moment.handovers = [] := by
  obtain ⟨before, step⟩ := moment
  cases step with
  | acknowledge index frame =>
    have quiet {news : List Signal} (none : news.filterMap Signal.handover? = [])
        (told : (before.raw.sent index frame before.outside).2.2.signals =
          before.outside.signals ++ news) :
        (⟨before, .acknowledge index frame⟩ : Moment ω).handovers = [] := by
      have same : (⟨before, .acknowledge index frame⟩ : Moment ω).news = news :=
        Moment.news_eq told
      exact (Moment.handovers_of_news same).trans none
    unfold Raw.sent at quiet
    cases found : before.raw.awaiting? index frame with
    | none =>
      simp only [found] at quiet
      exact quiet rfl (List.append_nil _).symm
    | some entry =>
      simp only [found] at quiet
      cases listening : entry.2.onSent with
      | none =>
        simp only [listening] at quiet
        exact quiet rfl (List.append_nil _).symm
      | some listener =>
        simp only [listening] at quiet
        exact quiet rfl rfl
  | _ => cases reported

theorem Moment.contenders_of_reported (moment : Moment ω) {report : InterfaceIndex × Frame}
    (reported : moment.reported? = some report) (kind : FrameKind) :
    moment.after.contenders kind = moment.before.contenders kind := by
  obtain ⟨before, step⟩ := moment
  cases step with
  | acknowledge index frame => rfl
  | _ => cases reported

/-- At every moment of a run. -/
theorem Stack.Orderly.attributed {stack : Stack ω} {steps : List (Step ω)}
    (orderly : stack.Orderly steps) (base : stack.Attributed [])
    (uncontested : Uncontested (stack.moments steps)) {past rest : List (Moment ω)}
    {moment : Moment ω} (whole : stack.moments steps = past ++ moment :: rest) :
    moment.before.Attributed past := by
  obtain ⟨early, late, parts, firsts, lasts⟩ := Stack.moments_split whole
  obtain ⟨tail, next, here, _⟩ := Stack.moments_cons lasts
  rw [parts, Stack.Orderly.append_iff] at orderly
  have held := orderly.1.induct (fun past stack => stack.Attributed past) base
    fun past moment member sound timely held =>
      held.step sound timely (uncontested.alone moment ?_)
  · rwa [firsts, List.nil_append, ← here] at held
  · rw [whole, ← firsts]
    exact List.mem_append_left _ member

/-- Each confirmation of a flow is of the frame that the flow handed over last. -/
def Attributes (history : List (Moment ω)) : Prop :=
  ∀ past moment rest, history = past ++ moment :: rest →
    ∀ handle direction, moment.confirms handle direction = true → ∃ index frame,
      justReported past = some (index, frame) ∧
      lastHandover? past (·.origin = .flow handle direction) =
        some ⟨.flow handle direction, index, frame⟩

/-- Along a run over interfaces that confirm later, a flow goes on only if the frame reported just
before is the last one that it handed over. -/
theorem Stack.Orderly.attributes {stack : Stack ω} {steps : List (Step ω)}
    (orderly : stack.Orderly steps) (warranted : stack.Warranted none steps)
    (defers : stack.registry.Defers) (quiet : stack.confirmations = [])
    (base : stack.Attributed []) (uncontested : Uncontested (stack.moments steps)) :
    Attributes (stack.moments steps) := by
  intro past moment rest whole handle direction confirms
  have member : moment ∈ stack.moments steps := by
    rw [whole]
    simp
  have sound := (orderly moment member).1
  have unnoted := orderly.unnoted warranted defers quiet moment member
  have cause := warranted.split whole
  obtain ⟨named, connection, live, unconfirmed⟩ := Moment.confirms_iff.mp confirms
  cases step : moment.step with
  | confirm now other flow =>
    rw [step] at named cause
    obtain ⟨rfl, rfl⟩ := of_decide_eq_true named
    obtain ⟨index, frame, last, own, contends⟩ := cause
    have reported : justReported past = some (index, frame) := by
      unfold justReported
      cases final : past.getLast? with
      | none =>
        rw [final] at last
        cases last
      | some report =>
        rw [final] at last
        exact last
    obtain ⟨address, handed, bound, origin, ofKind⟩ :=
      orderly.attributed base uncontested whole other connection flow live unconfirmed
    obtain ⟨_, here, _, transmits⟩ := (Stack.mem_contenders_iff sound).mp contends
    rw [live] at here
    cases here
    have kind : address.kind flow = frame.kind index :=
      own ▸ (Address.transmits_kind bound).mp transmits
    obtain ⟨report, final, reports⟩ := Option.bind_eq_some_iff.mp reported
    obtain ⟨early, rfl⟩ := List.getLast?_eq_some_iff.mp final
    rw [List.append_assoc, List.singleton_append] at whole
    have before : other ∈ report.before.contenders (frame.kind index) := by
      rw [Stack.moments_next whole, report.contenders_of_reported reports] at contends
      exact contends
    obtain ⟨source, latest⟩ := uncontested.latest early report (moment :: rest) whole index frame
      reports (List.ne_nil_of_mem before)
    have silent := Moment.handovers_of_reported reports
    rw [kind, lastHandover?_concat_none (by simp [silent]), latest] at ofKind
    refine ⟨index, frame, reported, origin.trans ?_⟩
    cases ofKind
    rfl
  | settle now =>
    rw [step, unnoted] at named
    cases named
  | _ =>
    rw [step] at named
    cases named

end DiagBus
