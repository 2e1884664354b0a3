import DiagBus.Proofs.Exchange
import DiagBus.Proofs.TimerQueue

namespace DiagBus

variable {ω : Type}

/-- Whether an alarm is one of this flow. -/
def Alarm.watches (alarm : Alarm) (handle : Handle) (direction : Direction) : Bool :=
  alarm.connection = handle ∧ alarm.direction = direction

/-- The pending alarms of one flow with their deadlines. -/
def TimerQueue.watching (queue : TimerQueue Alarm) (handle : Handle) (direction : Direction) :
    List (Alarm × Tick) :=
  queue.pending.filter (·.1.watches handle direction)

/-- The pending alarms of all other flows. -/
def TimerQueue.elsewhere (queue : TimerQueue Alarm) (handle : Handle) (direction : Direction) :
    List (Alarm × Tick) :=
  queue.pending.filter fun entry => !entry.1.watches handle direction

/-- A flow has no alarm pending but this one, and this one at most once. -/
def TimerQueue.OnlyAlarm (queue : TimerQueue Alarm) (handle : Handle) (direction : Direction)
    (alarm : Alarm) : Prop :=
  queue.watching handle direction = [] ∨
    ∃ deadline, queue.watching handle direction = [(alarm, deadline)]

/-- The alarms of one flow are these now, and those of all other flows are what they were. -/
structure TimerQueue.Rearmed (queue after : TimerQueue Alarm) (handle : Handle)
    (direction : Direction) (own : List (Alarm × Tick)) : Prop where
  linked : after.Linked
  capacity : after.timers.capacity = queue.timers.capacity
  elsewhere : after.elsewhere handle direction = queue.elsewhere handle direction
  own : after.watching handle direction = own

/-- There is a timer left for a flow, whatever alarms it has pending. -/
def TimerQueue.Room (queue : TimerQueue Alarm) (handle : Handle) (direction : Direction) : Prop :=
  (queue.elsewhere handle direction).length < queue.timers.capacity

/-- Other alarms, with those of one flow put in their places. -/
def placed (others own : List (Alarm × Tick)) : List (Alarm × Tick) :=
  own.foldl (fun pending entry => insertPending pending entry.1 entry.2) others

/-- A flow has got the alarms that it asked for, or none because all timers are taken. -/
def TimerQueue.Served (queue after : TimerQueue Alarm) (handle : Handle) (direction : Direction)
    (asked : List (Alarm × Tick)) : Prop :=
  ∃ own, queue.Rearmed after handle direction own ∧
    (own = asked ∨ own = [] ∧ ¬queue.Room handle direction) ∧
    after.pending = placed (queue.elsewhere handle direction) own

/-- Erasing the first item that passes one test, seen through a test that this item fails. -/
theorem filter_eraseP_of_disjoint {β : Type} {keep test : β → Bool} {items : List β}
    (disjoint : ∀ item ∈ items, test item → keep item = false) :
    (items.eraseP test).filter keep = items.filter keep := by
  induction items with
  | nil => rfl
  | cons item rest ih =>
    by_cases passes : test item
    · simp [passes, disjoint item List.mem_cons_self passes]
    · have later := ih fun other member => disjoint other (List.mem_cons_of_mem _ member)
      simp [passes, List.filter_cons, later]

/-- Erasing the first item that passes one test, seen through a test that this item passes too. -/
theorem filter_eraseP_of_implies {β : Type} {keep test : β → Bool} {items : List β}
    (implies : ∀ item, test item → keep item) :
    (items.eraseP test).filter keep = (items.filter keep).eraseP test := by
  rw [List.eraseP_filter]
  congr 2
  funext item
  by_cases passes : test item <;> simp [passes, implies]

section

variable {queue middle after : TimerQueue Alarm} {handle : Handle} {direction : Direction}
  {alarm : Alarm} {own earlier : List (Alarm × Tick)}

theorem TimerQueue.Rearmed.refl (linked : queue.Linked)
    (own : queue.watching handle direction = []) : queue.Rearmed queue handle direction [] :=
  ⟨linked, rfl, rfl, own⟩

theorem TimerQueue.Rearmed.trans (first : queue.Rearmed middle handle direction earlier)
    (second : middle.Rearmed after handle direction own) :
    queue.Rearmed after handle direction own :=
  ⟨second.linked, second.capacity.trans first.capacity, second.elsewhere.trans first.elsewhere,
    second.own⟩

theorem TimerQueue.Rearmed.room_iff (rearmed : queue.Rearmed after handle direction own) :
    after.Room handle direction ↔ queue.Room handle direction := by
  unfold TimerQueue.Room
  rw [rearmed.elsewhere, rearmed.capacity]

/-- Without alarms of a flow, those of the others are all that is pending. -/
theorem TimerQueue.Rearmed.pending_eq (rearmed : queue.Rearmed after handle direction []) :
    after.pending = queue.elsewhere handle direction := by
  rw [← rearmed.elsewhere]
  refine (List.filter_eq_self.mpr fun entry member => ?_).symm
  have foreign := List.filter_eq_nil_iff.mp rearmed.own entry member
  simpa using foreign

theorem TimerQueue.Rearmed.served (rearmed : queue.Rearmed after handle direction []) :
    queue.Served after handle direction [] :=
  ⟨[], rearmed, Or.inl rfl, rearmed.pending_eq⟩

theorem TimerQueue.Rearmed.trans_served (first : queue.Rearmed middle handle direction earlier)
    (second : middle.Served after handle direction own) :
    queue.Served after handle direction own := by
  obtain ⟨given, rearmed, outcome, pending⟩ := second
  rw [first.room_iff] at outcome
  rw [first.elsewhere] at pending
  exact ⟨given, first.trans rearmed, outcome, pending⟩

theorem TimerQueue.length_pending (queue : TimerQueue Alarm) (handle : Handle)
    (direction : Direction) : queue.pending.length =
      (queue.watching handle direction).length + (queue.elsewhere handle direction).length := by
  unfold watching elsewhere
  rw [← List.countP_eq_length_filter, ← List.countP_eq_length_filter,
    List.length_eq_countP_add_countP fun entry => entry.1.watches handle direction]
  simp

/-- An alarm that is pending for a flow found a timer. -/
theorem TimerQueue.Linked.room_of_watching (linked : queue.Linked)
    (some : queue.watching handle direction ≠ []) : queue.Room handle direction := by
  have length := queue.length_pending handle direction
  have positive := List.length_pos_iff.mpr some
  have bound : queue.size ≤ queue.timers.capacity := Slots.used_le_capacity linked.wellFormed
  rw [linked.length_pending] at length
  unfold TimerQueue.Room
  omega

/-- Cancelling an alarm of a flow takes the first one of that name away. -/
theorem TimerQueue.cancel_rearmed (linked : queue.Linked) (named : alarm.watches handle direction) :
    queue.Rearmed (queue.cancel alarm) handle direction
      ((queue.watching handle direction).eraseP (·.1 = alarm)) := by
  obtain ⟨linked', capacity, pending⟩ := queue.cancel_linked linked alarm
  refine ⟨linked', capacity, ?_, ?_⟩
  · unfold elsewhere
    rw [pending]
    refine filter_eraseP_of_disjoint fun entry _ same => ?_
    rw [show entry.1 = alarm from of_decide_eq_true same, named]
    rfl
  · unfold watching
    rw [pending]
    refine filter_eraseP_of_implies fun entry same => ?_
    rw [show entry.1 = alarm from of_decide_eq_true same]
    exact named

theorem TimerQueue.OnlyAlarm.cancel (only : queue.OnlyAlarm handle direction alarm)
    (linked : queue.Linked) (named : alarm.watches handle direction) :
    queue.Rearmed (queue.cancel alarm) handle direction [] := by
  have rearmed := queue.cancel_rearmed linked named
  rcases only with none | ⟨deadline, one⟩
  · rw [none] at rearmed
    exact rearmed
  · rw [one] at rearmed
    simpa using rearmed

/-- An alarm that is due is the only one of its flow, and taking it out leaves those of all other
flows. -/
theorem TimerQueue.OnlyAlarm.popDue {due : Alarm} {now : Tick}
    (only : queue.OnlyAlarm due.connection due.direction alarm) (linked : queue.Linked)
    (popped : queue.popDue now = some (due, after)) :
    due = alarm ∧ (∃ deadline, now.before deadline = false ∧
        queue.watching due.connection due.direction = [(due, deadline)]) ∧
      queue.Rearmed after due.connection due.direction [] := by
  obtain ⟨kept, capacity, deadline, reached, pending⟩ := TimerQueue.popDue_linked linked popped
  have named : due.watches due.connection due.direction := by simp [Alarm.watches]
  have first : queue.watching due.connection due.direction =
      (due, deadline) :: after.watching due.connection due.direction := by
    unfold TimerQueue.watching
    rw [pending, List.filter_cons_of_pos (by exact named)]
  have others : after.elsewhere due.connection due.direction =
      queue.elsewhere due.connection due.direction := by
    unfold TimerQueue.elsewhere
    rw [pending, List.filter_cons_of_neg (by simp [named])]
  rcases only with none | ⟨other, one⟩
  · rw [first] at none
    cases none
  · obtain ⟨head, tail⟩ := List.cons.inj (one.symm.trans first)
    obtain ⟨rfl, rfl⟩ := Prod.mk.inj head
    exact ⟨rfl, ⟨other, reached, one⟩, kept, capacity, others, tail.symm⟩

theorem TimerQueue.OnlyAlarm.of_nil (nothing : queue.watching handle direction = [])
    (alarm : Alarm) : queue.OnlyAlarm handle direction alarm :=
  Or.inl nothing

theorem insertPending_filter {keep : Alarm × Tick → Bool} (pending : List (Alarm × Tick))
    (alarm : Alarm) (deadline : Tick) (gone : keep (alarm, deadline) = false) :
    (insertPending pending alarm deadline).filter keep = pending.filter keep := by
  unfold insertPending
  rw [List.filter_append, List.filter_cons_of_neg (by simp [gone]), ← List.filter_append,
    List.takeWhile_append_dropWhile]

/-- With a timer left for a flow there is a free one once the flow has none pending. -/
theorem TimerQueue.Rearmed.size_lt (cancelled : queue.Rearmed middle handle direction [])
    (room : queue.Room handle direction) : middle.size < middle.timers.capacity := by
  have length := middle.length_pending handle direction
  have free := cancelled.room_iff.mpr room
  unfold TimerQueue.Room at free
  rw [cancelled.own, cancelled.linked.length_pending, List.length_nil] at length
  omega

/-- An alarm that is armed for a flow without alarms is its only one. -/
theorem TimerQueue.Rearmed.scheduled (cancelled : queue.Rearmed middle handle direction [])
    (named : alarm.watches handle direction) {now delay : Tick}
    (run : middle.schedule now delay alarm = .ok after) :
    queue.Rearmed after handle direction [(alarm, now.after delay)] ∧
      after.pending = placed (queue.elsewhere handle direction) [(alarm, now.after delay)] := by
  obtain ⟨linked, capacity, pending⟩ := TimerQueue.schedule_ok cancelled.linked run
  refine ⟨cancelled.trans ⟨linked, capacity, ?_, ?_⟩, by rw [pending, cancelled.pending_eq]; rfl⟩
  · unfold TimerQueue.elsewhere
    rw [pending]
    exact insertPending_filter _ _ _ (by simp [named])
  · have nothing : middle.pending.filter (·.1.watches handle direction) = [] := cancelled.own
    unfold TimerQueue.watching
    rw [pending]
    unfold insertPending
    rw [List.filter_append, List.filter_cons_of_pos (by exact named)]
    have parts : _ ++ _ = middle.pending :=
      List.takeWhile_append_dropWhile (p := fun timer => !(now.after delay).before timer.2)
    rw [← parts, List.filter_append] at nothing
    obtain ⟨early, late⟩ := List.append_eq_nil_iff.mp nothing
    rw [early, late]
    rfl

/-- Arming the alarm of a flow replaces what was pending. It fails only if all timers are taken. -/
theorem TimerQueue.OnlyAlarm.arm (only : queue.OnlyAlarm handle direction alarm)
    (linked : queue.Linked) (named : alarm.watches handle direction) (now delay : Tick) :
    queue.Served (queue.arm now delay alarm) handle direction [(alarm, now.after delay)] := by
  have cancelled := only.cancel linked named
  unfold TimerQueue.arm
  cases run : (queue.cancel alarm).schedule now delay alarm with
  | ok armed =>
    obtain ⟨rearmed, pending⟩ := cancelled.scheduled named run
    exact ⟨_, rearmed, Or.inl rfl, pending⟩
  | error fault =>
    refine ⟨[], cancelled, Or.inr ⟨rfl, fun room => ?_⟩, cancelled.pending_eq⟩
    obtain ⟨armed, success, _⟩ :=
      TimerQueue.schedule_linked cancelled.linked now delay alarm (cancelled.size_lt room)
    rw [run] at success
    cases success

/-- Disarming a flow leaves it without alarms. -/
theorem TimerQueue.OnlyAlarm.disarm (only : queue.OnlyAlarm handle direction alarm)
    (linked : queue.Linked) (named : alarm.watches handle direction) :
    queue.Rearmed (queue.disarm handle direction) handle direction [] := by
  obtain ⟨rfl, own⟩ := of_decide_eq_true named
  cases direction with
  | input =>
    cases alarm with
    | input handle => exact only.cancel linked named
    | _ => cases own
  | output =>
    have output : (Alarm.output alarm.connection).watches alarm.connection .output := by
      simp [Alarm.watches, Alarm.connection, Alarm.direction]
    have separation : (Alarm.separation alarm.connection).watches alarm.connection .output := by
      simp [Alarm.watches, Alarm.connection, Alarm.direction]
    have first := TimerQueue.cancel_rearmed linked output
    have both := first.trans (TimerQueue.cancel_rearmed first.linked separation)
    rw [first.own] at both
    rcases only with none | ⟨deadline, one⟩
    · rw [none] at both
      exact both
    · rw [one] at both
      cases alarm with
      | input handle => cases own
      | output handle => simpa [TimerQueue.disarm, Alarm.connection] using both
      | separation handle => simpa [TimerQueue.disarm, Alarm.connection] using both

end

/-- The alarm that watches a busy flow, and how long it waits. -/
def Flow.watch (flow : Flow) (settings : Settings) (handle : Handle) : Direction → Alarm × Tick
  | .output =>
    if flow.unconfirmed then (.output handle, settings.confirmOutput)
    else if flow.phase = .consecutiveOut then (.separation handle, flow.separation)
    else (.output handle, settings.awaitFlowControl)
  | .input =>
    (.input handle, if flow.unconfirmed then settings.confirmInput else settings.awaitConsecutive)

/-- The alarms that a flow has pending which last went on at `since`. -/
def Flow.watched (flow : Flow) (settings : Settings) (handle : Handle) (direction : Direction)
    (since : Tick) : List (Alarm × Tick) :=
  if flow.isIdle then []
  else
    [((flow.watch settings handle direction).1,
      since.after (flow.watch settings handle direction).2)]

theorem Direction.alarm_watches (handle : Handle) (direction : Direction) :
    (direction.alarm handle).watches handle direction := by
  cases direction <;> simp [Direction.alarm, Alarm.watches, Alarm.connection, Alarm.direction]

theorem Flow.watch_watches (flow : Flow) (settings : Settings) (handle : Handle)
    (direction : Direction) : (flow.watch settings handle direction).1.watches handle direction := by
  cases direction with
  | input => simp [Flow.watch, Alarm.watches, Alarm.connection, Alarm.direction]
  | output =>
    unfold Flow.watch
    simp only []
    split
    · exact Direction.alarm_watches handle .output
    · split
      · simp [Alarm.watches, Alarm.connection, Alarm.direction]
      · exact Direction.alarm_watches handle .output

/-- While a frame is unconfirmed its confirmation is watched for. -/
theorem Flow.watch_unconfirmed {flow : Flow} (unconfirmed : flow.unconfirmed = true)
    (settings : Settings) (handle : Handle) (direction : Direction) :
    flow.watch settings handle direction =
      (direction.alarm handle, settings.confirmDelay direction) := by
  cases direction <;> simp [Flow.watch, unconfirmed, Direction.alarm, Settings.confirmDelay]

namespace Exchange

/-- The alarms that a flow needs after an operation on its exchange. A frame that was confirmed at
once needs none. -/
def demanded (x : Exchange ω) (scope : Scope ω) (direction : Direction) : List (Alarm × Tick) :=
  if x.confirmations = [] then
    (x.connection.flow direction).watched scope.settings scope.handle direction scope.now
  else []

/-- An operation leaves the alarm that a flow needs from now on. -/
def Rewatches (x : Exchange ω) (scope : Scope ω) (direction : Direction) (after : Exchange ω) :
    Prop :=
  x.alarms.Served after.alarms scope.handle direction (after.demanded scope direction)

/-- The alarms of a flow before an operation: at most the one that watches it. -/
structure Guarded (x : Exchange ω) (scope : Scope ω) (direction : Direction) : Prop where
  linked : x.alarms.Linked
  only : x.alarms.OnlyAlarm scope.handle direction
    ((x.connection.flow direction).watch scope.settings scope.handle direction).1
  idle : (x.connection.flow direction).isIdle = true →
    x.alarms.watching scope.handle direction = []

/-- No alarm of a flow is pending. -/
structure Bare (x : Exchange ω) (scope : Scope ω) (direction : Direction) : Prop where
  linked : x.alarms.Linked
  nothing : x.alarms.watching scope.handle direction = []
  quiet : x.confirmations = []
  positive : 0 < scope.settings.connections

variable {x before after : Exchange ω} {scope : Scope ω} {direction : Direction}

theorem demanded_of_idle (idle : (x.connection.flow direction).isIdle = true) :
    x.demanded scope direction = [] := by
  unfold demanded Flow.watched
  rw [idle]
  simp

theorem demanded_of_noted (noted : x.confirmations ≠ []) : x.demanded scope direction = [] := by
  unfold demanded
  rw [if_neg noted]

theorem demanded_of_busy (quiet : x.confirmations = []) {flow : Flow}
    (here : x.connection.flow direction = flow) (busy : flow.isIdle = false) {alarm : Alarm}
    {delay : Tick} (watch : flow.watch scope.settings scope.handle direction = (alarm, delay)) :
    x.demanded scope direction = [(alarm, scope.now.after delay)] := by
  unfold demanded Flow.watched
  rw [if_pos quiet, here, busy, watch]
  rfl

/-- An operation that lets a flow wait arms the alarm the flow needs then. -/
theorem arm_rearms {flow : Flow} (quiet : after.confirmations = [])
    (here : after.connection.flow direction = flow) (busy : flow.isIdle = false) {alarm : Alarm}
    {delay : Tick} (watch : flow.watch scope.settings scope.handle direction = (alarm, delay))
    (only : x.alarms.OnlyAlarm scope.handle direction alarm) (linked : x.alarms.Linked)
    (armed : after.alarms = x.alarms.arm scope.now delay alarm) :
    x.Rewatches scope direction after := by
  have named : alarm.watches scope.handle direction := by
    have own := flow.watch_watches scope.settings scope.handle direction
    rw [watch] at own
    exact own
  unfold Rewatches
  rw [demanded_of_busy quiet here busy watch, armed]
  exact only.arm linked named _ _

/-- An operation that ends a transfer leaves no alarm of the flow. -/
theorem stop_rearms {alarm : Alarm} {other : Exchange ω}
    (only : x.alarms.OnlyAlarm scope.handle direction alarm) (linked : x.alarms.Linked)
    (named : alarm.watches scope.handle direction) (same : other.alarms = x.alarms)
    (news : List Signal) : x.Rewatches scope direction (other.stop scope direction news) := by
  unfold Rewatches
  rw [demanded_of_idle]
  · show x.alarms.Served (other.alarms.disarm scope.handle direction) scope.handle direction []
    rw [same]
    exact (only.disarm linked named).served
  · unfold stop
    simp only [Connection.flow_setFlow]
    rfl

/-- A frame that was taken but not confirmed starts the alarm for its confirmation. -/
theorem Bare.handOver (bare : x.Bare scope direction) (index : InterfaceIndex) (frame : Frame)
    {flow : Flow} (busy : flow.isIdle = false) :
    match x.handOver scope direction index frame flow with
    | (.ok (), after) => x.Rewatches scope direction after
    | (.error _, after) => after.alarms = x.alarms := by
  rw [handOver_eq direction index frame flow bare.quiet bare.positive]
  rcases scope.registry.hand (.flow scope.handle direction) index frame x.outside with
    ⟨fault | confirmed, outside⟩
  · rfl
  · cases confirmed with
    | true =>
      simp only [Rewatches]
      rw [demanded_of_noted (by simp)]
      exact (TimerQueue.Rearmed.refl bare.linked bare.nothing).served
    | false =>
      simp only []
      have still : ({ flow with unconfirmed := true } : Flow).isIdle = false := busy
      exact arm_rearms bare.quiet (Connection.flow_setFlow _ _ _) still
        (Flow.watch_unconfirmed rfl _ _ _) (.of_nil bare.nothing _) bare.linked rfl

/-- Sending the next frame of a flow leaves the alarm for its confirmation, or none. -/
theorem Bare.transmit (bare : x.Bare scope direction)
    (busy : (x.connection.flow direction).isIdle = false) :
    match x.transmit scope direction with
    | (.ok (), after) => x.Rewatches scope direction after
    | (.error _, after) => after.alarms = x.alarms := by
  unfold Exchange.transmit
  cases x.connection.address with
  | none => rfl
  | some address =>
    cases direction with
    | output =>
      simp only []
      cases next : (address.encoder scope.settings).nextFrame? x.connection.output with
      | none => rfl
      | some found =>
        obtain ⟨frame, flow⟩ := found
        refine bare.handOver _ _ ?_
        unfold Flow.isIdle
        rw [Encoder.nextFrame?_phase next]
        exact busy
    | input => exact bare.handOver _ _ busy

/-- A transfer that ends while no alarm of its flow is pending leaves it so. -/
theorem Bare.stop (bare : x.Bare scope direction) {other : Exchange ω}
    (same : other.alarms = x.alarms) (news : List Signal) :
    x.Rewatches scope direction (other.stop scope direction news) :=
  stop_rearms (.of_nil bare.nothing _) bare.linked (Direction.alarm_watches _ _) same news

theorem Bare.advance (bare : x.Bare scope direction)
    (busy : (x.connection.flow direction).isIdle = false) :
    x.Rewatches scope direction (x.advance scope direction) := by
  have outcome := bare.transmit busy
  unfold Exchange.advance
  generalize x.transmit scope direction = answer at outcome ⊢
  obtain ⟨fault | _, other⟩ := answer
  · simp only [abort_eq]
    exact bare.stop outcome _
  · exact outcome

theorem rewatches_of_idle (disarmed : x.alarms.Rearmed after.alarms scope.handle direction [])
    (idle : (after.connection.flow direction).isIdle = true) : x.Rewatches scope direction after := by
  unfold Rewatches
  rw [demanded_of_idle idle]
  exact disarmed.served

/-- Once the alarm of a flow is cancelled, another may be armed. -/
theorem Bare.of_rearmed (ready : x.Ready scope)
    (disarmed : x.alarms.Rearmed before.alarms scope.handle direction [])
    (quiet : before.confirmations = x.confirmations) : before.Bare scope direction :=
  ⟨disarmed.linked, disarmed.own, quiet.trans ready.quiet, ready.connections⟩

theorem Bare.arm (bare : before.Bare scope direction) {flow : Flow}
    (disarmed : x.alarms.Rearmed before.alarms scope.handle direction [])
    (quiet : after.confirmations = before.confirmations)
    (here : after.connection.flow direction = flow) (busy : flow.isIdle = false) {alarm : Alarm}
    {delay : Tick} (watch : flow.watch scope.settings scope.handle direction = (alarm, delay))
    (armed : after.alarms = before.alarms.arm scope.now delay alarm) :
    x.Rewatches scope direction after :=
  disarmed.trans_served (arm_rearms (quiet.trans bare.quiet) here busy watch
    (.of_nil bare.nothing _) bare.linked armed)

theorem Bare.advanced (bare : before.Bare scope direction)
    (disarmed : x.alarms.Rearmed before.alarms scope.handle direction [])
    (busy : (before.connection.flow direction).isIdle = false) :
    x.Rewatches scope direction (before.advance scope direction) :=
  disarmed.trans_served (bare.advance busy)

/-- A flow whose frame is unconfirmed has at most the alarm for the confirmation pending. -/
theorem Guarded.confirmation (guarded : x.Guarded scope direction)
    (unconfirmed : (x.connection.flow direction).unconfirmed = true) :
    x.alarms.Rearmed (x.alarms.cancel (direction.alarm scope.handle)) scope.handle direction [] := by
  have only := guarded.only
  rw [Flow.watch_unconfirmed unconfirmed] at only
  exact only.cancel guarded.linked (Direction.alarm_watches _ _)

theorem Guarded.confirmOutput (guarded : x.Guarded scope .output) (ready : x.Ready scope) :
    (∃ news, x.connection.outputConfirmed scope = .stay news) ∨
      x.Rewatches scope .output (x.confirmOutput scope) := by
  unfold Connection.outputConfirmed Exchange.confirmOutput
  by_cases unconfirmed : x.connection.output.unconfirmed = true
  · have disarmed := guarded.confirmation unconfirmed
    have bare : Bare { x with alarms := x.alarms.cancel (.output scope.handle) } scope .output :=
      .of_rearmed ready disarmed rfl
    simp only [unconfirmed, Bool.not_true, Bool.false_eq_true, if_false]
    rcases ready.output unconfirmed with single | first | consecutive
    · simp only [single]
      refine Or.inr (rewatches_of_idle ?_ ?_)
      all_goals
        unfold finishSend
        rw [report_eq, reset_eq]
      · exact disarmed
      · rfl
    · simp only [first]
      unfold awaitControl
      rw [arm_eq]
      exact Or.inr (bare.arm disarmed rfl rfl rfl rfl rfl)
    · simp only [consecutive]
      split
      · refine Or.inr (rewatches_of_idle ?_ ?_)
        all_goals
          unfold finishSend
          rw [report_eq, reset_eq]
        · exact disarmed
        · rfl
      · split
        · unfold awaitControl
          rw [arm_eq]
          exact Or.inr (bare.arm disarmed rfl rfl rfl rfl rfl)
        · split
          · refine Or.inr (Bare.advanced ?_ disarmed rfl)
            exact .of_rearmed ready disarmed rfl
          · rw [arm_eq]
            exact Or.inr (bare.arm disarmed rfl rfl rfl rfl rfl)
  · rw [if_pos (by simpa using unconfirmed)]
    exact Or.inl ⟨_, rfl⟩

theorem Guarded.receiveControl (guarded : x.Guarded scope .output) (ready : x.Ready scope)
    (status : FlowStatus) (blockSize separation : UInt8) :
    (∃ news, x.connection.controlReceived scope status blockSize separation = .stay news) ∨
      x.Rewatches scope .output (x.receiveControl scope status blockSize separation) := by
  unfold Connection.controlReceived Exchange.receiveControl
  by_cases waiting : x.connection.output.phase = .controlIn
  · have settled : x.connection.output.unconfirmed = false := by
      by_contra unconfirmed
      rcases ready.output (by simpa using unconfirmed) with phase | phase | phase <;>
        simp [phase] at waiting
    have only : x.alarms.OnlyAlarm scope.handle .output (.output scope.handle) := by
      have only := guarded.only
      unfold Connection.flow Flow.watch at only
      simpa [settled, waiting] using only
    have named := Direction.alarm_watches scope.handle .output
    have refused (flow : Flow) : x.Rewatches scope .output
        ((x.setFlow flow .output).abort scope .output .flowStatus) := by
      rw [abort_eq]
      refine stop_rearms only guarded.linked named ?_ _
      rfl
    simp only [waiting, ne_eq, not_true_eq_false, if_false]
    refine Or.inr ?_
    cases status with
    | continueToSend =>
      have disarmed := only.cancel guarded.linked named
      refine Bare.advanced ?_ disarmed rfl
      exact .of_rearmed ready disarmed rfl
    | wait =>
      simp only []
      split
      · exact refused _
      · rw [arm_eq]
        refine arm_rearms ready.quiet rfl ?_ ?_ only guarded.linked rfl
        · rfl
        · simp [Flow.watch, setFlow, Connection.setFlow, Connection.flow, settled]
    | overflow => exact refused _
    | reserved nibble => exact refused _
  · rw [if_pos waiting]
    exact Or.inl ⟨_, rfl⟩

theorem Guarded.confirmInput (guarded : x.Guarded scope .input) (ready : x.Ready scope) :
    (∃ news, x.connection.inputConfirmed = .stay news) ∨
      x.Rewatches scope .input (x.confirmInput scope) := by
  unfold Connection.inputConfirmed Exchange.confirmInput
  by_cases unconfirmed : x.connection.input.unconfirmed = true
  · have disarmed := guarded.confirmation unconfirmed
    simp only [unconfirmed, Bool.not_true, Bool.false_eq_true, if_false, ready.input unconfirmed]
    refine Or.inr ?_
    split
    · rw [reset_eq]
      exact rewatches_of_idle disarmed rfl
    · have bare : Bare { x with alarms := x.alarms.cancel (.input scope.handle) } scope .input :=
        .of_rearmed ready disarmed rfl
      rw [arm_eq]
      exact bare.arm disarmed rfl rfl rfl rfl rfl
  · rw [if_pos (by simpa using unconfirmed)]
    exact Or.inl ⟨_, rfl⟩

theorem Guarded.receiveFirst (guarded : x.Guarded scope .input) (ready : x.Ready scope)
    (length : Nat) (data : List UInt8) :
    (∃ news, x.connection.firstReceived scope x.memory length data = .stay news) ∨
      x.Rewatches scope .input (x.receiveFirst scope length data) := by
  unfold Connection.firstReceived Exchange.receiveFirst
  by_cases idle : x.connection.input.isIdle = true
  · simp only [idle, Bool.not_true, Bool.false_eq_true, if_false]
    by_cases covered : length ≤ data.length
    · rw [if_pos covered]
      exact Or.inl ⟨_, rfl⟩
    · rw [if_neg covered, if_neg covered]
      have nothing : x.alarms.Rearmed x.alarms scope.handle .input [] :=
        .refl guarded.linked (guarded.idle idle)
      refine Or.inr ?_
      cases x.memory.allocate length with
      | none =>
        simp only [report_eq]
        refine Bare.advanced ?_ nothing rfl
        exact .of_rearmed ready nothing rfl
      | some granted =>
        refine Bare.advanced ?_ nothing rfl
        exact .of_rearmed ready nothing rfl
  · rw [if_pos (by simpa using idle)]
    exact Or.inl ⟨_, rfl⟩

theorem Guarded.receiveConsecutive (guarded : x.Guarded scope .input) (ready : x.Ready scope)
    (sequence : UInt8) (data : List UInt8) :
    (∃ news, x.connection.consecutiveReceived scope sequence data = .stay news) ∨
      x.Rewatches scope .input (x.receiveConsecutive scope sequence data) := by
  unfold Connection.consecutiveReceived Exchange.receiveConsecutive
  by_cases waiting : x.connection.input.phase = .consecutiveIn
  · have named := Direction.alarm_watches scope.handle .input
    have settled : x.connection.input.unconfirmed = false := by
      by_contra unconfirmed
      have answering := ready.input (by simpa using unconfirmed)
      simp [answering] at waiting
    have only : x.alarms.OnlyAlarm scope.handle .input (.input scope.handle) := guarded.only
    have disarmed := only.cancel guarded.linked named
    have bare : (x.cancel (.input scope.handle)).Bare scope .input :=
      .of_rearmed ready disarmed rfl
    simp only [waiting, ne_eq, not_true_eq_false, if_false]
    refine Or.inr ?_
    split
    · rw [abort_eq]
      exact disarmed.trans_served (bare.stop rfl _)
    · split
      · refine rewatches_of_idle ?_ ?_
        all_goals
          unfold finishReceive
          rw [reset_eq]
          simp only [report_eq]
          split
        all_goals first
          | exact disarmed
          | rfl
      · split
        · refine Bare.advanced ?_ disarmed rfl
          exact .of_rearmed ready disarmed rfl
        · rw [arm_eq]
          refine bare.arm disarmed rfl rfl ?_ ?_ rfl
          · simp [Flow.isIdle, Flow.countFrame, setFlow, Connection.setFlow, Connection.flow]
          · simp [Flow.watch, Flow.countFrame, setFlow, Connection.setFlow, Connection.flow, settled]
  · rw [if_pos waiting]
    exact Or.inl ⟨_, rfl⟩

/-- A unit of the peer leaves the alarm that its flow needs, or changes nothing. -/
theorem Guarded.receive {pdu : Pdu} (guarded : x.Guarded scope pdu.direction)
    (ready : x.Ready scope) :
    (∃ news, x.connection.received scope x.memory pdu = .stay news) ∨
      x.Rewatches scope pdu.direction (x.receive scope pdu) := by
  cases pdu with
  | single message =>
    refine Or.inl ?_
    simp only [Connection.received, Connection.singleReceived]
    split <;> exact ⟨_, rfl⟩
  | first length data => exact guarded.receiveFirst ready length data
  | consecutive sequence data => exact guarded.receiveConsecutive ready sequence data
  | flowControl status blockSize separation =>
    exact guarded.receiveControl ready status blockSize separation

theorem Guarded.confirm (guarded : x.Guarded scope direction) (ready : x.Ready scope) :
    (∃ news, x.connection.confirmed scope direction = .stay news) ∨
      x.Rewatches scope direction (x.confirm scope direction) := by
  cases direction with
  | output => exact guarded.confirmOutput ready
  | input => exact guarded.confirmInput ready

/-- The alarm that went off is no longer pending when it is handled. -/
theorem Bare.expire {alarm : Alarm} (bare : x.Bare scope alarm.direction) :
    (∃ news, x.connection.expired scope alarm = .stay news) ∨
      x.Rewatches scope alarm.direction (x.expire scope alarm) := by
  unfold Connection.expired Exchange.expire
  cases alarm with
  | output handle =>
    simp only []
    split
    · exact Or.inl ⟨_, rfl⟩
    · rw [abort_eq]
      exact Or.inr (bare.stop rfl _)
  | input handle =>
    simp only []
    split
    · exact Or.inl ⟨_, rfl⟩
    · rw [abort_eq]
      exact Or.inr (bare.stop rfl _)
  | separation handle =>
    simp only []
    split
    · rename_i waiting
      refine Or.inr (bare.advance ?_)
      simp [Alarm.direction, Connection.flow, Flow.isIdle, waiting.1]
    · exact Or.inl ⟨_, rfl⟩

/-- A message that is taken starts the alarm for the confirmation of its first frame. -/
theorem Guarded.send (guarded : x.Guarded scope .output) (ready : x.Ready scope)
    (message : List UInt8) :
    (∃ news, x.submitted scope message = .stay news) ∨
      x.Rewatches scope .output (x.send scope message).2 := by
  unfold submitted Exchange.send
  cases acceptance : x.accept scope message with
  | error fault => exact Or.inl ⟨_, rfl⟩
  | ok address =>
    obtain ⟨filled, _, _, _, _, idle⟩ := accept_eq_ok_iff.mp acceptance
    simp only [allocate_eq (List.length_pos_iff.mpr filled), disarm_reset_eq]
    by_cases scarce : x.memory.available < message.length
    · rw [if_pos scarce]
      exact Or.inl ⟨_, rfl⟩
    · simp only [if_neg scarce]
      have nothing : x.alarms.Rearmed x.alarms scope.handle .output [] :=
        .refl guarded.linked (guarded.idle idle)
      have busy (buffer : Buffer) : (outputFlow scope address buffer).isIdle = false := by
        unfold outputFlow Flow.isIdle
        simp only []
        split <;> rfl
      refine Or.inr ?_
      generalize prepared_eq : Exchange.setFlow { x with memory := _ } (outputFlow scope address _)
        .output = prepared
      have bare : prepared.Bare scope .output := by
        rw [← prepared_eq]
        exact .of_rearmed ready nothing rfl
      have same : prepared.alarms = x.alarms := by rw [← prepared_eq]; rfl
      have outcome := bare.transmit (by rw [← prepared_eq]; exact busy _)
      unfold Rewatches at outcome ⊢
      rw [← same]
      generalize prepared.transmit scope .output = answer at outcome ⊢
      obtain ⟨fault | _, other⟩ := answer
      · exact bare.stop outcome _
      · exact outcome

end Exchange

end DiagBus
