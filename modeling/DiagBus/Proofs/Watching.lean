import DiagBus.Proofs.Alarms
import DiagBus.Proofs.Moments

namespace DiagBus

variable {ω : Type}

/-- The reading of the clock that a step is given, if it is given one. -/
def Step.time? : Step ω → Option Tick
  | .submit now _ _ => some now
  | .arrive now _ _ => some now
  | .confirm now _ _ => some now
  | .settle now => some now
  | .expire now => some now
  | _ => none

/-- Whether a flow goes on in this step, frames handed over apart: its frame is confirmed, the peer
may wait longer, or the consecutive frame that is awaited arrives. -/
def Step.urges (step : Step ω) (noted : List Confirmation) (handle : Handle)
    (direction : Direction) (flow : Flow) : Bool :=
  match step with
  | .confirm _ other way => other = handle ∧ way = direction ∧ flow.unconfirmed
  | .settle _ => noted.head? = some ⟨handle, direction⟩
  | .arrive _ other pdu =>
    other = handle &&
      match direction, pdu with
      | .output, .flowControl .wait _ _ => flow.phase = .controlIn ∧ flow.waitsLeft ≠ 0
      | .input, .consecutive sequence _ => flow.phase = .consecutiveIn ∧ sequence = flow.sequence
      | _, _ => false
  | _ => false

/-- Whether a step is an event of a flow: a frame is handed over or confirmed, a wait is granted, or
an awaited frame arrives. -/
def Moment.isEvent (moment : Moment ω) (handle : Handle) (direction : Direction) : Bool :=
  moment.news.any (fun signal => (signal.handed? handle direction).isSome) ||
    (moment.before.connections.get? handle).any fun connection =>
      moment.step.urges moment.before.confirmations handle direction (connection.flow direction)

/-- The time of the last event of a flow. -/
def lastEvent (handle : Handle) (direction : Direction) (past : List (Moment ω)) : Option Tick :=
  (past.filter (·.isEvent handle direction)).getLast?.bind (·.step.time?)

theorem lastEvent_concat (handle : Handle) (direction : Direction) (past : List (Moment ω))
    (moment : Moment ω) : lastEvent handle direction (past ++ [moment]) =
      if moment.isEvent handle direction then moment.step.time?
      else lastEvent handle direction past := by
  unfold lastEvent
  rw [List.filter_append]
  by_cases event : moment.isEvent handle direction
  · simp [event]
  · simp [event]

/-- The alarms of one flow: none while it is idle or a confirmation of it is noted, and else the one
that counts from its last event. -/
inductive Stack.FlowWatched (stack : Stack ω) (past : List (Moment ω)) (handle : Handle)
    (direction : Direction) (flow : Flow) : Prop
  | idle (idle : flow.isIdle = true) (nothing : stack.alarms.watching handle direction = [])
  | noted (noted : ⟨handle, direction⟩ ∈ stack.confirmations)
      (nothing : stack.alarms.watching handle direction = [])
  | busy (since : Tick) (busy : flow.isIdle = false)
      (last : lastEvent handle direction past = some since)
      (pending : stack.alarms.watching handle direction =
        flow.watched stack.settings handle direction since)

/-- Every flow is watched as it should be, and no alarm is left of a connection that is closed. -/
structure Stack.Watched (stack : Stack ω) (past : List (Moment ω)) : Prop where
  linked : stack.alarms.Linked
  capacity : stack.alarms.timers.capacity = stack.settings.timers
  live : ∀ entry ∈ stack.alarms.pending,
    ∃ connection, stack.connections.get? entry.1.connection = some connection
  flows : ∀ handle connection, stack.connections.get? handle = some connection →
    ∀ direction, stack.FlowWatched past handle direction (connection.flow direction)

/-- The alarms of one flow are what they should be; or it has none, for want of timers. -/
def Stack.FlowOverseen (stack : Stack ω) (past : List (Moment ω)) (handle : Handle)
    (direction : Direction) (flow : Flow) : Prop :=
  stack.FlowWatched past handle direction flow ∨
    stack.settings.timers < 2 * stack.settings.connections ∧
      stack.alarms.watching handle direction = []

/-- What is left of `Stack.Watched` where timers may run out: no flow has an alarm that it should
not have. -/
structure Stack.Overseen (stack : Stack ω) (past : List (Moment ω)) : Prop where
  linked : stack.alarms.Linked
  capacity : stack.alarms.timers.capacity = stack.settings.timers
  live : ∀ entry ∈ stack.alarms.pending,
    ∃ connection, stack.connections.get? entry.1.connection = some connection
  flows : ∀ handle connection, stack.connections.get? handle = some connection →
    ∀ direction, stack.FlowOverseen past handle direction (connection.flow direction)

theorem Stack.Watched.overseen {stack : Stack ω} {past : List (Moment ω)}
    (watched : stack.Watched past) : stack.Overseen past :=
  ⟨watched.linked, watched.capacity, watched.live,
    fun handle connection live direction => Or.inl (watched.flows handle connection live direction)⟩

/-- With two timers for each connection no flow goes without its alarm. -/
theorem Stack.Overseen.watched {stack : Stack ω} {past : List (Moment ω)}
    (overseen : stack.Overseen past)
    (enough : 2 * stack.settings.connections ≤ stack.settings.timers) : stack.Watched past := by
  refine ⟨overseen.linked, overseen.capacity, overseen.live,
    fun handle connection live direction => ?_⟩
  rcases overseen.flows handle connection live direction with watched | ⟨scarce, _⟩
  · exact watched
  · omega

/-- Alarms of a live connection are at most one for each flow. -/
theorem Stack.FlowWatched.only {stack : Stack ω} {past : List (Moment ω)} {handle : Handle}
    {direction : Direction} {flow : Flow}
    (watched : stack.FlowWatched past handle direction flow) :
    stack.alarms.OnlyAlarm handle direction (flow.watch stack.settings handle direction).1 ∧
      (flow.isIdle = true → stack.alarms.watching handle direction = []) := by
  cases watched with
  | idle _ nothing => exact ⟨Or.inl nothing, fun _ => nothing⟩
  | noted _ nothing => exact ⟨Or.inl nothing, fun _ => nothing⟩
  | busy _ busy _ pending =>
    unfold Flow.watched at pending
    rw [busy] at pending
    refine ⟨Or.inr ⟨_, pending⟩, fun idle => ?_⟩
    rw [busy] at idle
    cases idle

theorem Stack.FlowOverseen.only {stack : Stack ω} {past : List (Moment ω)} {handle : Handle}
    {direction : Direction} {flow : Flow}
    (overseen : stack.FlowOverseen past handle direction flow) :
    stack.alarms.OnlyAlarm handle direction (flow.watch stack.settings handle direction).1 ∧
      (flow.isIdle = true → stack.alarms.watching handle direction = []) := by
  rcases overseen with watched | ⟨_, nothing⟩
  · exact watched.only
  · exact ⟨Or.inl nothing, fun _ => nothing⟩

/-- The flow that an alarm watches. -/
def Alarm.flow (alarm : Alarm) : Handle × Direction :=
  (alarm.connection, alarm.direction)

theorem Alarm.flow_eq_iff {alarm : Alarm} {handle : Handle} {direction : Direction} :
    alarm.flow = (handle, direction) ↔ alarm.watches handle direction := by
  simp [Alarm.flow, Alarm.watches]

/-- Both flows of all live connections. -/
def Stack.flowsOf (stack : Stack ω) : List (Handle × Direction) :=
  stack.connections.entries.flatMap fun entry => [(entry.1, .output), (entry.1, .input)]

theorem Stack.length_flowsOf {stack : Stack ω} (sound : stack.Sound) :
    stack.flowsOf.length = 2 * stack.connections.size := by
  unfold flowsOf
  rw [List.length_flatMap]
  simp [Slots.length_entries sound.slots, Slots.size]
  omega

theorem Stack.mem_flowsOf {stack : Stack ω} (sound : stack.Sound) {handle : Handle}
    {connection : Connection} (live : stack.connections.get? handle = some connection)
    (direction : Direction) : (handle, direction) ∈ stack.flowsOf := by
  refine List.mem_flatMap.mpr ⟨(handle, connection), ?_, ?_⟩
  · exact (Slots.mem_entries_iff sound.slots).mpr live
  · cases direction <;> simp

section

variable {stack : Stack ω} {past : List (Moment ω)} {handle : Handle} {connection : Connection}

/-- No two pending alarms watch the same flow. -/
theorem Stack.Overseen.distinct (overseen : stack.Overseen past) :
    (stack.alarms.pending.map (·.1.flow)).Nodup := by
  rw [List.nodup_iff_count_le_one]
  rintro ⟨handle, direction⟩
  have count : (stack.alarms.pending.map (·.1.flow)).count (handle, direction) =
      (stack.alarms.watching handle direction).length := by
    unfold TimerQueue.watching
    rw [List.count_eq_countP, List.countP_map, ← List.countP_eq_length_filter]
    refine List.countP_congr fun entry _ => ?_
    simp [Alarm.flow_eq_iff]
  rw [count]
  cases live : stack.connections.get? handle with
  | none =>
    have nothing : stack.alarms.watching handle direction = [] := by
      refine List.filter_eq_nil_iff.mpr fun entry member named => ?_
      obtain ⟨connection, here⟩ := overseen.live entry member
      rw [(of_decide_eq_true named).1, live] at here
      cases here
    rw [nothing]
    exact Nat.zero_le _
  | some connection =>
    rcases (overseen.flows handle connection live direction).only.1 with nothing | ⟨deadline, one⟩
    · rw [nothing]
      exact Nat.zero_le _
    · rw [one]
      exact Nat.le_refl _

theorem Stack.Overseen.flows_subset (overseen : stack.Overseen past) (sound : stack.Sound) :
    stack.alarms.pending.map (·.1.flow) ⊆ stack.flowsOf := by
  intro flow member
  obtain ⟨entry, pending, rfl⟩ := List.mem_map.mp member
  obtain ⟨connection, live⟩ := overseen.live entry pending
  exact Stack.mem_flowsOf sound live _

/-- There are never more alarms than flows. -/
theorem Stack.Overseen.size_le (overseen : stack.Overseen past) (sound : stack.Sound) :
    stack.alarms.size ≤ 2 * stack.connections.size := by
  rw [← Stack.length_flowsOf sound, ← overseen.linked.length_pending,
    ← List.length_map (·.1.flow)]
  exact (overseen.distinct.subperm (overseen.flows_subset sound)).length_le

/-- With two timers for each connection there is always one left for a flow. -/
theorem Stack.Overseen.room (overseen : stack.Overseen past) (sound : stack.Sound)
    (enough : 2 * stack.settings.connections ≤ stack.settings.timers)
    (live : stack.connections.get? handle = some connection) (direction : Direction) :
    stack.alarms.Room handle direction := by
  let others := (stack.alarms.elsewhere handle direction).map (·.1.flow)
  have absent : (handle, direction) ∉ others := by
    intro member
    obtain ⟨entry, kept, same⟩ := List.mem_map.mp member
    have foreign := (List.mem_filter.mp kept).2
    rw [Alarm.flow_eq_iff.mp same] at foreign
    cases foreign
  have part : others.Sublist (stack.alarms.pending.map (·.1.flow)) := List.filter_sublist.map _
  have distinct : ((handle, direction) :: others).Nodup :=
    List.nodup_cons.mpr ⟨absent, overseen.distinct.sublist part⟩
  have known : (handle, direction) :: others ⊆ stack.flowsOf :=
    List.cons_subset.mpr ⟨Stack.mem_flowsOf sound live direction,
      fun _ member => overseen.flows_subset sound (part.subset member)⟩
  have fewer := (distinct.subperm known).length_le
  have few := Slots.used_le_capacity sound.slots
  rw [Stack.length_flowsOf sound] at fewer
  have length : others.length = (stack.alarms.elsewhere handle direction).length :=
    List.length_map _
  have capacity := sound.capacity
  unfold TimerQueue.Room
  rw [overseen.capacity]
  simp only [List.length_cons, Slots.size] at fewer
  omega

end

theorem Exchange.Follows.alarms_of_stay {x after : Exchange ω} {scope : Scope ω}
    {direction : Direction} {news : List Signal}
    (follows : x.Follows scope direction (.stay news) after) : after.alarms = x.alarms := by
  cases follows with
  | stay same => rw [same]

theorem Connection.next_ne_stay (connection : Connection) (scope : Scope ω) (flow : Flow)
    (news : List Signal) : connection.next scope flow ≠ .stay news := by
  unfold Connection.next
  split
  · simp
  · split <;> simp

theorem Connection.next_ne_wait (connection : Connection) (scope : Scope ω) (flow waiting : Flow) :
    connection.next scope flow ≠ .wait waiting := by
  unfold Connection.next
  split
  · simp
  · split <;> simp

theorem Connection.answer_ne_stay (connection : Connection) (scope : Scope ω) (early : List Signal)
    (flow : Flow) (news : List Signal) : connection.answer scope early flow ≠ .stay news := by
  unfold Connection.answer
  split <;> simp

theorem Connection.answer_ne_wait (connection : Connection) (scope : Scope ω) (early : List Signal)
    (flow waiting : Flow) : connection.answer scope early flow ≠ .wait waiting := by
  unfold Connection.answer
  split <;> simp

/-- An alarm that a flow needs does not go off in vain. -/
theorem Connection.expired_ne_stay {connection : Connection} {scope : Scope ω} {alarm : Alarm}
    (busy : (connection.flow alarm.direction).isIdle = false) {settings : Settings}
    {handle : Handle}
    (own : alarm = ((connection.flow alarm.direction).watch settings handle alarm.direction).1)
    (news : List Signal) : connection.expired scope alarm ≠ .stay news := by
  unfold Connection.expired
  cases alarm with
  | output handle =>
    have busy : connection.output.isIdle = false := busy
    simp [busy]
  | input handle =>
    have busy : connection.input.isIdle = false := busy
    simp [busy]
  | separation other =>
    simp only [Alarm.direction, Connection.flow, Flow.watch] at own
    by_cases waiting : connection.output.phase = .consecutiveOut ∧
        (!connection.output.unconfirmed) = true
    · simp only [waiting, and_self, if_true]
      exact connection.next_ne_stay scope _ news
    · by_cases unconfirmed : connection.output.unconfirmed = true
      · simp [unconfirmed] at own
      · have phase : connection.output.phase ≠ .consecutiveOut :=
          fun phase => waiting ⟨phase, by simpa using unconfirmed⟩
        simp [unconfirmed, phase] at own

section

variable {stack : Stack ω} {handle : Handle} {connection : Connection} {step : Step ω}
  {now : Tick} {direction : Direction} {plan : Plan}

/-- A step that has a flow carry out a plan leaves the alarm that the flow needs then, and the
alarms of all other flows as they were. -/
theorem Stack.Plans.rearms (plans : stack.Plans handle connection step now direction plan)
    (sound : stack.Sound) (timely : step.Timely stack)
    (live : stack.connections.get? handle = some connection)
    (guarded : Exchange.Guarded { stack.exchange connection with confirmations := [] }
      (stack.scope now handle) direction) :
    (∃ news, plan = .stay news) ∧ (step.run stack).alarms = stack.alarms ∨
      (∀ news, plan ≠ .stay news) ∧ ∃ x, step.run stack = stack.restore handle x ∧
        stack.alarms.Served x.alarms handle direction
          (x.demanded (stack.scope now handle) direction) := by
  have ready := sound.ready live now stack.alarms
  have outcome {x : Exchange ω} (result : step.run stack = stack.restore handle x)
      (follows : Exchange.Follows { stack.exchange connection with confirmations := [] }
        (stack.scope now handle) direction plan x)
      (cases : (∃ news, plan = .stay news) ∨
        Exchange.Rewatches { stack.exchange connection with confirmations := [] }
          (stack.scope now handle) direction x) :
      (∃ news, plan = .stay news) ∧ (step.run stack).alarms = stack.alarms ∨
        (∀ news, plan ≠ .stay news) ∧ ∃ x, step.run stack = stack.restore handle x ∧
          stack.alarms.Served x.alarms handle direction
            (x.demanded (stack.scope now handle) direction) := by
    by_cases stays : ∃ news, plan = .stay news
    · refine Or.inl ⟨stays, ?_⟩
      obtain ⟨news, rfl⟩ := stays
      rw [result]
      exact follows.alarms_of_stay
    · exact Or.inr ⟨not_exists.mp stays, x, result, cases.resolve_left stays⟩
  cases plans with
  | submit _ message =>
    refine outcome ?_ (Exchange.send_follows ready message).1 (guarded.send ready message)
    simp only [Step.run]
    exact Stack.on_quiet live timely now _
  | arrive _ pdu =>
    refine outcome ?_ (Exchange.receive_follows ready pdu) (guarded.receive ready)
    simp only [Step.run]
    exact Stack.on_quiet live timely now _
  | confirm _ direction =>
    refine outcome ?_ (Exchange.confirm_follows ready direction) (guarded.confirm ready)
    simp only [Step.run]
    exact Stack.on_quiet live timely now _
  | settle _ noted =>
    refine outcome ?_ (Exchange.confirm_follows ready direction) (guarded.confirm ready)
    simp only [Step.run, noted]
    exact Stack.on_live (by exact live) now _
  | @expire _ alarm alarms due own =>
    subst own
    have whole : stack.alarms.Linked := guarded.linked
    have only : stack.alarms.OnlyAlarm alarm.connection alarm.direction _ := guarded.only
    obtain ⟨same, ⟨_, _, one⟩, popped⟩ := only.popDue whole due
    have busy : (connection.flow alarm.direction).isIdle = false := by
      by_contra idle
      have resting : (connection.flow alarm.direction).isIdle = true := by simpa using idle
      have nothing : stack.alarms.watching alarm.connection alarm.direction = [] :=
        guarded.idle resting
      rw [one] at nothing
      cases nothing
    have bare : Exchange.Bare { stack.exchange connection with alarms, confirmations := [] }
        (stack.scope now alarm.connection) alarm.direction :=
      ⟨popped.linked, popped.own, rfl, sound.positive⟩
    have acts (news : List Signal) :
        connection.expired (stack.scope now alarm.connection) alarm ≠ .stay news :=
      Connection.expired_ne_stay busy same news
    rcases bare.expire with ⟨news, stays⟩ | rewatches
    · exact absurd stays (acts news)
    · refine Or.inr ⟨acts, _, ?_, popped.trans_served rewatches⟩
      simp only [Step.run, due]
      rw [Stack.on_quiet (by exact live) (by exact timely)]
      rfl

/-- A confirmation that changes nothing was not awaited. -/
theorem Stack.Sound.confirmed_stay (sound : stack.Sound)
    (live : stack.connections.get? handle = some connection) {news : List Signal}
    (stays : connection.confirmed (stack.scope now handle) direction = .stay news) :
    (connection.flow direction).unconfirmed = false ∧ news = [] := by
  have ready := sound.ready live now stack.alarms
  have output := ready.output
  have input := ready.input
  cases direction with
  | output =>
    simp only [Connection.confirmed, Connection.outputConfirmed] at stays
    by_cases unconfirmed : connection.output.unconfirmed = true
    · simp only [unconfirmed, Bool.not_true, Bool.false_eq_true, if_false] at stays
      rcases output unconfirmed with phase | phase | phase
      all_goals
        have phase : connection.output.phase = _ := phase
        simp only [phase] at stays
      · cases stays
      · cases stays
      · split at stays
        · cases stays
        · split at stays
          · cases stays
          · split at stays
            · exact absurd stays (connection.next_ne_stay _ _ _)
            · cases stays
    · rw [if_pos (by simpa using unconfirmed)] at stays
      cases stays
      exact ⟨by simpa [Connection.flow] using unconfirmed, rfl⟩
  | input =>
    simp only [Connection.confirmed, Connection.inputConfirmed] at stays
    by_cases unconfirmed : connection.input.unconfirmed = true
    · have phase : connection.input.phase = .controlOut := input unconfirmed
      simp only [unconfirmed, Bool.not_true, Bool.false_eq_true, if_false, phase] at stays
      split at stays <;> cases stays
    · rw [if_pos (by simpa using unconfirmed)] at stays
      cases stays
      exact ⟨by simpa [Connection.flow] using unconfirmed, rfl⟩

theorem Connection.confirmed_wait {scope : Scope ω} {flow : Flow}
    (waits : connection.confirmed scope direction = .wait flow) :
    (connection.flow direction).unconfirmed = true := by
  by_contra settled
  cases direction with
  | output =>
    have settled : connection.output.unconfirmed = false := by
      simpa [Connection.flow] using settled
    simp [Connection.confirmed, Connection.outputConfirmed, settled] at waits
  | input =>
    have settled : connection.input.unconfirmed = false := by
      simpa [Connection.flow] using settled
    simp [Connection.confirmed, Connection.inputConfirmed, settled] at waits

/-- Whether a unit of the peer lets its flow go on is told by the plan it brings about. -/
theorem Connection.received_urges (connection : Connection) (scope : Scope ω) (memory : Memory)
    (pdu : Pdu) (now : Tick) (noted : List Confirmation) :
    (∀ news, connection.received scope memory pdu = .stay news →
      (.arrive now scope.handle pdu : Step ω).urges noted scope.handle pdu.direction
        (connection.flow pdu.direction) = false ∧
      ∀ signal ∈ news, signal.handed? scope.handle pdu.direction = none) ∧
    ∀ flow, connection.received scope memory pdu = .wait flow →
      (.arrive now scope.handle pdu : Step ω).urges noted scope.handle pdu.direction
        (connection.flow pdu.direction) = true := by
  cases pdu with
  | single message =>
    simp only [Connection.received, Connection.singleReceived]
    refine ⟨fun news stays => ⟨by simp [Step.urges, Pdu.direction], ?_⟩, fun flow waits => ?_⟩
    · split at stays
      · cases stays
        intro signal member
        obtain ⟨name, _, rfl⟩ := mem_told.mp member
        rfl
      · cases stays
        simp
    · split at waits <;> cases waits
  | first length data =>
    simp only [Connection.received, Connection.firstReceived]
    refine ⟨fun news stays => ⟨by simp [Step.urges, Pdu.direction], ?_⟩, fun flow waits => ?_⟩
    · split at stays
      · cases stays
        simp
      · split at stays
        · cases stays
          simp
        · split at stays <;> exact absurd stays (connection.answer_ne_stay _ _ _ _)
    · split at waits
      · cases waits
      · split at waits
        · cases waits
        · split at waits <;> exact absurd waits (connection.answer_ne_wait _ _ _ _)
  | consecutive sequence data =>
    simp only [Connection.received, Connection.consecutiveReceived, Step.urges, Pdu.direction,
      Connection.flow]
    by_cases waiting : connection.input.phase = .consecutiveIn
    · simp only [waiting, ne_eq, not_true_eq_false, if_false]
      by_cases next : sequence = connection.input.sequence
      · simp only [next, not_true_eq_false, if_false]
        refine ⟨fun news stays => ?_, fun flow _ => by simp⟩
        split at stays
        · cases stays
        · split at stays
          · exact absurd stays (connection.answer_ne_stay _ _ _ _)
          · cases stays
      · simp [next]
    · simp only [waiting, ne_eq, not_false_eq_true, if_true]
      refine ⟨fun news stays => ?_, fun flow waits => by cases waits⟩
      cases stays
      simp
  | flowControl status blockSize separation =>
    simp only [Connection.received, Connection.controlReceived, Step.urges, Pdu.direction,
      Connection.flow]
    by_cases waiting : connection.output.phase = .controlIn
    · simp only [waiting, ne_eq, not_true_eq_false, if_false]
      cases status with
      | continueToSend =>
        exact ⟨fun news stays => absurd stays (connection.next_ne_stay _ _ _),
          fun flow waits => absurd waits (connection.next_ne_wait _ _ _)⟩
      | wait =>
        simp only []
        by_cases spent : connection.output.waitsLeft = 0
        · simp [spent]
        · simp [spent]
      | overflow => simp
      | reserved nibble => simp
    · simp only [waiting, ne_eq, not_false_eq_true, if_true]
      refine ⟨fun news stays => ?_, fun flow waits => by cases waits⟩
      cases stays
      cases status <;> simp

theorem Connection.expired_shape (connection : Connection) (scope : Scope ω) (alarm : Alarm) :
    (∀ news, connection.expired scope alarm = .stay news → news = []) ∧
      ∀ flow, connection.expired scope alarm ≠ .wait flow := by
  unfold Connection.expired
  cases alarm with
  | separation handle =>
    simp only []
    split
    · exact ⟨fun news stays => absurd stays (connection.next_ne_stay _ _ _),
        fun flow => connection.next_ne_wait _ _ _⟩
    · simp
  | _ =>
    simp only []
    split <;> simp

/-- A plan that changes nothing comes with no event of the flow; one that lets it wait does. -/
theorem Stack.Plans.urges (plans : stack.Plans handle connection step now direction plan)
    (sound : stack.Sound) (live : stack.connections.get? handle = some connection) :
    (∀ news, plan = .stay news →
      step.urges stack.confirmations handle direction (connection.flow direction) = false ∧
        ∀ signal ∈ news, signal.handed? handle direction = none) ∧
      (∀ flow, plan = .wait flow →
        step.urges stack.confirmations handle direction (connection.flow direction) = true) ∧
      step.time? = some now := by
  cases plans with
  | submit _ message =>
    refine ⟨fun news stays => ⟨rfl, ?_⟩, fun flow waits => ?_, rfl⟩
    all_goals
      rcases (stack.exchange connection).submitted_sends (stack.scope now handle) message with
        same | ⟨_, _, _, _, _, same, _⟩
    · rw [same] at stays
      cases stays
      simp
    · rw [same] at stays
      cases stays
    · rw [same] at waits
      cases waits
    · rw [same] at waits
      cases waits
  | arrive _ pdu =>
    obtain ⟨stays, waits⟩ := connection.received_urges (stack.scope now handle) stack.memory pdu
      now stack.confirmations
    exact ⟨stays, waits, rfl⟩
  | confirm _ direction =>
    refine ⟨fun news stays => ?_, fun flow waits => ?_, rfl⟩
    · obtain ⟨settled, rfl⟩ := sound.confirmed_stay live stays
      simp [Step.urges, settled]
    · simp [Step.urges, Connection.confirmed_wait waits]
  | settle _ noted =>
    refine ⟨fun news stays => ?_, fun flow waits => by simp [Step.urges, noted], rfl⟩
    obtain ⟨settled, _⟩ := sound.confirmed_stay live stays
    obtain ⟨_, found, there, unconfirmed⟩ := sound.only_noted (noted ▸ List.mem_singleton_self _)
    rw [live] at there
    cases there
    rw [settled] at unconfirmed
    cases unconfirmed
  | expire _ due own =>
    obtain ⟨stays, waits⟩ := connection.expired_shape (stack.scope now handle) _
    refine ⟨fun news same => ⟨rfl, ?_⟩, fun flow same => absurd same (waits flow), rfl⟩
    rw [stays news same]
    simp

end

section

variable {handle : Handle} {direction : Direction} {moment : Moment ω} {past : List (Moment ω)}

/-- A step that passes a flow by is no event of it. -/
theorem Moment.Passes.no_event (passes : moment.Passes handle direction)
    (sound : moment.before.Sound) : moment.isEvent handle direction = false := by
  unfold Moment.isEvent
  rw [Bool.or_eq_false_iff]
  constructor
  · rw [List.any_eq_false]
    intro signal member
    rw [(Signal.offered?_of_not_isOf (passes.silent signal member)).1]
    simp
  · cases live : moment.before.connections.get? handle with
    | none => rfl
    | some connection =>
      have unplanned := fun now plan => passes.unplanned connection now plan live
      simp only [Option.any_some]
      by_contra urged
      rw [Bool.not_eq_false] at urged
      generalize moment.step = step at unplanned urged
      cases step with
      | confirm now other way =>
        simp only [Step.urges, decide_eq_true_eq] at urged
        obtain ⟨rfl, rfl, _⟩ := urged
        exact unplanned now _ (.confirm now way)
      | settle now =>
        simp only [Step.urges, decide_eq_true_eq] at urged
        obtain ⟨noted, _⟩ := sound.only_noted (List.mem_of_mem_head? urged)
        exact unplanned now _ (.settle now noted)
      | arrive now other pdu =>
        simp only [Step.urges, Bool.and_eq_true, decide_eq_true_eq] at urged
        obtain ⟨rfl, urged⟩ := urged
        have same : pdu.direction = direction := by
          cases direction <;> cases pdu <;> first | rfl | cases urged
        subst same
        exact unplanned now _ (.arrive now pdu)
      | _ => cases urged

/-- A flow finds its alarms as every operation on it needs them. -/
theorem Stack.Overseen.guarded {stack : Stack ω} (overseen : stack.Overseen past)
    {connection : Connection} (live : stack.connections.get? handle = some connection) (now : Tick)
    (direction : Direction) :
    Exchange.Guarded { stack.exchange connection with confirmations := [] }
      (stack.scope now handle) direction := by
  obtain ⟨only, idle⟩ := (overseen.flows handle connection live direction).only
  exact ⟨overseen.linked, only, idle⟩

/-- Alarms of one flow are those of a queue that are not elsewhere for another. -/
theorem TimerQueue.watching_of_elsewhere {queue after : TimerQueue Alarm} {other : Handle}
    {way : Direction} (same : after.elsewhere other way = queue.elsewhere other way)
    (apart : ¬(handle = other ∧ direction = way)) :
    after.watching handle direction = queue.watching handle direction := by
  have inside (queue : TimerQueue Alarm) : queue.watching handle direction =
      (queue.elsewhere other way).filter (·.1.watches handle direction) := by
    unfold watching elsewhere
    rw [List.filter_filter]
    refine List.filter_congr fun entry _ => ?_
    by_cases own : entry.1.watches handle direction = true
    · have foreign : entry.1.watches other way = false := by
        by_contra named
        rw [Bool.not_eq_false] at named
        obtain ⟨rfl, rfl⟩ := of_decide_eq_true own
        obtain ⟨same, equal⟩ := of_decide_eq_true named
        exact apart ⟨same, equal⟩
      simp [own, foreign]
    · simp [own]
  rw [inside, inside, same]

/-- What a step leaves of the alarms: those of every flow that carries out no plan, unless its
connection is closed. -/
structure Stack.FramesAlarms (before : Stack ω) (step : Step ω) (after : Stack ω) : Prop where
  linked : after.alarms.Linked
  capacity : after.alarms.timers.capacity = before.alarms.timers.capacity
  live : ∀ entry ∈ after.alarms.pending,
    ∃ connection, after.connections.get? entry.1.connection = some connection
  others : ∀ handle connection direction, after.connections.get? handle = some connection →
    (∀ found now plan, before.connections.get? handle = some found →
      ¬before.Plans handle found step now direction plan) →
    after.alarms.watching handle direction = before.alarms.watching handle direction

/-- A step that changes no alarm and closes no connection leaves the alarms of all flows. -/
theorem Stack.Overseen.frames_of_same {stack after : Stack ω} (overseen : stack.Overseen past)
    (step : Step ω) (same : after.alarms = stack.alarms)
    (kept : ∀ handle connection, stack.connections.get? handle = some connection →
      ∃ connection, after.connections.get? handle = some connection) :
    stack.FramesAlarms step after := by
  refine ⟨?_, ?_, fun entry member => ?_, fun _ _ _ _ _ => ?_⟩
  · rw [same]
    exact overseen.linked
  · rw [same]
  · rw [same] at member
    obtain ⟨connection, live⟩ := overseen.live entry member
    exact kept _ connection live
  · rw [same]

/-- Closing a connection takes its alarms, and those of no other connection. -/
theorem Stack.Overseen.frames_closed {stack : Stack ω} (overseen : stack.Overseen past)
    (step : Step ω) {name : Handle} {connection : Connection} {connections : Slots Connection}
    (erasure : stack.connections.erase name = some (connection, connections)) (memory : Memory) :
    stack.FramesAlarms step { stack with
      connections
      memory
      alarms := stack.alarms.cancelAll (·.connection = name) } := by
  obtain ⟨linked, capacity, pending⟩ :=
    TimerQueue.cancelAll_linked overseen.linked (·.connection = name)
  refine ⟨linked, capacity, fun entry member => ?_, fun handle found direction here _ => ?_⟩
  · rw [show _ = _ from pending] at member
    obtain ⟨before, kept⟩ := List.mem_filter.mp member
    obtain ⟨found, live⟩ := overseen.live entry before
    have apart : entry.1.connection ≠ name := by simpa using kept
    refine ⟨found, ?_⟩
    show connections.get? _ = _
    rw [Slots.get?_erase erasure, if_neg apart]
    exact live
  · have apart : handle ≠ name := by
      rintro rfl
      rw [show Slots.get? connections handle = _ from Slots.get?_erase erasure handle,
        if_pos rfl] at here
      cases here
    unfold TimerQueue.watching
    rw [show _ = _ from pending, List.filter_filter]
    refine List.filter_congr fun entry _ => ?_
    by_cases own : entry.1.watches handle direction = true
    · have kept : entry.1.connection ≠ name := by
        rw [(of_decide_eq_true own).1]
        exact apart
      simp [own, kept]
    · simp [own]

/-- A plan that a flow carries out leaves the alarms of all other flows. -/
theorem Stack.Overseen.frames_acted {stack : Stack ω} {step : Step ω}
    (overseen : stack.Overseen past) (sound : stack.Sound) (timely : step.Timely stack)
    {name : Handle} {connection : Connection} {now : Tick} {way : Direction} {plan : Plan}
    (plans : stack.Plans name connection step now way plan)
    (live : stack.connections.get? name = some connection) :
    stack.FramesAlarms step (step.run stack) := by
  rcases plans.rearms sound timely live (overseen.guarded live now way) with
    ⟨_, same⟩ | ⟨_, x, result, _, rearmed, _⟩
  · obtain ⟨_, _, carried⟩ := (sound.acts_of_plans timely live plans).carries_out
    obtain ⟨others, flow, here⟩ := carried.get? live
    refine overseen.frames_of_same step same fun handle found there => ?_
    by_cases equal : handle = name
    · rw [equal]
      exact ⟨_, here⟩
    · rw [others handle equal]
      exact ⟨found, there⟩
  · rw [result]
    refine ⟨rearmed.linked, rearmed.capacity, fun entry member => ?_,
      fun handle found direction here unplanned => ?_⟩
    · by_cases own : entry.1.watches name way = true
      · rw [(of_decide_eq_true own).1]
        exact ⟨_, Stack.get?_restore live x⟩
      · have before : entry ∈ x.alarms.elsewhere name way :=
          List.mem_filter.mpr ⟨member, by simp [own]⟩
        rw [rearmed.elsewhere] at before
        obtain ⟨found, there⟩ := overseen.live entry (List.mem_of_mem_filter before)
        exact Slots.live_set _ live there
    · refine TimerQueue.watching_of_elsewhere rearmed.elsewhere ?_
      rintro ⟨rfl, rfl⟩
      exact unplanned connection now plan live plans

theorem Stack.Overseen.frames {stack : Stack ω} {step : Step ω} (overseen : stack.Overseen past)
    (sound : stack.Sound) (timely : step.Timely stack) :
    stack.FramesAlarms step (step.run stack) := by
  have turns := sound.turns timely
  have acted {handle : Handle} {connection : Connection} {now : Tick} {direction : Direction}
      {plan : Plan} (plans : stack.Plans handle connection step now direction plan)
      (live : stack.connections.get? handle = some connection) :=
    overseen.frames_acted sound timely plans live
  generalize step.run stack = after at turns acted ⊢
  cases turns with
  | apart apart elsewhere =>
    refine overseen.frames_of_same _ apart.alarms fun handle connection live => ⟨connection, ?_⟩
    rw [apart.connections]
    exact live
  | @opened name connections insertion =>
    refine overseen.frames_of_same _ rfl fun handle connection live => ?_
    show ∃ connection, connections.get? handle = some connection
    rw [Slots.get?_insert sound.slots insertion]
    split
    · exact ⟨_, rfl⟩
    · exact ⟨connection, live⟩
  | bound live idle =>
    exact overseen.frames_of_same _ rfl fun _ _ here => Slots.live_set _ live here
  | listened live =>
    exact overseen.frames_of_same _ rfl fun _ _ here => Slots.live_set _ live here
  | closed erasure => exact overseen.frames_closed _ erasure _
  | acted plans acts => exact acted plans acts.live
  | @lapsed now alarm alarms due dead =>
    obtain ⟨_, _, deadline, _, pending⟩ := TimerQueue.popDue_linked overseen.linked due
    obtain ⟨connection, live⟩ := overseen.live (alarm, deadline) (by simp [pending])
    rw [dead] at live
    cases live

/-- A noted confirmation is handled in the next step. -/
theorem Stack.Sound.settles {stack : Stack ω} {step : Step ω} (sound : stack.Sound)
    (timely : step.Timely stack) (noted : ⟨handle, direction⟩ ∈ stack.confirmations) :
    ∃ now, step = .settle now ∧ stack.confirmations = [⟨handle, direction⟩] := by
  obtain ⟨only, _⟩ := sound.only_noted noted
  cases step with
  | settle now => exact ⟨now, rfl, only⟩
  | _ =>
    have quiet : stack.confirmations = [] := timely
    rw [quiet] at only
    cases only

theorem Stack.Carried.confirmations {before after : Stack ω} {connection : Connection}
    {plan : Plan} {news : List Signal}
    (carried : before.Carried handle connection direction plan after news) :
    after.confirmations = [] ∨ after.confirmations = [⟨handle, direction⟩] := by
  cases carried with
  | stay _ _ quiet => exact Or.inl quiet
  | wait replaced => exact Or.inl replaced.confirmations
  | @handed _ _ _ _ _ confirmed _ replaced =>
    cases confirmed with
    | true => exact Or.inr replaced.confirmations
    | false => exact Or.inl replaced.confirmations
  | refused _ replaced _ => exact Or.inl replaced.confirmations
  | rest replaced => exact Or.inl replaced.confirmations

/-- A plan after which its flow is busy, unless it changed nothing, is an event of the flow. -/
theorem Stack.Carried.is_event {after : Stack ω} {connection : Connection} {now : Tick} {plan : Plan}
    {news : List Signal}
    (carried : moment.before.Carried handle connection direction plan after news)
    (plans : moment.before.Plans handle connection moment.step now direction plan)
    (sound : moment.before.Sound)
    (live : moment.before.connections.get? handle = some connection)
    (same : moment.news = news) (changes : ∀ news, plan ≠ .stay news) {found : Connection}
    (here : after.connections.get? handle = some found)
    (busy : (found.flow direction).isIdle = false) : moment.isEvent handle direction = true := by
  have rested {noted : Bool} (replaced : moment.before.Replaced handle connection direction {} noted
      after) : False := by
    rw [replaced.get? live] at here
    cases here
    rw [Connection.flow_setFlow] at busy
    cases busy
  unfold Moment.isEvent
  rw [live, Option.any_some, same]
  cases carried with
  | stay _ _ _ => exact absurd rfl (changes _)
  | wait _ =>
    rw [(plans.urges sound live).2.1 _ rfl]
    exact Bool.or_true _
  | handed _ => simp [Signal.handed?]
  | refused _ replaced _ => exact (rested replaced).elim
  | rest replaced => exact (rested replaced).elim

/-- A flow that has no part in a step keeps its alarms. -/
theorem Stack.FlowOverseen.keep {flow : Flow}
    (overseen : moment.before.FlowOverseen past handle direction flow)
    (same : moment.after.alarms.watching handle direction =
      moment.before.alarms.watching handle direction)
    (calm : moment.isEvent handle direction = false)
    (unnoted : ⟨handle, direction⟩ ∉ moment.before.confirmations) :
    moment.after.FlowOverseen (past ++ [moment]) handle direction flow := by
  have settings : moment.after.settings = moment.before.settings := moment.step.settings_run _
  rcases overseen with watched | ⟨scarce, nothing⟩
  · refine Or.inl ?_
    cases watched with
    | idle idle nothing => exact .idle idle (same.trans nothing)
    | noted noted _ => exact absurd noted unnoted
    | busy since busy last pending =>
      refine .busy since busy ?_ ?_
      · rw [lastEvent_concat, calm]
        exact last
      · rw [same, settings]
        exact pending
  · exact Or.inr ⟨by rw [settings]; exact scarce, same.trans nothing⟩

/-- A flow that goes on gets the alarm that it needs from now on. -/
theorem Stack.Carried.watched {connection : Connection} {x : Exchange ω} {now : Tick} {plan : Plan}
    (carried : moment.before.Carried handle connection direction plan moment.after moment.news)
    (plans : moment.before.Plans handle connection moment.step now direction plan)
    (sound : moment.before.Sound)
    (live : moment.before.connections.get? handle = some connection)
    (changes : ∀ news, plan ≠ .stay news) (result : moment.after = moment.before.restore handle x)
    (own : moment.after.alarms.watching handle direction =
      x.demanded (moment.before.scope now handle) direction) :
    moment.after.FlowWatched (past ++ [moment]) handle direction (x.connection.flow direction) := by
  have outcome := carried.confirmations
  have here : moment.after.connections.get? handle = some x.connection := by
    rw [result]
    exact Stack.get?_restore live x
  have noted_eq : moment.after.confirmations = x.confirmations := by
    rw [result]
    rfl
  cases idle : (x.connection.flow direction).isIdle with
  | true => exact .idle idle (own.trans (Exchange.demanded_of_idle idle))
  | false =>
    rcases outcome with quiet | noted
    · have event := carried.is_event plans sound live rfl changes here idle
      refine .busy now idle ?_ ?_
      · rw [lastEvent_concat, event, (plans.urges sound live).2.2]
        rfl
      · rw [own, show moment.after.settings = _ from moment.step.settings_run _]
        unfold Exchange.demanded
        rw [if_pos (noted_eq.symm.trans quiet)]
        rfl
    · refine .noted (by rw [noted]; exact List.mem_singleton.mpr rfl) ?_
      rw [own]
      refine Exchange.demanded_of_noted ?_
      rw [← noted_eq, noted]
      simp

/-- Each step leaves every flow with the alarm it needs, if there is a timer for it. -/
theorem Stack.Overseen.step (overseen : moment.before.Overseen past) (sound : moment.before.Sound)
    (timely : moment.step.Timely moment.before) :
    moment.after.Overseen (past ++ [moment]) := by
  have frames : moment.before.FramesAlarms moment.step moment.after :=
    overseen.frames sound timely
  have settings : moment.after.settings = moment.before.settings := moment.step.settings_run _
  refine ⟨frames.linked, ?_, frames.live, ?_⟩
  · rw [frames.capacity, overseen.capacity, settings]
  intro handle connection here direction
  rcases moment.flow_cases sound timely handle direction with
    passes | ⟨found, now, plan, live, plans, carried⟩
  · have same := frames.others handle connection direction here passes.unplanned
    rcases passes.leaves connection here with ⟨dead, rfl⟩ | ⟨earlier, live, flow, _⟩
    · refine Or.inl (.idle (by cases direction <;> rfl) ?_)
      rw [same]
      refine List.filter_eq_nil_iff.mpr fun entry member named => ?_
      obtain ⟨found, live⟩ := overseen.live entry member
      rw [(of_decide_eq_true named).1, dead] at live
      cases live
    · rw [flow]
      refine (overseen.flows handle earlier live direction).keep same (passes.no_event sound) ?_
      intro noted
      obtain ⟨now, settles, only⟩ := sound.settles timely noted
      have unplanned := passes.unplanned earlier now
        (earlier.confirmed (moment.before.scope now handle) direction) live
      rw [settles] at unplanned
      exact unplanned (.settle now only)
  · rcases plans.rearms sound timely live (overseen.guarded live now direction) with
      ⟨⟨news, rfl⟩, same⟩ | ⟨changes, x, result, own, rearmed, outcome, _⟩
    · have same : moment.after.alarms = moment.before.alarms := same
      obtain ⟨told, connections⟩ := carried.of_stay
      obtain ⟨calm, silent⟩ := (plans.urges sound live).1 news rfl
      have no_event : moment.isEvent handle direction = false := by
        unfold Moment.isEvent
        rw [live, Option.any_some, calm, Bool.or_false, List.any_eq_false, told]
        intro signal member
        rw [silent signal member]
        simp
      have found_here : connection = found := by
        rw [connections, live] at here
        exact (Option.some.inj here).symm
      subst found_here
      refine (overseen.flows handle connection live direction).keep (by rw [same]) no_event ?_
      intro noted
      obtain ⟨now, settles, only⟩ := sound.settles timely noted
      rw [settles] at calm
      simp [Step.urges, only] at calm
    · have result : moment.after = moment.before.restore handle x := result
      have found_here : connection = x.connection := by
        rw [result, Stack.get?_restore live] at here
        exact (Option.some.inj here).symm
      subst found_here
      have pending : moment.after.alarms.watching handle direction = own := by
        rw [result]
        exact rearmed.own
      rcases outcome with served | ⟨refused, full⟩
      · exact Or.inl (carried.watched plans sound live changes result (pending.trans served))
      · refine Or.inr ⟨?_, pending.trans refused⟩
        rw [settings]
        by_contra enough
        exact full (overseen.room sound (by omega) live direction)

/-- With two timers for each connection, each step leaves every flow with the alarm it needs. -/
theorem Stack.Watched.step (watched : moment.before.Watched past) (sound : moment.before.Sound)
    (timely : moment.step.Timely moment.before)
    (enough : 2 * moment.before.settings.connections ≤ moment.before.settings.timers) :
    moment.after.Watched (past ++ [moment]) := by
  refine (watched.overseen.step sound timely).watched ?_
  rw [show moment.after.settings = _ from moment.step.settings_run _]
  exact enough

end

/-- A new stack has no alarms. -/
theorem Stack.new_watched {settings : Settings} {world : ω} {stack : Stack ω}
    (run : Stack.new settings world = .ok stack) :
    stack.settings = settings ∧ stack.Watched [] := by
  obtain ⟨_, _, numbered, rfl⟩ := Stack.new_eq run
  have linked : (TimerQueue.ofCapacity settings.timers : TimerQueue Alarm).LinkedBy [] :=
    TimerQueue.ofCapacity_linked (numbered.trans (by decide))
  refine ⟨rfl, linked.linked, ?_, fun entry member => ?_, fun handle connection here => ?_⟩
  · simp [TimerQueue.ofCapacity, Slots.capacity, Slots.ofCapacity]
  · unfold TimerQueue.pending at member
    rw [show _ = _ from linked.chain_eq] at member
    cases member
  · rw [show (Slots.ofCapacity settings.connections).get? handle = none from
      Slots.get?_ofCapacity _ _] at here
    cases here

/-- After any calls no flow has an alarm that it should not have. -/
theorem Stack.calls_overseen {settings : Settings} {world : ω} {start : Stack ω}
    (run : Stack.new settings world = .ok start) (calls : List (Call ω)) :
    (start.calls calls).Overseen (start.history calls) := by
  rw [Stack.calls_eq]
  exact (Stack.new_smooth run calls).orderly.induct (fun past stack => stack.Overseen past)
    (Stack.new_watched run).2.overseen
    fun past moment _ sound timely overseen => Stack.Overseen.step overseen sound timely

/-- The settings stay, and every flow stays watched. -/
theorem Stack.Watched.onward {settings : Settings}
    (enough : 2 * settings.connections ≤ settings.timers) (past : List (Moment ω))
    (moment : Moment ω) (sound : moment.before.Sound) (timely : moment.step.Timely moment.before)
    (held : moment.before.settings = settings ∧ moment.before.Watched past) :
    moment.after.settings = settings ∧ moment.after.Watched (past ++ [moment]) := by
  obtain ⟨same, watched⟩ := held
  refine ⟨(moment.step.settings_run _).trans same, watched.step sound timely ?_⟩
  rw [same]
  exact enough

theorem Stack.calls_watched {settings : Settings} {world : ω} {start : Stack ω}
    (run : Stack.new settings world = .ok start)
    (enough : 2 * settings.connections ≤ settings.timers) (calls : List (Call ω)) :
    (start.calls calls).settings = settings ∧
      (start.calls calls).Watched (start.history calls) := by
  rw [Stack.calls_eq]
  exact (Stack.new_smooth run calls).orderly.induct
    (fun past stack => stack.settings = settings ∧ stack.Watched past) (Stack.new_watched run)
    fun past moment _ => Stack.Watched.onward enough past moment

/-- A sending flow in the middle of a block either has a frame unconfirmed or pauses. -/
theorem Stack.Watched.pauses {stack : Stack ω} {past : List (Moment ω)} (watched : stack.Watched past)
    (quiet : stack.confirmations = []) {handle : Handle} {connection : Connection}
    (live : stack.connections.get? handle = some connection)
    (confirmed : connection.output.unconfirmed = false)
    (phase : connection.output.phase = .consecutiveOut) :
    ∃ deadline, (.separation handle, deadline) ∈ stack.alarms.pending := by
  cases watched.flows handle connection live .output with
  | idle idle _ =>
    have resting : connection.output.isIdle = true := idle
    unfold Flow.isIdle at resting
    rw [phase] at resting
    cases resting
  | noted noted _ =>
    rw [quiet] at noted
    cases noted
  | busy since busy _ pending =>
    have awake : connection.output.isIdle = false := busy
    have watch : connection.output.watch stack.settings handle .output =
        (.separation handle, connection.output.separation) := by
      unfold Flow.watch
      simp [confirmed, phase]
    have own : connection.output.watched stack.settings handle .output since =
        [(.separation handle, since.after connection.output.separation)] := by
      unfold Flow.watched
      rw [awake, watch]
      rfl
    have member : (.separation handle, since.after connection.output.separation) ∈
        stack.alarms.watching handle .output := by
      rw [show stack.alarms.watching handle .output = _ from pending.trans own]
      exact List.mem_singleton_self _
    exact ⟨_, (List.mem_filter.mp member).1⟩

/-- With all flows at rest no alarm is pending. -/
theorem Stack.Watched.pending_nil {stack : Stack ω} {past : List (Moment ω)}
    (watched : stack.Watched past)
    (idle : ∀ handle connection, stack.connections.get? handle = some connection →
      ∀ direction, (connection.flow direction).isIdle = true) : stack.alarms.pending = [] := by
  refine List.eq_nil_iff_forall_not_mem.mpr fun entry member => ?_
  obtain ⟨connection, live⟩ := watched.live entry member
  have own : entry ∈ stack.alarms.watching entry.1.connection entry.1.direction :=
    List.mem_filter.mpr ⟨member, Alarm.flow_eq_iff.mp rfl⟩
  have nothing := (watched.flows _ _ live entry.1.direction).only.2 (idle _ _ live _)
  rw [nothing] at own
  cases own

/-- Once the alarm of a flow is cancelled there is a timer to arm another. -/
theorem Stack.Watched.arms {stack : Stack ω} {past : List (Moment ω)} (watched : stack.Watched past)
    (sound : stack.Sound) (enough : 2 * stack.settings.connections ≤ stack.settings.timers)
    {handle : Handle} {connection : Connection}
    (live : stack.connections.get? handle = some connection) (direction : Direction)
    (now delay : Tick) (alarm : Alarm) :
    ∃ armed, (stack.alarms.cancel
      ((connection.flow direction).watch stack.settings handle direction).1).schedule now delay
        alarm = .ok armed := by
  have only := (watched.flows handle connection live direction).only.1
  have cancelled := only.cancel watched.linked (Flow.watch_watches _ _ _ _)
  have room := watched.overseen.room sound enough live direction
  obtain ⟨armed, run, _⟩ :=
    TimerQueue.schedule_linked cancelled.linked now delay alarm (cancelled.size_lt room)
  exact ⟨armed, run⟩

/-- With two timers for each connection, after any calls the pending alarms are these: for each
busy flow of a live connection the one that the flow's state calls for, which counts from the
flow's last event. An idle flow has none, and a closed connection has none. At no step along the
way does a flow find all timers taken. -/
theorem busy_flows_are_watched {settings : Settings} {world : ω} {start : Stack ω}
    (run : Stack.new settings world = .ok start)
    (enough : 2 * settings.connections ≤ settings.timers) (calls : List (Call ω)) :
    (∀ handle connection, (start.calls calls).connections.get? handle = some connection →
      ∀ direction, if (connection.flow direction).isIdle then
          (start.calls calls).alarms.watching handle direction = []
        else ∃ since, lastEvent handle direction (start.history calls) = some since ∧
          (start.calls calls).alarms.watching handle direction =
            [(((connection.flow direction).watch settings handle direction).1,
              since.after ((connection.flow direction).watch settings handle direction).2)]) ∧
      (∀ entry ∈ (start.calls calls).alarms.pending, ∃ connection,
        (start.calls calls).connections.get? entry.1.connection = some connection) ∧
      ∀ moment ∈ start.history calls, ∀ handle connection,
        moment.before.connections.get? handle = some connection → ∀ direction now delay alarm,
          ∃ armed, (moment.before.alarms.cancel
            ((connection.flow direction).watch settings handle direction).1).schedule now delay
              alarm = .ok armed := by
  have smooth := Stack.new_smooth run calls
  obtain ⟨same, watched⟩ := Stack.calls_watched run enough calls
  have quiet := smooth.quiet
  rw [← Stack.calls_eq] at quiet
  refine ⟨fun handle connection live direction => ?_, watched.live, ?_⟩
  · cases watched.flows handle connection live direction with
    | idle idle nothing =>
      rw [if_pos idle]
      exact nothing
    | noted noted _ =>
      rw [quiet] at noted
      cases noted
    | busy since busy last pending =>
      rw [if_neg (by simp [busy])]
      refine ⟨since, last, ?_⟩
      rw [pending, same]
      unfold Flow.watched
      rw [busy]
      rfl
  · intro moment member handle connection live direction now delay alarm
    obtain ⟨past, rest, whole⟩ := List.append_of_mem member
    obtain ⟨sound, _, same, watched⟩ := smooth.orderly.reach whole
      (fun past stack => stack.settings = settings ∧ stack.Watched past) (Stack.new_watched run)
      (Stack.Watched.onward enough)
    rw [← same]
    exact watched.arms sound (by rw [same]; exact enough) live direction now delay alarm

/-- The sample connection waits for flow control from the moment its first frame is confirmed. -/
theorem sample_flow_is_watched :
    2 * sampleStack.settings.connections ≤ sampleStack.settings.timers ∧
      ∃ since, lastEvent sampleHandle .output
          (sampleStack.history (sampleCalls ++ [.send 5 sampleHandle [1, 2, 3, 4, 5, 6, 7, 8]])) =
            some since ∧
        TimerQueue.watching (sampleStack.calls
            (sampleCalls ++ [.send 5 sampleHandle [1, 2, 3, 4, 5, 6, 7, 8]])).alarms sampleHandle
              .output = [(.output sampleHandle, since.after 1000)] := by
  have made : Stack.new {} () = .ok sampleStack := rfl
  have enough : 2 * sampleStack.settings.connections ≤ sampleStack.settings.timers := by decide
  have watched := (busy_flows_are_watched made enough
    (sampleCalls ++ [.send 5 sampleHandle [1, 2, 3, 4, 5, 6, 7, 8]])).1 sampleHandle _ rfl .output
  exact ⟨enough, watched⟩

end DiagBus
