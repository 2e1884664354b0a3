import DiagBus.Proofs.Mailbox

namespace DiagBus

variable {ω : Type}

/-- The timers that a queue leads to when timers are started and cancelled. -/
inductive TimerQueue.Leads (queue : TimerQueue ClientTimer) : TimerQueue ClientTimer → Prop
  | here : Leads queue queue
  | cancelled {timers : TimerQueue ClientTimer} (timer : ClientTimer) (leads : Leads queue timers) :
      Leads queue (timers.cancel timer)
  | started {timers after : TimerQueue ClientTimer} {now delay : Tick} {timer : ClientTimer}
      (leads : Leads queue timers)
      (run : (timers.cancel timer).schedule now delay timer = .ok after) : Leads queue after

/-- The request state of a client and its timers are in step. -/
structure Client.InStep (client : Client) : Prop where
  once : ∀ timer, client.timers.events.count timer ≤ 1
  /-- Starting a timer never fails, also after others were started and cancelled. -/
  starts : ∀ timers, client.timers.Leads timers → ∀ now delay timer,
    ∃ after, (timers.cancel timer).schedule now delay timer = .ok after
  idle : client.state = .idle ↔
    .answer ∉ client.timers.events ∧ .delayedAnswer ∉ client.timers.events
  waiting : (∃ service, client.state = .waiting service) ↔
    .answer ∈ client.timers.events ∧ .delayedAnswer ∉ client.timers.events
  delayed : (∃ service, client.state = .delayed service) ↔
    .answer ∉ client.timers.events ∧ .delayedAnswer ∈ client.timers.events

/-- Which timers are pending in which state. -/
def Situation.Paced (situation : Situation) : Prop :=
  match situation.state with
  | .idle => situation.due .answer = none ∧ situation.due .delayedAnswer = none
  | .waiting _ => situation.due .answer ≠ none ∧ situation.due .delayedAnswer = none
  | .delayed _ => situation.due .answer = none ∧ situation.due .delayedAnswer ≠ none

namespace Situation

variable {situation : Situation}

/-- The session's timer does not matter. -/
theorem Paced.of_same {other : Situation} (paced : situation.Paced)
    (state : other.state = situation.state)
    (due : ∀ timer, timer ≠ .session → other.due timer = situation.due timer) : other.Paced := by
  unfold Paced
  rw [state, due .answer (by decide), due .delayedAnswer (by decide)]
  exact paced

theorem prolong_due (situation : Situation) (now : Tick) {timer : ClientTimer}
    (kind : timer ≠ .session) : (situation.prolong now).due timer = situation.due timer := by
  unfold prolong
  split
  · rfl
  · exact Function.update_of_ne kind _ _

theorem prolong_state (situation : Situation) (now : Tick) :
    (situation.prolong now).state = situation.state := by
  unfold prolong
  split <;> rfl

theorem Paced.ask (paced : situation.Paced) (idle : situation.state = .idle) (now : Tick)
    (service : UInt8) (expectsAnswer : Bool) :
    (situation.ask now service expectsAnswer).Paced := by
  unfold Situation.ask
  refine Paced.of_same ?_ (prolong_state _ _) fun timer kind => prolong_due _ _ kind
  cases expectsAnswer with
  | false => exact paced
  | true =>
    unfold Paced at paced
    rw [idle] at paced
    simp [Paced, Situation.start, paced.2]

theorem postpone_paced (situation : Situation) (now : Tick) (service : UInt8) :
    (situation.postpone now service).Paced := by
  simp [Paced, Situation.postpone, Situation.start, Situation.stop]

theorem finish_paced (situation : Situation) : situation.finish.Paced := by
  simp [Paced, Situation.finish, Situation.stop]

theorem Paced.stop_session (paced : situation.Paced) : (situation.stop .session).Paced :=
  paced.of_same rfl fun _ kind => Function.update_of_ne kind _ _

/-- Of the timers that watch for an answer only one was pending. -/
theorem Paced.unanswered (paced : situation.Paced) {timer : ClientTimer}
    (pending : situation.due timer ≠ none) (kind : timer ≠ .session) :
    Paced { situation.stop timer with state := .idle } := by
  unfold Paced at paced
  unfold Paced Situation.stop
  cases timer with
  | session => exact absurd rfl kind
  | answer => cases state : situation.state <;> simp_all
  | delayedAnswer => cases state : situation.state <;> simp_all

end Situation

theorem TimerQueue.Leads.timed {queue timers : TimerQueue ClientTimer}
    (leads : queue.Leads timers) {client : Client} (timed : client.Timed)
    (same : client.timers = queue) : ({ client with timers } : Client).Timed := by
  induction leads with
  | here => exact same ▸ timed
  | cancelled timer _ ih => exact (ih.cancel timer).1
  | @started timers after now delay timer _ run ih =>
    have started := ih.starts now delay timer
    rw [show (timers.cancel timer).schedule now delay timer = .ok after from run] at started
    cases started
    obtain ⟨armed, _⟩ := ih.arm now delay timer
    rw [Client.arm_eq] at armed
    exact armed

theorem Client.Timed.inStep {client : Client} (timed : client.Timed)
    (paced : client.situation.Paced) : client.InStep := by
  have pending (timer : ClientTimer) : timer ∈ client.timers.events ↔ client.due timer ≠ none := by
    rw [Client.due, ne_eq, TimerQueue.deadline?_eq_none, not_not]
  unfold Situation.Paced at paced
  refine ⟨List.nodup_iff_count_le_one.mp timed.single.once, ?_, ?_, ?_, ?_⟩
  · intro timers leads now delay timer
    exact ⟨_, (leads.timed timed rfl).starts now delay timer⟩
  all_goals
    simp only [pending]
    cases state : client.state <;>
      simp only [Client.situation, state] at paced <;> simp [paced]

namespace DeskMoment

variable {moment : DeskMoment ω}

/-- The request to this service was outstanding, and is no more. -/
def Ends (moment : DeskMoment ω) (service : UInt8) : Prop :=
  moment.before.client.state.service? = some service ∧ moment.after.client.state = .idle

/-- The client looks at a message, which its stack told it. -/
structure Hears (moment : DeskMoment ω) (now : Tick) (message : List UInt8) : Prop where
  takes : moment.Takes now (.received message)
  told : ∃ connection, .received moment.before.listener connection message ∈
    moment.before.stack.outside.signals

/-- The stack took a request to this service, which the server is to answer: one that the program
around made, or the one that keeps the session alive. -/
def Starts (moment : DeskMoment ω) (service : UInt8) : Prop :=
  (∃ now parameters, moment.Requests now (service :: parameters) true (.ok ())) ∨
    service = Service.testerPresent.toByte ∧ ∃ now, moment.KeepsAlive now (.ok ())

/-- What a step does to the request that is outstanding, and the events it pushes. -/
structure SettlesOnce (moment : DeskMoment ω) : Prop where
  /-- What is pushed is queued unless the queue is full. -/
  queued : moment.step ≠ .deed .nextEvent → moment.after.client.events =
    (moment.before.client.events ++ moment.pushed).take moment.before.client.capacity
  once : moment.before.client.isBusy = true → moment.after.client.isBusy = false →
    ∃ event, moment.pushed = [event]
  positive : ∀ service record, .positive service record ∈ moment.pushed →
    moment.Ends service ∧ ∃ now, moment.Hears now ((service + 0x40) :: record)
  negative : ∀ service code, .negative service code ∈ moment.pushed →
    moment.Ends service ∧ code.toByte ≠ 0x78 ∧
      ∃ now trailing, moment.Hears now (0x7F :: service :: code.toByte :: trailing)
  failed : ∀ fault, .failed fault ∈ moment.pushed → moment.after.client.state = .idle
  /-- A request stays the same from its start to its end. -/
  outstanding : ∀ service, moment.after.client.state.service? = some service →
    moment.before.client.state.service? = some service ∨
      moment.before.client.state = .idle ∧ moment.Starts service
  announced : ∀ service now trailing, moment.before.client.state.service? = some service →
    moment.Hears now (0x7F :: service :: 0x78 :: trailing) →
      moment.after.client.state = .delayed service ∧ moment.pushed = [] ∧
        moment.after.client.due .delayedAnswer =
          some (now.after moment.before.client.delayedAnswer)

/-- Only a timer that is pending fires. -/
theorem Fires.pending (timed : moment.before.client.Timed) {now : Tick} {timer : ClientTimer}
    (fires : moment.Fires now timer) : moment.before.client.due timer ≠ none := by
  obtain ⟨timers, due⟩ := fires.popped
  obtain ⟨_, _, ⟨deadline, pending, _⟩, _⟩ := timed.single.popDue due
  intro absent
  rw [Client.due, pending] at absent
  cases absent

/-- A client whose timer for an answer fires has a request outstanding. -/
theorem Fires.busy (timed : moment.before.client.Timed) {now : Tick} {timer : ClientTimer}
    (paced : moment.before.client.situation.Paced) (fires : moment.Fires now timer)
    (kind : timer ≠ .session) : ∃ service, moment.before.client.state.service? = some service := by
  have pending := fires.pending timed
  have due : moment.before.client.situation.due = moment.before.client.due := rfl
  have state : moment.before.client.situation.state = moment.before.client.state := rfl
  unfold Situation.Paced at paced
  rw [due, state] at paced
  cases outstanding : moment.before.client.state with
  | idle =>
    simp only [outstanding] at paced
    cases timer with
    | answer => exact absurd paced.1 pending
    | delayedAnswer => exact absurd paced.2 pending
    | session => exact absurd rfl kind
  | waiting service => exact ⟨service, rfl⟩
  | delayed service => exact ⟨service, rfl⟩

/-- The state and the timers stay in step. -/
theorem Course.paced (timed : moment.before.client.Timed) (course : moment.Course)
    (paced : moment.before.client.situation.Paced) : moment.after.client.situation.Paced := by
  cases course with
  | rests same _ => rw [same]; exact paced
  | adjusted level answer delayedAnswer situation _ => rw [situation]; exact paced
  | asked _ idle situation _ => rw [situation]; exact paced.ask idle _ _ _
  | announced _ _ situation _ => rw [situation]; exact Situation.postpone_paced _ _ _
  | rejected _ _ _ situation _ => rw [situation]; exact Situation.finish_paced _
  | granted _ _ situation _ => rw [situation]; exact Situation.finish_paced _
  | broken _ situation _ => rw [situation]; exact Situation.finish_paced _
  | unanswered fires kind situation _ =>
    rw [situation]
    exact paced.unanswered (fires.pending timed) kind
  | lapsed _ _ situation _ => rw [situation]; exact paced.stop_session
  | kept _ idle situation _ => rw [situation]; exact paced.stop_session.ask idle _ _ _
  | dropped _ situation _ => rw [situation]; exact paced.stop_session

/-- What a step does to the request, apart from the session and its timer. -/
inductive Fate (moment : DeskMoment ω) : Prop
  | stays (state : moment.after.client.state = moment.before.client.state)
      (event : moment.step.event? moment.before = none) : Fate moment
  | starts {service : UInt8} (idle : moment.before.client.state = .idle)
      (starts : moment.Starts service) (state : moment.after.client.state = .waiting service)
      (event : moment.step.event? moment.before = none) : Fate moment
  | postponed {service : UInt8} (busy : moment.before.client.state.service? = some service)
      (state : moment.after.client.state = .delayed service)
      (event : moment.step.event? moment.before = none) : Fate moment
  | rejected {now : Tick} {service : UInt8} {code : ResponseCode} {trailing : List UInt8}
      (takes : moment.Takes now
        (.received (negativeResponse :: service :: code.toByte :: trailing)))
      (other : code.toByte ≠ 0x78) (busy : moment.before.client.state.service? = some service)
      (state : moment.after.client.state = .idle)
      (event : moment.step.event? moment.before = some (.negative service code)) : Fate moment
  | granted {now : Tick} {service : UInt8} {record : List UInt8}
      (takes : moment.Takes now (.received ((service + positiveOffset) :: record)))
      (busy : moment.before.client.state.service? = some service)
      (state : moment.after.client.state = .idle)
      (event : moment.step.event? moment.before = some (.positive service record)) : Fate moment
  | failed {fault : Fault} (state : moment.after.client.state = .idle)
      (event : moment.step.event? moment.before = some (.failed fault)) : Fate moment

theorem state_of {state : RequestState} {situation : Situation}
    (same : moment.after.client.situation = situation) (stated : situation.state = state) :
    moment.after.client.state = state :=
  (congrArg Situation.state same).trans stated

theorem asked_state {situation : Situation} (now : Tick) (service : UInt8) (expectsAnswer : Bool) :
    (situation.ask now service expectsAnswer).state =
      if expectsAnswer then .waiting service else situation.state := by
  unfold Situation.ask
  rw [Situation.prolong_state]
  cases expectsAnswer <;> rfl

theorem Course.fate (course : moment.Course) : moment.Fate := by
  cases course with
  | rests same event => exact .stays (state_of same rfl) event
  | adjusted level answer delayedAnswer situation event => exact .stays (state_of situation rfl) event
  | @asked now service parameters expectsAnswer requests idle situation event =>
    cases expectsAnswer with
    | false => exact .stays (state_of situation (asked_state now service false)) event
    | true =>
      exact .starts idle (Or.inl ⟨now, parameters, requests⟩)
        (state_of situation (asked_state now service true)) event
  | announced _ busy situation event => exact .postponed busy (state_of situation rfl) event
  | rejected takes other busy situation event =>
    exact .rejected takes other busy (state_of situation rfl) event
  | granted takes busy situation event => exact .granted takes busy (state_of situation rfl) event
  | broken _ situation event => exact .failed (state_of situation rfl) event
  | unanswered _ _ situation event => exact .failed (state_of situation rfl) event
  | lapsed _ _ situation event => exact .stays (state_of situation rfl) event
  | @kept now keeps idle situation event =>
    have state := state_of situation (asked_state now Service.testerPresent.toByte
      (Request.testerPresent moment.before.client.settings.keepAlive).expectsAnswer)
    cases expects : (Request.testerPresent moment.before.client.settings.keepAlive).expectsAnswer with
    | false =>
      rw [expects] at state
      exact .stays state event
    | true =>
      rw [expects] at state
      exact .starts idle (Or.inr ⟨rfl, now, keeps⟩) state event
  | dropped _ situation event => exact .stays (state_of situation rfl) event

/-- The announcement that the answer takes longer restarts the longer time. -/
theorem Takes.announcement (timed : moment.before.client.Timed) {now : Tick} {service : UInt8}
    {trailing : List UInt8}
    (takes : moment.Takes now (.received (negativeResponse :: service :: 0x78 :: trailing)))
    (busy : moment.before.client.state.service? = some service) :
    moment.after.client.situation = moment.before.client.situation.postpone now service ∧
      moment.pushed = [] := by
  obtain ⟨step, oldest⟩ := takes
  obtain ⟨rest, mailbox⟩ := List.head?_eq_some_iff.mp oldest
  have reading := RequestState.reading_eq_announcement busy trailing
  constructor
  · let client : Client := { moment.before.client with mailbox := rest }
    have timed : client.Timed := ⟨timed.single, timed.capacity⟩
    have heard : moment.after.client =
        client.hear now (negativeResponse :: service :: 0x78 :: trailing) := by
      simp only [DeskMoment.after, step, DeskStep.run, mailbox]
      rfl
    rw [heard, Client.hear_eq]
    simp only [show client.state = moment.before.client.state from rfl, reading]
    exact (timed.postpone now service).2
  · rw [pushed_eq, step]
    simp only [DeskStep.event?, oldest, Option.bind_some, Delivery.event?, reading, Reading.event?,
      Option.toList_none]

theorem Takes.hears (informed : moment.before.Informed) {now : Tick} {message : List UInt8}
    (takes : moment.Takes now (.received message)) : moment.Hears now message := by
  obtain ⟨signal, known, own⟩ := informed.told _ (List.mem_of_mem_head? takes.oldest)
  obtain ⟨connection, rfl⟩ := Signal.delivery?_received own
  exact ⟨takes, connection, known⟩

theorem settles (timed : moment.before.client.Timed) (informed : moment.before.Informed)
    (room : moment.before.client.events.length ≤ moment.before.client.capacity) :
    moment.SettlesOnce := by
  obtain ⟨_, course⟩ := DeskMoment.course timed
  have fate := course.fate
  have pushed := moment.pushed_eq
  refine ⟨?_, ?_, ?_, ?_, ?_, ?_, ?_⟩
  · intro other
    rw [pushed]
    exact (moment.step.pushes moment.before room other).events
  · intro busy rests
    have working : moment.before.client.state ≠ .idle := of_decide_eq_true busy
    have idle : moment.after.client.state = .idle := by simpa [Client.isBusy] using rests
    cases fate with
    | stays state _ => exact absurd (state.symm.trans idle) working
    | starts free _ _ _ => exact absurd free working
    | postponed _ state _ => rw [state] at idle; cases idle
    | rejected _ _ _ _ event => exact ⟨_, by rw [pushed, event]; rfl⟩
    | granted _ _ _ event => exact ⟨_, by rw [pushed, event]; rfl⟩
    | failed _ event => exact ⟨_, by rw [pushed, event]; rfl⟩
  · intro service record member
    rw [pushed, Option.mem_toList] at member
    cases fate with
    | granted takes busy state event =>
      rw [event] at member
      cases member
      exact ⟨⟨busy, state⟩, _, takes.hears informed⟩
    | _ => simp_all
  · intro service code member
    rw [pushed, Option.mem_toList] at member
    cases fate with
    | rejected takes other busy state event =>
      rw [event] at member
      cases member
      exact ⟨⟨busy, state⟩, other, _, _, takes.hears informed⟩
    | _ => simp_all
  · intro fault member
    rw [pushed, Option.mem_toList] at member
    cases fate with
    | failed state _ => exact state
    | _ => simp_all
  · intro service running
    cases fate with
    | stays state _ => exact Or.inl (state ▸ running)
    | starts idle starts state _ =>
      rw [state] at running
      cases running
      exact Or.inr ⟨idle, starts⟩
    | postponed busy state _ =>
      rw [state] at running
      cases running
      exact Or.inl busy
    | _ => simp_all [RequestState.service?]
  · intro service now trailing busy hears
    obtain ⟨situation, nothing⟩ := hears.takes.announcement timed busy
    refine ⟨state_of situation rfl, nothing, ?_⟩
    have due := congrFun (congrArg Situation.due situation) .delayedAnswer
    refine due.trans ?_
    simp [Situation.postpone, Situation.start, Situation.stop, Client.situation]

end DeskMoment

/-- What holds of a desk at every step. -/
structure Desk.Orderly (desk : Desk ω) : Prop where
  timed : desk.client.Timed
  paced : desk.client.situation.Paced
  informed : desk.Informed
  room : desk.client.events.length ≤ desk.client.capacity

theorem DeskMoment.orderly {moment : DeskMoment ω} (orderly : moment.before.Orderly) :
    moment.after.Orderly := by
  obtain ⟨timed, paced, informed, room⟩ := orderly
  obtain ⟨timed', course⟩ := DeskMoment.course timed
  refine ⟨timed', course.paced timed paced, informed.step moment.step, ?_⟩
  by_cases next : moment.step = .deed .nextEvent
  · simp only [DeskMoment.after, next, DeskStep.run, Deed.run, Client.nextEvent]
    cases events : moment.before.client.events with
    | nil =>
      simp only [events]
      exact Nat.zero_le _
    | cons event rest =>
      rw [events, List.length_cons] at room
      exact (Nat.le_succ _).trans room
  · exact (moment.step.pushes moment.before room next).room

/-- A client has its settings and its connection for good. -/
theorem DeskMoment.keeps {moment : DeskMoment ω} (orderly : moment.before.Orderly) :
    moment.after.client.settings = moment.before.client.settings ∧
      moment.after.client.connection = moment.before.client.connection := by
  by_cases next : moment.step = .deed .nextEvent
  · simp only [DeskMoment.after, next, DeskStep.run, Deed.run, Client.nextEvent]
    cases moment.before.client.events <;> exact ⟨rfl, rfl⟩
  · have pushes := moment.step.pushes moment.before orderly.room next
    exact ⟨pushes.settings, pushes.connection⟩

/-- Making a client opens a connection of the stack, at which it listens. -/
theorem Desk.attach_eq {settings : ClientSettings} {listener : Listener} {stack : Stack ω}
    {desk : Desk ω} (sound : stack.Sound)
    (attached : Desk.attach settings listener stack = .ok desk) :
    ∃ connection, desk.client = {
        connection
        settings
        answer := settings.answer
        delayedAnswer := settings.delayedAnswer } ∧
      desk.stack = stack.calls
        [.openConnection, .listen connection (some listener) none (some listener)] := by
  unfold Desk.attach Client.attach Stack.openConnection at attached
  cases insertion : stack.connections.insert {} with
  | none => simp [insertion, Except.map] at attached
  | some inserted =>
    obtain ⟨handle, connections⟩ := inserted
    have here : connections.get? handle = some {} := by
      rw [Slots.get?_insert sound.slots insertion handle, if_pos rfl]
    have opening : (Call.openConnection : Call ω).run stack = { stack with connections } := by
      simp [Call.run, Stack.openConnection, insertion]
    simp only [insertion, Option.bind_eq_bind, Option.bind_some, Option.pure_def,
      Stack.updateConnection, here] at attached
    cases attached
    refine ⟨handle, rfl, ?_⟩
    simp only [Stack.calls, List.foldl_cons, List.foldl_nil, opening]
    simp only [Call.run, Stack.updateConnection, here]
    rfl

/-- No timer of a new client is pending. -/
theorem Desk.attach_timed {settings : ClientSettings} {listener : Listener} {stack : Stack ω}
    {desk : Desk ω} (sound : stack.Sound)
    (attached : Desk.attach settings listener stack = .ok desk) :
    desk.client.Timed ∧ ∀ timer, desk.client.due timer = none := by
  obtain ⟨connection, client, _⟩ := Desk.attach_eq sound attached
  have timers : (TimerQueue.ofCapacity 3 : TimerQueue ClientTimer).Single ∧
      ∀ timer : ClientTimer, (TimerQueue.ofCapacity 3).deadline? timer = none :=
    TimerQueue.ofCapacity_single (by decide)
  rw [client]
  refine ⟨⟨timers.1, ?_⟩, timers.2⟩
  simp [TimerQueue.ofCapacity, Slots.capacity, Slots.ofCapacity]

/-- A new client is at rest. -/
theorem Desk.attach_orderly {settings : ClientSettings} {listener : Listener} {stack : Stack ω}
    {desk : Desk ω} (sound : stack.Sound) (quiet : stack.confirmations = [])
    (attached : Desk.attach settings listener stack = .ok desk) : desk.Orderly := by
  obtain ⟨connection, client, moved⟩ := Desk.attach_eq sound attached
  have smooth := Stack.steps_smooth
    [.openConnection, .listen connection (some listener) none (some listener)] sound quiet
  rw [Stack.calls_eq] at moved
  obtain ⟨timed, unarmed⟩ := Desk.attach_timed sound attached
  refine ⟨timed, ?_, ⟨moved ▸ smooth.sound, moved ▸ smooth.quiet, ?_⟩, ?_⟩
  · have idle : desk.client.situation.state = .idle := by
      rw [client]
      rfl
    unfold Situation.Paced
    rw [idle]
    exact ⟨unarmed .answer, unarmed .delayedAnswer⟩
  · rw [client]
    exact fun delivery member => absurd member List.not_mem_nil
  · rw [client]
    exact Nat.zero_le _

/-- What holds of a desk at every step of a run. -/
theorem Desk.calls_orderly {settings : Settings} {world : ω} {fresh : Stack ω}
    {earlier : List (Call ω)} {options : ClientSettings} {listener : Listener} {desk : Desk ω}
    (made : Stack.new settings world = .ok fresh)
    (attached : Desk.attach options listener (fresh.calls earlier) = .ok desk)
    (calls : List (DeskCall ω)) :
    (desk.calls calls).Orderly ∧ ∀ moment ∈ desk.history calls, moment.before.Orderly := by
  obtain ⟨sound, quiet⟩ := Stack.calls_sound made earlier
  have start := Desk.attach_orderly sound quiet attached
  have run : (desk.calls calls).Orderly ∧ ∀ past moment rest,
      desk.history calls = past ++ moment :: rest → moment.before.Orderly :=
    Desk.reach start fun _ _ => DeskMoment.orderly
  refine ⟨run.1, fun moment member => ?_⟩
  obtain ⟨past, rest, whole⟩ := List.append_of_mem member
  exact run.2 past moment rest whole

/-- The client looks at a message that announces that the answer takes longer; what is behind the
code does not matter. -/
def Client.wait (service : UInt8) (client : Client) (announcement : Tick × List UInt8) : Client :=
  client.take announcement.1 (.received (0x7F :: service :: 0x78 :: announcement.2))

theorem Client.wait_eq {client : Client} {service : UInt8}
    (busy : client.state.service? = some service) (announcement : Tick × List UInt8) :
    client.wait service announcement =
      { (client.cancel .answer).arm announcement.1 client.delayedAnswer .delayedAnswer with
        state := .delayed service } := by
  have heard := client.hear_eq announcement.1 (0x7F :: service :: 0x78 :: announcement.2)
  have reading : client.state.reading (0x7F :: service :: 0x78 :: announcement.2) =
      .announcement service := RequestState.reading_eq_announcement busy announcement.2
  rw [reading] at heard
  exact heard

/-- A request is outstanding however often the server announces that its answer takes longer, and
the longer time counts from the last announcement. -/
theorem Client.wait_again {client : Client} {service : UInt8}
    (busy : client.state.service? = some service) (timed : client.Timed)
    (announcements : List (Tick × List UInt8)) (last : Tick × List UInt8) :
    ((announcements ++ [last]).foldl (wait service) client).state = .delayed service ∧
      ((announcements ++ [last]).foldl (wait service) client).due .answer = none ∧
      ((announcements ++ [last]).foldl (wait service) client).due .delayedAnswer =
        some (last.1.after client.delayedAnswer) ∧
      ((announcements ++ [last]).foldl (wait service) client).events = client.events := by
  have step {client : Client} (busy : client.state.service? = some service) (timed : client.Timed)
      (announcement : Tick × List UInt8) :
      (client.wait service announcement).Timed ∧
        (client.wait service announcement).situation =
          client.situation.postpone announcement.1 service ∧
        (client.wait service announcement).events = client.events := by
    rw [wait_eq busy]
    obtain ⟨timed', situation⟩ := timed.postpone announcement.1 service
    refine ⟨timed', situation, ?_⟩
    rw [arm_eq]
    rfl
  induction announcements generalizing client with
  | nil =>
    obtain ⟨_, situation, events⟩ := step busy timed last
    have due := congrArg Situation.due situation
    refine ⟨congrArg Situation.state situation, (congrFun due _).trans ?_,
      (congrFun due _).trans ?_, events⟩
    · simp [Situation.postpone, Situation.start, Situation.stop]
    · simp [Situation.postpone, Situation.start, Situation.stop, Client.situation]
  | cons announcement rest ih =>
    obtain ⟨timed', situation, events⟩ := step busy timed announcement
    have state : (client.wait service announcement).state = .delayed service :=
      congrArg Situation.state situation
    have delay : (client.wait service announcement).delayedAnswer = client.delayedAnswer :=
      congrArg Situation.delayedAnswer situation
    have later := ih (by rw [state]; rfl) timed'
    rw [delay, events] at later
    exact later

/-- The request state and the timers of a client are in step, whatever the program around does, and
every request that is sent ends once: with a message that answers it, with a failure of the
transport, or because no answer came in time. -/
theorem requests_end_once {settings : Settings} {world : ω} {fresh : Stack ω}
    {earlier : List (Call ω)} {options : ClientSettings} {listener : Listener} {desk : Desk ω}
    (made : Stack.new settings world = .ok fresh)
    (attached : Desk.attach options listener (fresh.calls earlier) = .ok desk)
    (calls : List (DeskCall ω)) :
    (desk.calls calls).client.InStep ∧
      (∀ moment ∈ desk.history calls, moment.before.client.InStep ∧ moment.SettlesOnce) ∧
      ∀ service, (desk.calls calls).client.state.service? = some service →
        ∀ announcements last,
          let waiting :=
            (announcements ++ [last]).foldl (Client.wait service) (desk.calls calls).client
          waiting.state = .delayed service ∧ waiting.due .answer = none ∧
            waiting.due .delayedAnswer =
              some (last.1.after (desk.calls calls).client.delayedAnswer) ∧
            waiting.events = (desk.calls calls).client.events := by
  obtain ⟨final, during⟩ := Desk.calls_orderly made attached calls
  refine ⟨final.timed.inStep final.paced, fun moment member => ?_, fun service busy => ?_⟩
  · have orderly := during moment member
    exact ⟨orderly.timed.inStep orderly.paced,
      DeskMoment.settles orderly.timed orderly.informed orderly.room⟩
  · exact fun announcements last => Client.wait_again busy final.timed announcements last

/-- A client on the sample stack, with an obliging interface. -/
def sampleDesk : Desk Unit where
  listener := .client 0
  client := { connection := sampleHandle, settings := {}, answer := 50, delayedAnswer := 500 }
  stack := sampleStack.calls [.addInterface .obliging, .openConnection,
    .listen sampleHandle (some (.client 0)) none (some (.client 0))]
  heard := 0

/-- A frame of the server with a whole message. -/
def sampleAnswer (message : List UInt8) : Frame :=
  .classic (.standard 0x7E8) 8 (paddedTo 8 0 (message.length.toUInt8 :: message))

/-- A session is requested; the server asks for more time, grants the request, and then says the same
once more. -/
def sampleInterview : List (DeskCall Unit) :=
  [.deed (.startSession 0 sampleAddress 3),
    .deed (.call (.input 10 ⟨0⟩ (sampleAnswer [0x7F, 0x10, 0x78]))), .process 11,
    .deed (.call (.input 20 ⟨0⟩ (sampleAnswer [0x50, 3, 0, 50, 1, 244]))),
    .deed (.call (.input 21 ⟨0⟩ (sampleAnswer [0x50, 3, 0, 50, 1, 244]))), .process 22]

/-- One event comes of the request. -/
theorem sample_requests_end_once :
    Stack.new {} () = .ok sampleStack ∧
      Desk.attach {} (.client 0) (sampleStack.calls [.addInterface .obliging]) = .ok sampleDesk ∧
      (sampleDesk.calls sampleInterview).client.events = [.positive 0x10 [3, 0, 50, 1, 244]] ∧
      (sampleDesk.calls sampleInterview).client.InStep ∧
      ∀ moment ∈ sampleDesk.history sampleInterview,
        moment.before.client.InStep ∧ moment.SettlesOnce := by
  have made : Stack.new {} () = .ok sampleStack := rfl
  have attached : Desk.attach {} (.client 0) (sampleStack.calls [.addInterface .obliging]) =
      .ok sampleDesk := rfl
  obtain ⟨final, during, _⟩ := requests_end_once made attached sampleInterview
  exact ⟨made, attached, by decide +kernel, final, during⟩

end DiagBus
