import DiagBus.Proofs.Situation

namespace DiagBus

variable {ω : Type}

/-- The request that is made, and whether the server is to answer it. -/
def Deed.asks? : Deed ω → Option (Tick × List UInt8 × Bool)
  | .request now made => some (now, made.bytes, made.expectsAnswer)
  | .requestBytes now message => some (now, message, true)
  | .startSession now _ session =>
    some (now, (Request.session session).bytes, (Request.session session).expectsAnswer)
  | _ => none

/-- What the client answers to the program around it. -/
def Deed.answer : Deed ω → Desk ω → Except Fault Unit
  | .request now made, desk => (desk.client.request now made desk.stack).1
  | .requestBytes now message, desk => (desk.client.requestBytes now message desk.stack).1
  | .startSession now address session, desk =>
    (desk.client.startSession now address session desk.stack).1
  | _, _ => .ok ()

/-- The event that a step brings about. -/
def DeskStep.event? : DeskStep ω → Desk ω → Option ClientEvent
  | .take _, desk => desk.client.mailbox.head?.bind (·.event? desk.client.state)
  | .expire now, desk => (desk.client.timers.popDue now).bind (·.1.event?)
  | _, _ => none

/-- The desk with an empty queue of events that has room for two. -/
def Desk.roomy (desk : Desk ω) : Desk ω :=
  { desk with client := { desk.client with
      events := [], settings := { desk.client.settings with events := 2 } } }

namespace DeskMoment

variable {moment : DeskMoment ω}

/-- The events that a step pushes, also those that a full queue loses: what it puts into an empty
one. -/
def pushed (moment : DeskMoment ω) : List ClientEvent :=
  (moment.step.run moment.before.roomy).client.events

/-- The step looks at this piece of news. -/
structure Takes (moment : DeskMoment ω) (now : Tick) (delivery : Delivery) : Prop where
  step : moment.step = .take now
  oldest : moment.before.client.mailbox.head? = some delivery

/-- A timer fires. -/
structure Fires (moment : DeskMoment ω) (now : Tick) (timer : ClientTimer) : Prop where
  step : moment.step = .expire now
  popped : ∃ timers, moment.before.client.timers.popDue now = some (timer, timers)

/-- The program around makes a request, and gets this answer. -/
structure Requests (moment : DeskMoment ω) (now : Tick) (message : List UInt8)
    (expectsAnswer : Bool) (answer : Except Fault Unit) : Prop where
  deed : ∃ deed : Deed ω, moment.step = .deed deed ∧
    deed.asks? = some (now, message, expectsAnswer) ∧ deed.answer moment.before = answer

/-- The client wants to keep its session alive: it makes a request by itself, which gets this
answer. -/
structure KeepsAlive (moment : DeskMoment ω) (now : Tick) (answer : Except Fault Unit) :
    Prop where
  fires : moment.Fires now .session
  keep : moment.before.client.settings.keepSession = true
  answer : (moment.before.client.request now
    (.testerPresent moment.before.client.settings.keepAlive) moment.before.stack).1 = answer

/-- What a step can do to a client. -/
inductive Course (moment : DeskMoment ω) : Prop
  | rests (same : moment.after.client.situation = moment.before.client.situation)
      (event : moment.step.event? moment.before = none) : Course moment
  /-- The program around sets the level or the times for an answer. -/
  | adjusted (level : UInt8) (answer delayedAnswer : Tick)
      (situation : moment.after.client.situation =
        { moment.before.client.situation with level, answer, delayedAnswer })
      (event : moment.step.event? moment.before = none) : Course moment
  /-- A request is sent. -/
  | asked {now : Tick} {service : UInt8} {parameters : List UInt8} {expectsAnswer : Bool}
      (requests : moment.Requests now (service :: parameters) expectsAnswer (.ok ()))
      (idle : moment.before.client.state = .idle)
      (situation : moment.after.client.situation =
        moment.before.client.situation.ask now service expectsAnswer)
      (event : moment.step.event? moment.before = none) : Course moment
  /-- The server announces that its answer takes longer. -/
  | announced {now : Tick} {service : UInt8} {trailing : List UInt8}
      (takes : moment.Takes now (.received (negativeResponse :: service :: 0x78 :: trailing)))
      (busy : moment.before.client.state.service? = some service)
      (situation : moment.after.client.situation =
        moment.before.client.situation.postpone now service)
      (event : moment.step.event? moment.before = none) : Course moment
  /-- The server rejects the request. -/
  | rejected {now : Tick} {service : UInt8} {code : ResponseCode} {trailing : List UInt8}
      (takes : moment.Takes now
        (.received (negativeResponse :: service :: code.toByte :: trailing)))
      (other : code.toByte ≠ 0x78) (busy : moment.before.client.state.service? = some service)
      (situation : moment.after.client.situation = moment.before.client.situation.finish)
      (event : moment.step.event? moment.before = some (.negative service code)) : Course moment
  /-- The server grants the request. -/
  | granted {now : Tick} {service : UInt8} {record : List UInt8}
      (takes : moment.Takes now (.received ((service + positiveOffset) :: record)))
      (busy : moment.before.client.state.service? = some service)
      (situation : moment.after.client.situation =
        (if service = Service.sessionControl.toByte then
          moment.before.client.situation.enter now record
        else moment.before.client.situation).finish)
      (event : moment.step.event? moment.before = some (.positive service record)) : Course moment
  /-- The transport failed. -/
  | broken {now : Tick} {fault : Fault} (takes : moment.Takes now (.failed fault))
      (situation : moment.after.client.situation = moment.before.client.situation.finish)
      (event : moment.step.event? moment.before = some (.failed fault)) : Course moment
  /-- No answer came in time. -/
  | unanswered {now : Tick} {timer : ClientTimer} (fires : moment.Fires now timer)
      (kind : timer ≠ .session)
      (situation : moment.after.client.situation =
        { moment.before.client.situation.stop timer with state := .idle })
      (event : moment.step.event? moment.before = some (.failed .receiveTimeout)) : Course moment
  /-- The session is over. -/
  | lapsed {now : Tick} (fires : moment.Fires now .session)
      (keep : moment.before.client.settings.keepSession = false)
      (situation : moment.after.client.situation =
        (moment.before.client.situation.stop .session).lapse)
      (event : moment.step.event? moment.before = none) : Course moment
  /-- The session is kept alive. -/
  | kept {now : Tick} (keeps : moment.KeepsAlive now (.ok ()))
      (idle : moment.before.client.state = .idle)
      (situation : moment.after.client.situation =
        (moment.before.client.situation.stop .session).ask now Service.testerPresent.toByte
          (Request.testerPresent moment.before.client.settings.keepAlive).expectsAnswer)
      (event : moment.step.event? moment.before = none) : Course moment
  /-- The session should be kept alive, but the request for that is refused. -/
  | dropped {now : Tick} {fault : Fault} (keeps : moment.KeepsAlive now (.error fault))
      (situation : moment.after.client.situation = moment.before.client.situation.stop .session)
      (event : moment.step.event? moment.before = none) : Course moment

end DeskMoment

namespace Desk

/-- News waits in the mailbox, and changes nothing else. -/
theorem deliver_same (desk : Desk ω) :
    desk.deliver.client.timers = desk.client.timers ∧
      desk.deliver.client.situation = desk.client.situation ∧
      desk.deliver.client.settings = desk.client.settings ∧
      desk.deliver.client.connection = desk.client.connection ∧
      desk.deliver.client.events = desk.client.events := by
  unfold deliver
  simp only []
  generalize desk.client = client
  induction desk.news generalizing client with
  | nil => exact ⟨rfl, rfl, rfl, rfl, rfl⟩
  | cons delivery rest ih =>
    have first : (client.deliver delivery).timers = client.timers ∧
        (client.deliver delivery).situation = client.situation ∧
        (client.deliver delivery).settings = client.settings ∧
        (client.deliver delivery).connection = client.connection ∧
        (client.deliver delivery).events = client.events := by
      unfold Client.deliver
      split <;> exact ⟨rfl, rfl, rfl, rfl, rfl⟩
    obtain ⟨timers, situation, settings, connection, events⟩ := ih (client.deliver delivery)
    exact ⟨timers.trans first.1, situation.trans first.2.1, settings.trans first.2.2.1,
      connection.trans first.2.2.2.1, events.trans first.2.2.2.2⟩

end Desk

namespace Client

variable {client : Client}

/-- A request either changes nothing about the client, or the stack took it. -/
theorem send_cases (client : Client) (now : Tick) (message : List UInt8) (expectsAnswer : Bool)
    (stack : Stack ω) :
    (∃ fault, (client.send now message expectsAnswer stack).1 = .error fault ∧
      (client.send now message expectsAnswer stack).2.1 = client) ∨
    (client.send now message expectsAnswer stack).1 = .ok () ∧
      (client.send now message expectsAnswer stack).2.1 =
        client.asked now message expectsAnswer := by
  rw [send_eq]
  rcases stack.send now client.connection message with ⟨fault | _, after⟩
  · exact Or.inl ⟨fault, rfl, rfl⟩
  · exact Or.inr ⟨rfl, rfl⟩

theorem request_cases (client : Client) (now : Tick) (request : Request) (stack : Stack ω) :
    (∃ fault, (client.request now request stack).1 = .error fault ∧
      (client.request now request stack).2.1 = client) ∨
    client.state = .idle ∧ (client.request now request stack).1 = .ok () ∧
      (client.request now request stack).2.1 =
        client.asked now request.bytes request.expectsAnswer := by
  rw [request_eq]
  by_cases idle : client.state = .idle
  · rw [if_pos idle]
    exact (client.send_cases now request.bytes request.expectsAnswer stack).imp_right
      fun sent => ⟨idle, sent⟩
  · rw [if_neg idle]
    exact Or.inl ⟨_, rfl, rfl⟩

end Client

/-- A deed that makes a request either is refused and changes nothing about the client, or the stack
took it. -/
theorem Deed.asks_cases {deed : Deed ω} {desk : Desk ω} {now : Tick} {message : List UInt8}
    {expectsAnswer : Bool} (asks : deed.asks? = some (now, message, expectsAnswer)) :
    (∃ fault, deed.answer desk = .error fault ∧ (deed.run desk).client = desk.client) ∨
      desk.client.state = .idle ∧ deed.answer desk = .ok () ∧ message ≠ [] ∧
        (deed.run desk).client = desk.client.asked now message expectsAnswer := by
  cases deed with
  | request _ made =>
    cases asks
    rcases desk.client.request_cases now made desk.stack with refused | ⟨idle, ok, sent⟩
    · exact Or.inl refused
    · exact Or.inr ⟨idle, ok, List.cons_ne_nil _ _, sent⟩
  | requestBytes _ bytes =>
    cases asks
    simp only [Deed.run, Deed.answer, Desk.adopt, Client.requestBytes, Client.isBusy]
    by_cases empty : message = []
    · simp [empty]
    · by_cases idle : desk.client.state = .idle
      · simp only [empty, List.isEmpty_iff, if_false, idle, ne_eq, not_true_eq_false,
          decide_false, Bool.false_eq_true]
        rcases desk.client.send_cases now message true desk.stack with refused | ⟨ok, sent⟩
        · exact Or.inl refused
        · exact Or.inr ⟨trivial, ok, not_false, sent⟩
      · simp [empty, idle]
  | startSession _ address session =>
    cases asks
    simp only [Deed.run, Deed.answer, Desk.adopt, Client.startSession, Client.isBusy]
    by_cases idle : desk.client.state = .idle
    · simp only [idle, ne_eq, not_true_eq_false, decide_false, Bool.false_eq_true, if_false]
      cases desk.stack.bind desk.client.connection address with
      | error fault => exact Or.inl ⟨fault, rfl, rfl⟩
      | ok bound =>
        simp only []
        rcases desk.client.request_cases now (.session session) bound with
          refused | ⟨_, ok, sent⟩
        · exact Or.inl refused
        · exact Or.inr ⟨trivial, ok, List.cons_ne_nil _ _, sent⟩
    · simp [idle]
  | _ => cases asks

/-- A deed that makes no request leaves the client's timers and its request alone. -/
theorem Deed.plain_cases {deed : Deed ω} (desk : Desk ω) (plain : deed.asks? = none) :
    (deed.run desk).client.timers = desk.client.timers ∧
      ∃ level answer delayedAnswer, (deed.run desk).client.situation =
        { desk.client.situation with level, answer, delayedAnswer } := by
  cases deed with
  | request _ made => cases plain
  | requestBytes _ bytes => cases plain
  | startSession _ address session => cases plain
  | call made => exact ⟨rfl, _, _, _, rfl⟩
  | nextEvent =>
    simp only [Deed.run, Client.nextEvent]
    cases desk.client.events <;> exact ⟨rfl, _, _, _, rfl⟩
  | setLevel level => exact ⟨rfl, _, _, _, rfl⟩
  | setAnswer delay => exact ⟨rfl, _, _, _, rfl⟩
  | setDelayedAnswer delay => exact ⟨rfl, _, _, _, rfl⟩

/-- The firing of the session's timer. -/
theorem Client.expire_session (client : Client) (now : Tick) (stack : Stack ω) :
    client.expire now .session stack =
      if client.settings.keepSession then
        (client.request now (.testerPresent client.settings.keepAlive) stack).2
      else ({ client with session := defaultSession, level := 0 }, stack) := rfl

/-- The firing of a timer that watches for an answer. -/
theorem Client.expire_answer (client : Client) (now : Tick) {timer : ClientTimer}
    (kind : timer ≠ .session) (stack : Stack ω) :
    client.expire now timer stack =
      ({ client with state := .idle }.push (.failed .receiveTimeout), stack) := by
  cases timer with
  | session => exact absurd rfl kind
  | _ => rfl

theorem ClientTimer.event?_of_ne {timer : ClientTimer} (kind : timer ≠ .session) :
    timer.event? = some (.failed .receiveTimeout) := by
  cases timer with
  | session => exact absurd rfl kind
  | _ => rfl

/-- The client without the timer that fires. -/
theorem Client.Timed.popped {client : Client} (timed : client.Timed) {now : Tick}
    {timer : ClientTimer} {timers : TimerQueue ClientTimer}
    (due : client.timers.popDue now = some (timer, timers)) :
    Timed { client with timers } ∧
      situation { client with timers } = client.situation.stop timer := by
  obtain ⟨single, capacity, _, deadline⟩ := timed.single.popDue due
  refine ⟨⟨single, capacity.trans timed.capacity⟩, ?_⟩
  have due : Client.due { client with timers } = Function.update client.due timer none := by
    refine funext fun other => (deadline other).trans ?_
    rw [Function.update_apply]
    rfl
  unfold situation Situation.stop
  rw [due]

namespace DeskMoment

variable {moment : DeskMoment ω}

theorem deed_course {deed : Deed ω} (timed : moment.before.client.Timed)
    (step : moment.step = .deed deed) : moment.after.client.Timed ∧ moment.Course := by
  obtain ⟨desk, _⟩ := moment
  cases step
  have after : DeskMoment.after ⟨desk, .deed deed⟩ = deed.run desk := rfl
  cases asks : deed.asks? with
  | none =>
    obtain ⟨timers, level, answer, delayedAnswer, situation⟩ := deed.plain_cases desk asks
    rw [after]
    exact ⟨⟨timers ▸ timed.single, timers ▸ timed.capacity⟩,
      .adjusted level answer delayedAnswer situation rfl⟩
  | some asked =>
    obtain ⟨now, message, expectsAnswer⟩ := asked
    rcases Deed.asks_cases asks with ⟨_, _, same⟩ | ⟨idle, ok, some, sent⟩
    · rw [after, same]
      exact ⟨timed, .rests (congrArg Client.situation same) rfl⟩
    · obtain ⟨service, parameters, rfl⟩ := List.exists_cons_of_ne_nil some
      obtain ⟨timed', situation⟩ := timed.ask now service parameters expectsAnswer
      rw [after, sent]
      exact ⟨timed', .asked ⟨deed, rfl, asks, ok⟩ idle
        ((congrArg Client.situation sent).trans situation) rfl⟩

theorem hear_course {now : Tick} {message : List UInt8} {rest : List Delivery}
    (timed : moment.before.client.Timed) (step : moment.step = .take now)
    (mailbox : moment.before.client.mailbox = .received message :: rest) :
    moment.after.client.Timed ∧ moment.Course := by
  obtain ⟨desk, _⟩ := moment
  cases step
  have mailbox : desk.client.mailbox = .received message :: rest := mailbox
  let client : Client := { desk.client with mailbox := rest }
  have timed : client.Timed := ⟨timed.single, timed.capacity⟩
  have taken : (DeskMoment.after ⟨desk, .take now⟩).client = client.hear now message := by
    simp only [DeskMoment.after, DeskStep.run, mailbox]
    rfl
  have takes : DeskMoment.Takes ⟨desk, .take now⟩ now (.received message) :=
    ⟨rfl, congrArg List.head? mailbox⟩
  have event : DeskStep.event? (.take now) desk = (desk.client.state.reading message).event? := by
    simp only [DeskStep.event?, mailbox, List.head?_cons, Option.bind_some, Delivery.event?]
  have heard := client.hear_eq now message
  have meaning := desk.client.state.reading_cases message
  rw [show client.state = desk.client.state from rfl] at heard
  cases reading : desk.client.state.reading message with
  | unrelated =>
    simp only [reading] at heard event
    rw [heard] at taken
    refine ⟨taken ▸ timed, .rests ?_ event⟩
    exact (congrArg Client.situation taken).trans rfl
  | announcement service =>
    simp only [reading] at heard event meaning
    obtain ⟨busy, trailing, rfl⟩ := meaning
    obtain ⟨timed', situation⟩ := timed.postpone now service
    rw [heard] at taken
    exact ⟨taken ▸ timed',
      .announced takes busy ((congrArg Client.situation taken).trans situation) event⟩
  | rejection service code =>
    simp only [reading] at heard event meaning
    obtain ⟨busy, other, trailing, rfl⟩ := meaning
    obtain ⟨timed', situation⟩ := timed.finish
    obtain ⟨pushed, same⟩ := client.finish.push_situation (.negative service code)
    rw [heard] at taken
    refine ⟨taken ▸ same.mpr timed', .rejected takes other busy ?_ event⟩
    exact (congrArg Client.situation taken).trans (pushed.trans situation)
  | grant service record =>
    simp only [reading] at heard event meaning
    obtain ⟨busy, rfl⟩ := meaning
    obtain ⟨timed', situation⟩ := timed.grant now service record
    rw [heard] at taken
    exact ⟨taken ▸ timed',
      .granted takes busy ((congrArg Client.situation taken).trans situation) event⟩

theorem break_course {now : Tick} {fault : Fault} {rest : List Delivery}
    (timed : moment.before.client.Timed) (step : moment.step = .take now)
    (mailbox : moment.before.client.mailbox = .failed fault :: rest) :
    moment.after.client.Timed ∧ moment.Course := by
  obtain ⟨desk, _⟩ := moment
  cases step
  have mailbox : desk.client.mailbox = .failed fault :: rest := mailbox
  let client : Client := { desk.client with mailbox := rest }
  have timed : client.Timed := ⟨timed.single, timed.capacity⟩
  have taken : (DeskMoment.after ⟨desk, .take now⟩).client =
      client.finish.push (.failed fault) := by
    simp only [DeskMoment.after, DeskStep.run, mailbox]
    rfl
  obtain ⟨timed', situation⟩ := timed.finish
  obtain ⟨pushed, same⟩ := client.finish.push_situation (.failed fault)
  refine ⟨taken ▸ same.mpr timed', .broken ⟨rfl, congrArg List.head? mailbox⟩ ?_ ?_⟩
  · exact (congrArg Client.situation taken).trans (pushed.trans situation)
  · simp only [DeskStep.event?, mailbox, List.head?_cons, Option.bind_some, Delivery.event?]

/-- The time of a session ends: the client falls back to the default session, or asks the server to
keep the session, or is refused that. -/
theorem Fires.session_cases (timed : moment.before.client.Timed) {now : Tick}
    (fires : moment.Fires now .session) :
    moment.after.client.Timed ∧
      (moment.before.client.settings.keepSession = false ∧
        moment.after.client.situation = (moment.before.client.situation.stop .session).lapse ∨
      moment.KeepsAlive now (.ok ()) ∧ moment.before.client.state = .idle ∧
        moment.after.client.situation =
          (moment.before.client.situation.stop .session).ask now Service.testerPresent.toByte
            (Request.testerPresent moment.before.client.settings.keepAlive).expectsAnswer ∨
      ∃ fault, moment.KeepsAlive now (.error fault) ∧
        moment.after.client.situation = moment.before.client.situation.stop .session) := by
  obtain ⟨desk, step⟩ := moment
  have fires' := fires
  obtain ⟨rfl, timers, due⟩ := fires
  have due : desk.client.timers.popDue now = some (.session, timers) := due
  obtain ⟨timed', stopped⟩ := timed.popped due
  let client : Client := { desk.client with timers }
  have fired : (DeskMoment.after ⟨desk, .expire now⟩).client =
      (client.expire now .session desk.stack).1 := by
    simp only [DeskMoment.after, DeskStep.run, due]
    rfl
  rw [Client.expire_session] at fired
  cases keep : desk.client.settings.keepSession with
  | false =>
    rw [show client.settings = desk.client.settings from rfl, keep] at fired
    simp only [Bool.false_eq_true, if_false] at fired
    refine ⟨fired ▸ ⟨timed'.single, timed'.capacity⟩, Or.inl ⟨rfl, ?_⟩⟩
    rw [fired, ← stopped]
    rfl
  | true =>
    rw [show client.settings = desk.client.settings from rfl, keep] at fired
    simp only [if_true] at fired
    -- The timers make no difference to the answer that the request gets.
    have same : (desk.client.request now
        (.testerPresent desk.client.settings.keepAlive) desk.stack).1 =
        (client.request now (.testerPresent desk.client.settings.keepAlive) desk.stack).1 := by
      simp only [Client.request_eq, Client.send_eq]
      rw [show client.state = desk.client.state from rfl,
        show client.connection = desk.client.connection from rfl]
      split
      · rcases desk.stack.send now desk.client.connection _ with ⟨fault | _, stack⟩ <;> rfl
      · rfl
    rcases client.request_cases now (.testerPresent desk.client.settings.keepAlive)
      desk.stack with ⟨fault, failed, kept⟩ | ⟨idle, ok, kept⟩
    · rw [fired, kept]
      exact ⟨timed', Or.inr (Or.inr ⟨fault, ⟨fires', keep, same.trans failed⟩, stopped⟩)⟩
    · obtain ⟨timed'', situation⟩ := timed'.ask now Service.testerPresent.toByte _ _
      rw [fired, kept]
      refine ⟨timed'', Or.inr (Or.inl ⟨⟨fires', keep, same.trans ok⟩, idle, ?_⟩)⟩
      rw [← stopped]
      exact situation

theorem expire_course {now : Tick} {timer : ClientTimer} (timed : moment.before.client.Timed)
    (fires : moment.Fires now timer) : moment.after.client.Timed ∧ moment.Course := by
  have event : moment.step.event? moment.before = timer.event? := by
    obtain ⟨step, timers, due⟩ := fires
    simp only [step, DeskStep.event?, due, Option.bind_some]
  by_cases kind : timer = .session
  · subst kind
    obtain ⟨timed', ⟨keep, situation⟩ | ⟨keeps, idle, situation⟩ | ⟨fault, keeps, situation⟩⟩ :=
      fires.session_cases timed
    · exact ⟨timed', .lapsed fires keep situation event⟩
    · exact ⟨timed', .kept keeps idle situation event⟩
    · exact ⟨timed', .dropped keeps situation event⟩
  · obtain ⟨desk, step⟩ := moment
    have fires' := fires
    obtain ⟨rfl, timers, due⟩ := fires
    have due : desk.client.timers.popDue now = some (timer, timers) := due
    obtain ⟨timed', stopped⟩ := timed.popped due
    let client : Client := { desk.client with timers }
    have fired : (DeskMoment.after ⟨desk, .expire now⟩).client =
        (client.expire now timer desk.stack).1 := by
      simp only [DeskMoment.after, DeskStep.run, due]
      rfl
    rw [Client.expire_answer _ _ kind] at fired
    obtain ⟨put, state⟩ := timed'.put .idle
    obtain ⟨pushed, same⟩ :=
      Client.push_situation { client with state := .idle } (.failed .receiveTimeout)
    refine ⟨fired ▸ same.mpr put, .unanswered fires' kind ?_ ?_⟩
    · rw [fired, ← stopped]
      exact pushed.trans state
    · exact event.trans (ClientTimer.event?_of_ne kind)

/-- Every step takes one of these courses. -/
theorem course (timed : moment.before.client.Timed) :
    moment.after.client.Timed ∧ moment.Course := by
  cases step : moment.step with
  | deed deed => exact deed_course timed step
  | deliver =>
    have delivered : moment.after = moment.before.deliver := by
      rw [DeskMoment.after, step]
      rfl
    obtain ⟨timers, situation, _⟩ := moment.before.deliver_same
    rw [delivered]
    refine ⟨⟨timers ▸ timed.single, timers ▸ timed.capacity⟩, .rests ?_ ?_⟩
    · rw [delivered, situation]
    · rw [step]
      rfl
  | take now =>
    cases mailbox : moment.before.client.mailbox with
    | nil =>
      have same : moment.after = moment.before := by
        simp only [DeskMoment.after, step, DeskStep.run, mailbox]
      refine ⟨same ▸ timed, .rests (by rw [same]) ?_⟩
      simp only [step, DeskStep.event?, mailbox, List.head?_nil, Option.bind_none]
    | cons delivery rest =>
      cases delivery with
      | received message => exact hear_course timed step mailbox
      | failed fault => exact break_course timed step mailbox
  | expire now =>
    cases due : moment.before.client.timers.popDue now with
    | none =>
      have same : moment.after = moment.before := by
        simp only [DeskMoment.after, step, DeskStep.run, due]
      refine ⟨same ▸ timed, .rests (by rw [same]) ?_⟩
      simp only [step, DeskStep.event?, due, Option.bind_none]
    | some popped => exact expire_course timed ⟨step, popped.2, due⟩

end DeskMoment

/-- A step other than the taking of an event puts the event it brings about into the queue, as
long as there is room. -/
theorem DeskStep.pushes (step : DeskStep ω) (desk : Desk ω)
    (room : desk.client.events.length ≤ desk.client.capacity)
    (other : step ≠ .deed .nextEvent) :
    desk.client.Pushes (step.run desk).client (step.event? desk).toList := by
  have rests : desk.client.Pushes desk.client [] := Client.pushes_nil room rfl rfl rfl
  cases step with
  | deed deed =>
    cases asks : deed.asks? with
    | none =>
      cases deed with
      | request _ made => cases asks
      | requestBytes _ bytes => cases asks
      | startSession _ address session => cases asks
      | nextEvent => exact absurd rfl other
      | _ => exact Client.pushes_nil room rfl rfl rfl
    | some asked =>
      obtain ⟨now, message, expectsAnswer⟩ := asked
      show desk.client.Pushes (deed.run desk).client []
      rcases Deed.asks_cases asks with ⟨_, _, same⟩ | ⟨_, _, _, sent⟩
      · rw [same]
        exact rests
      · rw [sent]
        exact Client.asked_pushes room now message expectsAnswer
  | deliver =>
    obtain ⟨_, _, settings, connection, events⟩ := desk.deliver_same
    exact Client.pushes_nil room settings connection events
  | take now =>
    simp only [DeskStep.run, DeskStep.event?]
    cases mailbox : desk.client.mailbox with
    | nil => exact rests
    | cons delivery rest =>
      let client : Client := { desk.client with mailbox := rest }
      have fits : client.events.length ≤ client.capacity := room
      have taken := Client.take_pushes fits now delivery
      exact ⟨taken.settings, taken.connection, taken.events⟩
  | expire now =>
    simp only [DeskStep.run, DeskStep.event?]
    cases due : desk.client.timers.popDue now with
    | none => exact rests
    | some popped =>
      obtain ⟨timer, timers⟩ := popped
      let client : Client := { desk.client with timers }
      have fits : client.events.length ≤ client.capacity := room
      simp only [Option.bind_some, Desk.adopt]
      by_cases kind : timer = .session
      · subst kind
        rw [Client.expire_session]
        split
        · let keepAlive := Request.testerPresent desk.client.settings.keepAlive
          rcases client.request_cases now keepAlive desk.stack with ⟨_, _, same⟩ | ⟨_, _, sent⟩
          · rw [same]
            exact Client.pushes_nil room rfl rfl rfl
          · rw [sent]
            have asked := Client.asked_pushes fits now keepAlive.bytes keepAlive.expectsAnswer
            exact ⟨asked.settings, asked.connection, asked.events⟩
        · exact Client.pushes_nil room rfl rfl rfl
      · rw [Client.expire_answer _ _ kind, ClientTimer.event?_of_ne kind]
        refine Client.Pushes.push ?_ room _
        exact Client.pushes_nil room rfl rfl rfl

namespace DeskMoment

variable {moment : DeskMoment ω}

theorem event?_roomy (step : DeskStep ω) (desk : Desk ω) :
    step.event? desk.roomy = step.event? desk := by
  cases step <;> rfl

/-- What a step pushes is the event it brings about. -/
theorem pushed_eq (moment : DeskMoment ω) :
    moment.pushed = (moment.step.event? moment.before).toList := by
  by_cases next : moment.step = .deed .nextEvent
  · simp only [pushed, next]
    rfl
  · have pushes := moment.step.pushes moment.before.roomy (Nat.zero_le _) next
    rw [event?_roomy] at pushes
    refine pushes.events.trans ?_
    rw [List.take_of_length_le]
    · rfl
    · cases moment.step.event? moment.before with
      | none => exact Nat.zero_le _
      | some event => exact Nat.le_succ 1

end DeskMoment

end DiagBus
