import DiagBus.Proofs.Desk

namespace DiagBus

variable {ω : Type}

/-- The times for an answer that a session control response states behind the session, if it does;
the second one is stated in units of ten milliseconds. -/
def statedTiming (timing : List UInt8) (answer delayedAnswer : Tick) : Tick × Tick :=
  match timing with
  | high :: low :: delayedHigh :: delayedLow :: _ =>
    ((ofBigEndian [high, low]).toUInt32, (ofBigEndian [delayedHigh, delayedLow] * 10).toUInt32)
  | _ => (answer, delayedAnswer)

/-- Where a client stands with its request and its session, the timers by their deadlines. -/
structure Situation where
  settings : ClientSettings
  state : RequestState
  due : ClientTimer → Option Tick
  session : UInt8
  level : UInt8
  answer : Tick
  delayedAnswer : Tick

namespace Situation

def start (situation : Situation) (now delay : Tick) (timer : ClientTimer) : Situation :=
  { situation with due := Function.update situation.due timer (some (now.after delay)) }

def stop (situation : Situation) (timer : ClientTimer) : Situation :=
  { situation with due := Function.update situation.due timer none }

@[simp]
theorem due_start (situation : Situation) (now delay : Tick) (timer other : ClientTimer) :
    (situation.start now delay timer).due other =
      if other = timer then some (now.after delay) else situation.due other :=
  Function.update_apply _ _ _ _

@[simp]
theorem due_stop (situation : Situation) (timer other : ClientTimer) :
    (situation.stop timer).due other = if other = timer then none else situation.due other :=
  Function.update_apply _ _ _ _

/-- No request is outstanding any more. -/
def finish (situation : Situation) : Situation :=
  { (situation.stop .answer).stop .delayedAnswer with state := .idle }

/-- The session in use is prolonged; the default one has no end. -/
def prolong (situation : Situation) (now : Tick) : Situation :=
  if situation.session = defaultSession then situation
  else situation.start now situation.settings.session .session

/-- A request was sent. -/
def ask (situation : Situation) (now : Tick) (service : UInt8) (expectsAnswer : Bool) : Situation :=
  (if expectsAnswer then
    { situation with state := .waiting service }.start now situation.answer .answer
  else situation).prolong now

/-- The server announced that its answer takes longer. -/
def postpone (situation : Situation) (now : Tick) (service : UInt8) : Situation :=
  { (situation.stop .answer).start now situation.delayedAnswer .delayedAnswer with
    state := .delayed service }

/-- The server stated the session, and possibly the timing. -/
def enter (situation : Situation) (now : Tick) (record : List UInt8) : Situation :=
  match record with
  | [] => situation
  | session :: timing =>
    let (answer, delayedAnswer) := statedTiming timing situation.answer situation.delayedAnswer
    let situation := { situation with session, answer, delayedAnswer }
    if session = defaultSession then situation.stop .session
    else situation.start now situation.settings.session .session

/-- The session fell back to the default one. -/
def lapse (situation : Situation) : Situation :=
  { situation with session := defaultSession, level := 0 }

end Situation

/-- What a message says to a client in this state. -/
inductive Reading
  | unrelated
  | announcement (service : UInt8)
  | rejection (service : UInt8) (code : ResponseCode)
  | grant (service : UInt8) (record : List UInt8)

def RequestState.reading (state : RequestState) (message : List UInt8) : Reading :=
  match state.service? with
  | none => .unrelated
  | some service =>
    match Client.rejection? service message with
    | some code =>
      if ResponseCode.ofByte code = .responsePending then .announcement service
      else .rejection service (ResponseCode.ofByte code)
    | none =>
      match Client.grant? service message with
      | some record => .grant service record
      | none => .unrelated

/-- The event that a message brings about. -/
def Reading.event? : Reading → Option ClientEvent
  | .unrelated => none
  | .announcement _ => none
  | .rejection service code => some (.negative service code)
  | .grant service record => some (.positive service record)

/-- The event that a piece of news brings about. -/
def Delivery.event? (state : RequestState) : Delivery → Option ClientEvent
  | .received message => (state.reading message).event?
  | .failed fault => some (.failed fault)

/-- The event that the firing of a timer brings about. -/
def ClientTimer.event? : ClientTimer → Option ClientEvent
  | .session => none
  | _ => some (.failed .receiveTimeout)

namespace RequestState

variable {state : RequestState} {service : UInt8} {message : List UInt8}

theorem rejection?_eq_some {service code : UInt8} {message : List UInt8} :
    Client.rejection? service message = some code ↔
      ∃ trailing, message = negativeResponse :: service :: code :: trailing := by
  unfold Client.rejection?
  constructor
  · intro run
    split at run
    · rename_i first rejected found trailing
      split at run
      · rename_i same
        cases run
        exact ⟨trailing, by rw [same.1, same.2]⟩
      · cases run
    · cases run
  · rintro ⟨trailing, rfl⟩
    exact if_pos ⟨rfl, rfl⟩

theorem grant?_eq_some {service : UInt8} {message record : List UInt8} :
    Client.grant? service message = some record ↔
      message = (service + positiveOffset) :: record := by
  unfold Client.grant?
  constructor
  · intro run
    split at run
    · rename_i first found
      split at run
      · rename_i same
        cases run
        rw [same]
      · cases run
    · cases run
  · rintro rfl
    exact if_pos rfl

theorem ofByte_eq_responsePending {byte : UInt8} :
    ResponseCode.ofByte byte = .responsePending ↔ byte = 0x78 := by
  constructor
  · intro pending
    have same := ResponseCode.toByte_ofByte byte
    rw [pending] at same
    exact same.symm
  · rintro rfl
    rfl

/-- An announcement is of the outstanding request, with the code for that. -/
theorem reading_eq_announcement (busy : state.service? = some service) (trailing : List UInt8) :
    state.reading (negativeResponse :: service :: 0x78 :: trailing) = .announcement service := by
  unfold reading
  rw [busy]
  simp only [rejection?_eq_some.mpr ⟨trailing, rfl⟩]
  rfl

/-- What each reading says of the message and of the request. -/
theorem reading_cases (state : RequestState) (message : List UInt8) :
    match state.reading message with
    | .unrelated => True
    | .announcement service => state.service? = some service ∧
        ∃ trailing, message = negativeResponse :: service :: 0x78 :: trailing
    | .rejection service code => state.service? = some service ∧ code.toByte ≠ 0x78 ∧
        ∃ trailing, message = negativeResponse :: service :: code.toByte :: trailing
    | .grant service record => state.service? = some service ∧
        message = (service + positiveOffset) :: record := by
  unfold reading
  cases outstanding : state.service? with
  | none => trivial
  | some service =>
    simp only []
    cases rejects : Client.rejection? service message with
    | some code =>
      obtain ⟨trailing, rfl⟩ := rejection?_eq_some.mp rejects
      by_cases pending : ResponseCode.ofByte code = .responsePending
      · simp only [pending, if_true]
        exact ⟨trivial, trailing, by rw [ofByte_eq_responsePending.mp pending]⟩
      · simp only [pending, if_false, ResponseCode.toByte_ofByte]
        exact ⟨trivial, fun same => pending (ofByte_eq_responsePending.mpr same), trailing, rfl⟩
    | none =>
      simp only []
      cases grants : Client.grant? service message with
      | none => trivial
      | some record => exact ⟨rfl, grant?_eq_some.mp grants⟩

end RequestState

namespace Client

variable {client : Client}

def situation (client : Client) : Situation where
  settings := client.settings
  state := client.state
  due := client.due
  session := client.session
  level := client.level
  answer := client.answer
  delayedAnswer := client.delayedAnswer

theorem hear_eq (client : Client) (now : Tick) (message : List UInt8) :
    client.hear now message =
      match client.state.reading message with
      | .unrelated => client
      | .announcement service =>
        { (client.cancel .answer).arm now client.delayedAnswer .delayedAnswer with
          state := .delayed service }
      | .rejection service code => client.finish.push (.negative service code)
      | .grant service record => client.granted now service record := by
  unfold hear RequestState.reading
  cases client.state.service? with
  | none => rfl
  | some service =>
    simp only []
    cases rejection? service message with
    | some code =>
      simp only [rejected]
      cases ResponseCode.ofByte code <;> simp
    | none =>
      simp only []
      cases grant? service message <;> rfl

theorem push_situation (client : Client) (event : ClientEvent) :
    (client.push event).situation = client.situation ∧
      ((client.push event).Timed ↔ client.Timed) := by
  unfold push
  split
  · exact ⟨rfl, ⟨fun timed => ⟨timed.single, timed.capacity⟩,
      fun timed => ⟨timed.single, timed.capacity⟩⟩⟩
  · exact ⟨rfl, Iff.rfl⟩

theorem Timed.start (timed : client.Timed) (now delay : Tick) (timer : ClientTimer) :
    (client.arm now delay timer).Timed ∧
      (client.arm now delay timer).situation = client.situation.start now delay timer := by
  obtain ⟨timed', due⟩ := timed.arm now delay timer
  refine ⟨timed', ?_⟩
  unfold situation Situation.start
  rw [due, arm_eq]

theorem Timed.stop (timed : client.Timed) (timer : ClientTimer) :
    (client.cancel timer).Timed ∧
      (client.cancel timer).situation = client.situation.stop timer := by
  obtain ⟨timed', due⟩ := timed.cancel timer
  refine ⟨timed', ?_⟩
  unfold situation Situation.stop
  rw [due]
  rfl

theorem Timed.put (timed : client.Timed) (state : RequestState) :
    Timed { client with state } ∧
      situation { client with state } = { client.situation with state } :=
  ⟨⟨timed.single, timed.capacity⟩, rfl⟩

theorem Timed.finish (timed : client.Timed) :
    client.finish.Timed ∧ client.finish.situation = client.situation.finish := by
  obtain ⟨timed', first⟩ := timed.stop .answer
  obtain ⟨timed'', second⟩ := timed'.stop .delayedAnswer
  have put := timed''.put .idle
  rw [second, first] at put
  exact put

theorem Timed.postpone (timed : client.Timed) (now : Tick) (service : UInt8) :
    Timed { (client.cancel .answer).arm now client.delayedAnswer .delayedAnswer with
        state := .delayed service } ∧
      situation { (client.cancel .answer).arm now client.delayedAnswer .delayedAnswer with
        state := .delayed service } = client.situation.postpone now service := by
  obtain ⟨timed', first⟩ := timed.stop .answer
  obtain ⟨timed'', second⟩ := timed'.start now client.delayedAnswer .delayedAnswer
  have put := timed''.put (.delayed service)
  rw [second, first] at put
  exact put

theorem changeSession_cons (client : Client) (now : Tick) (session : UInt8)
    (timing : List UInt8) :
    client.changeSession now (session :: timing) =
      let client := { client with
        session
        answer := (statedTiming timing client.answer client.delayedAnswer).1
        delayedAnswer := (statedTiming timing client.answer client.delayedAnswer).2 }
      if session = defaultSession then client.cancel .session
      else client.arm now client.settings.session .session := by
  rcases timing with _ | ⟨high, _ | ⟨low, _ | ⟨delayedHigh, _ | ⟨delayedLow, rest⟩⟩⟩⟩ <;> rfl

theorem Timed.enter (timed : client.Timed) (now : Tick) (record : List UInt8) :
    (client.changeSession now record).Timed ∧
      (client.changeSession now record).situation = client.situation.enter now record := by
  cases record with
  | nil => exact ⟨timed, rfl⟩
  | cons session timing =>
    have stated : Timed { client with
        session
        answer := (statedTiming timing client.answer client.delayedAnswer).1
        delayedAnswer := (statedTiming timing client.answer client.delayedAnswer).2 } :=
      ⟨timed.single, timed.capacity⟩
    rw [changeSession_cons]
    unfold Situation.enter
    simp only []
    split
    · exact stated.stop .session
    · exact stated.start now _ .session

/-- Where the grant of a request leaves a client. -/
theorem Timed.grant (timed : client.Timed) (now : Tick) (service : UInt8)
    (record : List UInt8) :
    (client.granted now service record).Timed ∧
      (client.granted now service record).situation =
        (if service = Service.sessionControl.toByte then client.situation.enter now record
          else client.situation).finish := by
  unfold granted
  simp only [push_situation]
  split
  · obtain ⟨timed', entered⟩ := timed.enter now record
    rw [← entered]
    exact timed'.finish
  · exact timed.finish

/-- The client has its settings and its connection for good, and what it pushes is queued as long as
there is room. -/
structure Pushes (before after : Client) (events : List ClientEvent) : Prop where
  settings : after.settings = before.settings
  connection : after.connection = before.connection
  events : after.events = (before.events ++ events).take before.capacity

theorem pushes_nil {after : Client} (room : client.events.length ≤ client.capacity)
    (settings : after.settings = client.settings)
    (connection : after.connection = client.connection) (events : after.events = client.events) :
    client.Pushes after [] := by
  refine ⟨settings, connection, ?_⟩
  rw [events, List.append_nil, List.take_of_length_le room]

theorem Pushes.capacity {after : Client} {events : List ClientEvent}
    (pushes : client.Pushes after events) : after.capacity = client.capacity := by
  unfold Client.capacity
  rw [pushes.settings]

theorem Pushes.room {after : Client} {events : List ClientEvent}
    (pushes : client.Pushes after events) : after.events.length ≤ after.capacity := by
  rw [pushes.events, pushes.capacity]
  exact List.length_take_le _ _

/-- A queue that is full loses what is pushed. -/
theorem Pushes.push {after : Client} (pushes : client.Pushes after [])
    (room : client.events.length ≤ client.capacity) (event : ClientEvent) :
    client.Pushes (after.push event) [event] := by
  have same : after.events = client.events := by
    rw [pushes.events, List.append_nil, List.take_of_length_le room]
  unfold Client.push
  rw [pushes.capacity, same]
  split
  · rename_i fits
    refine ⟨pushes.settings, pushes.connection, ?_⟩
    rw [List.take_of_length_le]
    simpa using fits
  · rename_i full
    refine ⟨pushes.settings, pushes.connection, ?_⟩
    rw [same, List.take_append_of_le_length (by omega), List.take_of_length_le room]

theorem Pushes.finish {after : Client} (pushes : client.Pushes after []) :
    client.Pushes after.finish [] :=
  ⟨pushes.settings, pushes.connection, pushes.events⟩

theorem changeSession_pushes (room : client.events.length ≤ client.capacity) (now : Tick)
    (record : List UInt8) : client.Pushes (client.changeSession now record) [] := by
  cases record with
  | nil => exact pushes_nil room rfl rfl rfl
  | cons session timing =>
    rw [changeSession_cons]
    simp only [arm_eq]
    split <;> exact pushes_nil room rfl rfl rfl

theorem granted_pushes (room : client.events.length ≤ client.capacity) (now : Tick)
    (service : UInt8) (record : List UInt8) :
    client.Pushes (client.granted now service record) [.positive service record] := by
  unfold granted
  refine Pushes.push (Pushes.finish ?_) room _
  split
  · exact changeSession_pushes room now record
  · exact pushes_nil room rfl rfl rfl

/-- A message brings about at most one event. -/
theorem hear_pushes (room : client.events.length ≤ client.capacity) (now : Tick)
    (message : List UInt8) :
    client.Pushes (client.hear now message) (client.state.reading message).event?.toList := by
  have finished : client.Pushes client.finish [] := (pushes_nil room rfl rfl rfl).finish
  rw [hear_eq]
  cases client.state.reading message with
  | unrelated => exact pushes_nil room rfl rfl rfl
  | announcement service =>
    simp only [arm_eq]
    exact pushes_nil room rfl rfl rfl
  | rejection service code => exact finished.push room _
  | grant service record => exact granted_pushes room now service record

theorem take_pushes (room : client.events.length ≤ client.capacity) (now : Tick)
    (delivery : Delivery) :
    client.Pushes (client.take now delivery) (delivery.event? client.state).toList := by
  cases delivery with
  | received message => exact hear_pushes room now message
  | failed fault =>
    have finished : client.Pushes client.finish [] := (pushes_nil room rfl rfl rfl).finish
    exact finished.push room _

/-- The session in use is prolonged; the default one has no end. -/
def prolong (client : Client) (now : Tick) : Client :=
  if client.session = defaultSession then client
  else client.arm now client.settings.session .session

/-- The client after the stack took its request. -/
def asked (client : Client) (now : Tick) (message : List UInt8) (expectsAnswer : Bool) : Client :=
  (match message with
    | service :: _ =>
      if expectsAnswer then
        { client with state := .waiting service }.arm now client.answer .answer
      else client
    | [] => client).prolong now

theorem send_eq (client : Client) (now : Tick) (message : List UInt8) (expectsAnswer : Bool)
    (stack : Stack ω) :
    client.send now message expectsAnswer stack =
      match stack.send now client.connection message with
      | (.error fault, stack) => (.error fault, client, stack)
      | (.ok (), stack) => (.ok (), client.asked now message expectsAnswer, stack) := by
  unfold send
  rcases stack.send now client.connection message with ⟨fault | _, after⟩ <;> rfl

theorem Timed.prolong (timed : client.Timed) (now : Tick) :
    (client.prolong now).Timed ∧
      (client.prolong now).situation = client.situation.prolong now := by
  unfold Client.prolong Situation.prolong
  rw [show client.situation.session = client.session from rfl]
  split
  · exact ⟨timed, rfl⟩
  · exact timed.start now _ .session

theorem Timed.ask (timed : client.Timed) (now : Tick) (service : UInt8) (parameters : List UInt8)
    (expectsAnswer : Bool) :
    (client.asked now (service :: parameters) expectsAnswer).Timed ∧
      (client.asked now (service :: parameters) expectsAnswer).situation =
        client.situation.ask now service expectsAnswer := by
  unfold asked Situation.ask
  cases expectsAnswer with
  | false => exact timed.prolong now
  | true =>
    obtain ⟨waiting, waits⟩ := timed.put (.waiting service)
    obtain ⟨armed, arms⟩ := waiting.start now client.answer .answer
    have prolonged := armed.prolong now
    rw [arms, waits] at prolonged
    exact prolonged

theorem Pushes.arm {after : Client} (pushes : client.Pushes after []) (now delay : Tick)
    (timer : ClientTimer) : client.Pushes (after.arm now delay timer) [] := by
  rw [arm_eq]
  exact ⟨pushes.settings, pushes.connection, pushes.events⟩

theorem asked_pushes (room : client.events.length ≤ client.capacity) (now : Tick)
    (message : List UInt8) (expectsAnswer : Bool) :
    client.Pushes (client.asked now message expectsAnswer) [] := by
  have rests : client.Pushes client [] := pushes_nil room rfl rfl rfl
  have prolonged {other : Client} (pushes : client.Pushes other []) :
      client.Pushes (other.prolong now) [] := by
    unfold Client.prolong
    split
    · exact pushes
    · exact pushes.arm _ _ _
  unfold asked
  refine prolonged ?_
  split
  · split
    · refine Pushes.arm ?_ now _ _
      exact pushes_nil room rfl rfl rfl
    · exact rests
  · exact rests

/-- A client with a request outstanding makes no other. -/
theorem request_eq (client : Client) (now : Tick) (request : Request) (stack : Stack ω) :
    client.request now request stack =
      if client.state = .idle then client.send now request.bytes request.expectsAnswer stack
      else (.error .inProgress, client, stack) := by
  unfold Client.request isBusy
  by_cases idle : client.state = .idle <;> simp [idle]

end Client

end DiagBus
