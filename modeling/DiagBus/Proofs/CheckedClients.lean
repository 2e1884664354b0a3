import DiagBus.Proofs.CheckedStack
import DiagBus.Proofs.Requests

namespace DiagBus

variable {ω : Type}

/-- A span of time has 32 bits. -/
def Checked.span (count unit : Nat) : Checked Tick :=
  if count * unit ≤ 0xFFFFFFFF then .ok (count * unit).toUInt32 else .error .overflow

/-- Of a group of trouble codes the lower three bytes are sent. -/
def Request.checkedParameters : Request → Checked (List UInt8)
  | .clearCodes group => Checked.slice (bigEndian 4 group.toNat) 1 4
  | request => .ok request.parameters

def Request.checkedBytes (request : Request) : Checked (List UInt8) := do
  let parameters ← request.checkedParameters
  .ok (request.service.toByte :: parameters)

namespace Client

def checkedCancel (client : Client) (timer : ClientTimer) : Checked Client := do
  let timers ← client.timers.checkedCancel timer
  .ok { client with timers }

def checkedArm [Machine] (client : Client) (now delay : Tick) (timer : ClientTimer) :
    Checked Client := do
  let client ← client.checkedCancel timer
  match ← client.timers.checkedSchedule now delay timer with
  | .ok timers => .ok { client with timers }
  | .error _ => .ok client

def checkedFinish (client : Client) : Checked Client := do
  let client ← client.checkedCancel .answer
  let client ← client.checkedCancel .delayedAnswer
  .ok { client with state := .idle }

/-- A server is told of in units of ten milliseconds. -/
def checkedTiming (client : Client) : List UInt8 → Checked Client
  | high :: low :: delayedHigh :: delayedLow :: _ => do
    let delayedAnswer ← Checked.span (ofBigEndian [delayedHigh, delayedLow]) 10
    .ok { client with answer := (ofBigEndian [high, low]).toUInt32, delayedAnswer }
  | _ => .ok client

def checkedChangeSession [Machine] (client : Client) (now : Tick) (record : List UInt8) :
    Checked Client :=
  match record with
  | [] => .ok client
  | session :: timing => do
    let client ← { client with session }.checkedTiming timing
    if session = defaultSession then client.checkedCancel .session
    else client.checkedArm now client.settings.session .session

def checkedRejected [Machine] (client : Client) (now : Tick) (service code : UInt8) :
    Checked Client :=
  match ResponseCode.ofByte code with
  | .responsePending => do
    let after ← client.checkedCancel .answer
    let after ← after.checkedArm now client.delayedAnswer .delayedAnswer
    .ok { after with state := .delayed service }
  | code => do
    let client ← client.checkedFinish
    .ok (client.push (.negative service code))

def checkedGranted [Machine] (client : Client) (now : Tick) (service : UInt8)
    (record : List UInt8) : Checked Client := do
  let client ← if service = Service.sessionControl.toByte then
    client.checkedChangeSession now record else .ok client
  let client ← client.checkedFinish
  .ok (client.push (.positive service record))

def checkedHear [Machine] (client : Client) (now : Tick) (message : List UInt8) :
    Checked Client :=
  match client.state.service? with
  | none => .ok client
  | some service =>
    match rejection? service message with
    | some code => client.checkedRejected now service code
    | none =>
      match grant? service message with
      | some record => client.checkedGranted now service record
      | none => .ok client

def checkedTake [Machine] (client : Client) (now : Tick) : Delivery → Checked Client
  | .received message => client.checkedHear now message
  | .failed fault => do
    let client ← client.checkedFinish
    .ok (client.push (.failed fault))

def checkedOpenMailbox [Machine] (client : Client) (now : Tick) : Checked Client :=
  client.mailbox.foldlM (·.checkedTake now ·) { client with mailbox := [] }

/-- The service that was asked for is the first byte of the message. -/
def checkedSend [Machine] (client : Client) (now : Tick) (message : List UInt8)
    (expectsAnswer : Bool) (stack : Stack ω) :
    Checked (Except Fault Unit × Client × Stack ω) := do
  match ← stack.checkedSend now client.connection message with
  | (.error fault, stack) => .ok (.error fault, client, stack)
  | (.ok (), stack) =>
    let service ← Checked.read message 0
    let client ← if expectsAnswer then
      checkedArm { client with state := .waiting service } now client.answer .answer
      else .ok client
    let client ← if client.session = defaultSession then .ok client
      else client.checkedArm now client.settings.session .session
    .ok (.ok (), client, stack)

def checkedRequest [Machine] (client : Client) (now : Tick) (request : Request)
    (stack : Stack ω) : Checked (Except Fault Unit × Client × Stack ω) := do
  let message ← request.checkedBytes
  if client.isBusy then .ok (.error .inProgress, client, stack)
  else client.checkedSend now message request.expectsAnswer stack

def checkedRequestBytes [Machine] (client : Client) (now : Tick) (message : List UInt8)
    (stack : Stack ω) : Checked (Except Fault Unit × Client × Stack ω) :=
  if message.isEmpty then .ok (.error .argument, client, stack)
  else if client.isBusy then .ok (.error .inProgress, client, stack)
  else client.checkedSend now message true stack

def checkedStartSession [Machine] (client : Client) (now : Tick) (address : Address)
    (session : UInt8) (stack : Stack ω) : Checked (Except Fault Unit × Client × Stack ω) :=
  if client.isBusy then .ok (.error .inProgress, client, stack)
  else do
    match ← stack.checkedBind client.connection address with
    | .error fault => .ok (.error fault, client, stack)
    | .ok stack => client.checkedRequest now (.session session) stack

def checkedExpire [Machine] (client : Client) (now : Tick) (timer : ClientTimer)
    (stack : Stack ω) : Checked (Client × Stack ω) :=
  match timer with
  | .session =>
    if client.settings.keepSession then do
      let (_, state) ← client.checkedRequest now (.testerPresent client.settings.keepAlive) stack
      .ok state
    else .ok ({ client with session := defaultSession, level := 0 }, stack)
  | _ => .ok ({ client with state := .idle }.push (.failed .receiveTimeout), stack)

def checkedTimersWithin [Machine] (now : Tick) :
    (fuel : Nat) → Client × Stack ω → Checked (Client × Stack ω)
  | 0, state => .ok state
  | fuel + 1, (client, stack) => do
    match ← client.timers.checkedPopDue now with
    | none => .ok (client, stack)
    | some (timer, timers) =>
      let state ← { client with timers }.checkedExpire now timer stack
      checkedTimersWithin now fuel state

def checkedProcess [Machine] (client : Client) (now : Tick) (stack : Stack ω) :
    Checked (Client × Stack ω) := do
  let client ← client.checkedOpenMailbox now
  checkedTimersWithin now Stack.patience (client, stack)

/-- A client is made with room for news and for events. -/
def checkedAttach [Machine] (settings : ClientSettings) (listener : Listener) (stack : Stack ω) :
    Checked (Except Fault (Client × Stack ω)) := do
  match ← stack.checkedOpenConnection with
  | none => .ok (.error .memory)
  | some (connection, stack) =>
    Checked.queue (max settings.events 1)
    match stack.updateConnection connection
      ({ · with onReceived := some listener, onFailed := some listener }) with
    | .error fault => .ok (.error fault)
    | .ok stack => .ok (.ok ({
        connection, settings
        answer := settings.answer, delayedAnswer := settings.delayedAnswer }, stack))

end Client

def Desk.checkedAttach [Machine] (settings : ClientSettings) (listener : Listener)
    (stack : Stack ω) : Checked (Except Fault (Desk ω)) := do
  let attached ← Client.checkedAttach settings listener stack
  .ok (attached.map fun (client, stack) =>
    { listener, client, stack, heard := stack.outside.signals.length })

def Deed.checkedRun [Machine] (deed : Deed ω) (desk : Desk ω) : Checked (Reply × Desk ω) :=
  match deed with
  | .call made => do
    let (reply, stack) ← made.checkedRun desk.stack
    .ok (reply, { desk with stack })
  | .request now made => do
    let (result, state) ← desk.client.checkedRequest now made desk.stack
    .ok (.outcome result, desk.adopt state)
  | .requestBytes now message => do
    let (result, state) ← desk.client.checkedRequestBytes now message desk.stack
    .ok (.outcome result, desk.adopt state)
  | .startSession now address session => do
    let (result, state) ← desk.client.checkedStartSession now address session desk.stack
    .ok (.outcome result, desk.adopt state)
  | deed => .ok (deed.reply desk, deed.run desk)

def DeskStep.checkedRun [Machine] (step : DeskStep ω) (desk : Desk ω) : Checked (Desk ω) :=
  match step with
  | .deed done => do
    let (_, desk) ← done.checkedRun desk
    .ok desk
  | .deliver => .ok desk.deliver
  | .take now =>
    match desk.client.mailbox with
    | [] => .ok desk
    | delivery :: mailbox => do
      let client ← { desk.client with mailbox }.checkedTake now delivery
      .ok { desk with client }
  | .expire now => do
    match ← desk.client.timers.checkedPopDue now with
    | none => .ok desk
    | some (timer, timers) =>
      let state ← { desk.client with timers }.checkedExpire now timer desk.stack
      .ok (desk.adopt state)

def DeskCall.checkedRun [Machine] (call : DeskCall ω) (desk : Desk ω) :
    Checked (Reply × Desk ω) :=
  match call with
  | .deed done => do
    let (reply, desk) ← done.checkedRun desk
    .ok (reply, desk.deliver)
  | .process now => do
    let state ← desk.client.checkedProcess now desk.stack
    .ok (.nothing, (desk.adopt state).deliver)

def OfficeCall.checkedRun [Machine] (call : OfficeCall ω) (office : Office ω) :
    Checked (Reply × Office ω) :=
  match call with
  | .call made => do
    let (reply, stack) ← made.checkedRun office.stack
    .ok (reply, { office with stack }.deliver)
  | .attach settings listener => do
    match ← Desk.checkedAttach settings listener office.stack with
    | .error fault => .ok (.outcome (.error fault), office)
    | .ok desk =>
      .ok (.outcome (.ok ()), { stack := desk.stack, seats := office.seats ++ [desk.seat] })
  | .client number made =>
    match office.seats[number]? with
    | none => .ok (.nothing, office)
    | some seat => do
      let (reply, desk) ← made.checkedRun (seat.desk office.stack)
      .ok (reply, office.adopt number desk)
  | .step number taken =>
    match office.seats[number]? with
    | none => .ok (.nothing, office)
    | some seat => do
      let desk ← taken.checkedRun (seat.desk office.stack)
      .ok (.nothing, office.adopt number desk)

/-- What these calls return one after the other, and the office after all of them. -/
def Office.checkedCalls [Machine] (office : Office ω) :
    List (OfficeCall ω) → Checked (List Reply × Office ω)
  | [] => .ok ([], office)
  | call :: rest => do
    let (reply, office) ← call.checkedRun office
    let (replies, office) ← office.checkedCalls rest
    .ok (reply :: replies, office)

theorem Request.checkedBytes_eq (request : Request) : request.checkedBytes = .ok request.bytes := by
  have parameters : request.checkedParameters = .ok request.parameters := by
    cases request with
    | clearCodes group =>
      have four : (bigEndian 4 group.toNat).length = 4 := length_bigEndian 4 _
      exact Checked.slice_eq (by decide) four.ge
    | _ => rfl
  unfold checkedBytes
  rw [parameters]
  rfl

namespace Client

section

variable {client : Client}

theorem checkedCancel_eq (timed : client.Timed) (timer : ClientTimer) :
    client.checkedCancel timer = .ok (client.cancel timer) := by
  unfold checkedCancel
  rw [TimerQueue.checkedCancel_eq timed.single.linked]
  rfl

theorem checkedArm_eq [Machine] (timed : client.Timed) (now delay : Tick) (timer : ClientTimer) :
    client.checkedArm now delay timer = .ok (client.arm now delay timer) := by
  have cancelled := (timed.cancel timer).1
  unfold checkedArm arm
  rw [checkedCancel_eq timed, Checked.ok_bind,
    TimerQueue.checkedSchedule_eq cancelled.single.linked, Checked.ok_bind]
  simp only [cancel]
  cases (client.timers.cancel timer).schedule now delay timer <;> rfl

theorem checkedFinish_eq (timed : client.Timed) : client.checkedFinish = .ok client.finish := by
  have cancelled := (timed.cancel .answer).1
  unfold checkedFinish finish
  rw [checkedCancel_eq timed, Checked.ok_bind, checkedCancel_eq cancelled]
  rfl

theorem checkedTiming_eq (client : Client) (timing : List UInt8) :
    client.checkedTiming timing = .ok { client with
      answer := (statedTiming timing client.answer client.delayedAnswer).1
      delayedAnswer := (statedTiming timing client.answer client.delayedAnswer).2 } := by
  match timing with
  | [] | [_] | [_, _] | [_, _, _] => rfl
  | _ :: _ :: delayedHigh :: delayedLow :: _ =>
    have small : ofBigEndian [delayedHigh, delayedLow] * 10 ≤ 0xFFFFFFFF := by
      have first := delayedHigh.toNat_lt
      have second := delayedLow.toNat_lt
      simp only [ofBigEndian, List.foldl_cons, List.foldl_nil]
      omega
    simp only [checkedTiming, Checked.span, if_pos small, Checked.ok_bind]
    rfl

theorem checkedChangeSession_eq [Machine] (timed : client.Timed) (now : Tick)
    (record : List UInt8) :
    client.checkedChangeSession now record = .ok (client.changeSession now record) := by
  cases record with
  | nil => rfl
  | cons session timing =>
    unfold checkedChangeSession
    simp only [checkedTiming_eq, Checked.ok_bind, changeSession_cons]
    have stated : Timed { client with
        session
        answer := (statedTiming timing client.answer client.delayedAnswer).1
        delayedAnswer := (statedTiming timing client.answer client.delayedAnswer).2 } :=
      ⟨timed.single, timed.capacity⟩
    split
    · exact checkedCancel_eq stated _
    · exact checkedArm_eq stated _ _ _

theorem checkedRejected_eq [Machine] (timed : client.Timed) (now : Tick)
    (service code : UInt8) :
    client.checkedRejected now service code = .ok (client.rejected now service code) := by
  have cancelled := (timed.cancel .answer).1
  unfold checkedRejected rejected
  cases ResponseCode.ofByte code with
  | responsePending => simp only [checkedCancel_eq timed, checkedArm_eq cancelled, Checked.ok_bind]
  | _ => simp only [checkedFinish_eq timed, Checked.ok_bind]

theorem checkedGranted_eq [Machine] (timed : client.Timed) (now : Tick) (service : UInt8)
    (record : List UInt8) :
    client.checkedGranted now service record = .ok (client.granted now service record) := by
  have changed := (timed.enter now record).1
  unfold checkedGranted granted
  split
  · simp only [checkedChangeSession_eq timed, checkedFinish_eq changed, Checked.ok_bind]
  · simp only [checkedFinish_eq timed, Checked.ok_bind]

theorem checkedHear_eq [Machine] (timed : client.Timed) (now : Tick) (message : List UInt8) :
    client.checkedHear now message = .ok (client.hear now message) := by
  unfold checkedHear hear
  cases client.state.service? with
  | none => rfl
  | some service =>
    simp only []
    cases rejection? service message with
    | some code => exact checkedRejected_eq timed now service code
    | none =>
      simp only []
      cases grant? service message with
      | none => rfl
      | some record => exact checkedGranted_eq timed now service record

theorem Timed.push (timed : client.Timed) (event : ClientEvent) : (client.push event).Timed :=
  (push_situation client event).2.mpr timed

theorem Timed.hear (timed : client.Timed) (now : Tick) (message : List UInt8) :
    (client.hear now message).Timed := by
  rw [Client.hear_eq]
  cases client.state.reading message with
  | unrelated => exact timed
  | announcement service => exact (timed.postpone now service).1
  | rejection service code => exact timed.finish.1.push _
  | grant service record => exact (timed.grant now service record).1

/-- Any piece of news can be looked at. -/
theorem checkedTake_eq [Machine] (timed : client.Timed) (now : Tick) (delivery : Delivery) :
    client.checkedTake now delivery = .ok (client.take now delivery) ∧
      (client.take now delivery).Timed := by
  cases delivery with
  | received message => exact ⟨checkedHear_eq timed now message, timed.hear now message⟩
  | failed fault =>
    refine ⟨?_, timed.finish.1.push _⟩
    simp only [checkedTake, take, checkedFinish_eq timed, Checked.ok_bind]

theorem checkedOpenMailbox_eq [Machine] (timed : client.Timed) (now : Tick) :
    client.checkedOpenMailbox now = .ok (client.openMailbox now) ∧
      (client.openMailbox now).Timed := by
  have all (deliveries : List Delivery) {client : Client} (timed : client.Timed) :
      deliveries.foldlM (·.checkedTake now ·) client =
          (.ok (deliveries.foldl (·.take now ·) client) : Checked Client) ∧
        (deliveries.foldl (·.take now ·) client).Timed := by
    induction deliveries generalizing client with
    | nil => exact ⟨rfl, timed⟩
    | cons delivery rest ih =>
      obtain ⟨result, after⟩ := checkedTake_eq timed now delivery
      rw [List.foldlM_cons, result, Checked.ok_bind, List.foldl_cons]
      exact ih after
  exact all client.mailbox ⟨timed.single, timed.capacity⟩

end

/-- What a call to a client finds: a client whose timers are in order and a fit stack. -/
structure Fit [Machine] (client : Client) (stack : Stack ω) : Prop where
  timed : client.Timed
  ready : stack.Fit
  quiet : stack.confirmations = []

/-- A checked call to a client has a result, and everything is fit for the next call. -/
structure Returns [Machine] (checked : Checked (Except Fault Unit × Client × Stack ω))
    (after : Except Fault Unit × Client × Stack ω) : Prop where
  result : checked = .ok after
  fit : after.2.1.Fit after.2.2

section

variable [Machine] {client : Client} {stack : Stack ω}

theorem Fit.send (fit : client.Fit stack) (now : Tick) (service : UInt8)
    (parameters : List UInt8) (expectsAnswer : Bool) :
    Returns (client.checkedSend now (service :: parameters) expectsAnswer stack)
      (client.send now (service :: parameters) expectsAnswer stack) := by
  obtain ⟨result, after, quiet⟩ :=
    fit.ready.send fit.quiet now client.connection (service :: parameters)
  have timed := (fit.timed.ask now service parameters expectsAnswer).1
  have waiting : Timed { client with state := .waiting service } :=
    ⟨fit.timed.single, fit.timed.capacity⟩
  have armed := (waiting.arm now client.answer .answer).1
  rw [send_eq]
  unfold checkedSend
  rw [result, Checked.ok_bind]
  generalize stack.send now client.connection (service :: parameters) = sent at after quiet ⊢
  rcases sent with ⟨fault | _, next⟩
  · exact ⟨rfl, fit.timed, after, quiet⟩
  · refine ⟨?_, timed, after, quiet⟩
    unfold asked prolong
    cases expectsAnswer with
    | true =>
      simp only [Checked.read, List.getElem?_cons_zero, Checked.ok_bind, if_true,
        checkedArm_eq waiting, checkedArm_eq armed]
      split <;> rfl
    | false =>
      simp only [Checked.read, List.getElem?_cons_zero, Checked.ok_bind, Bool.false_eq_true,
        if_false, checkedArm_eq fit.timed]
      split <;> rfl

theorem Fit.request (fit : client.Fit stack) (now : Tick) (request : Request) :
    Returns (client.checkedRequest now request stack) (client.request now request stack) := by
  unfold checkedRequest Client.request
  rw [Request.checkedBytes_eq, Checked.ok_bind]
  split
  · exact ⟨rfl, fit⟩
  · exact fit.send now _ _ _

theorem Fit.requestBytes (fit : client.Fit stack) (now : Tick) (message : List UInt8) :
    Returns (client.checkedRequestBytes now message stack)
      (client.requestBytes now message stack) := by
  unfold checkedRequestBytes Client.requestBytes
  cases message with
  | nil => exact ⟨rfl, fit⟩
  | cons service parameters =>
    simp only [List.isEmpty_cons, Bool.false_eq_true, if_false]
    split
    · exact ⟨rfl, fit⟩
    · exact fit.send now _ _ _

theorem Fit.startSession (fit : client.Fit stack) (now : Tick) (address : Address)
    (session : UInt8) :
    Returns (client.checkedStartSession now address session stack)
      (client.startSession now address session stack) := by
  unfold checkedStartSession Client.startSession
  split
  · exact ⟨rfl, fit⟩
  · rw [Stack.checkedBind_eq, Checked.ok_bind]
    have next := (Call.bind client.connection address).run_fit fit.ready fit.quiet
    simp only [Call.run] at next
    cases bound : stack.bind client.connection address with
    | error fault => exact ⟨rfl, fit⟩
    | ok after =>
      rw [bound] at next
      exact Fit.request ⟨fit.timed, next.1, next.2⟩ now _

/-- Any timer may fire. -/
theorem Fit.expire (fit : client.Fit stack) (now : Tick) (timer : ClientTimer) :
    client.checkedExpire now timer stack = .ok (client.expire now timer stack) ∧
      (client.expire now timer stack).1.Fit (client.expire now timer stack).2 := by
  unfold checkedExpire Client.expire
  cases timer with
  | session =>
    simp only []
    split
    · obtain ⟨result, after⟩ :=
        fit.request now (.testerPresent client.settings.keepAlive)
      rw [result]
      exact ⟨rfl, after⟩
    · exact ⟨rfl, ⟨fit.timed.single, fit.timed.capacity⟩, fit.ready, fit.quiet⟩
  | _ => exact ⟨rfl, (fit.timed.put .idle).1.push _, fit.ready, fit.quiet⟩

theorem Fit.timersWithin (fit : client.Fit stack) (now : Tick) (fuel : Nat) :
    checkedTimersWithin now fuel (client, stack) =
        .ok (checkTimersWithin now fuel (client, stack)) ∧
      (checkTimersWithin now fuel (client, stack)).1.Fit
        (checkTimersWithin now fuel (client, stack)).2 := by
  induction fuel generalizing client stack with
  | zero => exact ⟨rfl, fit⟩
  | succ fuel ih =>
    unfold checkedTimersWithin checkTimersWithin
    rw [TimerQueue.checkedPopDue_eq fit.timed.single.linked, Checked.ok_bind]
    cases due : client.timers.popDue now with
    | none => exact ⟨rfl, fit⟩
    | some popped =>
      have without : Fit { client with timers := popped.2 } stack :=
        ⟨(fit.timed.popped due).1, fit.ready, fit.quiet⟩
      obtain ⟨result, after⟩ := without.expire now popped.1
      simp only [result, Checked.ok_bind]
      exact ih after

theorem Fit.process (fit : client.Fit stack) (now : Tick) :
    client.checkedProcess now stack = .ok (client.process now stack) ∧
      (client.process now stack).1.Fit (client.process now stack).2 := by
  obtain ⟨result, opened⟩ := checkedOpenMailbox_eq fit.timed now
  unfold checkedProcess Client.process
  rw [result, Checked.ok_bind]
  exact Fit.timersWithin ⟨opened, fit.ready, fit.quiet⟩ now _

theorem checkedAttach_eq (fit : stack.Fit) (settings : ClientSettings) (listener : Listener) :
    checkedAttach settings listener stack = .ok (attach settings listener stack) := by
  have room : max settings.events 1 ≠ 0 := by omega
  unfold checkedAttach attach
  rw [fit.openConnection, Checked.ok_bind]
  cases stack.openConnection with
  | none => rfl
  | some opened =>
    simp only [Checked.queue, if_neg room, Checked.ok_bind]
    cases opened.2.updateConnection opened.1 _ <;> rfl

end

end Client

section

variable [Machine] {desk : Desk ω} {office : Office ω}

theorem Desk.checkedAttach_eq {stack : Stack ω} (fit : stack.Fit) (settings : ClientSettings)
    (listener : Listener) :
    Desk.checkedAttach settings listener stack = .ok (Desk.attach settings listener stack) := by
  unfold checkedAttach attach
  rw [Client.checkedAttach_eq fit]
  rfl

/-- A new client at a fit stack. -/
theorem Desk.attach_fit {settings : ClientSettings} {listener : Listener} {stack : Stack ω}
    (fit : stack.Fit) (quiet : stack.confirmations = [])
    (attached : Desk.attach settings listener stack = .ok desk) :
    desk.client.Fit desk.stack := by
  obtain ⟨connection, _, moved⟩ := Desk.attach_eq fit.kept.sound attached
  obtain ⟨opened, still⟩ := Call.openConnection.run_fit fit quiet
  have listens :=
    (Call.listen connection (some listener) none (some listener)).run_fit opened still
  refine ⟨(Desk.attach_timed fit.kept.sound attached).1, ?_, ?_⟩
  all_goals
    rw [moved]
  · exact listens.1
  · exact listens.2

omit [Machine] in
theorem Desk.deliver_timed (timed : desk.client.Timed) : desk.deliver.client.Timed := by
  have same := desk.deliver_same.1
  refine ⟨?_, ?_⟩
  all_goals
    rw [same]
  · exact timed.single
  · exact timed.capacity

theorem Deed.checkedRun_eq (deed : Deed ω) (fit : desk.client.Fit desk.stack) :
    deed.checkedRun desk = .ok (deed.reply desk, deed.run desk) ∧
      (deed.run desk).client.Fit (deed.run desk).stack := by
  cases deed with
  | call made =>
    obtain ⟨after, quiet⟩ := made.run_fit fit.ready fit.quiet
    refine ⟨?_, fit.timed, after, quiet⟩
    simp only [checkedRun, made.checkedRun_eq fit.ready fit.quiet, Checked.ok_bind]
    rfl
  | request now made =>
    obtain ⟨result, after⟩ := fit.request now made
    refine ⟨?_, after⟩
    simp only [checkedRun, result, Checked.ok_bind]
    rfl
  | requestBytes now message =>
    obtain ⟨result, after⟩ := fit.requestBytes now message
    refine ⟨?_, after⟩
    simp only [checkedRun, result, Checked.ok_bind]
    rfl
  | startSession now address session =>
    obtain ⟨result, after⟩ := fit.startSession now address session
    refine ⟨?_, after⟩
    simp only [checkedRun, result, Checked.ok_bind]
    rfl
  | nextEvent =>
    refine ⟨rfl, ?_, fit.ready, fit.quiet⟩
    simp only [run, Client.nextEvent]
    cases desk.client.events with
    | nil => exact fit.timed
    | cons event rest => exact ⟨fit.timed.single, fit.timed.capacity⟩
  | _ => exact ⟨rfl, ⟨fit.timed.single, fit.timed.capacity⟩, fit.ready, fit.quiet⟩

theorem DeskStep.checkedRun_eq (step : DeskStep ω) (fit : desk.client.Fit desk.stack) :
    step.checkedRun desk = .ok (step.run desk) ∧
      (step.run desk).client.Fit (step.run desk).stack := by
  cases step with
  | deed done =>
    obtain ⟨result, after⟩ := done.checkedRun_eq fit
    refine ⟨?_, after⟩
    simp only [checkedRun, result, Checked.ok_bind]
    rfl
  | deliver => exact ⟨rfl, Desk.deliver_timed fit.timed, fit.ready, fit.quiet⟩
  | take now =>
    simp only [checkedRun, run]
    cases desk.client.mailbox with
    | nil => exact ⟨rfl, fit⟩
    | cons delivery mailbox =>
      have read : Client.Timed { desk.client with mailbox } :=
        ⟨fit.timed.single, fit.timed.capacity⟩
      obtain ⟨result, timed⟩ := Client.checkedTake_eq read now delivery
      refine ⟨?_, timed, fit.ready, fit.quiet⟩
      simp only [result, Checked.ok_bind]
  | expire now =>
    simp only [checkedRun, run, TimerQueue.checkedPopDue_eq fit.timed.single.linked,
      Checked.ok_bind]
    cases due : desk.client.timers.popDue now with
    | none => exact ⟨rfl, fit⟩
    | some popped =>
      have without : Client.Fit { desk.client with timers := popped.2 } desk.stack :=
        ⟨(fit.timed.popped due).1, fit.ready, fit.quiet⟩
      obtain ⟨result, after⟩ := without.expire now popped.1
      refine ⟨?_, after⟩
      simp only [result, Checked.ok_bind]

theorem DeskCall.checkedRun_eq (call : DeskCall ω) (fit : desk.client.Fit desk.stack) :
    call.checkedRun desk = .ok (call.reply desk, call.run desk) ∧
      (call.run desk).client.Fit (call.run desk).stack := by
  cases call with
  | deed done =>
    obtain ⟨result, after⟩ := done.checkedRun_eq fit
    refine ⟨?_, Desk.deliver_timed after.timed, after.ready, after.quiet⟩
    simp only [checkedRun, result, Checked.ok_bind]
    rfl
  | process now =>
    obtain ⟨result, after⟩ := fit.process now
    refine ⟨?_, Desk.deliver_timed after.timed, after.ready, after.quiet⟩
    simp only [checkedRun, result, Checked.ok_bind]
    rfl

/-- What every call to a stack or to one of its clients finds. -/
structure Office.Fit (office : Office ω) : Prop where
  ready : office.stack.Fit
  quiet : office.stack.confirmations = []
  timed : ∀ seat ∈ office.seats, seat.client.Timed

theorem Office.Fit.deliver (fit : office.Fit) : office.deliver.Fit := by
  refine ⟨fit.ready, fit.quiet, fun seat member => ?_⟩
  obtain ⟨told, before, rfl⟩ := List.mem_map.mp member
  exact Desk.deliver_timed (fit.timed told before)

theorem Office.Fit.adopt (fit : office.Fit) (number : Nat) (after : desk.client.Fit desk.stack) :
    (office.adopt number desk).Fit := by
  have moved : Office.Fit { stack := desk.stack, seats := office.seats.set number desk.seat } := by
    refine ⟨after.ready, after.quiet, fun seat member => ?_⟩
    rcases List.mem_or_eq_of_mem_set member with before | rfl
    · exact fit.timed seat before
    · exact after.timed
  exact moved.deliver

/-- Every call has a result, and everything is fit for the next one. -/
theorem OfficeCall.checkedRun_eq (call : OfficeCall ω) (fit : office.Fit) :
    call.checkedRun office = .ok (call.run office) ∧ (call.run office).2.Fit := by
  have seated {number : Nat} {seat : Seat} (here : office.seats[number]? = some seat) :
      (seat.desk office.stack).client.Fit (seat.desk office.stack).stack :=
    ⟨fit.timed seat (List.mem_of_getElem? here), fit.ready, fit.quiet⟩
  cases call with
  | call made =>
    obtain ⟨after, quiet⟩ := made.run_fit fit.ready fit.quiet
    refine ⟨?_, Office.Fit.deliver ⟨after, quiet, fit.timed⟩⟩
    simp only [checkedRun, made.checkedRun_eq fit.ready fit.quiet, Checked.ok_bind]
    rfl
  | attach settings listener =>
    simp only [checkedRun, run, Desk.checkedAttach_eq fit.ready, Checked.ok_bind]
    cases attached : Desk.attach settings listener office.stack with
    | error fault => exact ⟨rfl, fit⟩
    | ok desk =>
      have seat := Desk.attach_fit fit.ready fit.quiet attached
      refine ⟨rfl, seat.ready, seat.quiet, fun other member => ?_⟩
      rcases List.mem_append.mp member with before | last
      · exact fit.timed other before
      · rw [List.mem_singleton.mp last]
        exact seat.timed
  | client number made =>
    simp only [checkedRun, run]
    cases here : office.seats[number]? with
    | none => exact ⟨rfl, fit⟩
    | some seat =>
      obtain ⟨result, after⟩ := made.checkedRun_eq (seated here)
      refine ⟨?_, fit.adopt number after⟩
      simp only [result, Checked.ok_bind]
  | step number taken =>
    simp only [checkedRun, run]
    cases here : office.seats[number]? with
    | none => exact ⟨rfl, fit⟩
    | some seat =>
      obtain ⟨result, after⟩ := taken.checkedRun_eq (seated here)
      refine ⟨?_, fit.adopt number after⟩
      simp only [result, Checked.ok_bind]

theorem Office.checkedCalls_eq (fit : office.Fit) (calls : List (OfficeCall ω)) :
    office.checkedCalls calls = .ok (office.calls calls) := by
  induction calls generalizing office with
  | nil => rfl
  | cons call rest ih =>
    obtain ⟨result, after⟩ := call.checkedRun_eq fit
    unfold checkedCalls Office.calls
    simp only [result, ih after, Checked.ok_bind]

end

/-- No operation is ever without a result. Whatever settings are accepted, a stack is made of them,
and then whatever calls are made to it and to its clients, they come to what they come to where
numbers have no end: none is too large or below zero, no position or slice is outside of its list,
and no slice is overwritten by another number of bytes. That goes for the frames of classic
controllers too, which are taken over and passed on. The budget of memory is itself a number of the
machine. -/
theorem no_operation_traps [Machine] {settings : Settings}
    (valid : settings.validate = .ok ()) (countable : settings.memory ≤ Machine.largest)
    (world : ω) :
    (∃ start, Stack.new settings world = .ok start ∧
      Stack.checkedNew settings world = .ok (.ok start) ∧
      ∀ calls : List (OfficeCall ω), Office.checkedCalls { stack := start } calls =
        .ok (Office.calls { stack := start } calls)) ∧
      (∀ wire, Frame.checkedOfWire? wire = .ok (Frame.ofWire? wire)) ∧
      ∀ frame : Frame, frame.checkedToWire? = .ok frame.toWire? := by
  obtain ⟨start, made⟩ : ∃ start, Stack.new settings world = .ok start := by
    unfold Stack.new
    rw [valid]
    exact ⟨_, rfl⟩
  obtain ⟨fit, quiet⟩ := Stack.new_fit made countable
  refine ⟨⟨start, made, ?_, fun calls => ?_⟩, Frame.checkedOfWire?_eq, Frame.checkedToWire?_eq⟩
  · rw [Stack.checkedNew_eq, made]
  · exact Office.checkedCalls_eq ⟨fit, quiet, by simp⟩ calls

/-- A machine that counts with 32 bits. -/
abbrev Machine.short : Machine :=
  ⟨0xFFFFFFFF, le_rfl⟩

/-- A client of the sample stack asks for a session shortly before the clock starts over, and looks
for the answer after that. -/
def sampleAsking : List (OfficeCall Unit) :=
  [.call (.addInterface .obliging), .attach {} (.client 0),
    .client 0 (.deed (.startSession 0xFFFFFFFF sampleAddress 3)), .client 0 (.process 0x32)]

/-- The request is sent and its answer missed, and nothing stops. -/
theorem sample_no_operation_traps :
    letI := Machine.short
    ({} : Settings).validate = .ok () ∧ ({} : Settings).memory ≤ Machine.largest ∧
      (∃ start, Stack.new {} () = .ok start ∧ Office.checkedCalls { stack := start } sampleAsking =
        .ok (Office.calls { stack := start } sampleAsking)) ∧
      (Office.calls { stack := sampleStack } sampleAsking).2.seats.map (·.client.events) =
        [[.failed .receiveTimeout]] := by
  let _ := Machine.short
  have valid : ({} : Settings).validate = .ok () := rfl
  have countable : ({} : Settings).memory ≤ Machine.largest := by decide
  obtain ⟨⟨start, made, _, run⟩, _⟩ := no_operation_traps valid countable ()
  exact ⟨valid, countable, ⟨start, made, run sampleAsking⟩, by decide +kernel⟩

end DiagBus
