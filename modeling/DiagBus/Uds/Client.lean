import DiagBus.Stack
import DiagBus.Uds.Request

namespace DiagBus

/-- What comes of a request. -/
inductive ClientEvent
  /-- A positive response to a service: the bytes behind its first one. -/
  | positive (service : UInt8) (record : List UInt8)
  | negative (service : UInt8) (code : ResponseCode)
  /-- The transport failed, or no answer came. -/
  | failed (fault : Fault)
  deriving DecidableEq

/-- The request that is outstanding, named by its service. -/
inductive RequestState
  | idle
  | waiting (service : UInt8)
  /-- The server announced that its answer takes longer. -/
  | delayed (service : UInt8)
  deriving DecidableEq

def RequestState.service? : RequestState → Option UInt8
  | .idle => none
  | .waiting service => some service
  | .delayed service => some service

inductive ClientTimer
  | answer
  | delayedAnswer
  | session
  deriving DecidableEq

/-- News from the client's connection. -/
inductive Delivery
  | received (message : List UInt8)
  | failed (fault : Fault)
  deriving DecidableEq

/-- A diagnostic client. It owns one connection of a stack, has at most one request outstanding and keeps
track of the session the server is in. -/
structure Client where
  connection : Handle
  settings : ClientSettings
  mailbox : List Delivery := []
  events : List ClientEvent := []
  timers : TimerQueue ClientTimer := .ofCapacity 3
  state : RequestState := .idle
  session : UInt8 := defaultSession
  /-- The security level that the caller says it unlocked. -/
  level : UInt8 := 0
  /-- Time for the server to answer the next request. -/
  answer : Tick
  /-- The same after the server announced a delay. -/
  delayedAnswer : Tick

/-- The delivery that a signal is to this listener, if it is one. -/
def Signal.delivery? (signal : Signal) (listener : Listener) : Option Delivery :=
  match signal with
  | .received told _ message => if told = listener then some (.received message) else none
  | .failed told _ fault => if told = listener then some (.failed fault) else none
  | _ => none

variable {ω : Type}

namespace Client

/-- The room in the mailbox and in the queue of events. -/
def capacity (client : Client) : Nat :=
  max client.settings.events 1

/-- Puts news into the mailbox; what finds it full is lost. -/
def deliver (client : Client) (delivery : Delivery) : Client :=
  if client.mailbox.length < client.capacity then
    { client with mailbox := client.mailbox ++ [delivery] }
  else client

/-- Queues an event for the caller; what finds the queue full is lost. -/
def push (client : Client) (event : ClientEvent) : Client :=
  if client.events.length < client.capacity then
    { client with events := client.events ++ [event] }
  else client

/-- The next event, if there is one. -/
def nextEvent (client : Client) : Option ClientEvent × Client :=
  match client.events with
  | [] => (none, client)
  | event :: events => (some event, { client with events })

def isBusy (client : Client) : Bool :=
  client.state ≠ .idle

/-- Opens a connection of the stack for a new client, which listens under the given name. -/
def attach (settings : ClientSettings) (listener : Listener) (stack : Stack ω) :
    Except Fault (Client × Stack ω) :=
  match stack.openConnection with
  | none => .error .memory
  | some (connection, stack) => do
    let stack ← stack.updateConnection connection
      ({ · with onReceived := some listener, onFailed := some listener })
    return ({ connection, settings
              answer := settings.answer, delayedAnswer := settings.delayedAnswer }, stack)

/-- Starts a timer afresh. -/
def arm (client : Client) (now delay : Tick) (timer : ClientTimer) : Client :=
  let timers := client.timers.cancel timer
  match timers.schedule now delay timer with
  | .ok timers => { client with timers }
  | .error _ => { client with timers }

def cancel (client : Client) (timer : ClientTimer) : Client :=
  { client with timers := client.timers.cancel timer }

/-- No request is outstanding any more. -/
def finish (client : Client) : Client :=
  { (client.cancel .answer).cancel .delayedAnswer with state := .idle }

/-- Takes over the session and the timing that a session control response states. The longer time
is stated in units of ten milliseconds. -/
def changeSession (client : Client) (now : Tick) (record : List UInt8) : Client :=
  match record with
  | [] => client
  | session :: timing =>
    let client := { client with session }
    let client := match timing with
      | high :: low :: delayedHigh :: delayedLow :: _ => { client with
          answer := (ofBigEndian [high, low]).toUInt32
          delayedAnswer := (ofBigEndian [delayedHigh, delayedLow] * 10).toUInt32 }
      | _ => client
    if session = defaultSession then client.cancel .session
    else client.arm now client.settings.session .session

/-- The server rejects the request, or announces that its answer takes longer. -/
def rejected (client : Client) (now : Tick) (service code : UInt8) : Client :=
  match ResponseCode.ofByte code with
  | .responsePending =>
    { (client.cancel .answer).arm now client.delayedAnswer .delayedAnswer with
      state := .delayed service }
  | code => client.finish.push (.negative service code)

/-- The server grants the request. -/
def granted (client : Client) (now : Tick) (service : UInt8) (record : List UInt8) : Client :=
  let client :=
    if service = Service.sessionControl.toByte then client.changeSession now record else client
  client.finish.push (.positive service record)

/-- Whether a message rejects the request for this service, and with which code. -/
def rejection? (service : UInt8) : List UInt8 → Option UInt8
  | first :: rejected :: code :: _ =>
    if first = negativeResponse ∧ rejected = service then some code else none
  | _ => none

/-- Whether a message grants the request for this service, and with which record. -/
def grant? (service : UInt8) : List UInt8 → Option (List UInt8)
  | first :: record => if first = service + positiveOffset then some record else none
  | [] => none

/-- Looks at a message. It counts only as an answer to the outstanding request. -/
def hear (client : Client) (now : Tick) (message : List UInt8) : Client :=
  match client.state.service? with
  | none => client
  | some service =>
    match rejection? service message with
    | some code => client.rejected now service code
    | none =>
      match grant? service message with
      | some record => client.granted now service record
      | none => client

/-- Looks at one piece of news. -/
def take (client : Client) (now : Tick) : Delivery → Client
  | .received message => client.hear now message
  | .failed fault => client.finish.push (.failed fault)

/-- Looks at all news in the mailbox. -/
def openMailbox (client : Client) (now : Tick) : Client :=
  client.mailbox.foldl (·.take now ·) { client with mailbox := [] }

/-- Sends a request. Only then does anything change. The timers start at the reading of the clock at which
the transport takes the message: no time passes in between. -/
def send (client : Client) (now : Tick) (message : List UInt8) (expectsAnswer : Bool)
    (stack : Stack ω) : Except Fault Unit × Client × Stack ω :=
  match stack.send now client.connection message with
  | (.error fault, stack) => (.error fault, client, stack)
  | (.ok (), stack) =>
    let client := match message with
      | service :: _ =>
        if expectsAnswer then
          { client with state := .waiting service }.arm now client.answer .answer
        else client
      | [] => client
    let client :=
      if client.session = defaultSession then client
      else client.arm now client.settings.session .session
    (.ok (), client, stack)

/-- Makes a request. There is one at a time. -/
def request (client : Client) (now : Tick) (request : Request) (stack : Stack ω) :
    Except Fault Unit × Client × Stack ω :=
  if client.isBusy then (.error .inProgress, client, stack)
  else client.send now request.bytes request.expectsAnswer stack

/-- Makes a request given by its bytes, the service first. -/
def requestBytes (client : Client) (now : Tick) (message : List UInt8) (stack : Stack ω) :
    Except Fault Unit × Client × Stack ω :=
  if message.isEmpty then (.error .argument, client, stack)
  else if client.isBusy then (.error .inProgress, client, stack)
  else client.send now message true stack

/-- Binds the client's connection to an address and requests a session. -/
def startSession (client : Client) (now : Tick) (address : Address) (session : UInt8)
    (stack : Stack ω) : Except Fault Unit × Client × Stack ω :=
  if client.isBusy then (.error .inProgress, client, stack)
  else
    match stack.bind client.connection address with
    | .error fault => (.error fault, client, stack)
    | .ok stack => client.request now (.session session) stack

/-- A timer fired: an answer did not come, or the session is to be kept alive or is over. -/
def expire (client : Client) (now : Tick) (timer : ClientTimer) (stack : Stack ω) :
    Client × Stack ω :=
  match timer with
  | .session =>
    if client.settings.keepSession then
      (client.request now (.testerPresent client.settings.keepAlive) stack).2
    else ({ client with session := defaultSession, level := 0 }, stack)
  | _ => ({ client with state := .idle }.push (.failed .receiveTimeout), stack)

/-- Lets timers that are due fire, at most `fuel` of them. -/
def checkTimersWithin (now : Tick) : (fuel : Nat) → Client × Stack ω → Client × Stack ω
  | 0, state => state
  | fuel + 1, (client, stack) =>
    match client.timers.popDue now with
    | none => (client, stack)
    | some (timer, timers) =>
      checkTimersWithin now fuel ({ client with timers }.expire now timer stack)

/-- Looks at all news and lets the timers that are due fire, all at one reading of the clock. -/
def process (client : Client) (now : Tick) (stack : Stack ω) : Client × Stack ω :=
  checkTimersWithin now Stack.patience (client.openMailbox now, stack)

/-- Closes the client's connection. -/
def close (client : Client) (stack : Stack ω) : Except Fault (Stack ω) :=
  stack.close client.connection

end Client

end DiagBus
