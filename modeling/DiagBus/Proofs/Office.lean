import DiagBus.Proofs.Desk

namespace DiagBus

variable {ω : Type}

/-- What a call returns to the program. -/
inductive Reply
  | nothing
  | registered (result : Except Fault InterfaceIndex)
  | opened (handle : Option Handle)
  | outcome (result : Except Fault Unit)
  | event (event : Option ClientEvent)

/-- The outcome of a call whose result is the stack after it. -/
def Reply.ofOutcome (result : Except Fault (Stack ω)) : Reply :=
  .outcome (result.map fun _ => ())

def Call.reply : Call ω → Stack ω → Reply
  | .addInterface interface, stack => .registered ((stack.addInterface interface).map (·.1))
  | .removeInterface index, stack => .ofOutcome (stack.removeInterface index)
  | .subscribe index, stack => .opened ((stack.subscribe index).map (·.1))
  | .updateSubscription handle change, stack => .ofOutcome (stack.updateSubscription handle change)
  | .rebind handle index, stack => .ofOutcome (stack.rebind handle index)
  | .unsubscribe handle, stack => .ofOutcome (stack.unsubscribe handle)
  | .sendFrame handle frame, stack => .outcome (stack.sendFrame handle frame).1
  | .openConnection, stack => .opened (stack.openConnection.map (·.1))
  | .bind handle address, stack => .ofOutcome (stack.bind handle address)
  | .listen handle onReceived onSent onFailed, stack =>
    .ofOutcome (stack.updateConnection handle ({ · with onReceived, onSent, onFailed }))
  | .close handle, stack => .ofOutcome (stack.close handle)
  | .send now handle message, stack => .outcome (stack.send now handle message).1
  | _, _ => .nothing

def Deed.reply : Deed ω → Desk ω → Reply
  | .call made, desk => made.reply desk.stack
  | .request now made, desk => .outcome (desk.client.request now made desk.stack).1
  | .requestBytes now message, desk => .outcome (desk.client.requestBytes now message desk.stack).1
  | .startSession now address session, desk =>
    .outcome (desk.client.startSession now address session desk.stack).1
  | .nextEvent, desk => .event desk.client.nextEvent.1
  | _, _ => .nothing

def DeskCall.reply : DeskCall ω → Desk ω → Reply
  | .deed done, desk => done.reply desk
  | .process _, _ => .nothing

/-- A client among others: the name under which it listens, and how many signals it was told of. -/
structure Seat where
  listener : Listener
  client : Client
  heard : Nat

/-- A stack and the clients that live on it. -/
structure Office (ω : Type) where
  stack : Stack ω
  seats : List Seat := []

/-- A call to a stack or to one of its clients. A call is given one reading of the clock. If the
clock goes on while frames and timers are looked at, the parts of that are calls: `world`, `input`
and `checkAlarms` to the stack, and the steps of a client. -/
inductive OfficeCall (ω : Type)
  /-- The program calls the stack. -/
  | call (call : Call ω)
  /-- A client is made for the stack; it gets the next number. -/
  | attach (settings : ClientSettings) (listener : Listener)
  /-- The program calls a client. -/
  | client (number : Nat) (call : DeskCall ω)
  /-- A client takes one step of looking at its news and its timers. -/
  | step (number : Nat) (step : DeskStep ω)

def Desk.seat (desk : Desk ω) : Seat where
  listener := desk.listener
  client := desk.client
  heard := desk.heard

def Seat.desk (seat : Seat) (stack : Stack ω) : Desk ω where
  listener := seat.listener
  client := seat.client
  stack
  heard := seat.heard

namespace Office

/-- Every client is told what the stack has for it. -/
def deliver (office : Office ω) : Office ω :=
  { office with seats := office.seats.map fun seat => (seat.desk office.stack).deliver.seat }

/-- The office after one of the clients was at work. -/
def adopt (office : Office ω) (number : Nat) (desk : Desk ω) : Office ω :=
  deliver { stack := desk.stack, seats := office.seats.set number desk.seat }

end Office

/-- What a call returns, and the office after it. -/
def OfficeCall.run : OfficeCall ω → Office ω → Reply × Office ω
  | .call made, office =>
    (made.reply office.stack, { office with stack := made.run office.stack }.deliver)
  | .attach settings listener, office =>
    match Desk.attach settings listener office.stack with
    | .error fault => (.outcome (.error fault), office)
    | .ok desk => (.outcome (.ok ()), { stack := desk.stack, seats := office.seats ++ [desk.seat] })
  | .client number made, office =>
    match office.seats[number]? with
    | none => (.nothing, office)
    | some seat =>
      (made.reply (seat.desk office.stack),
        office.adopt number (made.run (seat.desk office.stack)))
  | .step number taken, office =>
    match office.seats[number]? with
    | none => (.nothing, office)
    | some seat => (.nothing, office.adopt number (taken.run (seat.desk office.stack)))

/-- What these calls return one after the other, and the office after all of them. -/
def Office.calls (office : Office ω) : List (OfficeCall ω) → List Reply × Office ω
  | [] => ([], office)
  | call :: rest =>
    (((call.run office).1 :: ((call.run office).2.calls rest).1), ((call.run office).2.calls rest).2)

end DiagBus
