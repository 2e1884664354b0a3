import DiagBus.Bench.Bench

namespace DiagBus

namespace Bench

/-- All stacks process, in order. -/
def processAll (bench : Bench) : Bench :=
  (List.range bench.stations.length).foldl (fun bench station =>
    match bench.run station (·.process bench.now) with
    | .ok (_, bench) => bench
    | .error _ => bench) bench

/-- Rounds of all stacks processing until no node holds a received frame, at most `fuel`. -/
def pumpWithin : (fuel : Nat) → Bench → Nat × Bench
  | 0, bench => (0, bench)
  | fuel + 1, bench =>
    let bench := bench.processAll
    if bench.bus.isQuiet then (1, bench)
    else
      let (rounds, bench) := pumpWithin fuel bench
      (rounds + 1, bench)

/-- The most rounds of one pump. -/
def pumpLimit : Nat := 2000

/-- Adds a node to the bus and registers it with a stack. The node stays if that fails. -/
def addNode (bench : Bench) (station : Nat) (kind : NodeKind) : Except Misuse (Answer × Bench) := do
  let name := bench.bus.nodes.length
  let node : Node := { kind }
  let bench := { bench with bus := { nodes := bench.bus.nodes ++ [node] } }
  match (← bench.stack station).addInterface (Bus.interface name kind) with
  | .error fault => return (.failed fault, bench)
  | .ok (index, stack) =>
    let wire (station : Station) : Station :=
      { stack, wiring := (index, name) :: station.wiring }
    return (.number index.number, { bench with stations := bench.stations.modify station wire })

/-- Lets the application listen to a connection under the connection's number. -/
def listenTo (name : Nat) (connection : Connection) : Connection :=
  let listener := some (.application name)
  { connection with onReceived := listener, onSent := listener, onFailed := listener }

def openConnection (bench : Bench) (station : Nat) (listening : Bool) :
    Except Misuse (Answer × Bench) := do
  let name := bench.connections.length
  match (← bench.stack station).openConnection with
  | none => return (.nothing, bench)
  | some (handle, stack) =>
    let bench := { bench with connections := bench.connections ++ [(station, handle)] }.absorb
      station stack
    if listening then
      let (_, bench) ← bench.attempt station (·.updateConnection handle (listenTo name))
      return (.number name, bench)
    else return (.number name, bench)

def subscribe (bench : Bench) (station : Nat) (index : InterfaceIndex) :
    Except Misuse (Answer × Bench) := do
  match (← bench.stack station).subscribe index with
  | none => return (.nothing, bench)
  | some (handle, stack) =>
    let bench := { bench with subscriptions := bench.subscriptions ++ [handle] }
    return (.number (bench.subscriptions.length - 1), bench.absorb station stack)

def openClient (bench : Bench) (station : Nat) (settings : ClientSettings) :
    Except Misuse (Answer × Bench) := do
  let name := bench.clients.length
  match Client.attach settings (.client name) (← bench.stack station) with
  | .error fault => return (.failed fault, bench)
  | .ok (client, stack) =>
    let bench := { bench with
      connections := bench.connections ++ [(station, client.connection)]
      clients := bench.clients ++ [some client] }
    return (.client name (bench.connections.length - 1), bench.absorb station stack)

/-- Closes a client; it is gone even if its connection was closed before. -/
def closeClient (bench : Bench) (station name : Nat) : Except Misuse (Answer × Bench) := do
  let client ← require bench.clients[name]?.join .noClient
  { bench with clients := bench.clients.set name none }.attempt station client.close

/-- Runs a command of a client that only concerns the client and one stack. -/
def runClient (bench : Bench) (station name : Nat)
    (call : Client → Stack Bus → Except Fault Unit × Client × Stack Bus) :
    Except Misuse (Answer × Bench) :=
  bench.callClient station name fun client stack =>
    let (result, client, stack) := call client stack
    (.ofResult result, client, stack)

/-- Lets a client process. -/
def processClient (bench : Bench) (station name : Nat) : Except Misuse (Answer × Bench) :=
  bench.callClient station name fun client stack => (.done, client.process bench.now stack)

/-- Changes a client. -/
def updateClient (bench : Bench) (name : Nat) (change : Client → Client) :
    Except Misuse (Answer × Bench) := do
  let client ← require bench.clients[name]?.join .noClient
  return (.done, { bench with clients := bench.clients.set name (change client) })

def stepClient (bench : Bench) (station name : Nat) :
    ClientCommand → Except Misuse (Answer × Bench)
  | .process => bench.processClient station name
  | .tick time => do
    let _ ← require bench.clients[name]?.join .noClient
    let (_, bench) ← { bench with now := time }.run station (·.process time)
    bench.processClient station name
  | .respond place frame => do
    let _ ← require bench.clients[name]?.join .noClient
    let index ← index place
    let frame ← require frame .badFrame
    let (_, bench) ← bench.run station (·.input bench.now index frame)
    bench.processClient station name
  | .next => do
    let client ← require bench.clients[name]?.join .noClient
    let (event, client) := client.nextEvent
    return (.event event, { bench with clients := bench.clients.set name client })
  | .drain => do
    let client ← require bench.clients[name]?.join .noClient
    return (.events client.events,
      { bench with clients := bench.clients.set name (some { client with events := [] }) })
  | .setLevel level => bench.updateClient name ({ · with level })
  | .setAnswer answer => bench.updateClient name ({ · with answer })
  | .setDelayedAnswer delayedAnswer => bench.updateClient name ({ · with delayedAnswer })
  | .startSession place transmits receives flexible session => do
    let _ ← require bench.clients[name]?.join .noClient
    let interface ← index place
    let transmits ← require transmits .badId
    let receives ← require receives .badId
    bench.runClient station name fun client stack =>
      client.startSession bench.now { interface, transmits, receives, flexible } session stack
  | .request request =>
    bench.runClient station name fun client stack => client.request bench.now request stack
  | .requestBytes message =>
    bench.runClient station name fun client stack => client.requestBytes bench.now message stack

/-- Runs a command, if it has a meaning. -/
def step (bench : Bench) : Command → Except Misuse (Answer × Bench)
  | .setClock time => return (.number time.toNat, { bench with now := time })
  | .advance span =>
    let now := bench.now.after span
    return (.number now.toNat, { bench with now })
  | .process station => bench.run station (·.process bench.now)
  | .check station => bench.run station (·.checkAlarms bench.now)
  | .pump =>
    let (rounds, bench) := pumpWithin pumpLimit bench
    return (.number rounds, bench)
  | .settings station => do return (.settings (← bench.stack station).settings, bench)
  | .addNode station kind => bench.addNode station kind
  | .removeInterface station place => do
    let index ← index place
    bench.attempt station (·.removeInterface index)
  | .fail name failing => do
    let _ ← bench.node name
    return (.done, { bench with bus := bench.bus.update name ({ · with failing }) })
  | .link a b => do
    let _ ← bench.node a
    let _ ← bench.node b
    return (.done, { bench with bus := bench.bus.link a b })
  | .connect name connected => do
    let _ ← bench.node name
    return (.done, { bench with bus := bench.bus.update name ({ · with connected }) })
  | .push name frame => do
    let _ ← bench.node name
    let frame ← require frame .badFrame
    return (.done, { bench with
      bus := bench.bus.update name fun node => { node with inbox := node.inbox ++ [frame] } })
  | .pushWire name id bytes remote => do
    let _ ← bench.node name
    let id ← require id .badId
    return (.done, { bench with
      bus := bench.bus.update name fun node =>
        { node with wire := node.wire ++ [{ id, bytes, remote }] } })
  | .input station place frame => do
    let index ← index place
    let frame ← require frame .badFrame
    bench.run station (·.input bench.now index frame)
  | .sent station place frame => do
    let index ← index place
    let frame ← require frame .badFrame
    bench.run station (·.sent bench.now index frame)
  | .confirm station place name newest => do
    let index ← index place
    let _ ← bench.node name
    let (frame, bus) ← require (bench.bus.takeUnconfirmed name newest) .nothingUnconfirmed
    let (_, bench) ← { bench with bus }.run station (·.sent bench.now index frame)
    return (.frame frame, bench)
  | .openConnection station listening => bench.openConnection station listening
  | .listen station name => do
    let handle ← bench.connection name
    bench.attempt station (·.updateConnection handle (listenTo name))
  | .bind station name place transmits receives flexible => do
    let handle ← bench.connection name
    let interface ← index place
    let transmits ← require transmits .badId
    let receives ← require receives .badId
    bench.attempt station (·.bind handle { interface, transmits, receives, flexible })
  | .send station name message => do
    let handle ← bench.connection name
    bench.call station fun stack =>
      let (result, stack) := stack.send bench.now handle message
      (.ofResult result, stack)
  | .close station name => do
    let handle ← bench.connection name
    bench.attempt station (·.close handle)
  | .phases station name => do
    let handle ← bench.connection name
    match (← bench.stack station).phases handle with
    | .ok (output, input) => return (.phases output input, bench)
    | .error fault => return (.failed fault, bench)
  | .subscribe station place => do
    bench.subscribe station (← index place)
  | .rebind station name place => do
    let handle ← bench.subscription name
    let index ← index place
    bench.attempt station (·.rebind handle index)
  | .unsubscribe station name => do
    let handle ← bench.subscription name
    bench.attempt station (·.unsubscribe handle)
  | .sendFrame station name frame => do
    let handle ← bench.subscription name
    let frame ← require frame .badFrame
    bench.call station fun stack =>
      let (result, stack) := stack.sendFrame handle frame
      (.ofResult result, stack)
  | .listenSent station name => do
    let handle ← bench.subscription name
    bench.attempt station (·.updateSubscription handle
      ({ · with onSent := some (.application name) }))
  | .listenReceived station name low high => do
    let handle ← bench.subscription name
    let consumes (frame : Frame) (bus : Bus) : Bool × Bus :=
      let first := frame.payload.headD 0
      (low ≤ first ∧ first ≤ high, bus)
    bench.attempt station (·.updateSubscription handle
      ({ · with onReceive := some (.application name, consumes) }))
  | .openClient station settings => bench.openClient station settings
  | .closeClient station name => bench.closeClient station name
  | .client station name command => bench.stepClient station name command

/-- Runs a command with a fresh journal. -/
def execute (bench : Bench) (command : Command) : Answer × Bench :=
  let bench := { bench with journal := [] }
  match bench.step command with
  | .ok result => result
  | .error misuse => (.misuse misuse, bench)

end Bench

end DiagBus
