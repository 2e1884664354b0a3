import DiagBus.Bench.Command

namespace DiagBus

/-- A stack, and the nodes behind its interfaces, the newest first. -/
structure Station where
  stack : Stack Bus
  wiring : List (InterfaceIndex × Nat) := []

structure Bench where
  now : Tick
  bus : Bus := {}
  stations : List Station
  /-- The connections with the stacks that opened them. -/
  connections : List (Nat × Handle) := []
  subscriptions : List Handle := []
  /-- The clients; a closed one leaves a gap. -/
  clients : List (Option Client) := []
  /-- What happened while the last command ran. -/
  journal : List Entry := []

/-- The entry a signal makes. A frame that a polled controller has no form for never reached it,
and clients have no entries. -/
def Signal.toEntry (signal : Signal) (wiring : List (InterfaceIndex × Nat)) (bus : Bus) :
    Option Entry :=
  match signal with
  | .handed _ index frame => (wiring.lookup index).map (.handed · frame)
  | .refused _ index frame reason => do
    let node ← wiring.lookup index
    let polled := bus.nodes[node]?.any (·.kind.isPolled)
    guard (!(polled && reason = .unsupported))
    return .refused node frame
  | .received (.application name) _ message => some (.received name message)
  | .sent (.application name) _ length => some (.sent name length)
  | .failed (.application name) _ fault => some (.failed name fault)
  | .offered (.application name) _ frame consumed => some (.offered name frame consumed)
  | .frameSent (.application name) _ frame => some (.frameSent name frame)
  | _ => none

/-- The value that a command needs, or what is wrong with the command. -/
def require {α : Type} (value : Option α) (misuse : Misuse) : Except Misuse α :=
  match value with
  | none => .error misuse
  | some value => .ok value

/-- The answer of a call that returns nothing. -/
def Answer.ofResult : Except Fault Unit → Answer
  | .ok () => .done
  | .error fault => .failed fault

namespace Bench

/-- A bench with a stack for each of the settings. -/
def new (settings : List Settings) (start : Tick) : Except Fault Bench := do
  let made ← settings.mapM fun settings => Stack.new settings ({} : Bus)
  return { now := start, stations := made.map fun stack => { stack } }

/-- A stack as it stands on the bus now. -/
def stack (bench : Bench) (station : Nat) : Except Misuse (Stack Bus) :=
  require (bench.stations[station]?.map fun station =>
    { station.stack with outside := { world := bench.bus } }) .noStack

/-- Takes a stack back after a call: what it did to the bus, and its signals. -/
def absorb (bench : Bench) (station : Nat) (stack : Stack Bus) : Bench :=
  match bench.stations[station]? with
  | none => bench
  | some old =>
    let bus := stack.outside.world
    let signals := stack.outside.signals
    let hear (client : Option Client) (name : Nat) : Option Client :=
      client.map fun client =>
        (signals.filterMap (·.delivery? (.client name))).foldl (·.deliver ·) client
    { bench with
      bus
      stations := bench.stations.set station { old with stack }
      clients := bench.clients.mapIdx fun name client => hear client name
      journal := bench.journal ++ signals.filterMap (·.toEntry old.wiring bus) }

/-- A call that changes a stack. -/
def call (bench : Bench) (station : Nat) (call : Stack Bus → Answer × Stack Bus) :
    Except Misuse (Answer × Bench) := do
  let (answer, stack) := call (← bench.stack station)
  return (answer, bench.absorb station stack)

/-- A call that cannot fail. -/
def run (bench : Bench) (station : Nat) (change : Stack Bus → Stack Bus) :
    Except Misuse (Answer × Bench) :=
  bench.call station fun stack => (.done, change stack)

/-- A call that fails without an effect. -/
def attempt (bench : Bench) (station : Nat) (change : Stack Bus → Except Fault (Stack Bus)) :
    Except Misuse (Answer × Bench) :=
  bench.call station fun stack =>
    match change stack with
    | .ok stack => (.done, stack)
    | .error fault => (.failed fault, stack)

/-- A call on a client and a stack. -/
def callClient (bench : Bench) (station name : Nat)
    (call : Client → Stack Bus → Answer × Client × Stack Bus) :
    Except Misuse (Answer × Bench) := do
  let client ← require bench.clients[name]?.join .noClient
  let (answer, client, stack) := call client (← bench.stack station)
  return (answer, { bench with clients := bench.clients.set name client }.absorb station stack)

def index (number : UInt8) : Except Misuse InterfaceIndex :=
  require (InterfaceIndex.ofNumber? number) .noIndex

def connection (bench : Bench) (name : Nat) : Except Misuse Handle :=
  require (bench.connections[name]?.map (·.2)) .noConnection

def subscription (bench : Bench) (name : Nat) : Except Misuse Handle :=
  require bench.subscriptions[name]? .noSubscription

def node (bench : Bench) (name : Nat) : Except Misuse Node :=
  require bench.bus.nodes[name]? .noNode

end Bench

end DiagBus
