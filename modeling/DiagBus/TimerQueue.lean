import DiagBus.Clock
import DiagBus.Fault
import DiagBus.Slots

namespace DiagBus

/-- A pending timer and the handle of the one behind it. -/
structure PendingTimer (ε : Type) where
  deadline : Tick
  event : ε
  next : Option Handle

/-- The pending timers, and the handle of the one that fires first. -/
structure TimerQueue (ε : Type) where
  timers : Slots (PendingTimer ε)
  head : Option Handle := none

variable {ε : Type}

/-- Room for `capacity` pending timers. -/
def TimerQueue.ofCapacity (capacity : Nat) : TimerQueue ε :=
  { timers := Slots.ofCapacity capacity }

/-- At most `fuel` timers in firing order, from the given one on. -/
def chainFrom (timers : Slots (PendingTimer ε)) :
    Nat → Option Handle → List (Handle × PendingTimer ε)
  | 0, _ => []
  | _, none => []
  | fuel + 1, some handle =>
    match timers.get? handle with
    | none => []
    | some timer => (handle, timer) :: chainFrom timers fuel timer.next

/-- The pending timers in firing order. No slot comes twice, so the capacity bounds the walk. -/
def TimerQueue.chain (queue : TimerQueue ε) : List (Handle × PendingTimer ε) :=
  chainFrom queue.timers queue.timers.capacity queue.head

/-- The events in firing order. -/
def TimerQueue.events (queue : TimerQueue ε) : List ε :=
  queue.chain.map (·.2.event)

def TimerQueue.size (queue : TimerQueue ε) : Nat :=
  queue.timers.size

def TimerQueue.isEmpty (queue : TimerQueue ε) : Bool :=
  queue.timers.isEmpty

/-- The handle of the last of these timers. -/
def lastHandle (links : List (Handle × PendingTimer ε)) : Option Handle :=
  links.getLast?.map (·.1)

/-- Lets `next` follow on the pending timer `previous`, or lead the queue if there is none. -/
def TimerQueue.follow (queue : TimerQueue ε) (previous next : Option Handle) : TimerQueue ε :=
  match previous.bind fun last => (queue.timers.get? last).map (last, ·) with
  | none => { queue with head := next }
  | some (last, timer) => { queue with timers := queue.timers.set last { timer with next } }

/-- Empties the slot of a timer that no link leads to any more. -/
def TimerQueue.discard (queue : TimerQueue ε) (handle : Handle) : TimerQueue ε :=
  match queue.timers.erase handle with
  | none => queue
  | some (_, timers) => { queue with timers }

/-- Arms `event` to fire `delay` after `now`, behind all timers that do not fire later. -/
def TimerQueue.schedule (queue : TimerQueue ε) (now delay : Tick) (event : ε) :
    Except Fault (TimerQueue ε) :=
  let deadline := now.after delay
  let earlier := queue.chain.takeWhile fun (_, timer) => !deadline.before timer.deadline
  let next := match earlier.getLast? with
    | none => queue.head
    | some (_, timer) => timer.next
  match queue.timers.insert { deadline, event, next } with
  | none => .error .memory
  | some (handle, timers) => .ok ({ queue with timers }.follow (lastHandle earlier) (some handle))

/-- Takes the first timer whose event passes the test out of the queue, if there is one. -/
def TimerQueue.removeFirst (queue : TimerQueue ε) (test : ε → Bool) : TimerQueue ε :=
  let earlier := queue.chain.takeWhile fun (_, timer) => !test timer.event
  match queue.chain.drop earlier.length with
  | [] => queue
  | (handle, timer) :: _ => (queue.follow (lastHandle earlier) timer.next).discard handle

/-- Cancels the first timer of this event. -/
def TimerQueue.cancel [DecidableEq ε] (queue : TimerQueue ε) (event : ε) : TimerQueue ε :=
  queue.removeFirst (· = event)

/-- Cancels what passes the test among the next `fuel` timers from `current` on. The last timer before
them is `previous`. -/
def TimerQueue.cancelFrom (test : ε → Bool) :
    Nat → (previous current : Option Handle) → TimerQueue ε → TimerQueue ε
  | 0, _, _, queue => queue
  | _, _, none, queue => queue
  | fuel + 1, previous, some handle, queue =>
    match queue.timers.get? handle with
    | none => queue
    | some timer =>
      if test timer.event then
        cancelFrom test fuel previous timer.next
          ((queue.follow previous timer.next).discard handle)
      else cancelFrom test fuel (some handle) timer.next queue

/-- Cancels every timer whose event passes the test, in one pass. -/
def TimerQueue.cancelAll (queue : TimerQueue ε) (test : ε → Bool) : TimerQueue ε :=
  cancelFrom test queue.size none queue.head queue

/-- The first timer, if one is pending. -/
def TimerQueue.first? (queue : TimerQueue ε) : Option (Handle × PendingTimer ε) := do
  let handle ← queue.head
  let timer ← queue.timers.get? handle
  return (handle, timer)

/-- The deadline of the first timer. Nothing fires before it. -/
def TimerQueue.nextDeadline (queue : TimerQueue ε) : Option Tick :=
  queue.first?.map (·.2.deadline)

/-- Takes the first timer out of the queue if it is due at `now`. -/
def TimerQueue.popDue (queue : TimerQueue ε) (now : Tick) : Option (ε × TimerQueue ε) := do
  let (handle, timer) ← queue.first?
  guard (!now.before timer.deadline)
  let (timer, timers) ← queue.timers.erase handle
  return (timer.event, { timers, head := timer.next })

end DiagBus
