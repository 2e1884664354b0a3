import DiagBus.Proofs.TimerQueue

namespace DiagBus

variable {ε : Type}

inductive TimerCall (ε : Type)
  | schedule (now delay : Tick) (event : ε)
  | cancel (event : ε)
  | cancelAll (test : ε → Bool)
  | popDue (now : Tick)

inductive TimerReply (ε : Type)
  | done
  | failed (fault : Fault)
  /-- The event of the timer that fired, if one was due. -/
  | popped (event : Option ε)
  deriving DecidableEq

/-- What a walk along the links meets from this handle on. There is one only if the walk ends. -/
inductive Walk (timers : Slots (PendingTimer ε)) :
    Option Handle → List (Handle × PendingTimer ε) → Prop
  | ended : Walk timers none []
  | onward {handle : Handle} {timer : PendingTimer ε} {rest : List (Handle × PendingTimer ε)}
      (live : timers.get? handle = some timer) (later : Walk timers timer.next rest) :
      Walk timers (some handle) ((handle, timer) :: rest)

theorem Walk.of_chained {timers : Slots (PendingTimer ε)} {head : Option Handle}
    {links : List (Handle × PendingTimer ε)} (chained : Chained head links)
    (live : ∀ link ∈ links, timers.get? link.1 = some link.2) : Walk timers head links := by
  induction links generalizing head with
  | nil =>
    rw [show head = none from chained]
    exact .ended
  | cons link rest ih =>
    obtain ⟨handle, timer⟩ := link
    obtain ⟨rfl, later⟩ := chained
    exact .onward (live _ List.mem_cons_self)
      (ih later fun link member => live link (List.mem_cons_of_mem _ member))

/-- A timer is put behind all that do not fire later. -/
theorem insertPending_parts (pending : List (ε × Tick)) (event : ε) (deadline : Tick) :
    ∃ earlier later, pending = earlier ++ later ∧
      insertPending pending event deadline = earlier ++ (event, deadline) :: later ∧
      (∀ timer ∈ earlier, deadline.before timer.2 = false) ∧
      ∀ first ∈ later.head?, deadline.before first.2 = true := by
  refine ⟨_, _, List.takeWhile_append_dropWhile.symm, rfl, fun timer member => ?_,
    fun first member => ?_⟩
  · simpa using List.mem_takeWhile_imp member
  · have stops := List.head?_dropWhile_not (fun timer : ε × Tick => !deadline.before timer.2) pending
    rw [Option.mem_def.mp member] at stops
    simpa using stops

def Slots.InUse {α : Type} (table : Slots α) (position : Nat) : Prop :=
  ∃ slot, table.slots[position]? = some slot ∧ slot.value.isSome

namespace TimerQueue

/-- The slots that the links lead through. -/
def visited (queue : TimerQueue ε) : List Nat :=
  queue.chain.map (·.1.slot.toNat)

/-- The links run from the head through every slot in use, once through each, and end. -/
structure Threaded (queue : TimerQueue ε) : Prop where
  walk : Walk queue.timers queue.head queue.chain
  once : queue.visited.Nodup
  everywhere : ∀ position, position ∈ queue.visited ↔ queue.timers.InUse position
  counted : queue.chain.length = queue.size

variable {queue after : TimerQueue ε}

theorem Linked.threaded (linked : queue.Linked) : queue.Threaded where
  walk := Walk.of_chained linked.chained linked.live
  once := by
    have slots : queue.visited = (queue.chain.map (·.1)).map (·.slot.toNat) := by
      rw [visited, List.map_map]
      rfl
    rw [slots]
    refine linked.distinct.map_on fun first here second there same => ?_
    obtain ⟨⟨_, timer⟩, one, rfl⟩ := List.mem_map.mp here
    obtain ⟨⟨_, other⟩, two, rfl⟩ := List.mem_map.mp there
    -- two live handles of one slot are both of its present generation
    have entry := Slots.get?_eq_some_iff.mp (linked.live _ one)
    rw [same, Slots.get?_eq_some_iff.mp (linked.live _ two)] at entry
    exact Handle.eq_of_slot same (Slot.mk.inj (Option.some.inj entry)).2.symm
  everywhere := by
    intro position
    constructor
    · intro member
      obtain ⟨link, here, rfl⟩ := List.mem_map.mp member
      exact ⟨_, Slots.get?_eq_some_iff.mp (linked.live _ here), rfl⟩
    · rintro ⟨slot, entry, filled⟩
      obtain ⟨timer, value⟩ := Option.isSome_iff_exists.mp filled
      obtain ⟨inside, _⟩ := List.getElem?_eq_some_iff.mp entry
      have place := handleAt_slot slot (inside.trans_le linked.wellFormed.numbered)
      have live : queue.timers.get? (handleAt position slot) = some timer := by
        rw [Slots.get?_eq_some_iff, place, entry, ← value]
        rfl
      exact List.mem_map.mpr ⟨_, linked.complete _ _ live, place⟩
  counted := LinkedBy.length_eq linked

theorem Linked.size_le (linked : queue.Linked) : queue.size ≤ queue.timers.capacity :=
  Slots.used_le_capacity linked.wellFormed

/-- Arming a timer fails for want of memory only. -/
theorem schedule_error {now delay : Tick} {event : ε} {fault : Fault}
    (run : queue.schedule now delay event = .error fault) : fault = .memory := by
  rw [schedule_eq] at run
  simp only [] at run
  split at run <;> cases run
  rfl

/-- Nothing is popped exactly if the first timer lies ahead. -/
theorem popDue_none (linked : queue.Linked) {now : Tick} (run : queue.popDue now = none) :
    ∀ first ∈ queue.pending.head?, now.before first.2 := by
  have whole : queue.LinkedBy queue.chain := linked
  intro first member
  cases links : queue.chain with
  | nil => simp [pending, links] at member
  | cons link rest =>
    obtain ⟨handle, timer⟩ := link
    rw [links] at whole
    have popped := whole.popDue now
    by_cases early : now.before timer.deadline = true
    · simp only [pending, links, List.map_cons, List.head?_cons, Option.mem_def,
        Option.some.injEq] at member
      rw [← member]
      exact early
    · rw [if_neg early, run] at popped
      obtain ⟨_, impossible, _⟩ := popped
      cases impossible

end TimerQueue

/-- The call's answer, and the queue after it. A call that fails leaves the queue as it was. -/
def TimerCall.run [DecidableEq ε] : TimerCall ε → TimerQueue ε → TimerReply ε × TimerQueue ε
  | .schedule now delay event, queue =>
    match queue.schedule now delay event with
    | .ok after => (.done, after)
    | .error fault => (.failed fault, queue)
  | .cancel event, queue => (.done, queue.cancel event)
  | .cancelAll test, queue => (.done, queue.cancelAll test)
  | .popDue now, queue =>
    match queue.popDue now with
    | none => (.popped none, queue)
    | some (event, after) => (.popped (some event), after)

/-- A call and the queue that it finds. -/
structure TimerMoment (ε : Type) where
  before : TimerQueue ε
  call : TimerCall ε

variable [DecidableEq ε]

namespace TimerMoment

def reply (moment : TimerMoment ε) : TimerReply ε :=
  (moment.call.run moment.before).1

def after (moment : TimerMoment ε) : TimerQueue ε :=
  (moment.call.run moment.before).2

/-- Which events are awaited after a call, given those awaited before it. -/
def await (moment : TimerMoment ε) (events : List ε) : List ε :=
  match moment.call, moment.reply with
  | .schedule _ _ event, .done => event :: events
  | .cancel event, _ => events.erase event
  | .cancelAll test, _ => events.filter fun event => !test event
  | .popDue _, .popped (some event) => events.erase event
  | _, _ => events

/-- What a call does to the pending timers: one is put in front of a timer that fires later, the
first that matches or all that match are taken out, or the first one is popped. -/
def Proceeds (moment : TimerMoment ε) : Prop :=
  match moment.call with
  | .schedule now delay event =>
    if moment.before.size = moment.before.timers.capacity then
      moment.reply = .failed .memory ∧ moment.after = moment.before
    else
      moment.reply = .done ∧ ∃ earlier later,
        moment.before.pending = earlier ++ later ∧
        moment.after.pending = earlier ++ (event, now.after delay) :: later ∧
        (∀ timer ∈ earlier, (now.after delay).before timer.2 = false) ∧
        ∀ first ∈ later.head?, (now.after delay).before first.2 = true
  | .cancel event =>
    moment.reply = .done ∧ moment.after.pending = moment.before.pending.eraseP (·.1 = event)
  | .cancelAll test =>
    moment.reply = .done ∧
      moment.after.pending = moment.before.pending.filter fun timer => !test timer.1
  | .popDue now =>
    (moment.reply = .popped none ∧ moment.after = moment.before ∧
        ∀ first ∈ moment.before.pending.head?, now.before first.2 = true) ∨
      ∃ event deadline, moment.reply = .popped (some event) ∧ now.before deadline = false ∧
        moment.before.pending = (event, deadline) :: moment.after.pending

end TimerMoment

/-- The events that were armed and neither cancelled nor popped since. -/
def awaited (past : List (TimerMoment ε)) : List ε :=
  past.foldl (fun events moment => moment.await events) []

namespace TimerQueue

def calls (queue : TimerQueue ε) (calls : List (TimerCall ε)) : TimerQueue ε :=
  calls.foldl (fun queue call => (call.run queue).2) queue

/-- The calls with the queues that they find. -/
def history (queue : TimerQueue ε) : List (TimerCall ε) → List (TimerMoment ε)
  | [] => []
  | call :: rest => ⟨queue, call⟩ :: (call.run queue).2.history rest

end TimerQueue

namespace TimerMoment

variable {moment : TimerMoment ε}

theorem schedule_proceeds {queue : TimerQueue ε} (linked : queue.Linked) (now delay : Tick)
    (event : ε) :
    TimerQueue.Linked (after ⟨queue, .schedule now delay event⟩) ∧
      (after ⟨queue, .schedule now delay event⟩).timers.capacity = queue.timers.capacity ∧
      Proceeds ⟨queue, .schedule now delay event⟩ := by
  simp only [Proceeds, after, reply, TimerCall.run]
  cases run : queue.schedule now delay event with
  | error fault =>
    have full : queue.size = queue.timers.capacity := by
      by_contra room
      obtain ⟨_, made, _⟩ :=
        TimerQueue.schedule_linked linked now delay event (linked.size_le.lt_of_ne room)
      rw [run] at made
      cases made
    rw [if_pos full, TimerQueue.schedule_error run]
    exact ⟨linked, rfl, rfl, rfl⟩
  | ok later =>
    obtain ⟨linked', capacity, pending⟩ := TimerQueue.schedule_ok linked run
    obtain ⟨earlier, behind, parts, inserted, before, ahead⟩ :=
      insertPending_parts queue.pending event (now.after delay)
    rw [inserted] at pending
    have room : queue.size ≠ queue.timers.capacity := by
      have old := linked.length_pending
      have new := linked'.length_pending
      have most := linked'.size_le
      rw [parts] at old
      rw [pending] at new
      simp only [List.length_append, List.length_cons] at old new
      omega
    rw [if_neg room]
    exact ⟨linked', capacity, rfl, earlier, behind, parts, pending, before, ahead⟩

theorem popDue_proceeds {queue : TimerQueue ε} (linked : queue.Linked) (now : Tick) :
    TimerQueue.Linked (after ⟨queue, .popDue now⟩) ∧
      (after ⟨queue, .popDue now⟩).timers.capacity = queue.timers.capacity ∧
      Proceeds ⟨queue, .popDue now⟩ := by
  simp only [Proceeds, after, reply, TimerCall.run]
  cases run : queue.popDue now with
  | none => exact ⟨linked, rfl, .inl ⟨rfl, rfl, TimerQueue.popDue_none linked run⟩⟩
  | some popped =>
    obtain ⟨event, later⟩ := popped
    obtain ⟨linked', capacity, deadline, due, pending⟩ := TimerQueue.popDue_linked linked run
    exact ⟨linked', capacity, .inr ⟨event, deadline, rfl, due, pending⟩⟩

/-- Every call finds the links in order and leaves them so. -/
theorem proceeds (linked : moment.before.Linked) :
    moment.after.Linked ∧ moment.after.timers.capacity = moment.before.timers.capacity ∧
      moment.Proceeds := by
  obtain ⟨queue, call⟩ := moment
  cases call with
  | schedule now delay event => exact schedule_proceeds linked now delay event
  | cancel event =>
    obtain ⟨linked', capacity, pending⟩ := TimerQueue.cancel_linked linked event
    exact ⟨linked', capacity, rfl, pending⟩
  | cancelAll test =>
    obtain ⟨linked', capacity, pending⟩ := TimerQueue.cancelAll_linked linked test
    exact ⟨linked', capacity, rfl, pending⟩
  | popDue now => exact popDue_proceeds linked now

/-- The events awaited are those of the pending timers, whatever the order. -/
theorem Proceeds.await (proceeds : moment.Proceeds) {events : List ε}
    (balance : moment.before.events.Perm events) :
    moment.after.events.Perm (moment.await events) := by
  rw [TimerQueue.events_eq] at balance ⊢
  obtain ⟨queue, call⟩ := moment
  unfold TimerMoment.await
  cases call with
  | schedule now delay event =>
    simp only [Proceeds] at proceeds
    split at proceeds
    · obtain ⟨reply, same⟩ := proceeds
      rw [reply, same]
      exact balance
    · obtain ⟨reply, earlier, later, parts, inserted, _⟩ := proceeds
      rw [reply, inserted]
      rw [parts] at balance
      simp only [List.map_append, List.map_cons] at balance ⊢
      exact List.perm_middle.trans (balance.cons event)
  | cancel event =>
    obtain ⟨reply, pending⟩ := proceeds
    have erased : (queue.pending.eraseP (·.1 = event)).map (·.1) =
        (queue.pending.map (·.1)).erase event := by
      rw [List.erase_eq_eraseP', List.eraseP_map]
      congr 2
    rw [pending, erased]
    exact balance.erase event
  | cancelAll test =>
    obtain ⟨reply, pending⟩ := proceeds
    rw [pending]
    have filtered := balance.filter fun event => !test event
    rw [List.filter_map] at filtered
    exact filtered
  | popDue now =>
    rcases proceeds with ⟨reply, same, _⟩ | ⟨event, deadline, reply, _, parts⟩
    · rw [reply, same]
      exact balance
    · rw [reply]
      have fewer := balance.erase event
      rw [parts, List.map_cons, List.erase_cons_head] at fewer
      exact fewer

end TimerMoment

namespace TimerQueue

theorem reach_from {queue : TimerQueue ε} {calls : List (TimerCall ε)}
    {holds : List (TimerMoment ε) → TimerQueue ε → Prop} {start : List (TimerMoment ε)}
    (base : holds start queue)
    (onward : ∀ past, ∀ moment ∈ queue.history calls, holds past moment.before →
      holds (past ++ [moment]) moment.after) :
    holds (start ++ queue.history calls) (queue.calls calls) ∧
      ∀ past moment rest, queue.history calls = past ++ moment :: rest →
        holds (start ++ past) moment.before := by
  induction calls generalizing queue start with
  | nil =>
    refine ⟨by rw [history, List.append_nil]; exact base, fun past moment rest whole => ?_⟩
    exact absurd whole.symm (by simp [history])
  | cons call rest ih =>
    obtain ⟨final, during⟩ := ih (onward start ⟨queue, call⟩ List.mem_cons_self base)
      fun past moment member => onward past moment (List.mem_cons_of_mem _ member)
    simp only [List.append_assoc, List.singleton_append] at final during
    refine ⟨final, fun past moment later whole => ?_⟩
    cases past with
    | nil =>
      obtain ⟨rfl, _⟩ := List.cons.inj whole
      rw [List.append_nil]
      exact base
    | cons first past =>
      obtain ⟨rfl, onward⟩ := List.cons.inj whole
      exact during past moment later onward

/-- What each call of a run keeps holds after the run and before every call of it. -/
theorem reach (queue : TimerQueue ε) (calls : List (TimerCall ε))
    (holds : List (TimerMoment ε) → TimerQueue ε → Prop) (base : holds [] queue)
    (onward : ∀ past, ∀ moment ∈ queue.history calls, holds past moment.before →
      holds (past ++ [moment]) moment.after) :
    holds (queue.history calls) (queue.calls calls) ∧
      ∀ past moment rest, queue.history calls = past ++ moment :: rest →
        holds past moment.before :=
  reach_from base onward

/-- The queue after this past: its links are in order, and the timers they lead through are those
that were armed and neither cancelled nor popped. -/
structure Kept (capacity : Nat) (past : List (TimerMoment ε)) (queue : TimerQueue ε) : Prop where
  threaded : queue.Threaded
  capacity_eq : queue.timers.capacity = capacity
  events : queue.events.Perm (awaited past)
  size : queue.size = (awaited past).length

theorem Linked.kept {capacity : Nat} {past : List (TimerMoment ε)} {queue : TimerQueue ε}
    (linked : queue.Linked) (same : queue.timers.capacity = capacity)
    (balance : queue.events.Perm (awaited past)) : queue.Kept capacity past where
  threaded := linked.threaded
  capacity_eq := same
  events := balance
  size := by
    rw [← balance.length_eq, events_eq, List.length_map]
    exact linked.length_pending.symm

/-- Whatever is asked of a queue, its links lead through every timer in the table once and end, its
size counts the timers that are still awaited, and each call changes no more than it has to. -/
theorem calls_kept {capacity : Nat} (bound : capacity ≤ 0x10000) (calls : List (TimerCall ε)) :
    ((ofCapacity capacity).calls calls).Kept capacity ((ofCapacity capacity).history calls) ∧
      ∀ past moment rest, (ofCapacity capacity).history calls = past ++ moment :: rest →
        moment.before.Kept capacity past ∧ moment.Proceeds := by
  have start : (ofCapacity capacity : TimerQueue ε).LinkedBy [] := ofCapacity_linked bound
  obtain ⟨⟨linked, same, balance⟩, during⟩ :=
    reach (ofCapacity capacity) calls
      (fun past queue => queue.Linked ∧ queue.timers.capacity = capacity ∧
        queue.events.Perm (awaited past))
      ⟨start.linked, by simp [ofCapacity, Slots.capacity, Slots.ofCapacity],
        by rw [events_eq, pending, start.chain_eq]; exact .nil⟩
      fun past moment _ ⟨linked, same, balance⟩ => by
        obtain ⟨linked', capacity', proceeds⟩ := TimerMoment.proceeds linked
        refine ⟨linked', capacity'.trans same, ?_⟩
        rw [awaited, List.foldl_append]
        exact proceeds.await balance
  refine ⟨linked.kept same balance, fun past moment rest whole => ?_⟩
  obtain ⟨before, same', balance'⟩ := during past moment rest whole
  exact ⟨before.kept same' balance', (TimerMoment.proceeds before).2.2⟩

/-- Two timers more than half the range of the clock apart, a third one too many, and a slot that is
used again. -/
def sampleAgenda : List (TimerCall UInt8) :=
  [.schedule 0 0x70000000 1, .schedule 0 0xE0000000 2, .schedule 0 5 3, .cancel 2, .schedule 9 5 4]

theorem sample_calls_kept :
    2 ≤ 0x10000 ∧
      ((ofCapacity 2).calls sampleAgenda).Kept 2 ((ofCapacity 2).history sampleAgenda) ∧
      ((ofCapacity 2).history sampleAgenda).map (·.reply) =
        [.done, .done, .failed .memory, .done, .done] ∧
      ((ofCapacity 2).calls sampleAgenda).pending = [(4, 14), (1, 0x70000000)] := by
  have bound : 2 ≤ 0x10000 := by decide
  exact ⟨bound, (calls_kept bound sampleAgenda).1, by decide +kernel, by decide +kernel⟩

end TimerQueue

end DiagBus
