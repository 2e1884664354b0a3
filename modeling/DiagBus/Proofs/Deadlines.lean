import DiagBus.Proofs.TimerQueue
import DiagBus.Uds.Client

namespace DiagBus

section

variable {ε : Type}

/-- A timer is put among the pending ones, which keep their order. -/
theorem insertPending_perm (pending : List (ε × Tick)) (event : ε) (deadline : Tick) :
    (insertPending pending event deadline).Perm ((event, deadline) :: pending) := by
  unfold insertPending
  refine List.perm_middle.trans ?_
  rw [List.takeWhile_append_dropWhile]

variable [DecidableEq ε]

/-- The deadline of this kind of timer, if one is pending. -/
def TimerQueue.deadline? (queue : TimerQueue ε) (event : ε) : Option Tick :=
  (queue.pending.find? (·.1 = event)).map (·.2)

/-- The queue is in order, and no kind of timer is pending twice. -/
structure TimerQueue.Single (queue : TimerQueue ε) : Prop where
  linked : queue.Linked
  once : queue.events.Nodup

variable {queue : TimerQueue ε} {event other : ε} {now delay deadline : Tick}

theorem TimerQueue.deadline?_eq_none : queue.deadline? event = none ↔ event ∉ queue.events := by
  rw [TimerQueue.deadline?, Option.map_eq_none_iff, List.find?_eq_none, queue.events_eq]
  constructor
  · intro absent member
    obtain ⟨timer, inside, same⟩ := List.mem_map.mp member
    exact absent timer inside (decide_eq_true same)
  · intro absent timer inside same
    exact absent (List.mem_map.mpr ⟨timer, inside, of_decide_eq_true same⟩)

theorem find?_kind_eq_some {pending : List (ε × Tick)} (once : (pending.map (·.1)).Nodup) :
    (pending.find? (·.1 = event)).map (·.2) = some deadline ↔ (event, deadline) ∈ pending := by
  induction pending with
  | nil => simp
  | cons timer rest ih =>
    obtain ⟨kind, limit⟩ := timer
    obtain ⟨fresh, later⟩ := List.nodup_cons.mp once
    by_cases same : kind = event
    · subst same
      have elsewhere : (kind, deadline) ∉ rest := fun member =>
        fresh (List.mem_map.mpr ⟨(kind, deadline), member, rfl⟩)
      simp [elsewhere, eq_comm]
    · have different : (event, deadline) ≠ (kind, limit) := fun equal =>
        same (congrArg Prod.fst equal).symm
      rw [List.find?_cons_of_neg (by simpa using same), ih later, List.mem_cons,
        or_iff_right different]

theorem TimerQueue.Single.deadline?_eq_some (single : queue.Single) :
    queue.deadline? event = some deadline ↔ (event, deadline) ∈ queue.pending := by
  have once := single.once
  rw [queue.events_eq] at once
  exact find?_kind_eq_some once

/-- Two queues with the same timers have the same deadlines. -/
theorem TimerQueue.Single.deadline?_congr {after : TimerQueue ε} (single : queue.Single)
    (single' : after.Single)
    (same : ∀ limit, (event, limit) ∈ after.pending ↔ (event, limit) ∈ queue.pending) :
    after.deadline? event = queue.deadline? event := by
  refine Option.ext fun limit => ?_
  rw [single'.deadline?_eq_some, single.deadline?_eq_some]
  exact same limit

theorem TimerQueue.ofCapacity_single {capacity : Nat} (bound : capacity ≤ 0x10000) :
    (TimerQueue.ofCapacity capacity : TimerQueue ε).Single ∧
      ∀ event : ε, (TimerQueue.ofCapacity capacity).deadline? event = none := by
  have empty : (TimerQueue.ofCapacity capacity : TimerQueue ε).events = [] := by
    rw [TimerQueue.events, (TimerQueue.ofCapacity_linked bound).chain_eq]
    rfl
  refine ⟨⟨(TimerQueue.ofCapacity_linked bound).linked, ?_⟩, fun event => ?_⟩
  · rw [empty]
    exact List.nodup_nil
  · rw [TimerQueue.deadline?_eq_none, empty]
    exact List.not_mem_nil

theorem mem_eraseP_kind {pending : List (ε × Tick)} (once : (pending.map (·.1)).Nodup) :
    (other, deadline) ∈ pending.eraseP (·.1 = event) ↔
      other ≠ event ∧ (other, deadline) ∈ pending := by
  induction pending with
  | nil => simp
  | cons timer rest ih =>
    obtain ⟨kind, limit⟩ := timer
    obtain ⟨fresh, later⟩ := List.nodup_cons.mp once
    by_cases same : kind = event
    · subst same
      have elsewhere (member : (other, deadline) ∈ rest) : other ≠ kind := fun equal =>
        fresh (List.mem_map.mpr ⟨(other, deadline), member, equal⟩)
      simp only [decide_true, List.eraseP_cons_of_pos, List.mem_cons, Prod.mk.injEq]
      grind
    · simp only [same, decide_false, Bool.false_eq_true, not_false_eq_true,
        List.eraseP_cons_of_neg, List.mem_cons, Prod.mk.injEq, ih later]
      grind

/-- Cancelling a timer touches no other kind. -/
theorem TimerQueue.Single.cancel (single : queue.Single) (event : ε) :
    (queue.cancel event).Single ∧
      (queue.cancel event).timers.capacity = queue.timers.capacity ∧
      ∀ other, (queue.cancel event).deadline? other =
        if other = event then none else queue.deadline? other := by
  obtain ⟨linked, capacity, pending⟩ := TimerQueue.cancel_linked single.linked event
  have once := single.once
  rw [queue.events_eq] at once
  have single' : (queue.cancel event).Single := by
    refine ⟨linked, ?_⟩
    rw [TimerQueue.events_eq, pending]
    exact once.sublist (List.eraseP_sublist.map _)
  refine ⟨single', capacity, fun other => ?_⟩
  by_cases same : other = event
  · rw [if_pos same, TimerQueue.deadline?_eq_none, TimerQueue.events_eq, pending]
    intro member
    obtain ⟨⟨kind, limit⟩, inside, rfl⟩ := List.mem_map.mp member
    exact ((mem_eraseP_kind once).mp inside).1 same
  · rw [if_neg same]
    refine single.deadline?_congr single' fun limit => ?_
    rw [pending, mem_eraseP_kind once]
    exact and_iff_right same

/-- Starting a timer that is not pending touches no other kind. -/
theorem TimerQueue.Single.schedule {after : TimerQueue ε} (single : queue.Single)
    (fresh : queue.deadline? event = none) (run : queue.schedule now delay event = .ok after) :
    after.Single ∧ after.timers.capacity = queue.timers.capacity ∧
      ∀ other, after.deadline? other =
        if other = event then some (now.after delay) else queue.deadline? other := by
  obtain ⟨linked, capacity, pending⟩ := TimerQueue.schedule_ok single.linked run
  have perm := insertPending_perm queue.pending event (now.after delay)
  rw [← pending] at perm
  have once := single.once
  rw [TimerQueue.deadline?_eq_none, queue.events_eq] at fresh
  rw [queue.events_eq] at once
  have single' : after.Single := by
    refine ⟨linked, ?_⟩
    rw [TimerQueue.events_eq, (perm.map _).nodup_iff]
    exact List.nodup_cons.mpr ⟨fresh, once⟩
  refine ⟨single', capacity, fun other => ?_⟩
  by_cases same : other = event
  · rw [if_pos same, single'.deadline?_eq_some, same, perm.mem_iff]
    exact List.mem_cons_self
  · rw [if_neg same]
    refine single.deadline?_congr single' fun limit => ?_
    rw [perm.mem_iff, List.mem_cons, or_iff_right]
    exact fun equal => same (congrArg Prod.fst equal)

/-- What fires is due, and touches no other kind. -/
theorem TimerQueue.Single.popDue {after : TimerQueue ε} (single : queue.Single)
    (run : queue.popDue now = some (event, after)) :
    after.Single ∧ after.timers.capacity = queue.timers.capacity ∧
      (∃ deadline, queue.deadline? event = some deadline ∧ now.before deadline = false) ∧
      ∀ other, after.deadline? other =
        if other = event then none else queue.deadline? other := by
  obtain ⟨linked, capacity, deadline, due, pending⟩ := TimerQueue.popDue_linked single.linked run
  have once := single.once
  rw [queue.events_eq, pending] at once
  obtain ⟨fresh, later⟩ := List.nodup_cons.mp once
  have single' : after.Single := ⟨linked, by rw [TimerQueue.events_eq]; exact later⟩
  refine ⟨single', capacity, ⟨deadline, ?_, due⟩, fun other => ?_⟩
  · rw [single.deadline?_eq_some, pending]
    exact List.mem_cons_self
  · by_cases same : other = event
    · rw [if_pos same, TimerQueue.deadline?_eq_none, TimerQueue.events_eq, same]
      exact fresh
    · rw [if_neg same]
      refine single.deadline?_congr single' fun limit => ?_
      rw [pending, List.mem_cons, or_iff_right]
      exact fun equal => same (congrArg Prod.fst equal)

end

/-- The timers of a client: each kind is pending at most once, and there is room for all of them. -/
structure Client.Timed (client : Client) : Prop where
  single : client.timers.Single
  capacity : client.timers.timers.capacity = 3

namespace Client

variable {client : Client}

/-- The deadline of a kind of timer, if it is pending. -/
def due (client : Client) (timer : ClientTimer) : Option Tick :=
  client.timers.deadline? timer

/-- With one kind of timer not pending there is room for it. -/
theorem Timed.room (timed : client.Timed) {timer : ClientTimer} (fresh : client.due timer = none) :
    client.timers.size < client.timers.timers.capacity := by
  have kinds : client.timers.events ⊆ [.answer, .delayedAnswer, .session].erase timer := by
    intro kind member
    have different : kind ≠ timer := by
      rintro rfl
      exact TimerQueue.deadline?_eq_none.mp fresh member
    rw [List.mem_erase_of_ne different]
    cases kind <;> decide
  have few := (List.subperm_of_subset timed.single.once kinds).length_le
  rw [TimerQueue.events_eq, List.length_map, timed.single.linked.length_pending] at few
  have two : ([.answer, .delayedAnswer, .session].erase timer).length = 2 := by
    cases timer <;> rfl
  rw [timed.capacity]
  omega

theorem Timed.cancel (timed : client.Timed) (timer : ClientTimer) :
    (client.cancel timer).Timed ∧
      (client.cancel timer).due = Function.update client.due timer none := by
  obtain ⟨single, capacity, deadline⟩ := timed.single.cancel timer
  refine ⟨⟨single, capacity.trans timed.capacity⟩, funext fun other => ?_⟩
  rw [Function.update_apply]
  exact deadline other

theorem arm_eq (client : Client) (now delay : Tick) (timer : ClientTimer) :
    client.arm now delay timer = { client with timers := client.timers.arm now delay timer } := by
  rcases answer : (client.timers.cancel timer).schedule now delay timer with fault | timers <;>
    simp only [Client.arm, TimerQueue.arm, answer]

/-- Starting a timer never fails. -/
theorem Timed.starts (timed : client.Timed) (now delay : Tick) (timer : ClientTimer) :
    (client.timers.cancel timer).schedule now delay timer =
      .ok (client.timers.arm now delay timer) := by
  obtain ⟨timed', gone⟩ := timed.cancel timer
  have fresh : (client.cancel timer).due timer = none := by rw [gone, Function.update_self]
  obtain ⟨timers, run, _⟩ := TimerQueue.schedule_linked timed'.single.linked now delay timer
    (timed'.room fresh)
  have run : (client.timers.cancel timer).schedule now delay timer = .ok timers := run
  simp only [TimerQueue.arm, run]

theorem Timed.arm (timed : client.Timed) (now delay : Tick) (timer : ClientTimer) :
    (client.arm now delay timer).Timed ∧
      (client.arm now delay timer).due =
        Function.update client.due timer (some (now.after delay)) := by
  obtain ⟨timed', gone⟩ := timed.cancel timer
  have fresh : (client.cancel timer).due timer = none := by rw [gone, Function.update_self]
  obtain ⟨single, capacity, deadline⟩ :=
    timed'.single.schedule fresh (timed.starts now delay timer)
  rw [arm_eq]
  refine ⟨⟨single, capacity.trans timed'.capacity⟩, funext fun other => ?_⟩
  refine (deadline other).trans ?_
  rw [Function.update_apply]
  split
  · rfl
  · rename_i different
    exact (congrFun gone other).trans (Function.update_of_ne different _ _)

end Client

end DiagBus
