import DiagBus.Proofs.TimerRuns

namespace DiagBus

variable {α ε : Type}

namespace Slots

/-- The slots that have a number of their own. -/
def numbered (table : Slots α) : Slots α :=
  { table with slots := table.slots.take 0x10000 }

/-- No slot without a number is in use. -/
def Spared (table : Slots α) : Prop :=
  ∀ slot ∈ table.slots.drop 0x10000, slot.value = none

theorem slot_lt (handle : Handle) : handle.slot.toNat < 0x10000 :=
  handle.slot.toNat_lt

theorem slot?_numbered (table : Slots α) (handle : Handle) :
    table.numbered.slot? handle = table.slot? handle := by
  simp only [slot?, numbered, List.getElem?_take_of_lt (slot_lt handle)]

theorem get?_numbered (table : Slots α) (handle : Handle) :
    table.numbered.get? handle = table.get? handle := by
  rw [get?, get?, slot?_numbered]

theorem set_numbered (table : Slots α) (handle : Handle) (value : α) :
    (table.set handle value).numbered = table.numbered.set handle value := by
  unfold set
  rw [slot?_numbered]
  split
  · simp only [numbered, List.take_set]
  · rfl

theorem erase_numbered (table : Slots α) (handle : Handle) :
    table.numbered.erase handle =
      (table.erase handle).map fun (value, rest) => (value, rest.numbered) := by
  unfold erase
  rw [slot?_numbered]
  split
  · simp only [numbered, List.take_set, Option.map_some]
  · rfl

theorem Spared.overwrite {table : Slots α} (spared : table.Spared) {position : Nat}
    (low : position < 0x10000) (slot : Slot α) (used : Nat) :
    Spared { slots := table.slots.set position slot, used } := by
  intro other member
  rw [List.drop_set_of_lt low] at member
  exact spared other member

theorem Spared.set {table : Slots α} (spared : table.Spared) (handle : Handle) (value : α) :
    (table.set handle value).Spared := by
  unfold Slots.set
  split
  · exact spared.overwrite (slot_lt handle) _ _
  · exact spared

theorem Spared.erase {table rest : Slots α} (spared : table.Spared) {handle : Handle} {value : α}
    (run : table.erase handle = some (value, rest)) : rest.Spared := by
  rw [erase_eq (get?_of_erase run)] at run
  cases run
  exact spared.overwrite (slot_lt handle) _ _

theorem numbered_findIdx? (table : Slots α) (test : Slot α → Bool) :
    table.slots.findIdx? test = (table.numbered.slots.findIdx? test).or
      (((table.slots.drop 0x10000).findIdx? test).map (· + table.numbered.slots.length)) := by
  conv_lhs => rw [← List.take_append_drop 0x10000 table.slots, List.findIdx?_append]
  rfl

/-- An insertion that the numbered slots have room for goes into one of them. -/
theorem Spared.insert {table rest : Slots α} (spared : table.Spared)
    (wellFormed : table.numbered.WellFormed) {value : α} {handle : Handle}
    (run : table.insert value = some (handle, rest)) (few : rest.used ≤ 0x10000) :
    table.numbered.insert value = some (handle, rest.numbered) ∧ rest.Spared := by
  unfold Slots.insert at run
  obtain ⟨position, found, run⟩ := Option.bind_eq_some_iff.mp run
  obtain ⟨slot, entry, run⟩ := Option.bind_eq_some_iff.mp run
  simp only [Option.pure_def, Option.some.injEq, Prod.mk.injEq] at run
  obtain ⟨rfl, rfl⟩ := run
  rw [numbered_findIdx?] at found
  cases first : table.numbered.slots.findIdx? (·.value.isNone) with
  | none =>
    -- all numbered slots are in use, so there is one use too many
    exfalso
    have filled := List.findIdx?_eq_none_iff.mp first
    have used : table.used = table.numbered.slots.length := by
      rw [show table.used = table.numbered.used from rfl, wellFormed.counted]
      exact List.countP_eq_length.mpr fun slot member => by
        simpa [Option.isSome_iff_ne_none] using filled slot member
    rw [first] at found
    simp only [Option.none_or, Option.map_eq_some_iff] at found
    obtain ⟨beyond, there, _⟩ := found
    obtain ⟨inside, _⟩ := List.findIdx?_eq_some_iff_getElem.mp there
    simp only [numbered, List.length_take, List.length_drop] at used inside
    simp only [] at few
    omega
  | some place =>
    have same : position = place := by
      rw [first] at found
      exact (Option.some.inj found).symm
    subst same
    obtain ⟨inside, _⟩ := List.findIdx?_eq_some_iff_getElem.mp first
    have low : position < 0x10000 := by
      simp only [numbered, List.length_take] at inside
      omega
    have entry' : table.numbered.slots[position]? = some slot := by
      rw [numbered, List.getElem?_take_of_lt low]
      exact entry
    refine ⟨?_, ?_⟩
    · unfold Slots.insert
      rw [first, Option.bind_eq_bind, Option.bind_some, entry']
      simp only [numbered, List.take_set]
      rfl
    · exact spared.overwrite low _ _

/-- An insertion fails only if every slot has a number and is in use. -/
theorem Spared.insert_none {table : Slots α} (spared : table.Spared) {value : α}
    (run : table.insert value = none) :
    table.numbered.insert value = none ∧ table.numbered = table := by
  have filled : ∀ slot ∈ table.slots, slot.value.isNone = false := by
    rw [← List.findIdx?_eq_none_iff]
    cases found : table.slots.findIdx? (·.value.isNone) with
    | none => rfl
    | some position =>
      obtain ⟨inside, _⟩ := List.findIdx?_eq_some_iff_getElem.mp found
      simp [Slots.insert, found, List.getElem?_eq_getElem inside] at run
  have few : table.slots.length ≤ 0x10000 := by
    by_contra many
    have inside : 0x10000 < table.slots.length := by omega
    have member : table.slots[0x10000] ∈ table.slots.drop 0x10000 :=
      List.mem_drop_iff_getElem.mpr ⟨0, by omega, rfl⟩
    have vacant := spared _ member
    have used := filled _ (List.getElem_mem inside)
    rw [vacant] at used
    cases used
  have same : table.numbered = table := by rw [numbered, List.take_of_length_le few]
  rw [same]
  exact ⟨run, rfl⟩

theorem numbered_ofCapacity (capacity : Nat) :
    (ofCapacity (α := α) capacity).numbered = ofCapacity (min 0x10000 capacity) := by
  simp [numbered, ofCapacity, List.take_replicate]

theorem Spared.ofCapacity (capacity : Nat) : (ofCapacity (α := α) capacity).Spared := by
  intro slot member
  rw [List.eq_of_mem_replicate (List.mem_of_mem_drop member)]

end Slots

namespace TimerQueue

/-- The queue over the numbered slots. -/
def numbered (queue : TimerQueue ε) : TimerQueue ε :=
  { queue with timers := queue.timers.numbered }

/-- A queue of any capacity whose timers are all in numbered slots. -/
structure Sparing (queue : TimerQueue ε) : Prop where
  linked : queue.numbered.Linked
  spared : queue.timers.Spared

variable {queue : TimerQueue ε}

theorem capacity_numbered_le (queue : TimerQueue ε) :
    queue.numbered.timers.capacity ≤ queue.timers.capacity :=
  List.length_take_le' _ _

theorem Sparing.chain_eq (sparing : queue.Sparing) : queue.numbered.chain = queue.chain := by
  refine (chainFrom_eq sparing.linked.chained (fun link member => ?_) ?_).symm
  · rw [← Slots.get?_numbered]
    exact sparing.linked.live link member
  · exact ((LinkedBy.length_eq sparing.linked).trans_le sparing.linked.size_le).trans
      queue.capacity_numbered_le

theorem Sparing.pending_eq (sparing : queue.Sparing) : queue.numbered.pending = queue.pending := by
  rw [pending, sparing.chain_eq, pending]

theorem Sparing.length_pending (sparing : queue.Sparing) : queue.pending.length = queue.size := by
  rw [← sparing.pending_eq, sparing.linked.length_pending]
  rfl

theorem nextDeadline_numbered (queue : TimerQueue ε) :
    queue.numbered.nextDeadline = queue.nextDeadline := by
  simp only [nextDeadline, first?, numbered, Slots.get?_numbered]

theorem follow_numbered (queue : TimerQueue ε) (previous next : Option Handle) :
    (queue.follow previous next).numbered = queue.numbered.follow previous next := by
  simp only [follow, numbered, Slots.get?_numbered]
  split
  · rfl
  · simp only [Slots.set_numbered]

theorem follow_spared (spared : queue.timers.Spared) (previous next : Option Handle) :
    (queue.follow previous next).timers.Spared := by
  unfold follow
  split
  · exact spared
  · exact spared.set _ _

theorem follow_size (queue : TimerQueue ε) (previous next : Option Handle) :
    (queue.follow previous next).size = queue.size := by
  unfold follow
  split
  · rfl
  · show (queue.timers.set _ _).used = _
    unfold Slots.set
    split <;> rfl

theorem discard_numbered (queue : TimerQueue ε) (handle : Handle) :
    (queue.discard handle).numbered = queue.numbered.discard handle := by
  unfold discard
  rw [numbered, numbered, Slots.erase_numbered]
  cases queue.timers.erase handle <;> rfl

theorem discard_spared (spared : queue.timers.Spared) (handle : Handle) :
    (queue.discard handle).timers.Spared := by
  unfold discard
  split
  · exact spared
  · rename_i run
    exact spared.erase run

theorem Sparing.schedule_ok {after : TimerQueue ε} (sparing : queue.Sparing) {now delay : Tick}
    {event : ε} (run : queue.schedule now delay event = .ok after) (few : after.size ≤ 0x10000) :
    queue.numbered.schedule now delay event = .ok after.numbered ∧
      after.timers.capacity = queue.timers.capacity ∧
      after.timers.Spared := by
  rw [schedule_eq] at run ⊢
  rw [sparing.chain_eq]
  simp only [] at run ⊢
  split at run
  · cases run
  · rename_i handle timers insertion
    cases run
    rw [follow_size] at few
    obtain ⟨numbered', spared⟩ := sparing.spared.insert sparing.linked.wellFormed insertion few
    have capacity : timers.capacity = queue.timers.capacity := by
      unfold Slots.insert at insertion
      obtain ⟨_, _, insertion⟩ := Option.bind_eq_some_iff.mp insertion
      obtain ⟨_, _, insertion⟩ := Option.bind_eq_some_iff.mp insertion
      cases insertion
      exact List.length_set
    refine ⟨?_, (follow_capacity _ _ _).trans capacity, follow_spared spared _ _⟩
    rw [follow_numbered]
    simp only [numbered, numbered']

theorem Sparing.schedule_error (sparing : queue.Sparing) {now delay : Tick} {event : ε}
    {fault : Fault} (run : queue.schedule now delay event = .error fault) :
    queue.numbered = queue := by
  rw [schedule_eq] at run
  simp only [] at run
  split at run
  · rename_i full
    rw [numbered, (sparing.spared.insert_none full).2]
  · cases run

theorem Sparing.removeFirst (sparing : queue.Sparing) (test : ε → Bool) :
    (queue.removeFirst test).Sparing ∧
      (queue.removeFirst test).numbered = queue.numbered.removeFirst test ∧
      (queue.removeFirst test).timers.capacity = queue.timers.capacity := by
  suffices agree : (queue.removeFirst test).numbered = queue.numbered.removeFirst test ∧
      (queue.removeFirst test).timers.capacity = queue.timers.capacity ∧
      (queue.removeFirst test).timers.Spared by
    obtain ⟨same, capacity, spared⟩ := agree
    refine ⟨⟨?_, spared⟩, same, capacity⟩
    rw [same]
    exact (removeFirst_linked sparing.linked test).1
  unfold TimerQueue.removeFirst
  rw [sparing.chain_eq]
  simp only []
  split
  · exact ⟨rfl, rfl, sparing.spared⟩
  · rw [discard_numbered, follow_numbered, discard_capacity, follow_capacity]
    exact ⟨rfl, rfl, discard_spared (follow_spared sparing.spared _ _) _⟩

/-- A pass is the same over the numbered slots. -/
theorem cancelFrom_numbered (spared : queue.timers.Spared) (test : ε → Bool) (fuel : Nat)
    (previous current : Option Handle) :
    (queue.cancelFrom test fuel previous current).numbered =
        queue.numbered.cancelFrom test fuel previous current ∧
      (queue.cancelFrom test fuel previous current).timers.capacity = queue.timers.capacity ∧
      (queue.cancelFrom test fuel previous current).timers.Spared := by
  induction fuel generalizing queue previous current with
  | zero => exact ⟨rfl, rfl, spared⟩
  | succ fuel ih =>
    cases current with
    | none => exact ⟨rfl, rfl, spared⟩
    | some handle =>
      have found : queue.numbered.timers.get? handle = queue.timers.get? handle :=
        Slots.get?_numbered _ _
      simp only [cancelFrom, found]
      cases queue.timers.get? handle with
      | none => exact ⟨rfl, rfl, spared⟩
      | some timer =>
        simp only []
        split
        · rw [← follow_numbered, ← discard_numbered]
          obtain ⟨same, capacity, spared'⟩ :=
            ih (discard_spared (follow_spared spared previous timer.next) handle) previous timer.next
          rw [discard_capacity, follow_capacity] at capacity
          exact ⟨same, capacity, spared'⟩
        · exact ih spared _ _

theorem Sparing.popDue (sparing : queue.Sparing) (now : Tick) :
    queue.numbered.popDue now =
        (queue.popDue now).map (fun (event, after) => (event, after.numbered)) ∧
      ∀ event after, queue.popDue now = some (event, after) →
        after.timers.capacity = queue.timers.capacity ∧
          after.timers.Spared := by
  unfold TimerQueue.popDue
  have first : queue.numbered.first? = queue.first? := by
    simp only [first?, numbered, Slots.get?_numbered]
  rw [first]
  cases queue.first? with
  | none => simp
  | some link =>
    obtain ⟨handle, timer⟩ := link
    have erased := Slots.erase_numbered queue.timers handle
    by_cases early : now.before timer.deadline = true
    · simp [early]
    · cases run : queue.timers.erase handle with
      | none =>
        rw [run] at erased
        simp [early, numbered, erased, run]
      | some gone =>
        rw [run] at erased
        refine ⟨by simp [early, numbered, erased, run], fun event after popped => ?_⟩
        simp only [early, run, Option.bind_eq_bind, Option.bind_some, Bool.not_false, guard_true,
          Option.pure_def, Option.some.injEq, Prod.mk.injEq] at popped
        obtain ⟨_, rfl⟩ := popped
        exact ⟨Slots.capacity_erase run, sparing.spared.erase run⟩

theorem Sparing.ofCapacity (capacity : Nat) : (ofCapacity capacity : TimerQueue ε).Sparing where
  linked := by
    have start := ofCapacity_linked (ε := ε) (Nat.min_le_left 0x10000 capacity)
    rw [TimerQueue.ofCapacity, ← Slots.numbered_ofCapacity] at start
    exact start.linked
  spared := .ofCapacity capacity

end TimerQueue

variable [DecidableEq ε]

/-- A call does the same over the numbered slots, unless it would need one without a number. -/
theorem TimerQueue.Sparing.run {queue : TimerQueue ε} (sparing : queue.Sparing)
    (call : TimerCall ε) (few : (call.run queue).2.size ≤ 0x10000) :
    (call.run queue).2.Sparing ∧
      call.run queue.numbered = ((call.run queue).1, (call.run queue).2.numbered) ∧
      (call.run queue).2.timers.capacity = queue.timers.capacity := by
  suffices agree : call.run queue.numbered = ((call.run queue).1, (call.run queue).2.numbered) ∧
      (call.run queue).2.timers.capacity = queue.timers.capacity ∧
      (call.run queue).2.timers.Spared by
    obtain ⟨same, capacity, spared⟩ := agree
    refine ⟨⟨?_, spared⟩, same, capacity⟩
    have kept : (TimerMoment.after ⟨queue.numbered, call⟩).Linked :=
      (TimerMoment.proceeds sparing.linked).1
    rw [TimerMoment.after, same] at kept
    exact kept
  cases call with
  | schedule now delay event =>
    simp only [TimerCall.run] at few ⊢
    cases run : queue.schedule now delay event with
    | error fault =>
      rw [sparing.schedule_error run, run]
      exact ⟨rfl, rfl, sparing.spared⟩
    | ok after =>
      rw [run] at few
      obtain ⟨same, rest⟩ := sparing.schedule_ok run few
      rw [same]
      exact ⟨rfl, rest⟩
  | cancel event =>
    obtain ⟨kept, same, capacity⟩ := sparing.removeFirst (· = event)
    exact ⟨by rw [TimerCall.run, TimerCall.run, TimerQueue.cancel, TimerQueue.cancel, same],
      capacity, kept.spared⟩
  | cancelAll test =>
    obtain ⟨same, rest⟩ :=
      TimerQueue.cancelFrom_numbered sparing.spared test queue.size none queue.head
    exact ⟨congrArg (Prod.mk _) same.symm, rest⟩
  | popDue now =>
    obtain ⟨same, rest⟩ := sparing.popDue now
    simp only [TimerCall.run, same]
    cases run : queue.popDue now with
    | none => exact ⟨rfl, rfl, sparing.spared⟩
    | some popped => exact ⟨rfl, rest _ _ run⟩

/-- Every call finds only numbered slots in use and leaves it so, unless it would need another. -/
theorem TimerMoment.sparing_proceeds {moment : TimerMoment ε} (sparing : moment.before.Sparing)
    (few : moment.after.size ≤ 0x10000) :
    moment.after.Sparing ∧ moment.after.timers.capacity = moment.before.timers.capacity ∧
      moment.Proceeds := by
  obtain ⟨kept, same, capacity⟩ := sparing.run moment.call few
  have proceeds : TimerMoment.Proceeds ⟨moment.before.numbered, moment.call⟩ :=
    (TimerMoment.proceeds sparing.linked).2.2
  refine ⟨kept, capacity, ?_⟩
  obtain ⟨queue, call⟩ := moment
  have pending : (call.run queue).2.numbered.pending = (call.run queue).2.pending := kept.pending_eq
  simp only [TimerMoment.Proceeds, TimerMoment.reply, TimerMoment.after] at same proceeds ⊢
  rw [same] at proceeds
  cases call with
  | schedule now delay event =>
    simp only [pending, sparing.pending_eq] at proceeds ⊢
    have most : queue.size ≤ queue.numbered.timers.capacity := sparing.linked.size_le
    have wider := queue.capacity_numbered_le
    split at proceeds
    · rename_i full
      obtain ⟨reply, _⟩ := proceeds
      simp only [TimerCall.run] at reply ⊢
      cases run : queue.schedule now delay event with
      | ok after => simp [run] at reply
      | error fault =>
        have whole := sparing.schedule_error run
        rw [whole] at full
        rw [if_pos full, TimerQueue.schedule_error run]
        exact ⟨rfl, rfl⟩
    · rename_i room
      have free : queue.size ≠ queue.timers.capacity := by
        have other : queue.size ≠ queue.numbered.timers.capacity := room
        omega
      rw [if_neg free]
      exact proceeds
  | cancel event => simpa only [pending, sparing.pending_eq] using proceeds
  | cancelAll test => simpa only [pending, sparing.pending_eq] using proceeds
  | popDue now =>
    simp only [pending, sparing.pending_eq] at proceeds ⊢
    rcases proceeds with ⟨reply, _, ahead⟩ | popped
    · refine .inl ⟨reply, ?_, ahead⟩
      simp only [TimerCall.run] at reply ⊢
      cases run : queue.popDue now with
      | none => rfl
      | some popped => simp [run] at reply
    · exact .inr popped

end DiagBus
