import DiagBus.Proofs.SpareSlots

namespace DiagBus

variable {ε : Type}

namespace Tick

/-- How long after `start` the clock shows `time`. -/
def span (start time : Tick) : Nat :=
  (time - start).toNat

/-- In the half of the clock that begins at `start`. -/
def InHalf (start time : Tick) : Prop :=
  start.span time < 0x80000000

variable {start time limit : Tick}

theorem span_inj : start.span time = start.span limit ↔ time = limit := by
  unfold span
  rw [UInt32.toNat_inj]
  exact sub_left_inj

/-- Within half of the clock, earlier is what the clock shows first. -/
theorem before_iff (here : start.InHalf time) (there : start.InHalf limit) :
    time.before limit = true ↔ start.span time < start.span limit := by
  have apart : time - limit = (time - start) - (limit - start) := by grind
  unfold InHalf span at here there
  unfold before span
  rw [apart, decide_eq_true_iff, gt_iff_lt, UInt32.lt_iff_toNat_lt, UInt32.toNat_sub]
  simp only [UInt32.reduceToNat]
  omega

theorem not_before_iff (here : start.InHalf time) (there : start.InHalf limit) :
    time.before limit = false ↔ start.span limit ≤ start.span time := by
  rw [← Bool.not_eq_true, before_iff here there, Nat.not_lt]

end Tick

/-- Of the timers that no other precedes, the one that stands first. -/
def soonest? (agenda : List (ε × Tick)) : Option (ε × Tick) :=
  agenda.find? fun timer => agenda.all fun other => !other.2.before timer.2

/-- Timers as they are pending and as they were armed: the pending ones are in the order of their
deadlines, and those of one deadline in the order in which they were armed. -/
structure Ranked (pending agenda : List (ε × Tick)) : Prop where
  sorted : pending.Pairwise fun early late => late.2.before early.2 = false
  stable : ∀ deadline, (pending.filter fun timer => timer.2 = deadline) =
    agenda.filter fun timer => timer.2 = deadline

namespace Ranked

variable {pending agenda : List (ε × Tick)} {start : Tick}

theorem nil : Ranked ([] : List (ε × Tick)) [] :=
  ⟨.nil, fun _ => rfl⟩

theorem mem_iff (ranked : Ranked pending agenda) {timer : ε × Tick} :
    timer ∈ pending ↔ timer ∈ agenda := by
  have members (timers : List (ε × Tick)) :
      timer ∈ timers ↔ timer ∈ timers.filter fun other => other.2 = timer.2 := by simp
  rw [members pending, ranked.stable, ← members]

theorem filter (ranked : Ranked pending agenda) (test : ε × Tick → Bool) :
    Ranked (pending.filter test) (agenda.filter test) where
  sorted := ranked.sorted.filter test
  stable := by
    intro deadline
    rw [List.filter_comm, ranked.stable, List.filter_comm]

/-- The first pending timer is the soonest of those that were armed. -/
theorem soonest (ranked : Ranked pending agenda)
    (within : ∀ timer ∈ pending, start.InHalf timer.2) : soonest? agenda = pending.head? := by
  cases pending with
  | nil =>
    have empty : agenda = [] :=
      List.eq_nil_iff_forall_not_mem.mpr fun timer member => by
        simpa using ranked.mem_iff.mpr member
    rw [empty]
    rfl
  | cons first rest =>
    have here := within first List.mem_cons_self
    have least : ∀ timer ∈ agenda, start.span first.2 ≤ start.span timer.2 := by
      intro timer member
      rcases List.mem_cons.mp (ranked.mem_iff.mpr member) with rfl | later
      · exact le_rfl
      · exact (Tick.not_before_iff (within _ (List.mem_cons_of_mem _ later)) here).mp
          ((List.pairwise_cons.mp ranked.sorted).1 _ later)
    have leads : ∀ timer ∈ agenda,
        (agenda.all fun other => !other.2.before timer.2) = decide (timer.2 = first.2) := by
      intro timer member
      have there := within timer (ranked.mem_iff.mpr member)
      rw [Bool.eq_iff_iff, List.all_eq_true, decide_eq_true_iff]
      constructor
      · intro unpreceded
        have head := unpreceded first (ranked.mem_iff.mp List.mem_cons_self)
        rw [Bool.not_eq_true', Tick.not_before_iff here there] at head
        exact Tick.span_inj.mp (le_antisymm head (least timer member))
      · rintro same other inside
        rw [same, Bool.not_eq_true', Tick.not_before_iff (within other (ranked.mem_iff.mpr inside)) here]
        exact least other inside
    unfold soonest?
    rw [List.find?_congr leads, ← List.head?_filter, ← ranked.stable]
    simp

/-- A timer is put behind all that do not fire later. -/
theorem insert {earlier later : List (ε × Tick)} {event : ε} {deadline : Tick}
    (ranked : Ranked (earlier ++ later) agenda) (here : start.InHalf deadline)
    (within : ∀ timer ∈ earlier ++ later, start.InHalf timer.2)
    (before : ∀ timer ∈ earlier, deadline.before timer.2 = false)
    (ahead : ∀ first ∈ later.head?, deadline.before first.2 = true) :
    Ranked (earlier ++ (event, deadline) :: later) (agenda ++ [(event, deadline)]) := by
  have sorted := List.pairwise_append.mp ranked.sorted
  -- the first of the later timers is ahead of the deadline, and the others are not before the first
  have beyond : ∀ timer ∈ later, start.span deadline < start.span timer.2 := by
    intro timer member
    cases later with
    | nil => cases member
    | cons first rest =>
      have there := within first (List.mem_append_right _ List.mem_cons_self)
      have lead := (Tick.before_iff here there).mp (ahead first rfl)
      rcases List.mem_cons.mp member with rfl | behind
      · exact lead
      · have inside := within timer (List.mem_append_right _ member)
        exact lead.trans_le ((Tick.not_before_iff inside there).mp
          ((List.pairwise_cons.mp sorted.2.1).1 timer behind))
  refine ⟨?_, fun limit => ?_⟩
  · refine List.pairwise_append.mpr ⟨sorted.1, List.pairwise_cons.mpr ⟨?_, sorted.2.1⟩, ?_⟩
    · intro timer member
      exact (Tick.not_before_iff (within timer (List.mem_append_right _ member)) here).mpr
        (beyond timer member).le
    · intro timer member other inside
      rcases List.mem_cons.mp inside with rfl | behind
      · exact before timer member
      · exact sorted.2.2 timer member other behind
  · have old := ranked.stable limit
    rw [List.filter_append] at old
    rw [List.filter_append, List.filter_append, ← old, List.append_assoc]
    congr 1
    by_cases same : deadline = limit
    · have none_left : (later.filter fun timer => timer.2 = limit) = [] := by
        refine List.filter_eq_nil_iff.mpr fun timer member => ?_
        rw [decide_eq_true_iff]
        rintro rfl
        exact (beyond timer member).ne (congrArg _ same)
      simp [same, none_left]
    · simp [same]

variable [DecidableEq ε]

theorem erase (ranked : Ranked pending agenda) (timer : ε × Tick) :
    Ranked (pending.erase timer) (agenda.erase timer) where
  sorted := ranked.sorted.sublist List.erase_sublist
  stable := by
    intro deadline
    rw [← List.erase_filter, ranked.stable, List.erase_filter]

theorem perm (ranked : Ranked pending agenda) : pending.Perm agenda := by
  refine List.perm_iff_count.mpr fun timer => ?_
  have counted (timers : List (ε × Tick)) :
      timers.count timer = (timers.filter fun other => other.2 = timer.2).count timer :=
    (List.count_filter (by simp)).symm
  rw [counted pending, ranked.stable, ← counted]

end Ranked

section

variable [DecidableEq ε]

/-- What a call does to the list of the timers in the order in which they were armed. -/
def TimerCall.enter (capacity : Nat) (agenda : List (ε × Tick)) :
    TimerCall ε → TimerReply ε × List (ε × Tick)
  | .schedule now delay event =>
    if agenda.length < capacity then (.done, agenda ++ [(event, now.after delay)])
    else (.failed .memory, agenda)
  | .cancel event =>
    match soonest? (agenda.filter fun timer => timer.1 = event) with
    | none => (.done, agenda)
    | some timer => (.done, agenda.erase timer)
  | .cancelAll test => (.done, agenda.filter fun timer => !test timer.1)
  | .popDue now =>
    match soonest? agenda with
    | none => (.popped none, agenda)
    | some timer =>
      if now.before timer.2 then (.popped none, agenda)
      else (.popped (some timer.1), agenda.erase timer)

/-- The time of a call. -/
def TimerCall.now? : TimerCall ε → Option Tick
  | .schedule now _ _ => some now
  | .popDue now => some now
  | _ => none

/-- The timers that are left of those armed in the past, in the order in which they were armed. -/
def agenda (capacity : Nat) (past : List (TimerMoment ε)) : List (ε × Tick) :=
  past.foldl (fun agenda moment => (moment.call.enter capacity agenda).2) []

end

/-- A stable priority queue over the agenda: the timers of the agenda, the earlier deadline first and
of equal deadlines the one armed first. -/
structure TimerQueue.Orders (queue : TimerQueue ε) (start : Tick) (agenda : List (ε × Tick)) :
    Prop where
  same : queue.pending.Perm agenda
  sorted : queue.pending.Pairwise fun early late => start.span early.2 ≤ start.span late.2
  stable : ∀ deadline, (queue.pending.filter fun timer => timer.2 = deadline) =
    agenda.filter fun timer => timer.2 = deadline
  idle : queue.nextDeadline = none ↔ queue.pending = []
  next : ∀ deadline, queue.nextDeadline = some deadline ↔
    deadline ∈ queue.pending.map (·.2) ∧
      ∀ timer ∈ queue.pending, start.span deadline ≤ start.span timer.2

/-- A queue whose pending timers are those of the agenda, in the order in which they fire. -/
structure TimerQueue.Filed (queue : TimerQueue ε) (capacity : Nat) (agenda : List (ε × Tick)) :
    Prop where
  sparing : queue.Sparing
  capacity_eq : queue.timers.capacity = capacity
  ranked : Ranked queue.pending agenda

namespace TimerQueue

variable {queue : TimerQueue ε} {agenda : List (ε × Tick)} {start : Tick}

theorem Linked.nextDeadline_eq (linked : queue.Linked) :
    queue.nextDeadline = queue.pending.head?.map (·.2) := by
  have chained := linked.chained
  cases links : queue.chain with
  | nil =>
    rw [links] at chained
    have empty : queue.head = none := chained
    simp [nextDeadline, first?, empty, pending, links]
  | cons link rest =>
    obtain ⟨handle, timer⟩ := link
    rw [links] at chained
    have here := linked.live (handle, timer) (links ▸ List.mem_cons_self)
    simp [nextDeadline, first?, chained.1, here, pending, links]

theorem Sparing.nextDeadline_eq (sparing : queue.Sparing) :
    queue.nextDeadline = queue.pending.head?.map (·.2) := by
  rw [← nextDeadline_numbered, sparing.linked.nextDeadline_eq, sparing.pending_eq]

variable [DecidableEq ε]

theorem Filed.orders {capacity : Nat} (filed : queue.Filed capacity agenda)
    (within : ∀ timer ∈ queue.pending, start.InHalf timer.2) : queue.Orders start agenda := by
  have sorted : queue.pending.Pairwise fun early late =>
      start.span early.2 ≤ start.span late.2 :=
    filed.ranked.sorted.imp_of_mem fun {early late} here there late_not_before =>
      (Tick.not_before_iff (within late there) (within early here)).mp late_not_before
  refine ⟨filed.ranked.perm, sorted, filed.ranked.stable, ?_, fun deadline => ?_⟩
  · rw [filed.sparing.nextDeadline_eq, Option.map_eq_none_iff, List.head?_eq_none_iff]
  · rw [filed.sparing.nextDeadline_eq]
    cases pending : queue.pending with
    | nil => simp
    | cons first rest =>
      rw [pending] at sorted
      have least := (List.pairwise_cons.mp sorted).1
      simp only [List.head?_cons, Option.map_some, Option.some.injEq]
      constructor
      · rintro rfl
        refine ⟨List.mem_map_of_mem List.mem_cons_self, fun timer member => ?_⟩
        rcases List.mem_cons.mp member with rfl | later
        · exact le_rfl
        · exact least timer later
      · rintro ⟨member, lowest⟩
        obtain ⟨timer, inside, rfl⟩ := List.mem_map.mp member
        refine Tick.span_inj.mp (le_antisymm ?_ (lowest first List.mem_cons_self))
        rcases List.mem_cons.mp inside with rfl | later
        · exact le_rfl
        · exact least timer later

end TimerQueue

variable [DecidableEq ε]

theorem eraseP_eq_erase {β : Type} [BEq β] [LawfulBEq β] {test : β → Bool} {items : List β} {found : β}
    (first : items.find? test = some found) : items.eraseP test = items.erase found := by
  induction items with
  | nil => cases first
  | cons item rest ih =>
    by_cases passes : test item = true
    · rw [List.find?_cons_of_pos passes] at first
      cases first
      rw [List.eraseP_cons_of_pos passes, List.erase_cons_head]
    · rw [List.find?_cons_of_neg passes] at first
      have different : item ≠ found := by
        rintro rfl
        exact passes (List.find?_some first)
      rw [List.eraseP_cons_of_neg passes, ih first, List.erase_cons_tail (by simpa using different)]

/-- The soonest timer is due before all others: strictly before those armed earlier. -/
theorem soonest?_eq_some {agenda : List (ε × Tick)} {timer : ε × Tick} {start : Tick}
    (within : ∀ timer ∈ agenda, start.InHalf timer.2) (soonest : soonest? agenda = some timer) :
    ∃ earlier later, agenda = earlier ++ timer :: later ∧ agenda.erase timer = earlier ++ later ∧
      (∀ other ∈ earlier, start.span timer.2 < start.span other.2) ∧
      ∀ other ∈ later, start.span timer.2 ≤ start.span other.2 := by
  obtain ⟨leads, earlier, later, parts, preceded⟩ := List.find?_eq_some_iff_append.mp soonest
  have here := within timer (parts ▸ List.mem_append_right _ List.mem_cons_self)
  have least : ∀ other ∈ agenda, start.span timer.2 ≤ start.span other.2 := by
    intro other member
    have behind := List.all_eq_true.mp leads other member
    rw [Bool.not_eq_true'] at behind
    exact (Tick.not_before_iff (within other member) here).mp behind
  have ahead : ∀ other ∈ earlier, start.span timer.2 < start.span other.2 := by
    intro other member
    have inside : other ∈ agenda := parts ▸ List.mem_append_left _ member
    have late := preceded other member
    simp only [Bool.not_eq_true', List.all_eq_false] at late
    obtain ⟨third, there, before⟩ := late
    rw [Bool.not_eq_false] at before
    exact (least third there).trans_lt
      ((Tick.before_iff (within third there) (within other inside)).mp before)
  refine ⟨earlier, later, parts, ?_, ahead, fun other member =>
    least other (parts ▸ List.mem_append_right _ (List.mem_cons_of_mem _ member))⟩
  have absent : timer ∉ earlier := fun member => absurd (ahead timer member) (lt_irrefl _)
  rw [parts, List.erase_append_right _ absent, List.erase_cons_head]

namespace TimerMoment

variable {moment : TimerMoment ε} {capacity : Nat} {agenda : List (ε × Tick)} {start : Tick}

/-- The time of the call and all deadlines that are pending lie in the half of the clock that begins
at `start`. -/
structure Spans (moment : TimerMoment ε) (start : Tick) : Prop where
  now : ∀ now ∈ moment.call.now?, start.InHalf now
  before : ∀ timer ∈ moment.before.pending, start.InHalf timer.2
  after : ∀ timer ∈ moment.after.pending, start.InHalf timer.2

/-- The queue does in a call what a stable priority queue does. -/
structure Serves (moment : TimerMoment ε) (capacity : Nat) (start : Tick)
    (agenda : List (ε × Tick)) : Prop where
  before : moment.before.Orders start agenda
  after : moment.after.Orders start (moment.call.enter capacity agenda).2
  reply : moment.reply = (moment.call.enter capacity agenda).1
  /-- Nothing is popped exactly if nothing is due. -/
  waits : ∀ now, moment.call = .popDue now → (moment.reply = .popped none ↔
    ∀ timer ∈ moment.before.pending, start.span now < start.span timer.2)
  /-- What is popped is due, and is the first armed of those with the earliest deadline. -/
  pops : ∀ now event, moment.call = .popDue now → moment.reply = .popped (some event) →
    ∃ earlier deadline later, agenda = earlier ++ (event, deadline) :: later ∧
      (moment.call.enter capacity agenda).2 = earlier ++ later ∧
      start.span deadline ≤ start.span now ∧
      (∀ timer ∈ earlier, start.span deadline < start.span timer.2) ∧
      ∀ timer ∈ later, start.span deadline ≤ start.span timer.2

/-- What a call does to the queue it does to the agenda. -/
theorem enters (filed : moment.before.Filed capacity agenda) (spans : moment.Spans start)
    (few : moment.after.size ≤ 0x10000) :
    moment.after.Filed capacity (moment.call.enter capacity agenda).2 ∧
      moment.reply = (moment.call.enter capacity agenda).1 := by
  obtain ⟨sparing, same, ranked⟩ := filed
  obtain ⟨kept, capacity', proceeds⟩ := sparing_proceeds sparing few
  have length : agenda.length = moment.before.size := by
    rw [← ranked.perm.length_eq, sparing.length_pending]
  suffices entered : Ranked moment.after.pending (moment.call.enter capacity agenda).2 ∧
      moment.reply = (moment.call.enter capacity agenda).1 from
    ⟨⟨kept, capacity'.trans same, entered.1⟩, entered.2⟩
  obtain ⟨queue, call⟩ := moment
  simp only [] at ranked same length
  cases call with
  | schedule now delay event =>
    simp only [Proceeds, TimerCall.enter, length, ← same] at proceeds ⊢
    split at proceeds
    · rename_i full
      rw [if_neg full.not_lt, proceeds.1, proceeds.2]
      exact ⟨ranked, rfl⟩
    · rename_i room
      obtain ⟨reply, earlier, later, parts, inserted, before, ahead⟩ := proceeds
      have most : queue.size ≤ queue.timers.capacity :=
        sparing.linked.size_le.trans queue.capacity_numbered_le
      rw [if_pos (lt_of_le_of_ne most room), reply, inserted]
      have within := spans.before
      simp only [parts] at within ranked
      have here : start.InHalf (now.after delay) := by
        refine spans.after (event, now.after delay) ?_
        rw [inserted]
        exact List.mem_append_right _ List.mem_cons_self
      exact ⟨ranked.insert here within before ahead, rfl⟩
  | cancel event =>
    obtain ⟨reply, erased⟩ := proceeds
    have soonest := (ranked.filter fun timer => timer.1 = event).soonest
      fun timer member => spans.before timer (List.mem_of_mem_filter member)
    rw [List.head?_filter] at soonest
    rw [reply, erased, TimerCall.enter, soonest]
    cases first : queue.pending.find? fun timer => timer.1 = event with
    | none =>
      rw [List.eraseP_of_forall_not fun timer member => List.find?_eq_none.mp first timer member]
      exact ⟨ranked, rfl⟩
    | some timer =>
      rw [eraseP_eq_erase first]
      exact ⟨ranked.erase timer, rfl⟩
  | cancelAll test =>
    obtain ⟨reply, filtered⟩ := proceeds
    rw [reply, filtered]
    exact ⟨ranked.filter _, rfl⟩
  | popDue now =>
    have soonest := ranked.soonest spans.before
    rw [TimerCall.enter, soonest]
    rcases proceeds with ⟨reply, unchanged, ahead⟩ | ⟨event, deadline, reply, due, parts⟩
    · rw [reply, unchanged]
      cases first : queue.pending.head? with
      | none => exact ⟨ranked, rfl⟩
      | some timer =>
        simp only [ahead timer first, if_true]
        exact ⟨ranked, trivial⟩
    · have fewer := ranked.erase (event, deadline)
      rw [parts, List.erase_cons_head] at fewer
      rw [reply, parts]
      simp only [List.head?_cons, due, Bool.false_eq_true, if_false]
      exact ⟨fewer, trivial⟩

theorem serves (filed : moment.before.Filed capacity agenda) (spans : moment.Spans start)
    (few : moment.after.size ≤ 0x10000) : moment.Serves capacity start agenda := by
  obtain ⟨filed', reply⟩ := enters filed spans few
  have within : ∀ timer ∈ agenda, start.InHalf timer.2 := fun timer member =>
    spans.before timer (filed.ranked.mem_iff.mpr member)
  have soonest := filed.ranked.soonest spans.before
  have orders := filed.orders spans.before
  refine ⟨orders, filed'.orders spans.after, reply, fun now popping => ?_,
    fun now event popping popped => ?_⟩
  · have here := spans.now now (by rw [popping]; rfl)
    rw [reply, popping, TimerCall.enter, soonest]
    cases pending : moment.before.pending with
    | nil => simp
    | cons first rest =>
      have there := spans.before first (pending ▸ List.mem_cons_self)
      have sorted := orders.sorted
      rw [pending] at sorted
      simp only [List.head?_cons]
      by_cases early : now.before first.2 = true
      · have lead := (Tick.before_iff here there).mp early
        simp only [early, if_true, true_iff]
        intro timer member
        rcases List.mem_cons.mp member with rfl | later
        · exact lead
        · exact lead.trans_le ((List.pairwise_cons.mp sorted).1 timer later)
      · simp only [early]
        simp only [Bool.false_eq_true, if_false, TimerReply.popped.injEq, reduceCtorEq, false_iff]
        intro ahead
        exact early ((Tick.before_iff here there).mpr (ahead first List.mem_cons_self))
  · have here := spans.now now (by rw [popping]; rfl)
    rw [reply, popping] at popped
    rw [popping]
    simp only [TimerCall.enter] at popped ⊢
    cases found : soonest? agenda with
    | none => simp [found] at popped
    | some timer =>
      obtain ⟨earlier, later, parts, erased, ahead, behind⟩ := soonest?_eq_some within found
      have there := within timer (parts ▸ List.mem_append_right _ List.mem_cons_self)
      by_cases early : now.before timer.2 = true
      · simp [found, early] at popped
      · simp only [found, early, Bool.false_eq_true, if_false, TimerReply.popped.injEq,
          Option.some.injEq] at popped ⊢
        subst popped
        exact ⟨earlier, timer.2, later, parts, erased,
          (Tick.not_before_iff here there).mp (by simpa using early), ahead, behind⟩

end TimerMoment

namespace TimerQueue

/-- A queue of at most 0x10000 timers never holds more. -/
theorem history_few {capacity : Nat} (bound : capacity ≤ 0x10000) (calls : List (TimerCall ε)) :
    ∀ moment ∈ (ofCapacity capacity).history calls, moment.after.size ≤ 0x10000 := by
  obtain ⟨-, during⟩ := reach (ofCapacity capacity) calls
    (fun _ queue => queue.Linked ∧ queue.timers.capacity = capacity)
    ⟨(ofCapacity_linked bound).linked, by simp [ofCapacity, Slots.capacity, Slots.ofCapacity]⟩
    fun _ moment _ ⟨linked, same⟩ =>
      ⟨(TimerMoment.proceeds linked).1, (TimerMoment.proceeds linked).2.1.trans same⟩
  intro moment member
  obtain ⟨past, rest, whole⟩ := List.append_of_mem member
  obtain ⟨linked, same⟩ := during past moment rest whole
  obtain ⟨linked', capacity', _⟩ := TimerMoment.proceeds linked
  exact linked'.size_le.trans ((capacity'.trans same).trans_le bound)

/-- Over the wrapping clock a queue is a stable priority queue, whatever is asked of it, as long as
all that is pending lies in one half of the clock at a time. A handle has 16 bits for its slot, so no
more than 0x10000 timers can be told apart. A queue of at most that capacity never holds more
(`history_few`); of a larger one it is asked at every step. -/
theorem history_serves {capacity : Nat} {calls : List (TimerCall ε)}
    (few : ∀ moment ∈ (ofCapacity capacity).history calls, moment.after.size ≤ 0x10000)
    (near : ∀ moment ∈ (ofCapacity capacity).history calls, ∃ start, moment.Spans start) :
    ∀ past moment rest, (ofCapacity capacity).history calls = past ++ moment :: rest →
      ∀ start, moment.Spans start → moment.Serves capacity start (agenda capacity past) := by
  have start : (ofCapacity capacity : TimerQueue ε).Filed capacity [] := by
    refine ⟨.ofCapacity capacity, by simp [ofCapacity, Slots.capacity, Slots.ofCapacity], ?_⟩
    have empty : (ofCapacity capacity : TimerQueue ε).chain = [] := by
      rw [chain]
      cases (ofCapacity capacity : TimerQueue ε).timers.capacity <;> rfl
    rw [pending, empty]
    exact .nil
  obtain ⟨-, during⟩ := reach (ofCapacity capacity) calls
    (fun past queue => queue.Filed capacity (agenda capacity past)) start
    fun past moment member filed => by
      obtain ⟨_, spans⟩ := near moment member
      rw [agenda, List.foldl_append]
      exact (TimerMoment.enters filed spans (few moment member)).1
  intro past moment rest whole start spans
  exact TimerMoment.serves (during past moment rest whole) spans
    (few moment (whole ▸ List.mem_append_right _ List.mem_cons_self))

/-- Shortly before the clock starts over, two timers are armed for one moment after it and a third one
for a moment before it. -/
def sampleMidnight : List (TimerCall UInt8) :=
  [.schedule 0xFFFFFFFA 10 2, .schedule 0xFFFFFFFA 10 3, .schedule 0xFFFFFFFA 2 1,
    .popDue 0xFFFFFFFF, .popDue 3, .popDue 4, .popDue 4]

theorem sample_history_serves :
    (∀ moment ∈ (ofCapacity 3).history sampleMidnight, moment.after.size ≤ 0x10000) ∧
      (∀ moment ∈ (ofCapacity 3).history sampleMidnight, moment.Spans 0xFFFFFFFA) ∧
      (∀ past moment rest, (ofCapacity 3).history sampleMidnight = past ++ moment :: rest →
        moment.Serves 3 0xFFFFFFFA (agenda 3 past)) ∧
      ((ofCapacity 3).history sampleMidnight).map (·.reply) =
        [.done, .done, .done, .popped (some 1), .popped none, .popped (some 2),
          .popped (some 3)] := by
  have few := history_few (by decide : 3 ≤ 0x10000) sampleMidnight
  have near : ((ofCapacity 3).history sampleMidnight).all (fun moment =>
      (moment.call.now?.toList ++ (moment.before.pending ++ moment.after.pending).map (·.2)).all
        fun time => Tick.span 0xFFFFFFFA time < 0x80000000) = true := by decide +kernel
  have spans : ∀ moment ∈ (ofCapacity 3).history sampleMidnight, moment.Spans 0xFFFFFFFA := by
    intro moment member
    have times := List.all_eq_true.mp (List.all_eq_true.mp near moment member)
    simp only [List.mem_append, List.mem_map, Option.mem_toList, decide_eq_true_eq] at times
    exact ⟨fun now here => times now (.inl here),
      fun timer here => times timer.2 (.inr ⟨timer, .inl here, rfl⟩),
      fun timer here => times timer.2 (.inr ⟨timer, .inr here, rfl⟩)⟩
  refine ⟨few, spans, fun past moment rest whole => ?_, by decide +kernel⟩
  exact history_serves few (fun moment member => ⟨_, spans moment member⟩) past moment rest whole _
    (spans moment (whole ▸ List.mem_append_right _ List.mem_cons_self))

end TimerQueue

end DiagBus
