import DiagBus.Proofs.Slots
import DiagBus.TimerQueue

namespace DiagBus

variable {ε : Type}

/-- The head names the first of these timers, each timer the one behind it, the last one none. -/
def Chained : Option Handle → List (Handle × PendingTimer ε) → Prop
  | head, [] => head = none
  | head, (handle, timer) :: rest => head = some handle ∧ Chained timer.next rest

/-- The queue's links run through exactly the timers in the table, each of them once. -/
structure TimerQueue.LinkedBy (queue : TimerQueue ε) (links : List (Handle × PendingTimer ε)) :
    Prop where
  wellFormed : queue.timers.WellFormed
  chained : Chained queue.head links
  distinct : (links.map (·.1)).Nodup
  live : ∀ link ∈ links, queue.timers.get? link.1 = some link.2
  complete : ∀ handle timer, queue.timers.get? handle = some timer → (handle, timer) ∈ links

def TimerQueue.Linked (queue : TimerQueue ε) : Prop :=
  queue.LinkedBy queue.chain

/-- The pending events with their deadlines, in firing order. -/
def TimerQueue.pending (queue : TimerQueue ε) : List (ε × Tick) :=
  queue.chain.map fun link => (link.2.event, link.2.deadline)

theorem TimerQueue.events_eq (queue : TimerQueue ε) : queue.events = queue.pending.map (·.1) := by
  simp [TimerQueue.events, TimerQueue.pending]

theorem chainFrom_eq {timers : Slots (PendingTimer ε)} {links : List (Handle × PendingTimer ε)}
    {head : Option Handle} {fuel : Nat} (chained : Chained head links)
    (live : ∀ link ∈ links, timers.get? link.1 = some link.2) (enough : links.length ≤ fuel) :
    chainFrom timers fuel head = links := by
  induction links generalizing head fuel with
  | nil =>
    rw [show head = none from chained]
    cases fuel <;> rfl
  | cons link rest ih =>
    obtain ⟨handle, timer⟩ := link
    obtain ⟨rfl, later⟩ := chained
    cases fuel with
    | zero => simp at enough
    | succ fuel =>
      have here := live _ List.mem_cons_self
      have tail := ih later (fun link member => live link (List.mem_cons_of_mem _ member))
        (Nat.le_of_succ_le_succ enough)
      simp only [chainFrom, here, tail]

theorem TimerQueue.LinkedBy.length_eq {queue : TimerQueue ε}
    {links : List (Handle × PendingTimer ε)} (linked : queue.LinkedBy links) :
    links.length = queue.size := by
  have same : links.Perm queue.timers.entries := by
    refine (List.perm_ext_iff_of_nodup linked.distinct.of_map
      (Slots.entries_nodup linked.wellFormed).of_map).mpr ?_
    rintro ⟨handle, timer⟩
    rw [Slots.mem_entries_iff linked.wellFormed]
    exact ⟨linked.live _, linked.complete _ _⟩
  rw [same.length_eq, Slots.length_entries linked.wellFormed]
  rfl

/-- The walk along the links finds all of them before its fuel runs out. -/
theorem TimerQueue.LinkedBy.chain_eq {queue : TimerQueue ε}
    {links : List (Handle × PendingTimer ε)} (linked : queue.LinkedBy links) :
    queue.chain = links := by
  refine chainFrom_eq linked.chained linked.live ?_
  rw [linked.length_eq]
  exact Slots.used_le_capacity linked.wellFormed

theorem TimerQueue.LinkedBy.linked {queue : TimerQueue ε}
    {links : List (Handle × PendingTimer ε)} (linked : queue.LinkedBy links) : queue.Linked := by
  unfold TimerQueue.Linked
  rw [linked.chain_eq]
  exact linked

theorem TimerQueue.Linked.length_pending {queue : TimerQueue ε} (linked : queue.Linked) :
    queue.pending.length = queue.size := by
  rw [TimerQueue.pending, List.length_map, TimerQueue.LinkedBy.length_eq linked]

theorem TimerQueue.ofCapacity_linked {capacity : Nat} (bound : capacity ≤ 0x10000) :
    (TimerQueue.ofCapacity capacity : TimerQueue ε).LinkedBy [] where
  wellFormed := Slots.ofCapacity_wellFormed bound
  chained := rfl
  distinct := List.nodup_nil
  live := by simp
  complete := by simp [TimerQueue.ofCapacity, Slots.get?_ofCapacity]

/-- The same timers, with another one behind the last. -/
def relinked : List (Handle × PendingTimer ε) → Option Handle → List (Handle × PendingTimer ε)
  | [], _ => []
  | [(handle, timer)], next => [(handle, { timer with next })]
  | link :: later :: rest, next => link :: relinked (later :: rest) next

theorem relinked_concat (links : List (Handle × PendingTimer ε)) (handle : Handle)
    (timer : PendingTimer ε) (next : Option Handle) :
    relinked (links ++ [(handle, timer)]) next = links ++ [(handle, { timer with next })] := by
  induction links with
  | nil => rfl
  | cons link rest ih =>
    cases rest with
    | nil => rfl
    | cons later rest => simpa [relinked] using ih

theorem relinked_handles (links : List (Handle × PendingTimer ε)) (next : Option Handle) :
    (relinked links next).map (·.1) = links.map (·.1) := by
  rcases List.eq_nil_or_concat links with rfl | ⟨start, ⟨handle, timer⟩, rfl⟩
  · rfl
  · simp [relinked_concat]

theorem relinked_pending (links : List (Handle × PendingTimer ε)) (next : Option Handle) :
    (relinked links next).map (fun link => (link.2.event, link.2.deadline)) =
      links.map fun link => (link.2.event, link.2.deadline) := by
  rcases List.eq_nil_or_concat links with rfl | ⟨start, ⟨handle, timer⟩, rfl⟩
  · rfl
  · simp [relinked_concat]

theorem chained_relinked {earlier rest after : List (Handle × PendingTimer ε)}
    {head next : Option Handle} (chained : Chained head (earlier ++ rest))
    (onward : Chained next after) :
    Chained (if earlier = [] then next else head) (relinked earlier next ++ after) := by
  induction earlier generalizing head with
  | nil => simpa [relinked] using onward
  | cons link later ih =>
    obtain ⟨handle, timer⟩ := link
    obtain ⟨rfl, later_chained⟩ := chained
    cases later with
    | nil => exact ⟨rfl, onward⟩
    | cons second rest => exact ⟨rfl, by simpa using ih later_chained⟩

theorem lastHandle_concat (links : List (Handle × PendingTimer ε)) (handle : Handle)
    (timer : PendingTimer ε) : lastHandle (links ++ [(handle, timer)]) = some handle := by
  rw [lastHandle, List.getLast?_concat, Option.map_some]

theorem lastHandle_relinked (links : List (Handle × PendingTimer ε)) (next : Option Handle) :
    lastHandle (relinked links next) = lastHandle links := by
  rw [lastHandle, lastHandle, ← List.getLast?_map, relinked_handles, List.getLast?_map]

/-- What `follow` does to the head and to the table. -/
theorem TimerQueue.follow_spec (queue : TimerQueue ε) {earlier : List (Handle × PendingTimer ε)}
    (wellFormed : queue.timers.WellFormed) (distinct : (earlier.map (·.1)).Nodup)
    (live : ∀ link ∈ earlier, queue.timers.get? link.1 = some link.2) (next : Option Handle) :
    (queue.follow (lastHandle earlier) next).head = (if earlier = [] then next else queue.head) ∧
      (queue.follow (lastHandle earlier) next).timers.WellFormed ∧
      (∀ link ∈ relinked earlier next,
        (queue.follow (lastHandle earlier) next).timers.get? link.1 = some link.2) ∧
      ∀ handle, handle ∉ earlier.map (·.1) →
        (queue.follow (lastHandle earlier) next).timers.get? handle = queue.timers.get? handle := by
  rcases List.eq_nil_or_concat earlier with rfl | ⟨start, ⟨last, timer⟩, rfl⟩
  · simp [TimerQueue.follow, lastHandle, relinked, wellFormed]
  · have here := live (last, timer) (by simp)
    have apart : ∀ link ∈ start, link.1 ≠ last := by
      intro link member equal
      rw [List.concat_eq_append, List.map_append, List.nodup_append] at distinct
      exact distinct.2.2 _ (List.mem_map_of_mem member) last (by simp) equal
    simp only [List.concat_eq_append] at live ⊢
    simp only [TimerQueue.follow, lastHandle_concat, Option.bind_some, here, Option.map_some]
    refine ⟨by simp, Slots.set_wellFormed { timer with next } wellFormed here, ?_, ?_⟩
    · intro link member
      rw [relinked_concat] at member
      rw [Slots.get?_set _ here]
      rcases List.mem_append.mp member with before | equal
      · rw [if_neg (apart link before)]
        exact live link (List.mem_append_left _ before)
      · rw [List.mem_singleton.mp equal, if_pos rfl]
    · intro handle outside
      rw [Slots.get?_set _ here, if_neg]
      rintro rfl
      exact outside (by simp)

theorem TimerQueue.follow_capacity (queue : TimerQueue ε) (previous next : Option Handle) :
    (queue.follow previous next).timers.capacity = queue.timers.capacity := by
  unfold TimerQueue.follow
  split
  · rfl
  · exact Slots.capacity_set _ _ _

theorem TimerQueue.discard_eq {queue : TimerQueue ε} {handle : Handle} {gone : PendingTimer ε}
    {timers : Slots (PendingTimer ε)} (run : queue.timers.erase handle = some (gone, timers)) :
    queue.discard handle = { queue with timers } := by
  rw [TimerQueue.discard, run]

theorem TimerQueue.discard_capacity (queue : TimerQueue ε) (handle : Handle) :
    (queue.discard handle).timers.capacity = queue.timers.capacity := by
  unfold TimerQueue.discard
  split
  · rfl
  · rename_i run
    exact Slots.capacity_erase run

/-- What stands behind `earlier` in a chain from `head`. -/
def behind (head : Option Handle) (earlier : List (Handle × PendingTimer ε)) : Option Handle :=
  earlier.getLast?.elim head (·.2.next)

theorem chained_behind {earlier rest : List (Handle × PendingTimer ε)} {head : Option Handle}
    (chained : Chained head (earlier ++ rest)) : Chained (behind head earlier) rest := by
  induction earlier generalizing head with
  | nil => exact chained
  | cons link later ih =>
    obtain ⟨handle, timer⟩ := link
    obtain ⟨rfl, onward⟩ := chained
    have tail := ih onward
    cases later with
    | nil => exact onward
    | cons second rest => simpa [behind, List.getLast?_cons] using tail

/-- A timer is put between `earlier` and `rest`. -/
theorem TimerQueue.LinkedBy.insert {queue : TimerQueue ε}
    {earlier rest : List (Handle × PendingTimer ε)} (linked : queue.LinkedBy (earlier ++ rest))
    {timer : PendingTimer ε} (next : timer.next = behind queue.head earlier) {handle : Handle}
    {timers : Slots (PendingTimer ε)} (insertion : queue.timers.insert timer = some (handle, timers)) :
    (TimerQueue.follow { queue with timers } (lastHandle earlier) (some handle)).LinkedBy
      (relinked earlier (some handle) ++ (handle, timer) :: rest) := by
  obtain ⟨wellFormed, chained, distinct, live, complete⟩ := linked
  have fresh := Slots.get?_of_insert wellFormed insertion
  have found := Slots.get?_insert wellFormed insertion
  have unused : ∀ link ∈ earlier ++ rest, link.1 ≠ handle := by
    intro link member equal
    have here := live link member
    rw [equal, fresh] at here
    cases here
  have alive : ∀ link ∈ earlier ++ rest, timers.get? link.1 = some link.2 := by
    intro link member
    rw [found, if_neg (unused link member), live link member]
  have distinct_earlier := distinct.sublist ((List.sublist_append_left earlier rest).map (·.1))
  obtain ⟨head, wellFormed', changed, kept⟩ :=
    TimerQueue.follow_spec { queue with timers }
      (Slots.insert_wellFormed wellFormed insertion).1 distinct_earlier
      (fun link member => alive link (List.mem_append_left _ member)) (some handle)
  have apart : ∀ link ∈ rest, link.1 ∉ earlier.map (·.1) := by
    intro link member again
    rw [List.map_append, List.nodup_append] at distinct
    exact distinct.2.2 _ again _ (List.mem_map_of_mem member) rfl
  have outside : handle ∉ earlier.map (·.1) := by
    intro member
    obtain ⟨link, inside, equal⟩ := List.mem_map.mp member
    exact unused link (List.mem_append_left _ inside) equal
  refine ⟨wellFormed', ?_, ?_, ?_, ?_⟩
  · rw [head]
    exact chained_relinked chained ⟨rfl, next ▸ chained_behind chained⟩
  · rw [List.map_append, relinked_handles, List.map_cons, List.nodup_middle, ← List.map_append,
      List.nodup_cons]
    refine ⟨?_, distinct⟩
    intro member
    obtain ⟨link, inside, equal⟩ := List.mem_map.mp member
    exact unused link inside equal
  · intro link member
    rcases List.mem_append.mp member with before | after
    · exact changed link before
    · rcases List.mem_cons.mp after with rfl | later
      · rw [kept handle outside, found, if_pos rfl]
      · rw [kept _ (apart link later)]
        exact alive link (List.mem_append_right _ later)
  · intro other timer' here
    by_cases inside : other ∈ earlier.map (·.1)
    · rw [← relinked_handles earlier (some handle)] at inside
      obtain ⟨link, member, rfl⟩ := List.mem_map.mp inside
      rw [changed link member] at here
      cases here
      exact List.mem_append_left _ member
    · rw [kept other inside, found] at here
      by_cases same : other = handle
      · rw [if_pos same] at here
        cases here
        subst same
        simp
      · rw [if_neg same] at here
        rcases List.mem_append.mp (complete _ _ here) with before | after
        · exact absurd (List.mem_map_of_mem before) inside
        · exact List.mem_append_right _ (List.mem_cons_of_mem _ after)

/-- The timer between `earlier` and `rest` is taken out. -/
theorem TimerQueue.LinkedBy.remove {queue : TimerQueue ε}
    {earlier rest : List (Handle × PendingTimer ε)} {handle : Handle} {timer : PendingTimer ε}
    (linked : queue.LinkedBy (earlier ++ (handle, timer) :: rest)) :
    ((queue.follow (lastHandle earlier) timer.next).discard handle).LinkedBy
      (relinked earlier timer.next ++ rest) := by
  obtain ⟨wellFormed, chained, distinct, live, complete⟩ := linked
  have distinct_earlier :=
    distinct.sublist ((List.sublist_append_left earlier ((handle, timer) :: rest)).map (·.1))
  obtain ⟨head, wellFormed', changed, kept⟩ :=
    TimerQueue.follow_spec queue wellFormed distinct_earlier
      (fun link member => live link (List.mem_append_left _ member)) timer.next
  have distinct' := distinct
  rw [List.map_append, List.map_cons, List.nodup_middle, ← List.map_append, List.nodup_cons] at distinct'
  obtain ⟨only, others⟩ := distinct'
  have outside : handle ∉ earlier.map (·.1) := fun member =>
    only (by rw [List.map_append]; exact List.mem_append_left _ member)
  have here : (queue.follow (lastHandle earlier) timer.next).timers.get? handle = some timer := by
    rw [kept handle outside]
    exact live _ (List.mem_append_right _ List.mem_cons_self)
  have run := Slots.erase_eq here
  have found := Slots.get?_erase run
  have apart : ∀ link ∈ rest, link.1 ∉ earlier.map (·.1) := by
    intro link member again
    rw [List.map_append, List.nodup_append] at others
    exact others.2.2 _ again _ (List.mem_map_of_mem member) rfl
  rw [TimerQueue.discard_eq run]
  refine ⟨(Slots.erase_wellFormed wellFormed' run).1, ?_, ?_, ?_, ?_⟩
  · show Chained (queue.follow (lastHandle earlier) timer.next).head _
    rw [head]
    exact chained_relinked chained (chained_behind chained).2
  · rw [List.map_append, relinked_handles, ← List.map_append]
    exact others
  · intro link member
    rw [found]
    have different : link.1 ≠ handle := by
      intro equal
      apply only
      rw [List.map_append, ← relinked_handles earlier timer.next, ← List.map_append]
      exact List.mem_map.mpr ⟨link, member, equal⟩
    rw [if_neg different]
    rcases List.mem_append.mp member with before | after
    · exact changed link before
    · rw [kept _ (apart link after)]
      exact live _ (List.mem_append_right _ (List.mem_cons_of_mem _ after))
  · intro other timer' still
    rw [found] at still
    by_cases same : other = handle
    · rw [if_pos same] at still
      cases still
    · rw [if_neg same] at still
      by_cases inside : other ∈ earlier.map (·.1)
      · rw [← relinked_handles earlier timer.next] at inside
        obtain ⟨link, member, rfl⟩ := List.mem_map.mp inside
        rw [changed link member] at still
        cases still
        exact List.mem_append_left _ member
      · rw [kept other inside] at still
        rcases List.mem_append.mp (complete _ _ still) with before | after
        · exact absurd (List.mem_map_of_mem before) inside
        · rcases List.mem_cons.mp after with equal | later
          · exact absurd (congrArg Prod.fst equal) same
          · exact List.mem_append_right _ later

/-- Where a timer with this deadline is put among the pending ones: behind all that do not fire
later, up to the first that does. -/
def insertPending (pending : List (ε × Tick)) (event : ε) (deadline : Tick) : List (ε × Tick) :=
  pending.takeWhile (fun timer => !deadline.before timer.2) ++ (event, deadline) ::
    pending.dropWhile (fun timer => !deadline.before timer.2)

/-- Arming a timer fails only for want of a free slot. -/
theorem TimerQueue.schedule_eq (queue : TimerQueue ε) (now delay : Tick) (event : ε) :
    queue.schedule now delay event =
      let earlier := queue.chain.takeWhile fun link =>
        !(now.after delay).before link.2.deadline
      match queue.timers.insert
        { deadline := now.after delay, event, next := behind queue.head earlier } with
      | none => .error .memory
      | some (handle, timers) =>
        .ok (TimerQueue.follow { queue with timers } (lastHandle earlier) (some handle)) := by
  unfold TimerQueue.schedule behind
  simp only []
  cases (queue.chain.takeWhile fun link =>
    !(now.after delay).before link.2.deadline).getLast? <;> rfl

/-- A timer that was armed is among the pending ones, which keep their order. -/
theorem TimerQueue.schedule_ok {queue after : TimerQueue ε} (linked : queue.Linked)
    {now delay : Tick} {event : ε} (run : queue.schedule now delay event = .ok after) :
    after.Linked ∧ after.timers.capacity = queue.timers.capacity ∧
      after.pending = insertPending queue.pending event (now.after delay) := by
  let late (link : Handle × PendingTimer ε) : Bool := !(now.after delay).before link.2.deadline
  let earlier := queue.chain.takeWhile late
  let timer : PendingTimer ε :=
    { deadline := now.after delay, event, next := behind queue.head earlier }
  have parts : earlier ++ queue.chain.dropWhile late = queue.chain :=
    List.takeWhile_append_dropWhile
  have split : queue.LinkedBy (earlier ++ queue.chain.dropWhile late) := by
    rw [parts]
    exact linked
  rw [TimerQueue.schedule_eq] at run
  cases insertion : queue.timers.insert timer with
  | none =>
    simp only [timer, earlier, late] at insertion
    simp [insertion] at run
  | some found =>
    obtain ⟨handle, timers⟩ := found
    have links := split.insert (show timer.next = behind queue.head earlier from rfl) insertion
    have result : TimerQueue.follow { queue with timers } (lastHandle earlier) (some handle) = after := by
      simp only [timer, earlier, late] at insertion
      simp only [insertion, Except.ok.injEq] at run
      exact run
    rw [← result]
    refine ⟨links.linked, ?_, ?_⟩
    · rw [TimerQueue.follow_capacity]
      exact (Slots.insert_wellFormed linked.wellFormed insertion).2.1
    · rw [TimerQueue.pending, links.chain_eq, List.map_append, relinked_pending, List.map_cons]
      unfold insertPending TimerQueue.pending
      rw [List.takeWhile_map, List.dropWhile_map]
      rfl

/-- With a free slot a timer can be armed. -/
theorem TimerQueue.schedule_linked {queue : TimerQueue ε} (linked : queue.Linked)
    (now delay : Tick) (event : ε) (room : queue.size < queue.timers.capacity) :
    ∃ after, queue.schedule now delay event = .ok after ∧ after.Linked ∧
      after.timers.capacity = queue.timers.capacity ∧
      after.pending = insertPending queue.pending event (now.after delay) := by
  cases run : queue.schedule now delay event with
  | ok after => exact ⟨after, rfl, TimerQueue.schedule_ok linked run⟩
  | error fault =>
    simp only [TimerQueue.schedule_eq] at run
    split at run
    · rename_i full
      obtain ⟨handle, timers, insertion⟩ := Slots.insert_exists linked.wellFormed _ room
      rw [full] at insertion
      cases insertion
    · cases run

theorem eraseP_eq_split {β : Type} (test : β → Bool) (items : List β) :
    items.eraseP test =
      items.takeWhile (fun item => !test item) ++ (items.dropWhile fun item => !test item).tail := by
  induction items with
  | nil => rfl
  | cons item rest ih => by_cases passes : test item <;> simp [passes, ih]

/-- The first timer whose event passes the test leaves the queue, the others keep their order. -/
theorem TimerQueue.removeFirst_linked {queue : TimerQueue ε} (linked : queue.Linked)
    (test : ε → Bool) :
    (queue.removeFirst test).Linked ∧
      (queue.removeFirst test).timers.capacity = queue.timers.capacity ∧
      (queue.removeFirst test).pending = queue.pending.eraseP (test ·.1) := by
  let fails (link : Handle × PendingTimer ε) : Bool := !test link.2.event
  let earlier := queue.chain.takeWhile fails
  have parts : earlier ++ queue.chain.dropWhile fails = queue.chain :=
    List.takeWhile_append_dropWhile
  have dropped : queue.chain.drop earlier.length = queue.chain.dropWhile fails := by
    conv_lhs => rw [← parts]
    exact List.drop_left
  have pending : queue.pending.eraseP (test ·.1) =
      (earlier ++ (queue.chain.dropWhile fails).tail).map
        fun link => (link.2.event, link.2.deadline) := by
    rw [TimerQueue.pending, eraseP_eq_split, List.takeWhile_map, List.dropWhile_map,
      List.map_append, List.map_tail]
    rfl
  have split : queue.LinkedBy (earlier ++ queue.chain.dropWhile fails) := by
    rw [parts]
    exact linked
  rw [pending]
  cases rest : queue.chain.dropWhile fails with
  | nil =>
    have same : queue.removeFirst test = queue := by
      unfold TimerQueue.removeFirst
      simp only []
      rw [dropped, rest]
    rw [same]
    refine ⟨linked, rfl, ?_⟩
    rw [rest] at parts
    rw [TimerQueue.pending, ← parts]
    rfl
  | cons link rest' =>
    obtain ⟨handle, timer⟩ := link
    rw [rest] at split
    have links := split.remove
    have removed : queue.removeFirst test =
        (queue.follow (lastHandle earlier) timer.next).discard handle := by
      unfold TimerQueue.removeFirst
      simp only []
      rw [dropped, rest]
    rw [removed]
    refine ⟨links.linked, ?_, ?_⟩
    · rw [TimerQueue.discard_capacity, TimerQueue.follow_capacity]
    · rw [TimerQueue.pending, links.chain_eq, List.map_append, relinked_pending, ← List.map_append]
      rfl

theorem TimerQueue.cancel_linked [DecidableEq ε] {queue : TimerQueue ε} (linked : queue.Linked)
    (event : ε) :
    (queue.cancel event).Linked ∧
      (queue.cancel event).timers.capacity = queue.timers.capacity ∧
      (queue.cancel event).pending = queue.pending.eraseP (·.1 = event) :=
  TimerQueue.removeFirst_linked linked _

/-- The queue after a timer was started afresh, or switched off if there is no room for it. -/
def TimerQueue.arm [DecidableEq ε] (queue : TimerQueue ε) (now delay : Tick) (event : ε) :
    TimerQueue ε :=
  match (queue.cancel event).schedule now delay event with
  | .ok queue => queue
  | .error _ => queue.cancel event

/-- A pass that has come behind `kept` leaves these timers alone. Of the others only those stay whose
events fail the test. -/
theorem TimerQueue.LinkedBy.cancelFrom {queue : TimerQueue ε}
    {kept rest : List (Handle × PendingTimer ε)} {current : Option Handle} {fuel : Nat}
    (linked : queue.LinkedBy (kept ++ rest)) (onward : Chained current rest)
    (enough : rest.length ≤ fuel) (test : ε → Bool) :
    (queue.cancelFrom test fuel (lastHandle kept) current).Linked ∧
      (queue.cancelFrom test fuel (lastHandle kept) current).timers.capacity =
        queue.timers.capacity ∧
      (queue.cancelFrom test fuel (lastHandle kept) current).pending =
        (kept ++ rest.filter fun link => !test link.2.event).map
          fun link => (link.2.event, link.2.deadline) := by
  induction rest generalizing queue kept current fuel with
  | nil =>
    rw [show current = none from onward]
    have same : queue.cancelFrom test fuel (lastHandle kept) none = queue := by
      cases fuel <;> rfl
    rw [same, TimerQueue.pending, linked.chain_eq]
    exact ⟨linked.linked, rfl, rfl⟩
  | cons link rest ih =>
    obtain ⟨handle, timer⟩ := link
    obtain ⟨rfl, later⟩ := onward
    have here : queue.timers.get? handle = some timer := linked.live (handle, timer) (by simp)
    cases fuel with
    | zero => simp at enough
    | succ fuel =>
      have fewer : rest.length ≤ fuel := Nat.le_of_succ_le_succ enough
      simp only [TimerQueue.cancelFrom, here]
      by_cases passes : test timer.event = true
      · -- `kept` stays the same up to its last link
        obtain ⟨linked', capacity, pending⟩ := ih linked.remove later fewer
        rw [lastHandle_relinked] at linked' capacity pending
        rw [if_pos passes, List.filter_cons_of_neg (by simpa using passes)]
        refine ⟨linked', ?_, ?_⟩
        · rw [capacity, TimerQueue.discard_capacity, TimerQueue.follow_capacity]
        · rw [pending, List.map_append, relinked_pending, ← List.map_append]
      · have longer : queue.LinkedBy ((kept ++ [(handle, timer)]) ++ rest) := by
          rw [List.append_assoc]
          exact linked
        have tail := ih longer later fewer
        rw [lastHandle_concat, List.append_assoc] at tail
        rw [if_neg passes, List.filter_cons_of_pos (by simpa using passes)]
        exact tail

theorem TimerQueue.cancelAll_linked {queue : TimerQueue ε} (linked : queue.Linked)
    (test : ε → Bool) :
    (queue.cancelAll test).Linked ∧
      (queue.cancelAll test).timers.capacity = queue.timers.capacity ∧
      (queue.cancelAll test).pending = queue.pending.filter fun timer => !test timer.1 := by
  have whole : queue.LinkedBy ([] ++ queue.chain) := linked
  have pass := whole.cancelFrom linked.chained (TimerQueue.LinkedBy.length_eq linked).le test
  have filtered : (queue.pending.filter fun timer => !test timer.1) =
      (queue.chain.filter fun link => !test link.2.event).map
        fun link => (link.2.event, link.2.deadline) := by
    rw [TimerQueue.pending, List.filter_map]
    rfl
  rw [filtered]
  exact pass

/-- The first timer is popped as soon as it is due. -/
theorem TimerQueue.LinkedBy.popDue {queue : TimerQueue ε} {handle : Handle}
    {timer : PendingTimer ε} {rest : List (Handle × PendingTimer ε)}
    (linked : queue.LinkedBy ((handle, timer) :: rest)) (now : Tick) :
    if now.before timer.deadline then queue.popDue now = none
    else ∃ after, queue.popDue now = some (timer.event, after) ∧ after.LinkedBy rest ∧
      after.timers.capacity = queue.timers.capacity := by
  have named : queue.head = some handle := linked.chained.1
  have here : queue.timers.get? handle = some timer := linked.live _ List.mem_cons_self
  have first : queue.first? = some (handle, timer) := by
    simp [TimerQueue.first?, named, here]
  unfold TimerQueue.popDue
  by_cases early : now.before timer.deadline = true
  · simp [first, early]
  · have split : queue.LinkedBy ([] ++ (handle, timer) :: rest) := linked
    have run := Slots.erase_eq here
    let led : TimerQueue ε := { queue with head := timer.next }
    have shorter : (led.discard handle).LinkedBy rest := split.remove
    rw [TimerQueue.discard_eq (show led.timers.erase handle = _ from run)] at shorter
    rw [if_neg early]
    refine ⟨_, ?_, shorter, Slots.capacity_erase run⟩
    simp [first, early, run, led]

theorem TimerQueue.popDue_linked {queue after : TimerQueue ε} {event : ε} {now : Tick}
    (linked : queue.Linked) (run : queue.popDue now = some (event, after)) :
    after.Linked ∧ after.timers.capacity = queue.timers.capacity ∧
      ∃ deadline, now.before deadline = false ∧
        queue.pending = (event, deadline) :: after.pending := by
  have whole : queue.LinkedBy queue.chain := linked
  cases links : queue.chain with
  | nil =>
    rw [links] at whole
    have empty : queue.head = none := whole.chained
    simp [TimerQueue.popDue, TimerQueue.first?, empty] at run
  | cons link rest =>
    obtain ⟨handle, timer⟩ := link
    rw [links] at whole
    have popped := whole.popDue now
    by_cases early : now.before timer.deadline = true
    · rw [if_pos early, run] at popped
      cases popped
    · rw [if_neg early] at popped
      obtain ⟨after', run', shorter, capacity⟩ := popped
      rw [run] at run'
      cases run'
      refine ⟨shorter.linked, capacity, timer.deadline, by simpa using early, ?_⟩
      rw [TimerQueue.pending, TimerQueue.pending, links, shorter.chain_eq]
      rfl

end DiagBus
