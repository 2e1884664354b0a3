import DiagBus.Proofs.Slots

namespace DiagBus

variable {α : Type}

inductive SlotCall (α : Type)
  | insert (value : α)
  | erase (handle : Handle)
  /-- The value of a live handle is changed where it is. -/
  | change (handle : Handle) (edit : α → α)

inductive SlotReply (α : Type)
  | inserted (handle : Handle)
  | full
  /-- The value that was taken out. -/
  | erased (value : α)
  /-- The value that was there to be changed. -/
  | reached (value : α)
  | rejected
  deriving DecidableEq

/-- The call's answer, and the table after it. -/
def SlotCall.run : SlotCall α → Slots α → SlotReply α × Slots α
  | .insert value, table =>
    match table.insert value with
    | some (handle, after) => (.inserted handle, after)
    | none => (.full, table)
  | .erase handle, table =>
    match table.erase handle with
    | some (value, after) => (.erased value, after)
    | none => (.rejected, table)
  | .change handle edit, table =>
    match table.get? handle with
    | some value => (.reached value, table.set handle (edit value))
    | none => (.rejected, table)

/-- A call and the table that it finds. -/
structure SlotMoment (α : Type) where
  before : Slots α
  call : SlotCall α

namespace Slots

/-- The value in this slot, whatever the handle of it is. -/
def content? (table : Slots α) (position : Nat) : Option α :=
  table.slots[position]?.bind (·.value)

/-- The generation that handles of this slot have at present. -/
def generation? (table : Slots α) (position : Nat) : Option UInt16 :=
  table.slots[position]?.map (·.generation)

def calls (table : Slots α) (calls : List (SlotCall α)) : Slots α :=
  calls.foldl (fun table call => (call.run table).2) table

/-- The calls with the tables that they find. -/
def history (table : Slots α) : List (SlotCall α) → List (SlotMoment α)
  | [] => []
  | call :: rest => ⟨table, call⟩ :: (call.run table).2.history rest

/-- What a handle is answered by those who look up, change or erase its value. -/
structure Answers (table : Slots α) (handle : Handle) (content : Option α) : Prop where
  got : table.get? handle = content
  changed : ∀ edit,
    ((SlotCall.change handle edit).run table).1 = content.elim .rejected .reached
  erased : ((SlotCall.erase handle).run table).1 = content.elim .rejected .erased

end Slots

namespace SlotMoment

def reply (moment : SlotMoment α) : SlotReply α :=
  (moment.call.run moment.before).1

def after (moment : SlotMoment α) : Slots α :=
  (moment.call.run moment.before).2

/-- Whether a call takes the value out of this slot. -/
def empties (moment : SlotMoment α) (position : Nat) : Bool :=
  match moment.call, moment.reply with
  | .erase handle, .erased _ => handle.slot.toNat = position
  | _, _ => false

/-- The value of a handle after a call that changes it, if it does. -/
def revise (moment : SlotMoment α) (handle : Handle) (value : α) : α :=
  match moment.call with
  | .change other edit => if other = handle then edit value else value
  | _ => value

/-- A call is rejected and changes nothing, or it concerns just one handle. A value is put into the
lowest empty slot, unless there is none. -/
def Proceeds (moment : SlotMoment α) : Prop :=
  match moment.call with
  | .insert value =>
    if ∀ position < moment.before.capacity, (moment.before.content? position).isSome then
      moment.reply = .full ∧ moment.after = moment.before
    else
      ∃ handle, moment.reply = .inserted handle ∧
        handle.slot.toNat < moment.before.capacity ∧
        moment.before.content? handle.slot.toNat = none ∧
        (∀ lower < handle.slot.toNat, (moment.before.content? lower).isSome) ∧
        ∀ other, moment.after.get? other =
          if other = handle then some value else moment.before.get? other
  | .erase handle =>
    match moment.before.get? handle with
    | none => moment.reply = .rejected ∧ moment.after = moment.before
    | some value =>
      moment.reply = .erased value ∧ ∀ other, moment.after.get? other =
        if other = handle then none else moment.before.get? other
  | .change handle edit =>
    match moment.before.get? handle with
    | none => moment.reply = .rejected ∧ moment.after = moment.before
    | some value =>
      moment.reply = .reached value ∧ ∀ other, moment.after.get? other =
        if other = handle then some (edit value) else moment.before.get? other

end SlotMoment

/-- How often this slot was emptied in these moments. -/
def emptied (position : Nat) (moments : List (SlotMoment α)) : Nat :=
  moments.countP (·.empties position)

namespace Slots

variable {table rest : Slots α} {handle : Handle} {value : α}

theorem content?_of_get? (live : table.get? handle = some value) :
    table.content? handle.slot.toNat = some value := by
  rw [content?, get?_eq_some_iff.mp live]
  rfl

/-- A handle reaches what is in its slot if it is of the slot's present generation. -/
theorem get?_eq_content? {generation : UInt16}
    (here : table.generation? handle.slot.toNat = some generation) : table.get? handle =
      if generation = handle.generation then table.content? handle.slot.toNat else none := by
  obtain ⟨slot, entry, rfl⟩ := Option.map_eq_some_iff.mp here
  rw [get?_eq, content?, entry]
  rfl

theorem generation?_overwrite {content : Option α}
    (entry : table.slots[handle.slot.toNat]? = some ⟨content, handle.generation⟩)
    (slot : Slot α) (used position : Nat) :
    generation? { slots := table.slots.set handle.slot.toNat slot, used } position =
      if position = handle.slot.toNat then some slot.generation
      else table.generation? position := by
  obtain ⟨inside, _⟩ := List.getElem?_eq_some_iff.mp entry
  unfold generation?
  by_cases place : position = handle.slot.toNat
  · rw [if_pos place, place, List.getElem?_set_self inside]
    rfl
  · rw [if_neg place, List.getElem?_set_ne fun same => place same.symm]

/-- A slot that gets another value keeps its generation. -/
theorem generation?_refilled {content : Option α}
    (entry : table.slots[handle.slot.toNat]? = some ⟨content, handle.generation⟩)
    (other : Option α) (used position : Nat) :
    generation? { slots := table.slots.set handle.slot.toNat ⟨other, handle.generation⟩, used }
      position = table.generation? position := by
  rw [generation?_overwrite entry]
  split
  · rename_i place
    rw [place, generation?, entry]
    rfl
  · rfl

theorem answers (table : Slots α) (handle : Handle) :
    table.Answers handle (table.get? handle) := by
  cases live : table.get? handle with
  | none => exact ⟨live, fun edit => by simp [SlotCall.run, live],
      by simp [SlotCall.run, erase_eq_none live]⟩
  | some value => exact ⟨live, fun edit => by simp [SlotCall.run, live],
      by simp [SlotCall.run, erase_eq live]⟩

/-- A value goes into the lowest empty slot. -/
theorem insert_lowest (wellFormed : table.WellFormed)
    (run : table.insert value = some (handle, rest)) :
    ∀ lower < handle.slot.toNat, (table.content? lower).isSome := by
  unfold insert at run
  obtain ⟨position, found, run⟩ := Option.bind_eq_some_iff.mp run
  obtain ⟨slot, _, run⟩ := Option.bind_eq_some_iff.mp run
  cases run
  obtain ⟨inside, _, filled⟩ := List.findIdx?_eq_some_iff_getElem.mp found
  rw [handleAt_slot slot (inside.trans_le wellFormed.numbered)]
  intro lower before
  have used := filled lower before
  rw [content?, List.getElem?_eq_getElem (before.trans inside)]
  simpa [Option.isSome_iff_ne_none] using used

/-- No value can be put in just if every slot has one. -/
theorem insert_eq_none_iff : table.insert value = none ↔
    ∀ position < table.capacity, (table.content? position).isSome := by
  have full : table.slots.findIdx? (·.value.isNone) = none ↔
      ∀ position < table.capacity, (table.content? position).isSome := by
    rw [List.findIdx?_eq_none_iff, List.forall_mem_iff_getElem]
    refine forall₂_congr fun position inside => ?_
    rw [content?, List.getElem?_eq_getElem inside]
    simp [Option.isSome_iff_ne_none]
  rw [← full, insert]
  cases found : table.slots.findIdx? (·.value.isNone) with
  | none => simp
  | some position =>
    obtain ⟨inside, _⟩ := List.findIdx?_eq_some_iff_getElem.mp found
    simp [List.getElem?_eq_getElem inside]

end Slots

namespace SlotMoment

variable {moment : SlotMoment α}

/-- Every call keeps the table in order. -/
theorem after_wellFormed (wellFormed : moment.before.WellFormed) :
    moment.after.WellFormed ∧ moment.after.capacity = moment.before.capacity := by
  obtain ⟨table, call⟩ := moment
  simp only [after]
  cases call with
  | insert value =>
    simp only [SlotCall.run]
    cases run : table.insert value with
    | none => exact ⟨wellFormed, rfl⟩
    | some inserted =>
      obtain ⟨kept, capacity, _⟩ := Slots.insert_wellFormed wellFormed run
      exact ⟨kept, capacity⟩
  | erase handle =>
    simp only [SlotCall.run]
    cases run : table.erase handle with
    | none => exact ⟨wellFormed, rfl⟩
    | some erased =>
      exact ⟨(Slots.erase_wellFormed wellFormed run).1, Slots.capacity_erase run⟩
  | change handle edit =>
    simp only [SlotCall.run]
    cases live : table.get? handle with
    | none => exact ⟨wellFormed, rfl⟩
    | some value =>
      exact ⟨Slots.set_wellFormed _ wellFormed live, Slots.capacity_set _ _ _⟩

theorem proceeds (wellFormed : moment.before.WellFormed) : moment.Proceeds := by
  obtain ⟨table, call⟩ := moment
  unfold Proceeds
  simp only [reply, after]
  cases call with
  | insert value =>
    simp only [SlotCall.run]
    cases run : table.insert value with
    | none =>
      rw [if_pos (Slots.insert_eq_none_iff.mp run)]
      exact ⟨rfl, rfl⟩
    | some inserted =>
      obtain ⟨handle, after⟩ := inserted
      rw [if_neg fun full => by rw [Slots.insert_eq_none_iff.mpr full] at run; cases run]
      obtain ⟨entry, _⟩ := Slots.insert_eq wellFormed run
      refine ⟨handle, rfl, (List.getElem?_eq_some_iff.mp entry).1, ?_,
        Slots.insert_lowest wellFormed run, Slots.get?_insert wellFormed run⟩
      rw [Slots.content?, entry]
      rfl
  | erase handle =>
    simp only [SlotCall.run]
    cases live : table.get? handle with
    | none =>
      simp only [Slots.erase_eq_none live]
      exact ⟨trivial, trivial⟩
    | some value =>
      have run := Slots.erase_eq live
      simp only [run]
      exact ⟨trivial, Slots.get?_erase run⟩
  | change handle edit =>
    simp only [SlotCall.run]
    cases live : table.get? handle with
    | none => exact ⟨rfl, rfl⟩
    | some value => exact ⟨rfl, Slots.get?_set _ live⟩

/-- The generation of a slot counts how often the slot is emptied. -/
theorem generation_after (wellFormed : moment.before.WellFormed) (position : Nat) :
    moment.after.generation? position = (moment.before.generation? position).map
      (· + UInt16.ofNat (moment.empties position).toNat) := by
  have kept (generation : Option UInt16) : generation.map (· + UInt16.ofNat 0) = generation := by
    simp
  obtain ⟨table, call⟩ := moment
  simp only [empties, reply, after]
  cases call with
  | insert value =>
    simp only [SlotCall.run]
    cases run : table.insert value with
    | none => exact (kept _).symm
    | some inserted =>
      obtain ⟨handle, after⟩ := inserted
      obtain ⟨entry, rfl⟩ := Slots.insert_eq wellFormed run
      exact (Slots.generation?_refilled entry _ _ _).trans (kept _).symm
  | erase handle =>
    simp only [SlotCall.run]
    cases live : table.get? handle with
    | none =>
      simp only [Slots.erase_eq_none live]
      exact (kept _).symm
    | some value =>
      have entry := Slots.get?_eq_some_iff.mp live
      simp only [Slots.erase_eq live]
      rw [Slots.generation?_overwrite entry]
      by_cases place : position = handle.slot.toNat
      · rw [if_pos place, place, Slots.generation?, entry]
        simp
      · have elsewhere : decide (handle.slot.toNat = position) = false :=
          decide_eq_false fun same => place same.symm
        rw [if_neg place, elsewhere]
        exact (kept _).symm
  | change handle edit =>
    simp only [SlotCall.run]
    cases live : table.get? handle with
    | none => exact (kept _).symm
    | some value =>
      simp only [Slots.set_eq _ live]
      exact (Slots.generation?_refilled (Slots.get?_eq_some_iff.mp live) _ _ _).trans (kept _).symm

/-- A handle that is not taken out of the table keeps its value, however that is changed. -/
theorem revises (wellFormed : moment.before.WellFormed) {handle : Handle} {value : α}
    (live : moment.before.get? handle = some value)
    (stays : moment.empties handle.slot.toNat = false) :
    moment.after.get? handle = some (moment.revise handle value) := by
  have proceeds := proceeds wellFormed
  obtain ⟨table, call⟩ := moment
  unfold Proceeds at proceeds
  unfold revise
  unfold empties at stays
  simp only [] at live
  cases call with
  | insert new =>
    simp only [] at proceeds ⊢
    split at proceeds
    · rw [proceeds.2]
      exact live
    · obtain ⟨name, _, _, vacant, _, kept⟩ := proceeds
      have apart : handle ≠ name := by
        rintro rfl
        rw [Slots.content?_of_get? live] at vacant
        cases vacant
      rw [kept, if_neg apart]
      exact live
  | erase name =>
    simp only [] at proceeds ⊢
    split at proceeds
    · rw [proceeds.2]
      exact live
    · obtain ⟨reply, kept⟩ := proceeds
      have apart : handle ≠ name := by
        rintro rfl
        simp [reply] at stays
      rw [kept, if_neg apart]
      exact live
  | change name edit =>
    simp only [] at proceeds ⊢
    by_cases own : name = handle
    · subst own
      rw [live] at proceeds
      rw [proceeds.2, if_pos rfl, if_pos rfl]
    · split at proceeds
      · rw [proceeds.2, if_neg own]
        exact live
      · rw [proceeds.2, if_neg fun same => own same.symm, if_neg own]
        exact live

/-- A handle is given out for a slot that was empty, and reaches the value from then on. -/
theorem inserted (wellFormed : moment.before.WellFormed) {handle : Handle}
    (reply : moment.reply = .inserted handle) : ∃ value, moment.call = .insert value ∧
      moment.before.content? handle.slot.toNat = none ∧
      moment.after.get? handle = some value := by
  have proceeds := proceeds wellFormed
  obtain ⟨table, call⟩ := moment
  unfold Proceeds at proceeds
  cases call with
  | insert value =>
    simp only [] at proceeds
    split at proceeds
    · rw [proceeds.1] at reply
      cases reply
    · obtain ⟨name, answer, _, vacant, _, kept⟩ := proceeds
      rw [answer] at reply
      cases reply
      exact ⟨value, rfl, vacant, (kept handle).trans (if_pos rfl)⟩
  | erase name =>
    simp only [] at proceeds
    split at proceeds <;> rw [proceeds.1] at reply <;> cases reply
  | change name edit =>
    simp only [] at proceeds
    split at proceeds <;> rw [proceeds.1] at reply <;> cases reply

end SlotMoment

namespace Slots

/-- Calls keep a table in order, and its capacity. -/
theorem calls_wellFormed {table : Slots α} (wellFormed : table.WellFormed)
    (calls : List (SlotCall α)) :
    (table.calls calls).WellFormed ∧ (table.calls calls).capacity = table.capacity := by
  induction calls generalizing table with
  | nil => exact ⟨wellFormed, rfl⟩
  | cons call rest ih =>
    have ordered : (SlotMoment.mk table call).before.WellFormed := wellFormed
    obtain ⟨next, same⟩ := SlotMoment.after_wellFormed ordered
    obtain ⟨final, capacity⟩ := ih next
    exact ⟨final, capacity.trans same⟩

theorem emptied_cons (position : Nat) (moment : SlotMoment α) (rest : List (SlotMoment α)) :
    emptied position (moment :: rest) =
      (moment.empties position).toNat + emptied position rest := by
  unfold emptied
  rw [List.countP_cons, Nat.add_comm]
  cases moment.empties position <;> rfl

theorem generation?_calls {table : Slots α} (wellFormed : table.WellFormed) (position : Nat)
    (calls : List (SlotCall α)) :
    (table.calls calls).generation? position = (table.generation? position).map
      (· + UInt16.ofNat (emptied position (table.history calls))) := by
  induction calls generalizing table with
  | nil => simp [calls, history, emptied]
  | cons call rest ih =>
    have ordered : (SlotMoment.mk table call).before.WellFormed := wellFormed
    have next := (SlotMoment.after_wellFormed ordered).1
    have counted := SlotMoment.generation_after ordered position
    have later := ih next
    rw [history, emptied_cons, UInt16.ofNat_add]
    refine later.trans ?_
    rw [counted, Option.map_map]
    congr 1
    funext generation
    exact UInt16.add_assoc _ _ _

/-- A value that stays in the table is found under its handle. -/
theorem get?_calls {table : Slots α} (wellFormed : table.WellFormed) {handle : Handle} {value : α}
    (live : table.get? handle = some value) {calls : List (SlotCall α)}
    (stays : emptied handle.slot.toNat (table.history calls) = 0) :
    (table.calls calls).get? handle = some
      ((table.history calls).foldl (fun value moment => moment.revise handle value) value) := by
  induction calls generalizing table value with
  | nil => exact live
  | cons call rest ih =>
    rw [history, emptied_cons, Nat.add_eq_zero_iff] at stays
    have ordered : (SlotMoment.mk table call).before.WellFormed := wellFormed
    have next := (SlotMoment.after_wellFormed ordered).1
    have revised := SlotMoment.revises ordered live (Bool.toNat_eq_zero.mp stays.1)
    exact ih next revised stays.2

/-- The first moments of a run are those of its first calls. -/
theorem history_split {table : Slots α} {calls : List (SlotCall α)}
    {first second : List (SlotMoment α)} (whole : table.history calls = first ++ second) :
    ∃ early late, calls = early ++ late ∧ (table.calls early).history late = second ∧
      table.history early = first := by
  induction first generalizing table calls with
  | nil => exact ⟨[], calls, rfl, whole, rfl⟩
  | cons moment first ih =>
    cases calls with
    | nil => cases whole
    | cons call rest =>
      obtain ⟨here, later⟩ := List.cons.inj whole
      obtain ⟨early, late, parts, seconds, firsts⟩ := ih later
      exact ⟨call :: early, late, by rw [parts, List.cons_append], seconds,
        by rw [history, here, firsts]⟩

/-- A run from one of its moments on. -/
theorem history_from {table : Slots α} (wellFormed : table.WellFormed) {calls : List (SlotCall α)}
    {earlier later : List (SlotMoment α)} {moment : SlotMoment α}
    (whole : table.history calls = earlier ++ moment :: later) :
    moment.before.WellFormed ∧ ∃ late, moment.after.history late = later ∧
      table.calls calls = moment.after.calls late := by
  obtain ⟨early, late, rfl, seconds, _⟩ := history_split whole
  cases late with
  | nil => cases seconds
  | cons call late =>
    obtain ⟨rfl, onward⟩ := List.cons.inj seconds
    refine ⟨(calls_wellFormed wellFormed early).1, late, onward, ?_⟩
    rw [calls, List.foldl_append]
    rfl

theorem generation?_of_get? {table : Slots α} {handle : Handle} {value : α}
    (live : table.get? handle = some value) :
    table.generation? handle.slot.toNat = some handle.generation := by
  rw [generation?, get?_eq_some_iff.mp live]
  rfl

/-- After its slot was emptied so often, a handle is of the slot's present generation again. -/
theorem generation_returns (generation : UInt16) (times : Nat) :
    generation + UInt16.ofNat times = generation ↔ 0x10000 ∣ times := by
  rw [UInt16.add_eq_left, ← UInt16.toNat_inj, UInt16.toNat_ofNat']
  exact (Nat.dvd_iff_mod_eq_zero ..).symm

/-- A slot that is emptied fewer than 2^16 times does not give out the same handle again. -/
theorem ne_of_inserted {table : Slots α} (wellFormed : table.WellFormed) {one other : Handle}
    {value : α} (live : table.get? one = some value) {calls : List (SlotCall α)}
    {moment : SlotMoment α} (here : moment.before = table.calls calls)
    (given : moment.reply = .inserted other)
    (few : emptied one.slot.toNat (table.history calls) < 0x10000) : one ≠ other := by
  have before := (calls_wellFormed wellFormed calls).1
  rw [← here] at before
  obtain ⟨_, call, vacant, found⟩ := SlotMoment.inserted before given
  rintro rfl
  have counted := generation?_calls wellFormed one.slot.toNat calls
  have kept := SlotMoment.generation_after before one.slot.toNat
  rw [← here, generation?_of_get? live, Option.map_some] at counted
  have stays : moment.empties one.slot.toNat = false := by
    unfold SlotMoment.empties
    rw [call]
  rw [generation?_of_get? found, counted, stays, Option.map_some, Option.some.injEq] at kept
  have whole := (generation_returns _ _).mp (kept.trans (UInt16.add_zero _)).symm
  have never : emptied one.slot.toNat (table.history calls) = 0 :=
    Nat.eq_zero_of_dvd_of_lt whole few
  have still := content?_of_get? (get?_calls wellFormed live never)
  rw [← here, vacant] at still
  cases still

theorem map_content? (table : Slots α) :
    (List.range table.capacity).map table.content? = table.slots.map (·.value) := by
  refine List.ext_getElem (by simp [capacity]) fun position _ inside => ?_
  rw [List.length_map] at inside
  simp [content?, List.getElem?_eq_getElem inside]

/-- The count of values is that of the slots that have one. -/
theorem size_eq {table : Slots α} (wellFormed : table.WellFormed) : table.size =
    (List.range table.capacity).countP fun position => (table.content? position).isSome := by
  have values := congrArg (List.countP Option.isSome) table.map_content?
  rw [List.countP_map, List.countP_map] at values
  exact wellFormed.counted.trans values.symm

/-- The values come in the order of their slots, and no slot is left out. -/
theorem entries_contents {table : Slots α} (wellFormed : table.WellFormed) :
    (table.entries.map fun entry => (entry.1.slot.toNat, entry.2)) =
      (List.range table.capacity).filterMap fun position =>
        (table.content? position).map (position, ·) := by
  have positions : List.range table.capacity = table.slots.zipIdx.map Prod.snd := by
    rw [List.zipIdx_map_snd, List.range_eq_range', capacity]
  rw [positions, List.filterMap_map, entries, List.map_filterMap]
  refine List.filterMap_congr fun entry member => ?_
  obtain ⟨slot, position⟩ := entry
  have entry := List.mem_zipIdx_iff_getElem?.mp member
  obtain ⟨inside, _⟩ := List.getElem?_eq_some_iff.mp entry
  simp only [Function.comp_apply, content?, entry, Option.bind_some, Option.map_map]
  congr 1
  funext value
  exact congrArg (·, value) (handleAt_slot slot (inside.trans_le wellFormed.numbered))

end Slots

/-- In every run of a table, from an empty one on:

* A handle reaches what is in its slot if the slot was emptied a multiple of 2^16 times since the
  handle was given out, and else nothing. As long as its own value was not taken out it reaches that.
* No handle is given out twice before its slot was emptied 2^16 times.
* Each call is rejected and changes nothing, or it concerns one handle; a value is put into the lowest
  empty slot.
* The size counts the values, which are listed in the order of their slots with live handles. -/
theorem handles_reach_their_values {capacity : Nat} (bound : capacity ≤ 0x10000)
    (calls : List (SlotCall α)) :
    let table := (Slots.ofCapacity capacity).calls calls
    let history := (Slots.ofCapacity capacity).history calls
    (∀ earlier opening later handle, history = earlier ++ opening :: later →
      opening.reply = .inserted handle →
        table.Answers handle (if 0x10000 ∣ emptied handle.slot.toNat later then
          table.content? handle.slot.toNat else none) ∧
        (emptied handle.slot.toNat later = 0 → ∀ value, opening.call = .insert value →
          table.get? handle =
            some (later.foldl (fun value moment => moment.revise handle value) value)) ∧
        (0 < emptied handle.slot.toNat later → emptied handle.slot.toNat later < 0x10000 →
          table.get? handle = none)) ∧
    (∀ earlier first between second later one other,
      history = earlier ++ first :: (between ++ second :: later) →
      first.reply = .inserted one → second.reply = .inserted other →
      emptied one.slot.toNat between < 0x10000 → one ≠ other) ∧
    (∀ moment ∈ history, moment.Proceeds) ∧
    table.size = ((List.range capacity).countP fun position =>
      (table.content? position).isSome) ∧
    (table.entries.map fun entry => (entry.1.slot.toNat, entry.2)) =
      (List.range capacity).filterMap (fun position =>
        (table.content? position).map (position, ·)) ∧
    (∀ entry ∈ table.entries, table.get? entry.1 = some entry.2) ∧
    table.capacity = capacity := by
  intro table history
  have start : (Slots.ofCapacity (α := α) capacity).WellFormed := Slots.ofCapacity_wellFormed bound
  obtain ⟨wellFormed, same⟩ := Slots.calls_wellFormed start calls
  have same : table.capacity = capacity := by
    rw [show table.capacity = _ from same]
    simp [Slots.capacity, Slots.ofCapacity]
  have size := Slots.size_eq wellFormed
  have entries := Slots.entries_contents wellFormed
  rw [show Slots.capacity _ = capacity from same] at size entries
  refine ⟨?_, ?_, ?_, size, entries, ?_, same⟩
  · intro earlier opening later handle whole reply
    obtain ⟨before, late, onward, last⟩ := Slots.history_from start whole
    obtain ⟨value, call, _, live⟩ := SlotMoment.inserted before reply
    have after := (SlotMoment.after_wellFormed before).1
    have present := Slots.generation?_calls after handle.slot.toNat late
    rw [onward, ← last, Slots.generation?_of_get? live, Option.map_some] at present
    have answer := Slots.get?_eq_content? present
    simp only [Slots.generation_returns] at answer
    refine ⟨?_, fun never new given => ?_, fun some few => ?_⟩
    · rw [← answer]
      exact table.answers handle
    · rw [call] at given
      cases given
      rw [← onward] at never
      have found := Slots.get?_calls after live never
      rw [onward, ← last] at found
      exact found
    · rw [if_neg fun whole => absurd (Nat.le_of_dvd some whole) (by omega)] at answer
      exact answer
  · intro earlier first between second later one other whole given again few
    obtain ⟨before, late, onward, _⟩ := Slots.history_from start whole
    obtain ⟨_, _, _, live⟩ := SlotMoment.inserted before given
    have after := (SlotMoment.after_wellFormed before).1
    obtain ⟨early, last, _, seconds, firsts⟩ := Slots.history_split onward
    rw [← firsts] at few
    cases last with
    | nil => cases seconds
    | cons call rest =>
      obtain ⟨rfl, _⟩ := List.cons.inj seconds
      exact Slots.ne_of_inserted after live rfl again few
  · intro moment member
    obtain ⟨earlier, later, whole⟩ := List.append_of_mem member
    exact SlotMoment.proceeds (Slots.history_from start whole).1
  · intro entry member
    exact (Slots.mem_entries_iff wellFormed).mp member

/-- A value is changed, taken out, and another one put in its slot. -/
def sampleReuse : List (SlotCall UInt8) :=
  [.insert 7, .change ⟨0, 0⟩ (· + 1), .insert 5, .erase ⟨0, 0⟩, .erase ⟨0, 0⟩, .insert 9]

/-- The handle of the first value is dead, although its slot is in use again. -/
theorem sample_handles_reach_their_values :
    2 ≤ 0x10000 ∧
      ((Slots.ofCapacity 2).history sampleReuse).map (·.reply) =
        [.inserted ⟨0, 0⟩, .reached 7, .inserted ⟨1, 0⟩, .erased 8, .rejected, .inserted ⟨0, 1⟩] ∧
      ((Slots.ofCapacity 2).calls sampleReuse).Answers ⟨0, 0⟩ none ∧
      ((Slots.ofCapacity 2).calls sampleReuse).entries = [(⟨0, 1⟩, 9), (⟨1, 0⟩, 5)] := by
  have bound : 2 ≤ 0x10000 := by decide
  have reaches := (handles_reach_their_values bound sampleReuse).1 [] _ _ ⟨0, 0⟩ rfl rfl
  exact ⟨bound, by decide +kernel, reaches.1, by decide +kernel⟩

end DiagBus
