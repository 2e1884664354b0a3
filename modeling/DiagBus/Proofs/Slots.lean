import Mathlib
import DiagBus.Slots

namespace DiagBus

variable {α : Type}

/-- Every slot has a number of 16 bits, and the count of slots in use is right. -/
structure Slots.WellFormed (table : Slots α) : Prop where
  numbered : table.slots.length ≤ 0x10000
  counted : table.used = table.slots.countP (·.value.isSome)

/-- What a handle finds in its slot. -/
def Slot.valueFor (slot : Slot α) (handle : Handle) : Option α :=
  if slot.generation = handle.generation then slot.value else none

theorem Slots.get?_eq (table : Slots α) (handle : Handle) :
    table.get? handle = table.slots[handle.slot.toNat]?.bind (·.valueFor handle) := by
  unfold Slots.get? Slots.slot? Slot.valueFor
  cases table.slots[handle.slot.toNat]? with
  | none => rfl
  | some slot => by_cases same : slot.generation = handle.generation <;> simp [Option.filter, same]

theorem Slots.get?_eq_some_iff {table : Slots α} {handle : Handle} {value : α} :
    table.get? handle = some value ↔
      table.slots[handle.slot.toNat]? = some ⟨some value, handle.generation⟩ := by
  rw [Slots.get?_eq]
  cases table.slots[handle.slot.toNat]? with
  | none => simp
  | some slot =>
    obtain ⟨content, generation⟩ := slot
    by_cases same : generation = handle.generation <;> simp [Slot.valueFor, same]

/-- One slot is overwritten; the handles of the others find what they found before. -/
theorem Slots.get?_overwrite (table : Slots α) {position used : Nat} (slot : Slot α)
    (inside : position < table.slots.length) (handle : Handle) :
    Slots.get? { slots := table.slots.set position slot, used } handle =
      if handle.slot.toNat = position then slot.valueFor handle else table.get? handle := by
  rw [Slots.get?_eq, Slots.get?_eq]
  by_cases place : handle.slot.toNat = position
  · simp [place, inside]
  · have apart : position ≠ handle.slot.toNat := fun equal => place equal.symm
    simp [place, List.getElem?_set_ne apart]

theorem Handle.eq_of_slot {a b : Handle} (slot : a.slot.toNat = b.slot.toNat)
    (generation : a.generation = b.generation) : a = b := by
  cases a
  cases b
  simp only [Handle.mk.injEq]
  exact ⟨UInt16.toNat.inj slot, generation⟩

theorem Slot.valueFor_other (content : Option α) {generation : UInt16} (handle : Handle)
    (apart : handle.generation ≠ generation) :
    Slot.valueFor ⟨content, generation⟩ handle = none :=
  if_neg apart.symm

/-- The slot of a handle is overwritten; all other handles find what they found before, as long as
the new content is for no other handle of the slot. -/
theorem Slots.get?_overwrite_own {table : Slots α} {handle : Handle} {content : Option α}
    {used : Nat} (slot : Slot α)
    (entry : table.slots[handle.slot.toNat]? = some ⟨content, handle.generation⟩)
    (alone : ∀ other : Handle, other.generation ≠ handle.generation → slot.valueFor other = none)
    (other : Handle) :
    Slots.get? { slots := table.slots.set handle.slot.toNat slot, used } other =
      if other = handle then slot.valueFor handle else table.get? other := by
  obtain ⟨inside, _⟩ := List.getElem?_eq_some_iff.mp entry
  rw [Slots.get?_overwrite _ _ inside]
  by_cases same : other = handle
  · simp [same]
  · by_cases place : other.slot.toNat = handle.slot.toNat
    · have apart : other.generation ≠ handle.generation := fun equal =>
        same (Handle.eq_of_slot place equal)
      rw [Slots.get?_eq, place, entry, Option.bind_some, Slot.valueFor_other _ _ apart,
        alone other apart]
      simp [same]
    · simp [same, place]

theorem handleAt_slot {position : Nat} (slot : Slot α) (bound : position < 0x10000) :
    (handleAt position slot).slot.toNat = position := by
  simp [handleAt]
  omega

theorem Slots.set_eq {table : Slots α} {handle : Handle} {old : α} (value : α)
    (live : table.get? handle = some old) :
    table.set handle value =
      { table with
        slots := table.slots.set handle.slot.toNat ⟨some value, handle.generation⟩ } := by
  have entry := Slots.get?_eq_some_iff.mp live
  simp [Slots.set, Slots.slot?, entry, Option.filter]

theorem Slots.erase_eq {table : Slots α} {handle : Handle} {old : α}
    (live : table.get? handle = some old) :
    table.erase handle = some (old, {
      slots := table.slots.set handle.slot.toNat ⟨none, handle.generation + 1⟩
      used := table.used - 1 }) := by
  have entry := Slots.get?_eq_some_iff.mp live
  simp [Slots.erase, Slots.slot?, entry, Option.filter]

/-- Storing the value that is there already changes nothing. -/
theorem Slots.set_same {table : Slots α} {handle : Handle} {value : α}
    (live : table.get? handle = some value) : table.set handle value = table := by
  obtain ⟨inside, here⟩ := List.getElem?_eq_some_iff.mp (Slots.get?_eq_some_iff.mp live)
  rw [Slots.set_eq value live, ← here, List.set_getElem_self]

/-- Nothing is stored under a handle that is not live. -/
theorem Slots.set_dead {table : Slots α} {handle : Handle} (dead : table.get? handle = none)
    (value : α) : table.set handle value = table := by
  unfold Slots.set
  split
  · rename_i old generation entry
    simp [Slots.get?, entry] at dead
  · rfl

/-- Only a live handle can be erased, and what comes back is its value. -/
theorem Slots.get?_of_erase {table rest : Slots α} {handle : Handle} {old : α}
    (run : table.erase handle = some (old, rest)) : table.get? handle = some old := by
  unfold Slots.erase at run
  split at run
  · rename_i value generation entry
    simp only [Option.some.injEq, Prod.mk.injEq] at run
    simp [Slots.get?, entry, run.1]
  · cases run

theorem Slots.erase_eq_none {table : Slots α} {handle : Handle}
    (dead : table.get? handle = none) : table.erase handle = none := by
  cases run : table.erase handle with
  | none => rfl
  | some erased =>
    rw [Slots.get?_of_erase run] at dead
    cases dead

theorem Slots.get?_set {table : Slots α} {handle : Handle} {old : α} (value : α)
    (live : table.get? handle = some old) (other : Handle) :
    (table.set handle value).get? other =
      if other = handle then some value else table.get? other := by
  rw [Slots.set_eq value live,
    Slots.get?_overwrite_own _ (Slots.get?_eq_some_iff.mp live) (Slot.valueFor_other _)]
  simp [Slot.valueFor]

/-- What is written at a live handle is read back there. -/
theorem Slots.get?_set_self {table : Slots α} {handle : Handle} {old : α} (value : α)
    (live : table.get? handle = some old) : (table.set handle value).get? handle = some value :=
  (Slots.get?_set value live handle).trans (if_pos rfl)

/-- What is written at one handle is not seen at another. -/
theorem Slots.get?_set_of_ne {table : Slots α} {handle other : Handle} {old : α} (value : α)
    (live : table.get? handle = some old) (apart : other ≠ handle) :
    (table.set handle value).get? other = table.get? other :=
  (Slots.get?_set value live other).trans (if_neg apart)

/-- Writing at a live handle leaves every live handle live. -/
theorem Slots.live_set {table : Slots α} {handle other : Handle} {old found : α} (value : α)
    (live : table.get? handle = some old) (here : table.get? other = some found) :
    ∃ kept, (table.set handle value).get? other = some kept := by
  rw [Slots.get?_set _ live]
  split
  · exact ⟨value, rfl⟩
  · exact ⟨found, here⟩

theorem Slots.get?_erase {table rest : Slots α} {handle : Handle} {old : α}
    (run : table.erase handle = some (old, rest)) (other : Handle) :
    rest.get? other = if other = handle then none else table.get? other := by
  have live := Slots.get?_of_erase run
  rw [Slots.erase_eq live] at run
  simp only [Option.some.injEq, Prod.mk.injEq, true_and] at run
  subst run
  rw [Slots.get?_overwrite_own _ (Slots.get?_eq_some_iff.mp live) (by simp [Slot.valueFor])]
  simp [Slot.valueFor]

/-- A value goes into a slot that was empty and keeps the slot's generation. -/
theorem Slots.insert_eq {table rest : Slots α} {handle : Handle} {value : α}
    (wellFormed : table.WellFormed) (run : table.insert value = some (handle, rest)) :
    table.slots[handle.slot.toNat]? = some ⟨none, handle.generation⟩ ∧
      rest = {
        slots := table.slots.set handle.slot.toNat ⟨some value, handle.generation⟩
        used := table.used + 1 } := by
  unfold Slots.insert at run
  obtain ⟨position, found, run⟩ := Option.bind_eq_some_iff.mp run
  obtain ⟨⟨content, generation⟩, entry, run⟩ := Option.bind_eq_some_iff.mp run
  simp only [Option.pure_def, Option.some.injEq, Prod.mk.injEq] at run
  obtain ⟨rfl, rfl⟩ := run
  obtain ⟨inside, here⟩ := List.getElem?_eq_some_iff.mp entry
  have vacant := (List.findIdx?_eq_some_iff_getElem.mp found).2.1
  rw [here, Option.isNone_iff_eq_none] at vacant
  have number := handleAt_slot ⟨content, generation⟩
    (inside.trans_le wellFormed.numbered)
  rw [number]
  exact ⟨entry.trans (by rw [show content = none from vacant]; rfl), rfl⟩

theorem Slots.get?_of_insert {table rest : Slots α} {handle : Handle} {value : α}
    (wellFormed : table.WellFormed) (run : table.insert value = some (handle, rest)) :
    table.get? handle = none := by
  rw [Slots.get?_eq, (Slots.insert_eq wellFormed run).1]
  simp [Slot.valueFor]

theorem Slots.get?_insert {table rest : Slots α} {handle : Handle} {value : α}
    (wellFormed : table.WellFormed) (run : table.insert value = some (handle, rest))
    (other : Handle) :
    rest.get? other = if other = handle then some value else table.get? other := by
  obtain ⟨entry, rfl⟩ := Slots.insert_eq wellFormed run
  rw [Slots.get?_overwrite_own _ entry (Slot.valueFor_other _)]
  simp [Slot.valueFor]

/-- An insertion fails only when all slots are in use. -/
theorem Slots.insert_exists {table : Slots α} (wellFormed : table.WellFormed) (value : α)
    (room : table.used < table.capacity) :
    ∃ handle rest, table.insert value = some (handle, rest) := by
  have vacant : ∃ slot ∈ table.slots, slot.value.isNone := by
    by_contra full
    have all : table.slots.countP (·.value.isSome) = table.slots.length := by
      refine List.countP_eq_length.mpr fun slot member => ?_
      by_contra empty
      exact full ⟨slot, member, by simpa using empty⟩
    rw [wellFormed.counted, all] at room
    exact Nat.lt_irrefl _ room
  obtain ⟨slot, member, vacant⟩ := vacant
  have found : (table.slots.findIdx? (·.value.isNone)).isSome := by
    rw [List.findIdx?_isSome, List.any_eq_true]
    exact ⟨slot, member, vacant⟩
  obtain ⟨position, found⟩ := Option.isSome_iff_exists.mp found
  obtain ⟨inside, _⟩ := List.findIdx?_eq_some_iff_getElem.mp found
  exact ⟨handleAt position table.slots[position], _, by
    unfold Slots.insert
    rw [found, Option.bind_eq_bind, Option.bind_some, List.getElem?_eq_getElem inside]
    rfl⟩

theorem Slots.ofCapacity_wellFormed {capacity : Nat} (bound : capacity ≤ 0x10000) :
    (Slots.ofCapacity (α := α) capacity).WellFormed where
  numbered := by simpa [Slots.ofCapacity] using bound
  counted := by simp [Slots.ofCapacity, List.countP_replicate]

theorem Slots.get?_ofCapacity (capacity : Nat) (handle : Handle) :
    (Slots.ofCapacity (α := α) capacity).get? handle = none := by
  rw [Slots.get?_eq]
  cases entry : (Slots.ofCapacity (α := α) capacity).slots[handle.slot.toNat]? with
  | none => rfl
  | some slot =>
    have fresh := List.eq_of_mem_replicate (List.mem_of_getElem? entry)
    simp [fresh, Slot.valueFor]

theorem Slots.capacity_set (table : Slots α) (handle : Handle) (value : α) :
    (table.set handle value).capacity = table.capacity := by
  unfold Slots.set
  split
  · exact List.length_set
  · rfl

theorem Slots.capacity_erase {table rest : Slots α} {handle : Handle} {old : α}
    (run : table.erase handle = some (old, rest)) : rest.capacity = table.capacity := by
  rw [Slots.erase_eq (Slots.get?_of_erase run)] at run
  cases run
  exact List.length_set

theorem Slots.set_wellFormed {table : Slots α} {handle : Handle} {old : α} (value : α)
    (wellFormed : table.WellFormed) (live : table.get? handle = some old) :
    (table.set handle value).WellFormed := by
  have entry := Slots.get?_eq_some_iff.mp live
  obtain ⟨inside, here⟩ := List.getElem?_eq_some_iff.mp entry
  rw [Slots.set_eq value live]
  refine ⟨?_, ?_⟩
  · simpa using wellFormed.numbered
  · have one : 0 < table.slots.countP (·.value.isSome) :=
      List.countP_pos_iff.mpr ⟨_, List.getElem_mem inside, by rw [here]; rfl⟩
    simp only [List.countP_set inside, here, wellFormed.counted, Option.isSome_some, if_true]
    exact (Nat.sub_add_cancel one).symm

theorem Slots.insert_wellFormed {table rest : Slots α} {handle : Handle} {value : α}
    (wellFormed : table.WellFormed) (run : table.insert value = some (handle, rest)) :
    rest.WellFormed ∧ rest.capacity = table.capacity ∧ rest.used = table.used + 1 := by
  obtain ⟨entry, rfl⟩ := Slots.insert_eq wellFormed run
  obtain ⟨inside, here⟩ := List.getElem?_eq_some_iff.mp entry
  refine ⟨⟨?_, ?_⟩, ?_, rfl⟩
  · simpa using wellFormed.numbered
  · simp [List.countP_set inside, here, wellFormed.counted]
  · simp [Slots.capacity]

theorem Slots.erase_wellFormed {table rest : Slots α} {handle : Handle} {old : α}
    (wellFormed : table.WellFormed) (run : table.erase handle = some (old, rest)) :
    rest.WellFormed ∧ rest.used + 1 = table.used := by
  have live := Slots.get?_of_erase run
  have entry := Slots.get?_eq_some_iff.mp live
  obtain ⟨inside, here⟩ := List.getElem?_eq_some_iff.mp entry
  have one : 0 < table.slots.countP (·.value.isSome) :=
    List.countP_pos_iff.mpr ⟨_, List.getElem_mem inside, by rw [here]; rfl⟩
  rw [Slots.erase_eq live] at run
  simp only [Option.some.injEq, Prod.mk.injEq, true_and] at run
  subst run
  refine ⟨⟨?_, ?_⟩, ?_⟩
  · simpa using wellFormed.numbered
  · simp [List.countP_set inside, here, wellFormed.counted]
  · simp only [wellFormed.counted]
    exact Nat.sub_add_cancel one

theorem Slots.used_le_capacity {table : Slots α} (wellFormed : table.WellFormed) :
    table.used ≤ table.capacity := by
  rw [wellFormed.counted]
  exact List.countP_le_length

theorem Slots.mem_entries_iff {table : Slots α} (wellFormed : table.WellFormed) {handle : Handle}
    {value : α} : (handle, value) ∈ table.entries ↔ table.get? handle = some value := by
  unfold Slots.entries
  rw [Slots.get?_eq_some_iff, List.mem_filterMap]
  constructor
  · rintro ⟨⟨slot, position⟩, member, found⟩
    obtain ⟨content, filled, same⟩ := Option.map_eq_some_iff.mp found
    simp only [Prod.mk.injEq] at same
    obtain ⟨rfl, rfl⟩ := same
    have entry := List.mem_zipIdx_iff_getElem?.mp member
    obtain ⟨inside, _⟩ := List.getElem?_eq_some_iff.mp entry
    rw [handleAt_slot slot (inside.trans_le wellFormed.numbered)]
    exact entry.trans (by rw [← filled]; rfl)
  · intro entry
    refine ⟨(⟨some value, handle.generation⟩, handle.slot.toNat),
      List.mem_zipIdx_iff_getElem?.mpr entry, ?_⟩
    simp [handleAt]

/-- The values come in the order of their slots. -/
theorem Slots.entries_ordered {table : Slots α} (wellFormed : table.WellFormed) :
    table.entries.Pairwise fun first second => first.1.slot.toNat < second.1.slot.toNat := by
  have positions : table.slots.zipIdx.Pairwise fun first second => first.2 < second.2 := by
    rw [← List.pairwise_map, List.zipIdx_map_snd]
    exact List.pairwise_lt_range'
  have placed : table.slots.zipIdx.Pairwise fun first second =>
      first.2 < second.2 ∧ first.2 < 0x10000 ∧ second.2 < 0x10000 := by
    refine positions.imp_of_mem fun {first second} here there before => ?_
    have numbered := wellFormed.numbered
    have low := List.mem_zipIdx here
    have high := List.mem_zipIdx there
    omega
  refine List.pairwise_filterMap.mpr (placed.imp ?_)
  rintro ⟨slot, position⟩ ⟨other, later⟩ ⟨before, low, high⟩ _ found _ behind
  obtain ⟨_, _, rfl⟩ := Option.map_eq_some_iff.mp found
  obtain ⟨_, _, rfl⟩ := Option.map_eq_some_iff.mp behind
  rw [handleAt_slot slot low, handleAt_slot other high]
  exact before

theorem Slots.entries_nodup {table : Slots α} (wellFormed : table.WellFormed) :
    (table.entries.map (·.1)).Nodup := by
  refine List.pairwise_map.mpr ((Slots.entries_ordered wellFormed).imp ?_)
  rintro first second before same
  rw [same] at before
  exact absurd before (Nat.lt_irrefl _)

/-- The first value that passes a test is the one of the lowest slot among those that do. -/
theorem Slots.find?_entries_eq_some_iff {table : Slots α} (wellFormed : table.WellFormed)
    (test : α → Bool) {handle : Handle} {value : α} :
    table.entries.find? (test ·.2) = some (handle, value) ↔
      table.get? handle = some value ∧ test value = true ∧
        ∀ other found, table.get? other = some found → test found = true →
          handle.slot.toNat ≤ other.slot.toNat := by
  have least {handle : Handle} {value : α}
      (first : table.entries.find? (test ·.2) = some (handle, value)) :
      table.get? handle = some value ∧ test value = true ∧
        ∀ other found, table.get? other = some found → test found = true →
          handle.slot.toNat ≤ other.slot.toNat := by
    obtain ⟨passes, early, late, parts, misses⟩ := List.find?_eq_some_iff_append.mp first
    have live := (Slots.mem_entries_iff wellFormed).mp (List.mem_of_find?_eq_some first)
    refine ⟨live, passes, fun other found there test_found => ?_⟩
    have ordered := Slots.entries_ordered wellFormed
    have member := (Slots.mem_entries_iff wellFormed).mpr there
    rw [parts] at member ordered
    rcases List.mem_append.mp member with before | behind
    · have fails := misses _ before
      simp [test_found] at fails
    · rcases List.mem_cons.mp behind with same | later
      · exact le_of_eq (congrArg (·.1.slot.toNat) same).symm
      · exact le_of_lt ((List.pairwise_cons.mp (List.pairwise_append.mp ordered).2.1).1 _ later)
  refine ⟨least, fun ⟨live, passes, lowest⟩ => ?_⟩
  have member := (Slots.mem_entries_iff wellFormed).mpr live
  cases first : table.entries.find? (test ·.2) with
  | none =>
    have fails := List.find?_eq_none.mp first _ member
    exact absurd passes fails
  | some entry =>
    obtain ⟨there, found, lower⟩ := least first
    have slot := Nat.le_antisymm (lower _ _ live passes) (lowest _ _ there found)
    have here := Slots.get?_eq_some_iff.mp live
    rw [← slot, Slots.get?_eq_some_iff.mp there] at here
    obtain ⟨value, generation⟩ := Slot.mk.inj (Option.some.inj here)
    rw [← Option.some.inj value, ← Handle.eq_of_slot slot generation]

theorem Slots.length_entries {table : Slots α} (wellFormed : table.WellFormed) :
    table.entries.length = table.used := by
  have slots : table.slots = table.slots.zipIdx.map Prod.fst := by simp
  rw [wellFormed.counted, Slots.entries, List.length_filterMap_eq_countP]
  conv_rhs => rw [slots, List.countP_map]
  exact List.countP_congr fun entry _ => by simp

/-- The weights of all values together. -/
def Slots.total (table : Slots α) (weigh : α → Nat) : Nat :=
  (table.slots.map fun slot => slot.value.elim 0 weigh).sum

/-- The weights of the values that have live handles. -/
theorem Slots.total_eq_entries (table : Slots α) (weigh : α → Nat) :
    table.total weigh = (table.entries.map fun entry => weigh entry.2).sum := by
  have counted (slots : List (Slot α)) (start : Nat) :
      (slots.map fun slot => slot.value.elim 0 weigh).sum =
        (((slots.zipIdx start).filterMap fun place =>
          place.1.value.map fun value => (handleAt place.2 place.1, value)).map
            fun entry => weigh entry.2).sum := by
    induction slots generalizing start with
    | nil => rfl
    | cons slot rest ih =>
      rw [List.zipIdx_cons, List.filterMap_cons, List.map_cons, List.sum_cons, ih (start + 1)]
      cases slot.value <;> simp
  exact counted table.slots 0

theorem sum_overwrite {β : Type} (weigh : β → Nat) (items : List β) {position : Nat} {old : β}
    (new : β) (entry : items[position]? = some old) :
    ((items.set position new).map weigh).sum + weigh old = (items.map weigh).sum + weigh new := by
  induction items generalizing position with
  | nil => simp at entry
  | cons item rest ih =>
    cases position with
    | zero =>
      simp only [List.getElem?_cons_zero, Option.some.injEq] at entry
      subst entry
      simp only [List.set_cons_zero, List.map_cons, List.sum_cons]
      omega
    | succ position =>
      have later := ih entry
      simp only [List.set_cons_succ, List.map_cons, List.sum_cons]
      omega

theorem Slots.total_set {table : Slots α} {handle : Handle} {old : α} (value : α)
    (weigh : α → Nat) (live : table.get? handle = some old) :
    (table.set handle value).total weigh + weigh old = table.total weigh + weigh value := by
  rw [Slots.set_eq value live]
  exact sum_overwrite _ _ _ (Slots.get?_eq_some_iff.mp live)

theorem Slots.total_erase {table rest : Slots α} {handle : Handle} {old : α} (weigh : α → Nat)
    (run : table.erase handle = some (old, rest)) :
    rest.total weigh + weigh old = table.total weigh := by
  have live := Slots.get?_of_erase run
  rw [Slots.erase_eq live] at run
  simp only [Option.some.injEq, Prod.mk.injEq, true_and] at run
  subst run
  exact sum_overwrite _ _ _ (Slots.get?_eq_some_iff.mp live)

theorem Slots.total_insert {table rest : Slots α} {handle : Handle} {value : α} (weigh : α → Nat)
    (wellFormed : table.WellFormed) (run : table.insert value = some (handle, rest)) :
    rest.total weigh = table.total weigh + weigh value := by
  obtain ⟨entry, rfl⟩ := Slots.insert_eq wellFormed run
  exact sum_overwrite (fun slot : Slot α => slot.value.elim 0 weigh) _ _ entry

theorem Slots.weigh_le_total {table : Slots α} {handle : Handle} {value : α} (weigh : α → Nat)
    (live : table.get? handle = some value) : weigh value ≤ table.total weigh := by
  have member := List.mem_of_getElem? (Slots.get?_eq_some_iff.mp live)
  exact List.single_le_sum (by simp) _ (List.mem_map.mpr ⟨_, member, rfl⟩)

section

variable {α β : Type}

/-- The table with other values in its slots. -/
def Slots.map (table : Slots α) (change : α → β) : Slots β where
  slots := table.slots.map fun slot => ⟨slot.value.map change, slot.generation⟩
  used := table.used

variable (table : Slots α) (change : α → β) (handle : Handle)

@[simp]
theorem Slots.capacity_map : (table.map change).capacity = table.capacity :=
  List.length_map _

theorem Slots.slot?_map : (table.map change).slot? handle =
    (table.slot? handle).map fun slot => ⟨slot.value.map change, slot.generation⟩ := by
  simp only [Slots.slot?, Slots.map, List.getElem?_map, Option.filter_map]
  rfl

@[simp]
theorem Slots.get?_map : (table.map change).get? handle = (table.get? handle).map change := by
  simp only [Slots.get?, Slots.slot?_map, Option.bind_map, Option.map_bind]
  rfl

theorem Slots.set_map (value : α) :
    (table.map change).set handle (change value) = (table.set handle value).map change := by
  unfold Slots.set
  rw [Slots.slot?_map]
  rcases table.slot? handle with _ | ⟨_ | old, generation⟩
  · rfl
  · rfl
  · simp only [Option.map_some, Slots.map, List.map_set]

theorem Slots.insert_map (value : α) :
    (table.map change).insert (change value) =
      (table.insert value).map fun (handle, rest) => (handle, rest.map change) := by
  have empty : (fun slot : Slot β => slot.value.isNone) ∘
      (fun slot : Slot α => (⟨slot.value.map change, slot.generation⟩ : Slot β)) =
        fun slot => slot.value.isNone := by
    funext slot
    simp
  unfold Slots.insert
  simp only [Slots.map, List.findIdx?_map, empty]
  cases table.slots.findIdx? (·.value.isNone) with
  | none => rfl
  | some position =>
    cases here : table.slots[position]? with
    | none => simp [here]
    | some slot => simp [here, handleAt, List.map_set]

theorem Slots.erase_map : (table.map change).erase handle =
    (table.erase handle).map fun (value, rest) => (change value, rest.map change) := by
  unfold Slots.erase
  rw [Slots.slot?_map]
  rcases table.slot? handle with _ | ⟨_ | old, generation⟩
  · rfl
  · rfl
  · simp [Slots.map, List.map_set]

end

end DiagBus
