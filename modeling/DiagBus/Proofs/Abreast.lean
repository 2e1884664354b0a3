import DiagBus.Proofs.Handovers
import DiagBus.Proofs.Isolation

namespace DiagBus

variable {ω : Type}

/-- The same interface, but it confirms every frame at once, or every frame later. -/
def Interface.reporting (later : Bool) (interface : Interface ω) : Interface ω :=
  { interface with confirmsLater := fun _ => later }

def Registry.reporting (later : Bool) (registry : Registry ω) : Registry ω where
  places := registry.places.map (·.map (·.reporting later))

/-- The same stack over such interfaces. -/
def Stack.reporting (later : Bool) (stack : Stack ω) : Stack ω :=
  { stack with registry := stack.registry.reporting later }

/-- The frames that interfaces took since then. -/
def Stack.takenSince (after before : Stack ω) : List Handover :=
  (after.outside.signals.drop before.outside.signals.length).filterMap Signal.handover?

section

variable {registry : Registry ω} {later : Bool}

theorem Registry.get?_reporting (index : InterfaceIndex) :
    (registry.reporting later).get? index = (registry.get? index).map (·.reporting later) := by
  unfold Registry.get? Registry.reporting
  rw [List.getElem?_map]
  cases registry.places[index.position.val]? with
  | none => rfl
  | some place => cases place <;> rfl

theorem Registry.contains_reporting (index : InterfaceIndex) :
    (registry.reporting later).contains index = registry.contains index := by
  unfold Registry.contains
  rw [Registry.get?_reporting, Option.isSome_map]

theorem Registry.isFlexible_reporting (index : InterfaceIndex) (world : ω) :
    (registry.reporting later).isFlexible index world = registry.isFlexible index world := by
  unfold Registry.isFlexible
  rw [Registry.get?_reporting, Option.any_map]
  rfl

/-- Whether a frame is taken does not depend on when it will be confirmed. -/
theorem Registry.hand_reporting (origin : Origin) (index : InterfaceIndex) (frame : Frame)
    (outside : Outside ω) :
    (registry.reporting later).hand origin index frame outside =
      ((registry.hand origin index frame outside).1.map fun _ => !later,
        (registry.hand origin index frame outside).2) := by
  unfold Registry.hand
  rw [Registry.get?_reporting]
  cases registry.get? index with
  | none => rfl
  | some interface =>
    simp only [Option.map_some, Interface.reporting]
    rcases interface.output frame outside.world with ⟨reason | _, world⟩ <;> rfl

end

section

variable {queue after other done : TimerQueue Alarm} {handle : Handle} {direction : Direction}
  {own asked : List (Alarm × Tick)}

theorem TimerQueue.Rearmed.room (rearmed : queue.Rearmed after handle direction own)
    (some : own ≠ []) : queue.Room handle direction := by
  rw [← rearmed.own] at some
  exact rearmed.room_iff.mp (rearmed.linked.room_of_watching some)

/-- What is pending after a flow was served depends on the other alarms and on the room alone. -/
theorem TimerQueue.Served.pending_eq (served : queue.Served after handle direction asked)
    (again : other.Served done handle direction asked)
    (elsewhere : other.elsewhere handle direction = queue.elsewhere handle direction)
    (capacity : other.timers.capacity = queue.timers.capacity) : done.pending = after.pending := by
  have sameRoom : other.Room handle direction ↔ queue.Room handle direction := by
    unfold TimerQueue.Room
    rw [elsewhere, capacity]
  obtain ⟨own, rearmed, outcome, pending⟩ := served
  obtain ⟨given, rearmed', outcome', pending'⟩ := again
  have same : given = own := by
    rcases outcome with rfl | ⟨rfl, full⟩
    · rcases outcome' with rfl | ⟨rfl, full⟩
      · rfl
      · by_contra some
        exact full (sameRoom.mpr (rearmed.room fun none => some none.symm))
    · rcases outcome' with rfl | ⟨rfl, _⟩
      · by_contra some
        exact full (sameRoom.mp (rearmed'.room some))
      · rfl
  rw [pending', pending, same, elsewhere]

end

section

variable {x y first second : Exchange ω} {scope scope' : Scope ω} {handle : Handle}
  {direction : Direction} {plan : Plan} {registry : Registry ω}

/-- What two exchanges come to that carry out one plan, the second with interfaces that confirm
later. -/
inductive Exchange.Concurs (handle : Handle) (direction : Direction) :
    Plan → Exchange ω → Exchange ω → Prop
  | same {plan : Plan} {first second : Exchange ω}
      (connection : second.connection = first.connection)
      (memory : second.memory = first.memory) (outside : second.outside = first.outside)
      (quiet : first.confirmations = []) (still : second.confirmations = [])
      (settled : ∀ news index frame flow refusal, plan = .hand news index frame flow refusal →
        (first.connection.flow direction).unconfirmed = false) :
      Concurs handle direction plan first second
  | awaits {news : List Signal} {index : InterfaceIndex} {frame : Frame} {flow : Flow}
      {refusal : Fault → List Signal} {first second : Exchange ω}
      (connection : second.connection = first.connection)
      (unconfirmed : (first.connection.flow direction).unconfirmed = true)
      (memory : second.memory = first.memory) (outside : second.outside = first.outside)
      (noted : first.confirmations = [⟨handle, direction⟩]) (still : second.confirmations = []) :
      Concurs handle direction (.hand news index frame flow refusal) first second

theorem Exchange.Follows.concurs (early : x.Follows scope direction plan first)
    (late : y.Follows scope' direction plan second) (named : scope'.handle = scope.handle)
    (prompt : scope.registry = registry.reporting false)
    (deferred : scope'.registry = registry.reporting true)
    (connection : y.connection = x.connection) (memory : y.memory = x.memory)
    (outside : y.outside = x.outside) (quiet : x.confirmations = [])
    (still : y.confirmations = []) :
    Exchange.Concurs scope.handle direction plan first second := by
  have turned {flow : Flow} {told told' : Outside ω} (same : told' = told)
      (left : x.Turned scope direction flow false told first)
      (right : y.Turned scope' direction flow false told' second)
      (settled : ∀ news index frame next refusal, plan = .hand news index frame next refusal →
        flow.unconfirmed = false) :
      Exchange.Concurs scope.handle direction plan first second := by
    refine .same ?_ ?_ ?_ ?_ ?_ ?_
    · rw [right.connection, left.connection, connection]
    · rw [right.memory, left.memory, memory, connection]
    · rw [right.outside, left.outside, same]
    · rw [left.confirmations, quiet]
      rfl
    · rw [right.confirmations, still]
      rfl
    · intro news index frame next refusal hands
      rw [left.connection, Connection.flow_setFlow]
      exact settled news index frame next refusal hands
  have answered (news : List Signal) (index : InterfaceIndex) (frame : Frame) :
      scope'.registry.hand (.flow scope'.handle direction) index frame (y.outside.tellAll news) =
        ((registry.hand (.flow scope.handle direction) index frame (x.outside.tellAll news)).1.map
            fun _ => !true,
          (registry.hand (.flow scope.handle direction) index frame
            (x.outside.tellAll news)).2) := by
    rw [deferred, Registry.hand_reporting, named, outside]
  cases early with
  | stay same =>
    cases late with
    | stay same' =>
      rw [same, same']
      exact .same connection memory (by rw [outside]) quiet still (by simp)
  | wait left =>
    cases late with
    | wait right => exact turned outside left right (by simp)
  | rest left =>
    cases late with
    | rest right => exact turned (by rw [outside]) left right (by simp)
  | @handed news index frame flow refusal _ _ _ taken left =>
    rw [prompt, Registry.hand_reporting] at taken
    rcases answer : registry.hand (.flow scope.handle direction) index frame
      (x.outside.tellAll news) with ⟨fault | confirmed, told⟩
    · rw [answer] at taken
      cases taken
    · rw [answer] at taken
      cases taken
      cases late with
      | handed taken' right =>
        rw [answered, answer] at taken'
        cases taken'
        refine .awaits ?_ ?_ ?_ ?_ ?_ ?_
        · rw [right.connection, left.connection, connection]
        · rw [left.connection, Connection.flow_setFlow]
        · rw [right.memory, left.memory, memory, connection]
        · rw [right.outside, left.outside]
        · rw [left.confirmations, quiet]
          rfl
        · rw [right.confirmations, still]
          rfl
      | refused declined right =>
        rw [answered, answer] at declined
        cases declined
  | @refused news index frame flow refusal fault _ _ declined left =>
    rw [prompt, Registry.hand_reporting] at declined
    rcases answer : registry.hand (.flow scope.handle direction) index frame
      (x.outside.tellAll news) with ⟨_ | confirmed, told⟩
    · rw [answer] at declined
      cases declined
      cases late with
      | handed taken right =>
        rw [answered, answer] at taken
        cases taken
      | refused declined' right =>
        rw [answered, answer] at declined'
        cases declined'
        exact turned rfl left right fun _ _ _ _ _ _ => rfl
    · rw [answer] at declined
      cases declined

end

/-- What every step keeps. -/
structure Stack.Kept (stack : Stack ω) : Prop where
  sound : stack.Sound
  overseen : ∃ past, stack.Overseen past

theorem Stack.Kept.step {stack : Stack ω} (kept : stack.Kept) (step : Step ω)
    (timely : step.Timely stack) : (step.run stack).Kept := by
  obtain ⟨past, overseen⟩ := kept.overseen
  have next : Stack.Overseen (Moment.after ⟨stack, step⟩) _ :=
    Stack.Overseen.step overseen kept.sound timely
  exact ⟨kept.sound.step timely, _, next⟩

/-- Two stacks over the same interfaces, which confirm at once for the one and later for the other.
They differ in their alarms and in what confirmations are noted at most. -/
structure Stack.Abreast (early late : Stack ω) : Prop where
  registry : ∃ registry : Registry ω,
    early.registry = registry.reporting false ∧ late.registry = registry.reporting true
  settings : late.settings = early.settings
  connections : late.connections = early.connections
  memory : late.memory = early.memory
  raw : late.raw = early.raw
  outside : late.outside = early.outside
  capacity : late.alarms.timers.capacity = early.alarms.timers.capacity

/-- No frame was taken since then, and the two stacks are alike. -/
structure Stack.Level (before early late : Stack ω) : Prop where
  quiet : early.confirmations = []
  still : late.confirmations = []
  pending : late.alarms.pending = early.alarms.pending
  taken : late.takenSince before = []

/-- One frame was taken since then. The one stack has noted that it is confirmed, the other one
awaits that, and has an alarm for it unless all timers are taken. -/
structure Stack.Apace (before early late : Stack ω) (handle : Handle) (direction : Direction)
    (handover : Handover) : Prop where
  noted : early.confirmations = [⟨handle, direction⟩]
  still : late.confirmations = []
  elsewhere : late.alarms.elsewhere handle direction = early.alarms.elsewhere handle direction
  taken : late.takenSince before = [handover]
  awaits : ∃ connection address, late.connections.get? handle = some connection ∧
    (connection.flow direction).unconfirmed = true ∧ connection.address = some address ∧
    handover.kind = address.kind direction

theorem Stack.restore_inj {stack : Stack ω} {handle : Handle} {connection : Connection}
    (live : stack.connections.get? handle = some connection) {x y : Exchange ω}
    (same : stack.restore handle x = stack.restore handle y) : x = y := by
  have connections := congrArg (fun stack : Stack ω => stack.connections.get? handle) same
  simp only [Stack.restore, Slots.get?_set _ live, if_true, Option.some.injEq] at connections
  obtain ⟨_, memory, alarms, confirmations, outside⟩ := x
  obtain ⟨_, _, _, _, _⟩ := y
  simp only [Stack.restore, Stack.mk.injEq] at same
  simp_all

/-- Listeners are told, no frame is taken. -/
theorem Signal.handover?_of_tells {signal : Signal} {handle : Handle} {direction : Direction}
    (tells : signal.tells handle direction = true) : signal.handover? = none := by
  unfold Signal.tells at tells
  split at tells <;> first | rfl | cases tells

theorem handovers_of_tells {news : List Signal} {handle : Handle} {direction : Direction}
    (own : ∀ signal ∈ news, signal.tells handle direction = true) :
    news.filterMap Signal.handover? = [] :=
  List.filterMap_eq_nil_iff.mpr fun signal member => Signal.handover?_of_tells (own signal member)

section

variable {early late : Stack ω} {handle : Handle} {connection : Connection} {step step' : Step ω}
  {now : Tick} {direction : Direction} {plan : Plan}

/-- The frame that was taken in a step that carries out a plan. -/
theorem Stack.Carried.taken {before after : Stack ω} {news : List Signal}
    (carried : before.Carried handle connection direction plan after news)
    (live : before.connections.get? handle = some connection)
    (speaks : plan.Speaks handle direction)
    (told : after.outside.signals = before.outside.signals ++ news) {found : Connection}
    (here : after.connections.get? handle = some found) :
    after.takenSince before = match plan with
      | .hand _ index frame _ _ =>
        if (found.flow direction).unconfirmed then [⟨.flow handle direction, index, frame⟩] else []
      | _ => [] := by
  unfold Stack.takenSince
  rw [told, List.drop_left]
  cases carried with
  | stay _ _ _ => exact handovers_of_tells speaks
  | wait _ => rfl
  | rest _ => exact handovers_of_tells speaks
  | handed replaced =>
    rw [replaced.get? live] at here
    cases here
    rw [List.filterMap_append, handovers_of_tells speaks.1, Connection.flow_setFlow]
    rfl
  | @refused news attempt index frame flow refusal _ fault replaced attempted _ =>
    have silent : attempt.filterMap Signal.handover? = [] := by
      rcases attempted with rfl | ⟨reason, rfl⟩ <;> rfl
    rw [replaced.get? live] at here
    cases here
    rw [List.filterMap_append, List.filterMap_append, handovers_of_tells speaks.1,
      handovers_of_tells (speaks.2 fault), silent, Connection.flow_setFlow]
    rfl

/-- The alarms after a plan was carried out. -/
theorem Stack.Plans.rearms_of {stack : Stack ω} {step : Step ω}
    (plans : stack.Plans handle connection step now direction plan) (kept : stack.Kept)
    (timely : step.Timely stack) (live : stack.connections.get? handle = some connection)
    {x : Exchange ω} (after : step.run stack = stack.restore handle x) :
    (∃ news, plan = .stay news) ∧ x.alarms = stack.alarms ∨
      (∀ news, plan ≠ .stay news) ∧ stack.alarms.Served x.alarms handle direction
        (x.demanded (stack.scope now handle) direction) := by
  obtain ⟨past, overseen⟩ := kept.overseen
  rcases plans.rearms kept.sound timely live (overseen.guarded live now direction) with
    ⟨stays, same⟩ | ⟨changes, found, result, served⟩
  · rw [after] at same
    exact Or.inl ⟨stays, same⟩
  · obtain rfl := Stack.restore_inj live (after.symm.trans result)
    exact Or.inr ⟨changes, served⟩

/-- One plan serves the alarms of both stacks, or leaves them alone on both. -/
theorem Stack.Plans.rearms_alike
    (plans : early.Plans handle connection step now direction plan)
    (plans' : late.Plans handle connection step' now direction plan) (kept : early.Kept)
    (kept' : late.Kept) (timely : step.Timely early) (timely' : step'.Timely late)
    (live : early.connections.get? handle = some connection)
    (live' : late.connections.get? handle = some connection) {x y : Exchange ω}
    (after : step.run early = early.restore handle x)
    (after' : step'.run late = late.restore handle y) :
    (∃ news, plan = .stay news ∧ x.alarms = early.alarms ∧ y.alarms = late.alarms) ∨
      early.alarms.Served x.alarms handle direction
          (x.demanded (early.scope now handle) direction) ∧
        late.alarms.Served y.alarms handle direction
          (y.demanded (late.scope now handle) direction) := by
  rcases plans.rearms_of kept timely live after with
    ⟨⟨news, stays⟩, unchanged⟩ | ⟨changes, served⟩ <;>
  rcases plans'.rearms_of kept' timely' live' after' with
    ⟨⟨news', stays'⟩, unchanged'⟩ | ⟨changes', served'⟩
  · exact Or.inl ⟨news, stays, unchanged, unchanged'⟩
  · exact absurd stays (changes' news)
  · exact absurd stays' (changes news')
  · exact Or.inr ⟨served, served'⟩

/-- Two such stacks carry out the same plan. -/
theorem Stack.Abreast.act (abreast : early.Abreast late) (kept : early.Kept) (kept' : late.Kept)
    (timely : step.Timely early) (timely' : step'.Timely late)
    (live : early.connections.get? handle = some connection)
    (plans : early.Plans handle connection step now direction plan)
    (plans' : late.Plans handle connection step' now direction plan)
    (elsewhere : late.alarms.elsewhere handle direction = early.alarms.elsewhere handle direction)
    (stays : ∀ news, plan = .stay news → late.alarms.pending = early.alarms.pending) :
    (step.run early).Abreast (step'.run late) ∧
      (late.Level (step.run early) (step'.run late) ∨
        ∃ handover, late.Apace (step.run early) (step'.run late) handle direction handover) := by
  have live' : late.connections.get? handle = some connection := by
    rw [abreast.connections]
    exact live
  obtain ⟨registry, prompt, deferred⟩ := abreast.registry
  have acts := kept.sound.acts_of_plans timely live plans
  have acts' := kept'.sound.acts_of_plans timely' live' plans'
  obtain ⟨news, told, carried⟩ := acts'.carries_out
  obtain ⟨_, _, x, follows, after⟩ := acts
  obtain ⟨_, _, y, follows', after'⟩ := acts'
  have concurs := follows.concurs follows' rfl prompt deferred rfl abreast.memory abreast.outside
    rfl rfl
  have alarms := plans.rearms_alike plans' kept kept' timely timely' live live' after after'
  have here := Stack.get?_restore live' y
  rw [after'] at told carried
  have taken := carried.taken live' plans'.speaks told here
  obtain ⟨_, flow, same⟩ := carried.get? live'
  rw [here, Option.some.injEq] at same
  -- The two exchanges differ in their alarms and in what is noted at most.
  obtain ⟨connection', memory, outside⟩ : y.connection = x.connection ∧ y.memory = x.memory ∧
      y.outside = x.outside := by
    cases concurs with
    | same connection memory outside _ _ _ => exact ⟨connection, memory, outside⟩
    | awaits connection _ memory outside _ _ => exact ⟨connection, memory, outside⟩
  have capacity : y.alarms.timers.capacity = x.alarms.timers.capacity := by
    rcases alarms with ⟨_, _, unchanged, unchanged'⟩ | ⟨⟨_, rearmed, _⟩, ⟨_, rearmed', _⟩⟩
    · rw [unchanged, unchanged', abreast.capacity]
    · rw [rearmed.capacity, rearmed'.capacity, abreast.capacity]
  rw [after, after']
  refine ⟨⟨⟨registry, prompt, deferred⟩, abreast.settings, ?_, memory, abreast.raw, outside,
    capacity⟩, ?_⟩
  · show late.connections.set handle y.connection = early.connections.set handle x.connection
    rw [abreast.connections, connection']
  cases concurs with
  | same _ _ _ quiet still settled =>
    refine Or.inl ⟨quiet, still, ?_, ?_⟩
    · rcases alarms with ⟨news, rfl, unchanged, unchanged'⟩ | ⟨served, served'⟩
      · show y.alarms.pending = x.alarms.pending
        rw [unchanged, unchanged', stays news rfl]
      · have demanded : y.demanded (late.scope now handle) direction =
            x.demanded (early.scope now handle) direction := by
          simp only [Exchange.demanded, quiet, still, connection', Stack.scope, abreast.settings]
        rw [demanded] at served'
        exact served.pending_eq served' elsewhere abreast.capacity
    · rw [taken]
      split
      · rw [connection', settled _ _ _ _ _ rfl]
        rfl
      · rfl
  | @awaits _ index frame _ _ _ _ _ unconfirmed _ _ noted still =>
    refine Or.inr ⟨⟨.flow handle direction, index, frame⟩, noted, still, ?_, ?_, ?_⟩
    · rcases alarms with ⟨_, stays, _⟩ | ⟨⟨_, rearmed, _⟩, ⟨_, rearmed', _⟩⟩
      · cases stays
      · exact (rearmed'.elsewhere.trans elsewhere).trans rearmed.elsewhere.symm
    · rw [taken, connection', unconfirmed]
      rfl
    · obtain ⟨address, bound, _, kind⟩ := plans'.tagged
      refine ⟨y.connection, address, here, ?_, ?_, kind⟩
      · rw [connection']
        exact unconfirmed
      · rw [same, Connection.address_setFlow]
        exact bound

end

end DiagBus
