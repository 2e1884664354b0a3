import DiagBus.Controller
import DiagBus.Proofs.FrameAccounts

namespace DiagBus

variable {ω : Type}

/-- A data frame of at most 8 bytes. -/
def WireFrame.isReadable (wire : WireFrame) : Bool :=
  !wire.remote && wire.bytes.length ≤ 8

/-- Just such a frame has a counterpart. -/
theorem Frame.isSome_ofWire? (wire : WireFrame) :
    (Frame.ofWire? wire).isSome = wire.isReadable := by
  unfold Frame.ofWire? Frame.classic? WireFrame.isReadable
  cases wire.remote with
  | true => rfl
  | false =>
    by_cases short : wire.bytes.length ≤ 8
    · simp [short, Nat.lt_succ_of_le short]
    · simp [short, Nat.lt_succ_iff]

/-- Frames have arrived at the end of a queue. -/
def Joins (arrives : WireFrame → Prop) (before after : List WireFrame) : Prop :=
  ∃ added, after = before ++ added ∧ ∀ wire ∈ added, arrives wire

/-- Frames are taken from the head of a queue, `fuel` at most, up to the first one without a
counterpart, which is lost. Others may arrive at its end. -/
def Fetches (arrives : WireFrame → Prop) (fuel : Nat) (before : List WireFrame)
    (passed : List Frame) (after : List WireFrame) : Prop :=
  ∃ arrived late, (∀ wire ∈ arrived ++ late, arrives wire) ∧
    passed = (((before ++ arrived).takeWhile (·.isReadable)).filterMap Frame.ofWire?).take fuel ∧
    (passed.length < fuel →
      after = ((before ++ arrived).dropWhile (·.isReadable)).tail ++ late)

section

variable {arrives : WireFrame → Prop} {before middle after : List WireFrame}
  {passed : List Frame} {fuel : Nat}

theorem Joins.refl (arrives : WireFrame → Prop) (queue : List WireFrame) :
    Joins arrives queue queue :=
  ⟨[], (List.append_nil _).symm, by simp⟩

theorem Joins.trans (early : Joins arrives before middle) (late : Joins arrives middle after) :
    Joins arrives before after := by
  obtain ⟨added, rfl, here⟩ := early
  obtain ⟨more, rfl, there⟩ := late
  exact ⟨added ++ more, List.append_assoc _ _ _, List.forall_mem_append.mpr ⟨here, there⟩⟩

theorem Fetches.zero (arrives : WireFrame → Prop) (before after : List WireFrame) :
    Fetches arrives 0 before [] after :=
  ⟨[], [], by simp, rfl, fun few => absurd few (Nat.lt_irrefl 0)⟩

theorem Fetches.empty (fuel : Nat) (joins : Joins arrives [] after) :
    Fetches arrives fuel [] [] after := by
  obtain ⟨added, same, here⟩ := joins
  exact ⟨[], added, here, List.take_nil.symm, fun _ => same⟩

theorem Fetches.unreadable {wire : WireFrame} (fuel : Nat) (lost : wire.isReadable = false)
    (joins : Joins arrives before after) : Fetches arrives fuel (wire :: before) [] after := by
  obtain ⟨added, rfl, here⟩ := joins
  refine ⟨[], added, here, ?_, fun _ => ?_⟩
  · simp [lost]
  · simp [lost]

theorem Fetches.readable {wire : WireFrame} {frame : Frame}
    (read : Frame.ofWire? wire = some frame) (joins : Joins arrives before middle)
    (rest : Fetches arrives fuel middle passed after) :
    Fetches arrives (fuel + 1) (wire :: before) (frame :: passed) after := by
  obtain ⟨added, rfl, here⟩ := joins
  obtain ⟨arrived, late, there, taken, left⟩ := rest
  have readable : wire.isReadable = true := by rw [← Frame.isSome_ofWire?, read]; rfl
  rw [List.append_assoc] at taken left
  refine ⟨added ++ arrived, late, ?_, ?_, fun few => ?_⟩
  · rw [List.append_assoc]
    exact List.forall_mem_append.mpr ⟨here, there⟩
  · rw [List.cons_append, List.takeWhile_cons_of_pos readable, List.filterMap_cons_some read,
      List.take_succ_cons, taken]
  · rw [List.cons_append, List.dropWhile_cons_of_pos readable]
    exact left (Nat.lt_of_succ_lt_succ few)

theorem Fetches.of_joins (joins : Joins arrives before middle)
    (fetches : Fetches arrives fuel middle passed after) :
    Fetches arrives fuel before passed after := by
  obtain ⟨added, rfl, here⟩ := joins
  obtain ⟨arrived, late, there, taken, left⟩ := fetches
  rw [List.append_assoc] at taken left
  refine ⟨added ++ arrived, late, ?_, taken, left⟩
  rw [List.append_assoc]
  exact List.forall_mem_append.mpr ⟨here, there⟩

theorem Fetches.joins (fetches : Fetches arrives fuel before passed middle)
    (joins : Joins arrives middle after) : Fetches arrives fuel before passed after := by
  obtain ⟨added, rfl, here⟩ := joins
  obtain ⟨arrived, late, there, taken, left⟩ := fetches
  refine ⟨arrived, late ++ added, ?_, taken, fun few => ?_⟩
  · rw [← List.append_assoc]
    exact List.forall_mem_append.mpr ⟨there, here⟩
  · rw [left few, List.append_assoc]

/-- Where nothing arrives and no readable frame stands behind one that is not, none is lost. -/
theorem Fetches.complete (fetches : Fetches arrives fuel before passed after)
    (alone : ∀ wire, ¬arrives wire) (enough : before.length < fuel)
    (behind : ∀ wire ∈ before.dropWhile (·.isReadable), wire.isReadable = false) :
    passed = before.filterMap Frame.ofWire? ∧ ∀ wire ∈ after, wire.isReadable = false := by
  obtain ⟨arrived, late, there, taken, left⟩ := fetches
  have nothing : arrived ++ late = [] :=
    List.eq_nil_iff_forall_not_mem.mpr fun wire member => alone wire (there wire member)
  obtain ⟨rfl, rfl⟩ := List.append_eq_nil_iff.mp nothing
  rw [List.append_nil] at taken left
  have unread : (before.dropWhile (·.isReadable)).filterMap Frame.ofWire? = [] := by
    refine List.filterMap_eq_nil_iff.mpr fun wire member => ?_
    refine Option.not_isSome_iff_eq_none.mp ?_
    rw [Frame.isSome_ofWire?, behind wire member]
    exact Bool.false_ne_true
  have whole : (before.takeWhile (·.isReadable)).filterMap Frame.ofWire? =
      before.filterMap Frame.ofWire? := by
    conv_rhs => rw [← List.takeWhile_append_dropWhile (p := (·.isReadable)) (l := before)]
    rw [List.filterMap_append, unread, List.append_nil]
  have few : (before.filterMap Frame.ofWire?).length ≤ before.length := List.length_filterMap_le ..
  rw [whole, List.take_of_length_le (few.trans enough.le)] at taken
  subst taken
  refine ⟨rfl, fun wire member => behind wire ?_⟩
  rw [left (few.trans_lt enough), List.append_nil] at member
  exact List.mem_of_mem_tail member

end

/-- The driver gives out the frames of its queue in order, and fails just if there is none. Frames may
arrive at any time. -/
structure Controller.Queues (controller : Controller ω) (queue : ω → List WireFrame)
    (arrives : WireFrame → Prop) : Prop where
  first : ∀ world, (controller.receive world).1 = (queue world).head?
  rest : ∀ world, Joins arrives (queue world).tail (queue (controller.receive world).2)

/-- Nothing that the stack calls takes frames from the queue, but the driver of this interface. -/
structure Stack.Spares (stack : Stack ω) (index : InterfaceIndex) (queue : ω → List WireFrame)
    (arrives : WireFrame → Prop) : Prop where
  output : ∀ other interface frame world, stack.registry.get? other = some interface →
    Joins arrives (queue world) (queue (interface.output frame world).2)
  receive : ∀ other interface world, other ≠ index →
    stack.registry.get? other = some interface →
      Joins arrives (queue world) (queue (interface.receive world).2)
  consumes : ∀ handle subscription listener consumes frame world,
    stack.raw.subscriptions.get? handle = some subscription →
      subscription.onReceive = some (listener, consumes) →
        Joins arrives (queue world) (queue (consumes frame world).2)

/-- The frame that a step offers as received on this interface. -/
def Step.offered? (step : Step ω) (index : InterfaceIndex) : Option Frame :=
  match step with
  | .offer other frame => if other = index then some frame else none
  | _ => none

/-- The frames that are offered in these steps as received on this interface. -/
def offeredOn (index : InterfaceIndex) (steps : List (Step ω)) : List Frame :=
  steps.filterMap (·.offered? index)

section

variable {stack before after : Stack ω} {index : InterfaceIndex} {queue : ω → List WireFrame}
  {arrives : WireFrame → Prop}

theorem Stack.Spares.of_same (spares : before.Spares index queue arrives)
    (registry : after.registry = before.registry)
    (subscriptions : after.raw.subscriptions = before.raw.subscriptions) :
    after.Spares index queue arrives := by
  refine ⟨?_, ?_, ?_⟩
  · rw [registry]
    exact spares.output
  · rw [registry]
    exact spares.receive
  · rw [subscriptions]
    exact spares.consumes

theorem Stack.Spares.hand (spares : stack.Spares index queue arrives) (origin : Origin)
    (other : InterfaceIndex) (frame : Frame) (outside : Outside ω) :
    Joins arrives (queue outside.world)
      (queue (stack.registry.hand origin other frame outside).2.world) := by
  unfold Registry.hand
  cases known : stack.registry.get? other with
  | none => exact .refl _ _
  | some interface =>
    have joins := spares.output other interface frame outside.world known
    simp only []
    generalize interface.output frame outside.world = answer at joins ⊢
    rcases answer with ⟨reason | _, world⟩
    · exact joins
    · exact joins

theorem Stack.Spares.acts {now : Tick} {handle : Handle} {connection : Connection}
    {direction : Direction} {plan : Plan} (spares : before.Spares index queue arrives)
    (acts : before.Acts now handle connection direction plan after) :
    Joins arrives (queue before.outside.world) (queue after.outside.world) := by
  obtain ⟨live, alarms, x, follows, rfl⟩ := acts
  show Joins arrives _ (queue x.outside.world)
  have handing {news : List Signal} {other : InterfaceIndex} {frame : Frame}
      {answer : Except Fault Bool} {outside : Outside ω}
      (given : before.registry.hand (.flow handle direction) other frame
        (before.outside.tellAll news) = (answer, outside)) :
      Joins arrives (queue before.outside.world) (queue outside.world) := by
    have joins := spares.hand (.flow handle direction) other frame (before.outside.tellAll news)
    rw [given] at joins
    exact joins
  cases follows with
  | stay same =>
    rw [same]
    exact .refl _ _
  | wait turned =>
    rw [turned.outside]
    exact .refl _ _
  | handed taken turned =>
    rw [turned.outside]
    exact handing taken
  | refused declined turned =>
    have joins := handing declined
    rw [turned.outside]
    exact joins
  | rest turned =>
    rw [turned.outside]
    exact .refl _ _

theorem Stack.Spares.offer (spares : stack.Spares index queue arrives) (other : InterfaceIndex)
    (frame : Frame) (order : List Handle) (outside : Outside ω) :
    Joins arrives (queue outside.world)
      (queue (stack.raw.offer other frame order outside).2.world) := by
  induction order generalizing outside with
  | nil => exact .refl _ _
  | cons handle rest ih =>
    rw [Raw.offer_cons]
    cases found : stack.raw.hearer? other handle with
    | none => exact ih outside
    | some hearer =>
      obtain ⟨_, subscription, live, _, callback⟩ := Raw.hearer?_eq_some_iff.mp found
      have asked : Joins arrives (queue outside.world)
          (queue (hearer.ask frame outside).2.world) :=
        spares.consumes _ _ _ _ frame outside.world live callback
      simp only []
      split
      · exact asked
      · exact asked.trans (ih _)

/-- A step that hands a frame on, or that is about connections, takes none from the queue. -/
theorem Stack.Spares.step {step : Step ω} (spares : stack.Spares index queue arrives)
    (sound : stack.Sound) (timely : step.Timely stack)
    (handling : step.isTransport = true ∨ ∃ other frame, step = .offer other frame) :
    Joins arrives (queue stack.outside.world) (queue (step.run stack).outside.world) ∧
      (step.run stack).registry = stack.registry ∧
      (step.run stack).Spares index queue arrives := by
  have reaction : step.isReaction = true := by
    rcases handling with transport | ⟨other, frame, rfl⟩
    · exact Step.isReaction_of_isTransport transport
    · rfl
  have registry : (step.run stack).registry = stack.registry := by
    refine congrArg Prod.snd (Step.surroundings_run ?_ stack)
    rintro registry rfl
    cases reaction
  have subscriptions := (Step.unsent_run reaction sound timely).subscriptions
  refine ⟨?_, registry, spares.of_same registry subscriptions⟩
  rcases handling with transport | ⟨other, frame, rfl⟩
  · rcases sound.transport_cases timely transport with
      quiet | ⟨handle, connection, now, direction, plan, _, acts⟩
    · rw [quiet]
      exact .refl _ _
    · exact spares.acts acts
  · have joins := spares.offer other frame stack.raw.order stack.outside
    simp only [Step.run, Raw.input]
    generalize stack.raw.offer other frame stack.raw.order stack.outside = offered at joins ⊢
    rcases offered with ⟨_ | handle, outside⟩
    · exact joins
    · exact joins

theorem Stack.Spares.through {steps : List (Step ω)} (spares : stack.Spares index queue arrives)
    (orderly : stack.Orderly steps)
    (handling : ∀ step ∈ steps, step.isTransport = true ∨ ∃ other frame, step = .offer other frame) :
    Joins arrives (queue stack.outside.world) (queue (stack.through steps).outside.world) ∧
      (stack.through steps).registry = stack.registry ∧
      (stack.through steps).Spares index queue arrives := by
  induction steps generalizing stack with
  | nil => exact ⟨.refl _ _, rfl, spares⟩
  | cons step rest ih =>
    obtain ⟨⟨sound, timely⟩, later⟩ := Stack.Orderly.cons_iff.mp orderly
    obtain ⟨here, others⟩ := List.forall_mem_cons.mp handling
    obtain ⟨joins, same, spares⟩ := spares.step sound timely here
    obtain ⟨more, still, final⟩ := ih spares later others
    exact ⟨joins.trans more, still.trans same, final⟩

end

theorem Stack.inputSteps_handle (stack : Stack ω) (now : Tick) (index : InterfaceIndex)
    (frame : Frame) : ∀ step ∈ stack.inputSteps now index frame,
      step.isTransport = true ∨ ∃ other frame, step = .offer other frame := by
  obtain ⟨onward, whole, transport⟩ := stack.inputSteps_eq now index frame
  rw [whole]
  exact List.forall_mem_cons.mpr
    ⟨Or.inr ⟨index, frame, rfl⟩, fun step member => Or.inl (transport step member)⟩

theorem offeredOn_of_transport {steps : List (Step ω)}
    (transport : ∀ step ∈ steps, step.isTransport = true) (index : InterfaceIndex) :
    offeredOn index steps = [] := by
  refine List.filterMap_eq_nil_iff.mpr fun step member => ?_
  have here := transport step member
  cases step with
  | offer other frame => cases here
  | _ => rfl

theorem offeredOn_world (index : InterfaceIndex) (change : ω → ω) (rest : List (Step ω)) :
    offeredOn index (.world change :: rest) = offeredOn index rest :=
  rfl

theorem offeredOn_append (index : InterfaceIndex) (first second : List (Step ω)) :
    offeredOn index (first ++ second) = offeredOn index first ++ offeredOn index second :=
  List.filterMap_append

theorem offeredOn_inputSteps (stack : Stack ω) (now : Tick) (index other : InterfaceIndex)
    (frame : Frame) : offeredOn index (stack.inputSteps now other frame) =
      if other = index then [frame] else [] := by
  obtain ⟨onward, whole, transport⟩ := stack.inputSteps_eq now other frame
  rw [whole, ← List.singleton_append, offeredOn_append, offeredOn_of_transport transport index,
    List.append_nil]
  by_cases own : other = index
  · simp [offeredOn, Step.offered?, own]
  · simp [offeredOn, Step.offered?, own]

/-- Polling another interface offers nothing as received on this one. -/
theorem offeredOn_pollSteps {index other : InterfaceIndex} (apart : other ≠ index) (now : Tick)
    (fuel : Nat) (stack : Stack ω) :
    offeredOn index (Stack.pollSteps now other fuel stack) = [] := by
  induction fuel generalizing stack with
  | zero => rfl
  | succ fuel ih =>
    unfold Stack.pollSteps
    split
    · rfl
    · simp only []
      split
      · rfl
      · rw [offeredOn_world, offeredOn_append, offeredOn_inputSteps, if_neg apart, ih]
        rfl

section

variable {stack : Stack ω} {index other : InterfaceIndex} {queue : ω → List WireFrame}
  {arrives : WireFrame → Prop} {controller : Controller ω}

/-- A stack that can poll: its transport is in order, the controller is registered, and nothing but its
driver takes frames from the queue. -/
structure Stack.Ready (stack : Stack ω) (index : InterfaceIndex) (controller : Controller ω)
    (queue : ω → List WireFrame) (arrives : WireFrame → Prop) : Prop where
  sound : stack.Sound
  quiet : stack.confirmations = []
  registered : stack.registry.get? index = some controller.interface
  spares : stack.Spares index queue arrives

namespace Stack.Ready

/-- Steps that hand frames on, or that are about connections. -/
theorem through {steps : List (Step ω)} (ready : stack.Ready index controller queue arrives)
    (smooth : stack.Smooth steps)
    (handling : ∀ step ∈ steps, step.isTransport = true ∨ ∃ other frame, step = .offer other frame) :
    Joins arrives (queue stack.outside.world) (queue (stack.through steps).outside.world) ∧
      (stack.through steps).Ready index controller queue arrives := by
  obtain ⟨joins, same, spares⟩ := ready.spares.through smooth.orderly handling
  exact ⟨joins, smooth.sound, smooth.quiet, by rw [same]; exact ready.registered, spares⟩

/-- The world changes when an interface is polled. -/
theorem polled (ready : stack.Ready index controller queue arrives) (world : ω) :
    Stack.Ready { stack with outside := { stack.outside with world } } index controller queue
      arrives := by
  obtain ⟨_, sound, quiet⟩ := ready.sound.plain_step ready.quiet
    (show (Step.world fun _ : ω => world).isPlain = true from rfl)
  exact ⟨sound, quiet, ready.registered, ready.spares.of_same rfl rfl⟩

theorem input (ready : stack.Ready index controller queue arrives) (now : Tick)
    (other : InterfaceIndex) (frame : Frame) :
    Joins arrives (queue stack.outside.world)
        (queue (stack.input now other frame).outside.world) ∧
      (stack.input now other frame).Ready index controller queue arrives := by
  rw [Stack.input_eq]
  exact ready.through (Stack.inputSteps_smooth ready.sound ready.quiet now other frame)
    (stack.inputSteps_handle now other frame)

/-- Another interface is polled. -/
theorem poll (apart : other ≠ index) (now : Tick) (fuel : Nat)
    (ready : stack.Ready index controller queue arrives) :
    Joins arrives (queue stack.outside.world)
        (queue (pollWithin now other fuel stack).outside.world) ∧
      (pollWithin now other fuel stack).Ready index controller queue arrives := by
  induction fuel generalizing stack with
  | zero => exact ⟨.refl _ _, ready⟩
  | succ fuel ih =>
    unfold pollWithin
    cases known : stack.registry.get? other with
    | none => exact ⟨.refl _ _, ready⟩
    | some interface =>
      have received := ready.spares.receive other interface stack.outside.world apart known
      simp only []
      generalize interface.receive stack.outside.world = answer at received ⊢
      rcases answer with ⟨_ | frame, world⟩
      · exact ⟨received, ready.polled world⟩
      · obtain ⟨joins, next⟩ := (ready.polled world).input now other frame
        obtain ⟨more, final⟩ := ih next
        exact ⟨received.trans (joins.trans more), final⟩

end Stack.Ready

theorem Controller.Queues.receive (queues : controller.Queues queue arrives) (world : ω) :
    controller.interface.receive world =
      ((queue world).head?.bind Frame.ofWire?, (controller.receive world).2) := by
  rw [← queues.first]
  simp only [Controller.interface]
  rcases controller.receive world with ⟨_ | wire, _⟩ <;> rfl

/-- The interface is polled. Each frame with a counterpart is offered, and the first one without a
counterpart ends the loop. -/
theorem Stack.Ready.fetches (queues : controller.Queues queue arrives) (now : Tick) (fuel : Nat)
    (ready : stack.Ready index controller queue arrives) :
    Fetches arrives fuel (queue stack.outside.world)
        (offeredOn index (pollSteps now index fuel stack))
        (queue (pollWithin now index fuel stack).outside.world) ∧
      (pollWithin now index fuel stack).Ready index controller queue arrives := by
  induction fuel generalizing stack with
  | zero => exact ⟨.zero _ _ _, ready⟩
  | succ fuel ih =>
    have rest := queues.rest stack.outside.world
    have answer := queues.receive stack.outside.world
    unfold pollWithin pollSteps
    simp only [ready.registered, answer]
    cases pending : queue stack.outside.world with
    | nil =>
      rw [pending] at rest
      exact ⟨.empty _ rest, ready.polled _⟩
    | cons wire tail =>
      rw [pending] at rest
      simp only [List.head?_cons, Option.bind_some]
      cases read : Frame.ofWire? wire with
      | none =>
        have lost : wire.isReadable = false := by rw [← Frame.isSome_ofWire?, read]; rfl
        exact ⟨.unreadable _ lost rest, ready.polled _⟩
      | some frame =>
        -- While the frame is handed on others may arrive, so the rest of the loop finds a longer queue.
        have polled : (Step.world fun world => (controller.interface.receive world).2).run stack =
            { stack with outside :=
              { stack.outside with world := (controller.receive stack.outside.world).2 } } := by
          simp only [Step.run, answer]
        obtain ⟨joins, next⟩ :=
          (ready.polled (controller.receive stack.outside.world).2).input now index frame
        obtain ⟨fetches, final⟩ := ih next
        simp only []
        rw [offeredOn_world, offeredOn_append, offeredOn_inputSteps, if_pos rfl, polled,
          ← Stack.input_eq]
        exact ⟨.readable read (rest.trans joins) fetches, final⟩

end

namespace Stack

/-- Polls these interfaces one after the other, each of them at most so often. -/
def pollAll (now : Tick) (fuel : Nat) (indexes : List InterfaceIndex) (stack : Stack ω) :
    Stack ω :=
  indexes.foldl (fun stack index => pollWithin now index fuel stack) stack

/-- `process` with this limit to how often it polls an interface. -/
def processWithin (fuel : Nat) (stack : Stack ω) (now : Tick) : Stack ω :=
  (pollAll now fuel stack.registry.indexes stack).checkAlarms now

/-- The steps of polling these interfaces. -/
def pollingWithin (now : Tick) (fuel : Nat) : List InterfaceIndex → Stack ω → List (Step ω)
  | [], _ => []
  | index :: rest, stack =>
    pollSteps now index fuel stack ++ pollingWithin now fuel rest (pollWithin now index fuel stack)

/-- The steps of `processWithin`. -/
def processSteps (fuel : Nat) (stack : Stack ω) (now : Tick) : List (Step ω) :=
  let polled := pollAll now fuel stack.registry.indexes stack
  pollingWithin now fuel stack.registry.indexes stack ++
    alarmSteps now (2 * polled.alarms.size) polled

theorem pollingWithin_append (now : Tick) (fuel : Nat) (first second : List InterfaceIndex)
    (stack : Stack ω) : pollingWithin now fuel (first ++ second) stack =
      pollingWithin now fuel first stack ++
        pollingWithin now fuel second (pollAll now fuel first stack) := by
  induction first generalizing stack with
  | nil => rfl
  | cons index rest ih =>
    rw [List.cons_append, pollingWithin, pollingWithin, ih, List.append_assoc]
    rfl

theorem pollAll_eq (now : Tick) (fuel : Nat) (indexes : List InterfaceIndex) (stack : Stack ω) :
    pollAll now fuel indexes stack = stack.through (pollingWithin now fuel indexes stack) := by
  induction indexes generalizing stack with
  | nil => rfl
  | cons index rest ih =>
    rw [pollingWithin, Stack.through_append, ← pollWithin_eq]
    exact ih _

theorem processWithin_eq (fuel : Nat) (stack : Stack ω) (now : Tick) :
    stack.processWithin fuel now = stack.through (stack.processSteps fuel now) := by
  rw [processSteps, Stack.through_append, ← pollAll_eq, ← checkAlarmsWithin_eq]
  rfl

/-- The limit of `process` is the patience. -/
theorem pollingSteps_eq (now : Tick) (indexes : List InterfaceIndex) (stack : Stack ω) :
    pollingSteps now indexes stack = pollingWithin now patience indexes stack := by
  induction indexes generalizing stack with
  | nil => rfl
  | cons index rest ih => rw [pollingSteps, pollingWithin, ih, ← pollWithin_eq]

theorem process_steps (stack : Stack ω) (now : Tick) :
    (Call.process now).steps stack = stack.processSteps patience now := by
  simp only [Call.steps, processSteps, pollingSteps_eq, pollAll_eq]

theorem pollingWithin_admits (now : Tick) (fuel : Nat) (indexes : List InterfaceIndex)
    (stack : Stack ω) : stack.Admits (pollingWithin now fuel indexes stack) := by
  induction indexes generalizing stack with
  | nil => exact .of_no_offer (by simp [pollingWithin])
  | cons index rest ih =>
    refine (Stack.pollSteps_admits now index fuel).append ?_
    rw [← pollWithin_eq]
    exact ih _

theorem processSteps_admits (fuel : Nat) (stack : Stack ω) (now : Tick) :
    stack.Admits (stack.processSteps fuel now) := by
  refine (pollingWithin_admits now fuel _ stack).append ?_
  exact .of_transport (Stack.alarmSteps_transport _ _ _)

end Stack

theorem Registry.nodup_indexes (registry : Registry ω) : registry.indexes.Nodup := by
  have positions : registry.places.zipIdx.Pairwise fun first second => first.2 < second.2 := by
    rw [← List.pairwise_map, List.zipIdx_map_snd]
    exact List.pairwise_lt_range'
  refine List.pairwise_filterMap.mpr (positions.imp ?_)
  rintro ⟨place, position⟩ ⟨other, later⟩ before first found second behind rfl
  simp only [Option.dite_none_right_eq_some, Option.ite_none_right_eq_some,
    Option.some.injEq] at found behind
  obtain ⟨_, _, rfl⟩ := found
  obtain ⟨_, _, same⟩ := behind
  have equal : later = position := congrArg (·.position.val) same
  exact absurd before (by rw [equal]; exact Nat.lt_irrefl _)

theorem Registry.mem_indexes {registry : Registry ω} {index : InterfaceIndex}
    {interface : Interface ω} (known : registry.get? index = some interface) :
    index ∈ registry.indexes := by
  have here : registry.places[index.position.val]? = some (some interface) :=
    Option.join_eq_some_iff.mp known
  refine List.mem_filterMap.mpr ⟨(some interface, index.position.val),
    List.mem_zipIdx_iff_getElem?.mpr here, ?_⟩
  exact dif_pos index.position.isLt

/-- A registered interface has its place among the numbers in use, and only one. -/
theorem Registry.indexes_split {registry : Registry ω} {index : InterfaceIndex}
    {interface : Interface ω} (known : registry.get? index = some interface) :
    ∃ early late, registry.indexes = early ++ index :: late ∧ index ∉ early ∧ index ∉ late := by
  have once := registry.nodup_indexes
  obtain ⟨early, late, parts⟩ := List.append_of_mem (Registry.mem_indexes known)
  rw [parts, List.nodup_append, List.nodup_cons] at once
  obtain ⟨_, ⟨behind, _⟩, apart⟩ := once
  exact ⟨early, late, parts, fun first => apart index first index List.mem_cons_self rfl, behind⟩

section

variable {stack : Stack ω} {index : InterfaceIndex} {queue : ω → List WireFrame}
  {arrives : WireFrame → Prop} {controller : Controller ω}

/-- Only other interfaces are polled. -/
theorem Stack.Ready.polling (now : Tick) (fuel : Nat) {others : List InterfaceIndex}
    (absent : index ∉ others) (ready : stack.Ready index controller queue arrives) :
    offeredOn index (pollingWithin now fuel others stack) = [] ∧
      Joins arrives (queue stack.outside.world)
        (queue (pollAll now fuel others stack).outside.world) ∧
      (pollAll now fuel others stack).Ready index controller queue arrives := by
  induction others generalizing stack with
  | nil => exact ⟨rfl, .refl _ _, ready⟩
  | cons other rest ih =>
    obtain ⟨apart, absent⟩ := List.ne_and_not_mem_of_not_mem_cons absent
    obtain ⟨joins, next⟩ := ready.poll apart.symm now fuel
    obtain ⟨silent, more, final⟩ := ih absent next
    refine ⟨?_, joins.trans more, final⟩
    rw [pollingWithin, offeredOn_append, offeredOn_pollSteps apart.symm, silent]
    rfl

theorem Stack.Ready.alarms (ready : stack.Ready index controller queue arrives) (now : Tick)
    (fuel : Nat) : offeredOn index (alarmSteps now fuel stack) = [] ∧
      Joins arrives (queue stack.outside.world)
        (queue (checkAlarmsWithin now fuel stack).outside.world) := by
  have transport := Stack.alarmSteps_transport now fuel stack
  have smooth := Stack.alarmSteps_smooth now fuel ready.sound ready.quiet
  obtain ⟨joins, _⟩ := ready.through smooth fun step member => Or.inl (transport step member)
  rw [← checkAlarmsWithin_eq] at joins
  exact ⟨offeredOn_of_transport transport index, joins⟩

/-- All interfaces are polled once, and then the alarms are handled. -/
theorem Stack.Ready.process (queues : controller.Queues queue arrives) (now : Tick) (fuel : Nat)
    (ready : stack.Ready index controller queue arrives) :
    Fetches arrives fuel (queue stack.outside.world)
      (offeredOn index (stack.processSteps fuel now))
      (queue (stack.processWithin fuel now).outside.world) := by
  -- Only the interfaces before and after this one can leave the queue alone.
  obtain ⟨early, late, parts, before, behind⟩ := Registry.indexes_split ready.registered
  obtain ⟨silent, joins, first⟩ := ready.polling now fuel before
  obtain ⟨fetches, second⟩ := first.fetches queues now fuel
  obtain ⟨still, more, third⟩ := second.polling now fuel behind
  have whole : pollAll now fuel stack.registry.indexes stack = pollAll now fuel late
      (pollWithin now index fuel (pollAll now fuel early stack)) := by
    rw [parts]
    exact List.foldl_append
  have passed : offeredOn index (pollingWithin now fuel stack.registry.indexes stack) =
      offeredOn index (pollSteps now index fuel (pollAll now fuel early stack)) := by
    rw [parts, pollingWithin_append, pollingWithin, offeredOn_append, offeredOn_append, silent,
      still, List.nil_append, List.append_nil]
  unfold processSteps processWithin checkAlarms
  rw [whole, offeredOn_append, passed, (third.alarms now _).1, List.append_nil]
  exact (fetches.of_joins joins).joins (more.trans (third.alarms now _).2)

end

/-- One call of `process`, for any limit to how often it polls an interface, offers the frames of a
classic controller in the order of its queue, up to the first one without a counterpart. That one is
lost, and those behind it stay in the queue. So none is left behind if no data frame of at most 8 bytes
stands behind a frame that is not one. -/
theorem polling_ends_at_unreadable_frame {settings : Settings} {world : ω} {fresh : Stack ω}
    (made : Stack.new settings world = .ok fresh) (calls : List (Call ω)) {index : InterfaceIndex}
    {controller : Controller ω} {queue : ω → List WireFrame} {arrives : WireFrame → Prop}
    (registered : (fresh.calls calls).registry.get? index = some controller.interface)
    (queues : controller.Queues queue arrives)
    (spares : (fresh.calls calls).Spares index queue arrives) (now : Tick) :
    let stack := fresh.calls calls
    let pending := queue stack.outside.world
    stack.process now = stack.processWithin Stack.patience now ∧
      (Call.process now).steps stack = stack.processSteps Stack.patience now ∧
      ∀ fuel,
        let passed := offeredOn index (stack.processSteps fuel now)
        let left := queue (stack.processWithin fuel now).outside.world
        stack.processWithin fuel now = stack.through (stack.processSteps fuel now) ∧
          stack.Admits (stack.processSteps fuel now) ∧ Fetches arrives fuel pending passed left ∧
          ((∀ wire, ¬arrives wire) → pending.length < fuel →
            (∀ wire ∈ pending.dropWhile (·.isReadable), wire.isReadable = false) →
              passed = pending.filterMap Frame.ofWire? ∧
                ∀ wire ∈ left, wire.isReadable = false) := by
  intro stack pending
  obtain ⟨sound, quiet⟩ := Stack.calls_sound made calls
  have ready : stack.Ready index controller queue arrives := ⟨sound, quiet, registered, spares⟩
  refine ⟨rfl, stack.process_steps now, fun fuel => ?_⟩
  have fetches := ready.process queues now fuel
  exact ⟨stack.processWithin_eq fuel now, stack.processSteps_admits fuel now, fetches,
    fetches.complete⟩

/-- A controller whose driver gives out the frames of a list, and takes all frames. -/
def Controller.buffered : Controller (List WireFrame) where
  transmit _ world := (true, world)
  receive world := (world.head?, world.tail)

/-- A new stack, to which such a controller is then added. -/
def sampleBuffer (pending : List WireFrame) : Stack (List WireFrame) where
  settings := {}
  registry := .ofCapacity 2
  connections := .ofCapacity 2
  memory := { capacity := 4096 }
  alarms := .ofCapacity 10
  raw := .ofCapacity 2
  outside := { world := pending }

def sampleWire (byte : UInt8) : WireFrame :=
  { id := .standard 0x7E8, bytes := [byte] }

def sampleRemote : WireFrame :=
  { id := .standard 0x7E8, bytes := [], remote := true }

/-- Nobody but its driver takes frames from the list. -/
theorem sampleBuffer_spares (pending : List WireFrame) :
    ((sampleBuffer pending).calls [.addInterface Controller.buffered.interface]).Spares ⟨0⟩ id
      fun _ => False := by
  have only (other : InterfaceIndex) (interface : Interface (List WireFrame))
      (known : ((sampleBuffer pending).calls
        [.addInterface Controller.buffered.interface]).registry.get? other = some interface) :
      other = ⟨0⟩ ∧ interface = Controller.buffered.interface := by
    obtain ⟨⟨position, small⟩⟩ := other
    have places : [some Controller.buffered.interface, none][position]?.join = some interface := known
    match position with
    | 0 => exact ⟨rfl, (Option.some.inj places).symm⟩
    | 1 => cases places
    | _ + 2 => cases places
  refine ⟨fun other interface frame world known => ?_, fun other interface world apart known => ?_,
    fun handle subscription listener consumes frame world live _ => ?_⟩
  · obtain ⟨_, rfl⟩ := only other interface known
    have kept : (Controller.buffered.interface.output frame world).2 = world := by
      simp only [Controller.interface]
      split <;> rfl
    rw [kept]
    exact .refl _ _
  · exact absurd (only other interface known).1 apart
  · have dead : (Slots.ofCapacity 2 : Slots (Subscription (List WireFrame))).get? handle =
        some subscription := live
    rw [Slots.get?_ofCapacity] at dead
    cases dead

theorem Controller.buffered_queues : Controller.buffered.Queues id fun _ => False :=
  ⟨fun _ => rfl, fun _ => .refl _ _⟩

/-- Two data frames in front of a remote frame are both offered, and nothing is left. -/
theorem sample_polling_ends_at_unreadable_frame :
    let pending := [sampleWire 1, sampleWire 2, sampleRemote]
    let stack := (sampleBuffer pending).calls [.addInterface Controller.buffered.interface]
    Stack.new {} pending = .ok (sampleBuffer pending) ∧
      offeredOn ⟨0⟩ ((Call.process 0).steps stack) = pending.filterMap Frame.ofWire? ∧
      pending.filterMap Frame.ofWire? =
        [.classic (.standard 0x7E8) 1 #v[1, 0, 0, 0, 0, 0, 0, 0],
          .classic (.standard 0x7E8) 1 #v[2, 0, 0, 0, 0, 0, 0, 0]] ∧
      ∀ wire ∈ (stack.process 0).outside.world, wire.isReadable = false := by
  intro pending stack
  have made : Stack.new {} pending = .ok (sampleBuffer pending) := rfl
  have same : (sampleBuffer pending).calls [.addInterface Controller.buffered.interface] = stack :=
    rfl
  obtain ⟨result, steps, all⟩ := polling_ends_at_unreadable_frame made
    [.addInterface Controller.buffered.interface] rfl Controller.buffered_queues
    (sampleBuffer_spares pending) 0
  obtain ⟨_, _, _, complete⟩ := all Stack.patience
  have few : pending.length < Stack.patience := by
    simp [pending, Stack.patience]
  have behind : ∀ wire ∈ pending.dropWhile (·.isReadable), wire.isReadable = false := by
    simp [pending, sampleWire, sampleRemote, WireFrame.isReadable]
  obtain ⟨passed, left⟩ := complete (fun _ => id) few behind
  rw [← steps] at passed
  rw [← result, id_eq, same] at left
  exact ⟨made, passed, rfl, left⟩

/-- A data frame behind a remote frame is not offered, and is left in the queue. -/
theorem remote_frame_hides_next_frame :
    let pending := [sampleWire 1, sampleRemote, sampleWire 2]
    let stack := (sampleBuffer pending).calls [.addInterface Controller.buffered.interface]
    Stack.new {} pending = .ok (sampleBuffer pending) ∧
      pending.filterMap Frame.ofWire? =
        [.classic (.standard 0x7E8) 1 #v[1, 0, 0, 0, 0, 0, 0, 0],
          .classic (.standard 0x7E8) 1 #v[2, 0, 0, 0, 0, 0, 0, 0]] ∧
      offeredOn ⟨0⟩ ((Call.process 0).steps stack) =
        [.classic (.standard 0x7E8) 1 #v[1, 0, 0, 0, 0, 0, 0, 0]] ∧
      (stack.process 0).outside.world.map (·.bytes) = [(sampleWire 2).bytes] ∧
      (stack.process 0).outside.world.all (·.isReadable) = true :=
  ⟨rfl, by decide +kernel⟩

end DiagBus
