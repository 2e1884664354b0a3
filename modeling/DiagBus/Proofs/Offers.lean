import DiagBus.Proofs.CheckedStack

namespace DiagBus

variable {ω : Type}

namespace Stack

theorem settlingWithin_transport (now : Tick) (fuel : Nat) (stack : Stack ω) :
    ∀ step ∈ settlingWithin now fuel stack, step.isTransport = true := by
  induction fuel generalizing stack with
  | zero => simp [settlingWithin]
  | succ fuel ih =>
    unfold settlingWithin
    split
    · simp
    · exact List.forall_mem_cons.mpr ⟨rfl, ih _⟩

theorem settled_transport (stack : Stack ω) (now : Tick) {step : Step ω}
    (transport : step.isTransport = true) :
    ∀ other ∈ stack.settled now step, other.isTransport = true :=
  List.forall_mem_cons.mpr ⟨transport, settlingWithin_transport now _ _⟩

theorem arriving_transport (stack : Stack ω) (now : Tick) (index : InterfaceIndex)
    (frame : Frame) : ∀ step ∈ stack.arriving now index frame, step.isTransport = true := by
  unfold arriving
  split
  · exact stack.settled_transport now rfl
  · exact settlingWithin_transport now _ _

/-- A received frame is offered, and all else is about connections. -/
theorem inputSteps_eq (stack : Stack ω) (now : Tick) (index : InterfaceIndex) (frame : Frame) :
    ∃ onward, stack.inputSteps now index frame = .offer index frame :: onward ∧
      ∀ step ∈ onward, step.isTransport = true := by
  refine ⟨_, rfl, ?_⟩
  split
  · simp
  · exact arriving_transport _ _ _ _

theorem confirming_transport (stack : Stack ω) (now : Tick) (index : InterfaceIndex)
    (frame : Frame) : ∀ step ∈ stack.confirming now index frame, step.isTransport = true := by
  unfold confirming
  simp only []
  split
  · exact stack.settled_transport now rfl
  · exact settlingWithin_transport now _ _

theorem alarmSteps_transport (now : Tick) (fuel : Nat) (stack : Stack ω) :
    ∀ step ∈ alarmSteps now fuel stack, step.isTransport = true := by
  induction fuel generalizing stack with
  | zero => simp [alarmSteps]
  | succ fuel ih =>
    unfold alarmSteps
    split
    · simp
    · exact List.forall_mem_append.mpr ⟨stack.settled_transport now rfl, ih _⟩

end Stack

/-- Whether a step is part of what the stack does with the frames that it finds at its interfaces, or
with its connections. -/
def Step.isReaction : Step ω → Bool
  | .world _ => true
  | .offer .. => true
  | step => step.isTransport

theorem Step.isReaction_of_isTransport {step : Step ω} (transport : step.isTransport = true) :
    step.isReaction = true := by
  cases step <;> first | rfl | cases transport

namespace Stack

theorem inputSteps_reacts (stack : Stack ω) (now : Tick) (index : InterfaceIndex) (frame : Frame) :
    ∀ step ∈ stack.inputSteps now index frame, step.isReaction = true := by
  obtain ⟨onward, whole, transport⟩ := stack.inputSteps_eq now index frame
  rw [whole]
  exact List.forall_mem_cons.mpr ⟨rfl, fun step member =>
    Step.isReaction_of_isTransport (transport step member)⟩

theorem pollSteps_reacts (now : Tick) (index : InterfaceIndex) (fuel : Nat) (stack : Stack ω) :
    ∀ step ∈ pollSteps now index fuel stack, step.isReaction = true := by
  induction fuel generalizing stack with
  | zero => simp [pollSteps]
  | succ fuel ih =>
    unfold pollSteps
    split
    · simp
    · simp only []
      split
      · simp [Step.isReaction]
      · exact List.forall_mem_cons.mpr ⟨rfl, List.forall_mem_append.mpr
          ⟨inputSteps_reacts _ _ _ _, ih _⟩⟩

theorem pollingSteps_reacts (now : Tick) (indexes : List InterfaceIndex) (stack : Stack ω) :
    ∀ step ∈ pollingSteps now indexes stack, step.isReaction = true := by
  induction indexes generalizing stack with
  | nil => simp [pollingSteps]
  | cons index rest ih =>
    exact List.forall_mem_append.mpr ⟨pollSteps_reacts _ _ _ _, ih _⟩

end Stack

/-- Whether a call makes the stack react: to the clock, to frames or to a message to send. -/
def Call.isReactive : Call ω → Bool
  | .send .. => true
  | .input .. => true
  | .checkAlarms _ => true
  | .process _ => true
  | _ => false

theorem Call.steps_react {call : Call ω} (reactive : call.isReactive = true) (stack : Stack ω) :
    ∀ step ∈ call.steps stack, step.isReaction = true := by
  have transport {steps : List (Step ω)} (all : ∀ step ∈ steps, step.isTransport = true) :
      ∀ step ∈ steps, step.isReaction = true :=
    fun step member => Step.isReaction_of_isTransport (all step member)
  cases call with
  | send now handle message => exact transport (stack.settled_transport now rfl)
  | input now index frame => exact stack.inputSteps_reacts now index frame
  | checkAlarms now => exact transport (Stack.alarmSteps_transport now _ _)
  | process now =>
    exact List.forall_mem_append.mpr
      ⟨Stack.pollingSteps_reacts _ _ _, transport (Stack.alarmSteps_transport _ _ _)⟩
  | _ => cases reactive

/-- Every live subscription is in the order, and nothing else. -/
structure Raw.Ordered (raw : Raw ω) : Prop extends raw.Sound where
  listed : ∀ handle, (raw.subscriptions.get? handle).isSome → handle ∈ raw.order

/-- The order is a permutation of the handles of the live subscriptions. -/
structure Raw.Lists (raw : Raw ω) : Prop where
  permutes : raw.order.Perm (raw.subscriptions.entries.map (·.1))
  once : raw.order.Nodup
  live : ∀ handle, handle ∈ raw.order ↔ (raw.subscriptions.get? handle).isSome

section

variable {raw : Raw ω}

theorem Raw.Ordered.lists (ordered : raw.Ordered) : raw.Lists := by
  have live (handle : Handle) : handle ∈ raw.order ↔ (raw.subscriptions.get? handle).isSome :=
    ⟨ordered.live handle, ordered.listed handle⟩
  refine ⟨?_, ordered.once, live⟩
  rw [List.perm_ext_iff_of_nodup ordered.once (Slots.entries_nodup ordered.slots)]
  intro handle
  rw [live, Option.isSome_iff_exists, List.mem_map]
  simp only [Prod.exists, Slots.mem_entries_iff ordered.slots, exists_and_right, exists_eq_right]

theorem Raw.ofCapacity_ordered {capacity : Nat} (bound : capacity ≤ 0x10000) :
    (Raw.ofCapacity capacity : Raw ω).Ordered := by
  refine ⟨Raw.ofCapacity_sound bound, fun handle live => ?_⟩
  rw [show (Raw.ofCapacity capacity : Raw ω).subscriptions.get? handle = none from
    Slots.get?_ofCapacity _ _] at live
  cases live

theorem Raw.Ordered.open {after : Raw ω} {handle : Handle} {interface : InterfaceIndex}
    (ordered : raw.Ordered) (opened : raw.open interface = some (handle, after)) :
    after.Ordered := by
  refine ⟨ordered.toSound.open opened, fun other live => ?_⟩
  unfold Raw.open at opened
  obtain ⟨⟨fresh, subscriptions⟩, insertion, opened⟩ := Option.bind_eq_some_iff.mp opened
  cases opened
  rw [show Slots.get? subscriptions other = _ from
    Slots.get?_insert ordered.slots insertion other] at live
  by_cases same : other = handle
  · exact List.mem_cons.mpr (Or.inl same)
  · rw [if_neg same] at live
    exact List.mem_cons_of_mem _ (ordered.listed other live)

theorem Raw.Ordered.set (ordered : raw.Ordered) (handle : Handle)
    (subscription : Subscription ω) :
    Raw.Ordered { raw with subscriptions := raw.subscriptions.set handle subscription } := by
  refine ⟨ordered.toSound.set handle subscription,
    fun other (live : ((raw.subscriptions.set handle subscription).get? other).isSome) =>
      ordered.listed other ?_⟩
  cases before : raw.subscriptions.get? handle with
  | none => rwa [Slots.set_dead before] at live
  | some old =>
    rw [Slots.get?_set subscription before] at live
    split at live
    · rename_i same
      rw [same, before]
      rfl
    · exact live

theorem Raw.Ordered.update {after : Raw ω} {handle : Handle}
    {change : Subscription ω → Subscription ω} (ordered : raw.Ordered)
    (updated : raw.update handle change = .ok after) : after.Ordered := by
  unfold Raw.update at updated
  split at updated
  · cases updated
  · cases updated
    exact ordered.set _ _

theorem Raw.Ordered.close {after : Raw ω} {handle : Handle} (ordered : raw.Ordered)
    (closed : raw.close handle = .ok after) : after.Ordered := by
  refine ⟨ordered.toSound.close closed, fun other live => ?_⟩
  unfold Raw.close at closed
  cases erasure : raw.subscriptions.erase handle with
  | none =>
    rw [erasure] at closed
    cases closed
  | some erased =>
    rw [erasure] at closed
    cases closed
    rw [show Slots.get? _ other = _ from Slots.get?_erase erasure other] at live
    by_cases same : other = handle
    · rw [if_pos same] at live
      cases live
    · rw [if_neg same] at live
      exact List.mem_filter.mpr ⟨ordered.listed other live, by simpa using same⟩

theorem Raw.Ordered.send (ordered : raw.Ordered) (handle : Handle) (frame : Frame)
    (registry : Registry ω) (outside : Outside ω) :
    (raw.send handle frame registry outside).2.1.Ordered := by
  unfold Raw.send
  cases raw.subscriptions.get? handle with
  | none => exact ordered
  | some subscription =>
    simp only []
    split
    · exact ordered
    · rcases registry.hand (.raw handle) subscription.interface frame outside with
        ⟨fault | _ | _, after⟩
      · exact ordered
      · exact ordered.set _ _
      · exact ordered

theorem Raw.Ordered.input (ordered : raw.Ordered) (index : InterfaceIndex) (frame : Frame)
    (outside : Outside ω) : (raw.input index frame outside).2.1.Ordered := by
  refine ⟨ordered.toSound.input index frame outside, ?_⟩
  unfold Raw.input
  rcases raw.offer index frame raw.order outside with ⟨_ | consumer, after⟩
  · exact ordered.listed
  · intro other live
    by_cases same : other = consumer
    · exact List.mem_cons.mpr (Or.inl same)
    · exact List.mem_cons_of_mem _
        ((List.mem_erase_of_ne same).mpr (ordered.listed other live))

theorem Raw.Ordered.sent (ordered : raw.Ordered) (index : InterfaceIndex) (frame : Frame)
    (outside : Outside ω) : (raw.sent index frame outside).2.1.Ordered := by
  unfold Raw.sent
  cases raw.awaiting? index frame with
  | none => exact ordered
  | some found => exact ordered.set _ _

end

/-- A call has left this of one raw subscription and this order, and all else as it was. -/
structure Stack.Resubscribed (before after : Stack ω) (handle : Handle)
    (subscription : Option (Subscription ω)) (order : List Handle) : Prop where
  own : after.raw.subscriptions.get? handle = subscription
  others : ∀ other, other ≠ handle →
    after.raw.subscriptions.get? other = before.raw.subscriptions.get? other
  order : after.raw.order = order
  rest : after = { before with raw := after.raw }

/-- What the calls for raw subscriptions do. A new subscription comes first in the order. Only closing
takes one out of it, and a handle that is not in it is refused. -/
structure Stack.Subscribing (stack : Stack ω) : Prop where
  opens : ∀ index, match stack.subscribe index with
    | none => stack.raw.subscriptions.size = stack.raw.subscriptions.capacity
    | some (handle, after) => handle ∉ stack.raw.order ∧
        stack.Resubscribed after handle (some { interface := index }) (handle :: stack.raw.order)
  binds : ∀ handle index, match stack.rebind handle index with
    | .error fault => fault = .argument ∧ handle ∉ stack.raw.order
    | .ok after => ∃ old, stack.raw.subscriptions.get? handle = some old ∧
        stack.Resubscribed after handle (some { old with interface := index, pending := none })
          stack.raw.order
  changes : ∀ handle change, match stack.updateSubscription handle change with
    | .error fault => fault = .argument ∧ handle ∉ stack.raw.order
    | .ok after => ∃ old, stack.raw.subscriptions.get? handle = some old ∧
        stack.Resubscribed after handle (some (change old)) stack.raw.order
  closes : ∀ handle, match stack.unsubscribe handle with
    | .error fault => fault = .argument ∧ handle ∉ stack.raw.order
    | .ok after => handle ∈ stack.raw.order ∧
        stack.Resubscribed after handle none (stack.raw.order.filter (· ≠ handle))

section

variable {stack : Stack ω}

theorem Raw.Ordered.not_mem {raw : Raw ω} (ordered : raw.Ordered) {handle : Handle}
    (dead : raw.subscriptions.get? handle = none) : handle ∉ raw.order := by
  intro listed
  have live := ordered.live handle listed
  rw [dead] at live
  cases live

theorem Stack.subscribe_resubscribes (ordered : stack.raw.Ordered) (index : InterfaceIndex) :
    match stack.subscribe index with
    | none => stack.raw.subscriptions.size = stack.raw.subscriptions.capacity
    | some (handle, after) => handle ∉ stack.raw.order ∧
        stack.Resubscribed after handle (some { interface := index })
          (handle :: stack.raw.order) := by
  unfold Stack.subscribe Raw.open
  cases insertion : stack.raw.subscriptions.insert { interface := index } with
  | none =>
    have most := Slots.used_le_capacity ordered.slots
    by_contra unequal
    have room : stack.raw.subscriptions.used < stack.raw.subscriptions.capacity :=
      Nat.lt_of_le_of_ne most unequal
    obtain ⟨_, _, inserted⟩ := Slots.insert_exists ordered.slots { interface := index } room
    rw [insertion] at inserted
    cases inserted
  | some found =>
    have content := Slots.get?_insert ordered.slots insertion
    exact ⟨ordered.not_mem (Slots.get?_of_insert ordered.slots insertion),
      (content _).trans (if_pos rfl), fun other apart => (content other).trans (if_neg apart),
      rfl, rfl⟩

theorem Stack.updateSubscription_resubscribes (ordered : stack.raw.Ordered) (handle : Handle)
    (change : Subscription ω → Subscription ω) :
    match stack.updateSubscription handle change with
    | .error fault => fault = .argument ∧ handle ∉ stack.raw.order
    | .ok after => ∃ old, stack.raw.subscriptions.get? handle = some old ∧
        stack.Resubscribed after handle (some (change old)) stack.raw.order := by
  unfold Stack.updateSubscription Raw.update
  cases live : stack.raw.subscriptions.get? handle with
  | none => exact ⟨rfl, ordered.not_mem live⟩
  | some old =>
    exact ⟨old, rfl, Slots.get?_set_self _ live, fun _ => Slots.get?_set_of_ne _ live, rfl, rfl⟩

theorem Stack.unsubscribe_resubscribes (ordered : stack.raw.Ordered) (handle : Handle) :
    match stack.unsubscribe handle with
    | .error fault => fault = .argument ∧ handle ∉ stack.raw.order
    | .ok after => handle ∈ stack.raw.order ∧
        stack.Resubscribed after handle none (stack.raw.order.filter (· ≠ handle)) := by
  unfold Stack.unsubscribe Raw.close
  cases live : stack.raw.subscriptions.get? handle with
  | none =>
    rw [Slots.erase_eq_none live]
    exact ⟨rfl, ordered.not_mem live⟩
  | some old =>
    have erasure := Slots.erase_eq live
    have content := Slots.get?_erase erasure
    rw [erasure]
    exact ⟨ordered.listed handle (by rw [live]; rfl), (content _).trans (if_pos rfl),
      fun other apart => (content other).trans (if_neg apart), rfl, rfl⟩

theorem Raw.Ordered.subscribing (ordered : stack.raw.Ordered) : stack.Subscribing where
  opens := stack.subscribe_resubscribes ordered
  binds handle index := stack.updateSubscription_resubscribes ordered handle
    fun subscription => { subscription with interface := index, pending := none }
  changes := stack.updateSubscription_resubscribes ordered
  closes := stack.unsubscribe_resubscribes ordered

end

/-- A step that, where it replaces the subscriptions, brings all of the new ones in order. -/
def Step.Orders : Step ω → Prop
  | .subscribe raw => raw.Ordered
  | _ => True

theorem Step.Orders.of_isReaction {step : Step ω} (reaction : step.isReaction = true) :
    step.Orders := by
  cases step with
  | subscribe raw => cases reaction
  | _ => trivial

theorem Step.Orders.run {step : Step ω} (orders : step.Orders) {stack : Stack ω}
    (ordered : stack.raw.Ordered) : (step.run stack).raw.Ordered := by
  by_cases transport : step.isTransport = true
  · obtain ⟨_, _, _, _, _, same⟩ := Step.around_run transport stack
    rw [same]
    exact ordered
  · cases step with
    | subscribe raw => exact orders
    | sendFrame handle frame => exact ordered.send handle frame stack.registry stack.outside
    | offer index frame => exact ordered.input index frame stack.outside
    | acknowledge index frame => exact ordered.sent index frame stack.outside
    | world | register => exact ordered
    | _ => exact absurd rfl transport

theorem Call.steps_order (call : Call ω) {stack : Stack ω} (ordered : stack.raw.Ordered) :
    ∀ step ∈ call.steps stack, step.Orders := by
  have changed {outcome : Except Fault (Raw ω)}
      (kept : ∀ raw, outcome = .ok raw → raw.Ordered) :
      (stack.orStay do return { stack with raw := ← outcome }).raw.Ordered := by
    cases outcome with
    | error fault => exact ordered
    | ok raw => exact kept raw rfl
  cases call with
  | subscribe index =>
    refine List.forall_mem_singleton.mpr ?_
    simp only [Step.Orders, Call.run, Stack.subscribe]
    cases opened : stack.raw.open index with
    | none => exact ordered
    | some found => exact ordered.open opened
  | updateSubscription handle change =>
    exact List.forall_mem_singleton.mpr (changed fun _ => ordered.update)
  | rebind handle index =>
    exact List.forall_mem_singleton.mpr (changed fun _ => ordered.update)
  | unsubscribe handle =>
    exact List.forall_mem_singleton.mpr (changed fun _ => ordered.close)
  | sent now index frame =>
    unfold Call.steps Stack.sentSteps
    refine List.forall_mem_cons.mpr ⟨trivial, ?_⟩
    split
    · simp
    · exact fun step member => .of_isReaction
        (Step.isReaction_of_isTransport (Stack.confirming_transport _ _ _ _ step member))
  | send | input | checkAlarms | process =>
    exact fun step member => .of_isReaction (Call.steps_react rfl stack step member)
  | _ => exact List.forall_mem_singleton.mpr trivial

/-- What each of these steps keeps holds at every moment of them. -/
theorem Stack.moments_keep (holds : Stack ω → Prop) {steps : List (Step ω)}
    (keeps : ∀ step ∈ steps, ∀ stack, holds stack → holds (step.run stack)) {stack : Stack ω}
    (base : holds stack) :
    (∀ moment ∈ stack.moments steps, holds moment.before ∧ holds moment.after) ∧
      holds (stack.through steps) := by
  induction steps generalizing stack with
  | nil => exact ⟨by simp [Stack.moments], base⟩
  | cons step rest ih =>
    obtain ⟨here, later⟩ := List.forall_mem_cons.mp keeps
    obtain ⟨all, final⟩ := ih later (here stack base)
    exact ⟨List.forall_mem_cons.mpr ⟨⟨base, here stack base⟩, all⟩, final⟩

theorem Stack.history_ordered (calls : List (Call ω)) {stack : Stack ω}
    (ordered : stack.raw.Ordered) :
    (∀ moment ∈ stack.history calls, moment.before.raw.Ordered ∧ moment.after.raw.Ordered) ∧
      (stack.calls calls).raw.Ordered := by
  induction calls generalizing stack with
  | nil => exact ⟨by simp [Stack.history, Stack.steps, Stack.moments], ordered⟩
  | cons call rest ih =>
    obtain ⟨here, after⟩ := Stack.moments_keep (fun stack => stack.raw.Ordered)
      (fun step member _ => (call.steps_order ordered step member).run) ordered
    rw [← Call.run_eq] at after
    obtain ⟨later, final⟩ := ih after
    refine ⟨?_, final⟩
    rw [Stack.history, Stack.steps, Stack.moments_append, ← Call.run_eq]
    exact List.forall_mem_append.mpr ⟨here, later⟩

/-- Wherever a frame is offered in these steps, the steps of a received frame begin. -/
def Stack.Admits (stack : Stack ω) (steps : List (Step ω)) : Prop :=
  ∀ early index frame late, steps = early ++ .offer index frame :: late →
    ∃ now later, .offer index frame :: late =
      (stack.through early).inputSteps now index frame ++ later

namespace Stack

section

variable {stack : Stack ω}

theorem Admits.of_no_offer {steps : List (Step ω)}
    (silent : ∀ index frame, Step.offer index frame ∉ steps) : stack.Admits steps := by
  rintro early index frame late rfl
  exact absurd (List.mem_append_right _ List.mem_cons_self) (silent index frame)

theorem Admits.of_transport {steps : List (Step ω)}
    (transport : ∀ step ∈ steps, step.isTransport = true) : stack.Admits steps :=
  .of_no_offer fun _ _ member => by cases transport _ member

theorem Admits.append {first second : List (Step ω)} (one : stack.Admits first)
    (other : (stack.through first).Admits second) : stack.Admits (first ++ second) := by
  intro early index frame late parts
  rcases List.append_eq_append_iff.mp parts with ⟨between, rfl, rest⟩ | ⟨between, rfl, rest⟩
  · rw [Stack.through_append]
    exact other between index frame late rest
  · cases between with
    | nil =>
      rw [List.append_nil] at other
      exact other [] index frame late rest.symm
    | cons step between =>
      obtain ⟨rfl, rfl⟩ := List.cons.inj rest
      -- The steps of that frame end within the first part.
      obtain ⟨now, later, same⟩ := one early index frame between rfl
      exact ⟨now, later ++ second, by rw [← List.append_assoc, ← same]; rfl⟩

theorem inputSteps_admits (now : Tick) (index : InterfaceIndex) (frame : Frame) :
    stack.Admits (stack.inputSteps now index frame) := by
  obtain ⟨onward, whole, transport⟩ := stack.inputSteps_eq now index frame
  intro early other received late parts
  rw [whole] at parts
  cases early with
  | nil =>
    cases parts
    exact ⟨now, [], by rw [List.append_nil]; exact whole.symm⟩
  | cons step early =>
    obtain ⟨_, rfl⟩ := List.cons.inj parts
    cases transport _ (List.mem_append_right _ List.mem_cons_self)

theorem pollSteps_admits (now : Tick) (index : InterfaceIndex) (fuel : Nat) :
    stack.Admits (pollSteps now index fuel stack) := by
  induction fuel generalizing stack with
  | zero => exact .of_no_offer (by simp [pollSteps])
  | succ fuel ih =>
    unfold pollSteps
    split
    · exact .of_no_offer (by simp)
    · have polled (change : ω → ω) : stack.Admits [.world change] :=
        .of_no_offer (by simp)
      simp only []
      split
      · exact polled _
      · exact (polled _).append ((inputSteps_admits _ _ _).append ih)

theorem pollingSteps_admits (now : Tick) (indexes : List InterfaceIndex) :
    stack.Admits (pollingSteps now indexes stack) := by
  induction indexes generalizing stack with
  | nil => exact .of_no_offer (by simp [pollingSteps])
  | cons index rest ih => exact (pollSteps_admits _ _ _).append ih

end

end Stack

theorem Call.steps_admit (call : Call ω) (stack : Stack ω) :
    stack.Admits (call.steps stack) := by
  cases call with
  | send now handle message => exact .of_transport (stack.settled_transport now rfl)
  | input now index frame => exact Stack.inputSteps_admits now index frame
  | sent now index frame =>
    refine .of_no_offer fun other offered member => ?_
    unfold Call.steps Stack.sentSteps at member
    simp only [List.mem_cons, reduceCtorEq, false_or] at member
    split at member
    · cases member
    · cases Stack.confirming_transport _ _ _ _ _ member
  | checkAlarms now => exact .of_transport (Stack.alarmSteps_transport now _ _)
  | process now =>
    exact (Stack.pollingSteps_admits now _).append
      (.of_transport (Stack.alarmSteps_transport now _ _))
  | _ => exact .of_no_offer (by simp [Call.steps])

theorem Stack.steps_admit (calls : List (Call ω)) (stack : Stack ω) :
    stack.Admits (stack.steps calls) := by
  induction calls generalizing stack with
  | nil => exact .of_no_offer (by simp [Stack.steps])
  | cons call rest ih =>
    refine (call.steps_admit stack).append ?_
    rw [← Call.run_eq]
    exact ih _

/-- A raw subscription with a callback: whom it tells, and how it decides. -/
structure Hearer (ω : Type) where
  handle : Handle
  listener : Listener
  consumes : Frame → ω → Bool × ω

/-- Offers a frame to the subscription, which decides whether to consume it. -/
def Hearer.ask (hearer : Hearer ω) (frame : Frame) (outside : Outside ω) : Bool × Outside ω :=
  let (consumed, world) := hearer.consumes frame outside.world
  (consumed, { outside with world }.tell (.offered hearer.listener hearer.handle frame consumed))

/-- A frame is offered to these subscriptions one after the other, and none consumes it. -/
inductive Declined (frame : Frame) : List (Hearer ω) → Outside ω → Outside ω → Prop
  | done (outside : Outside ω) : Declined frame [] outside outside
  | next {hearer : Hearer ω} {rest : List (Hearer ω)} {before between after : Outside ω}
      (declines : hearer.ask frame before = (false, between))
      (others : Declined frame rest between after) : Declined frame (hearer :: rest) before after

/-- These are the subscriptions to an interface that have a callback, in the order of lookup. -/
structure Raw.Asks (raw : Raw ω) (index : InterfaceIndex) (hearers : List (Hearer ω)) : Prop where
  exactly : ∀ hearer, hearer ∈ hearers ↔ ∃ subscription,
    raw.subscriptions.get? hearer.handle = some subscription ∧
      subscription.interface = index ∧
      subscription.onReceive = some (hearer.listener, hearer.consumes)
  ordered : (hearers.map (·.handle)).Sublist raw.order

/-- What becomes of a received frame, and the stack once it was offered. The first subscription that
consumes it moves to the front of the order, and that is all; a frame that none consumes goes to the
transport. -/
inductive Stack.Dispatches (stack : Stack ω) (index : InterfaceIndex) (frame : Frame)
    (hearers : List (Hearer ω)) : Stack ω → Prop
  | consumed {declined spared : List (Hearer ω)} {consumer : Hearer ω} {early late : List Handle}
      {between outside : Outside ω} {after : Stack ω}
      (parts : hearers = declined ++ consumer :: spared)
      (refused : Declined frame declined stack.outside between)
      (taken : consumer.ask frame between = (true, outside))
      (order : stack.raw.order = early ++ consumer.handle :: late)
      (moved : after = { stack with
        raw := { stack.raw with order := consumer.handle :: (early ++ late) }
        outside })
      (input : ∀ now, stack.input now index frame = after) :
      Dispatches stack index frame hearers after
  | declined {outside : Outside ω} {after : Stack ω}
      (refused : Declined frame hearers stack.outside outside)
      (unmoved : after = { stack with outside })
      (input : ∀ now, stack.input now index frame =
        (after.inputTransport now index frame).settle now)
      (kept : ∀ now, (stack.input now index frame).raw = stack.raw) :
      Dispatches stack index frame hearers after

section

variable {raw : Raw ω} {index : InterfaceIndex} {frame : Frame}

/-- The subscription behind a handle, if it is to this interface and has a callback. -/
def Raw.hearer? (raw : Raw ω) (index : InterfaceIndex) (handle : Handle) : Option (Hearer ω) :=
  match raw.subscriptions.get? handle with
  | some { interface, onReceive := some (listener, consumes), .. } =>
    if interface = index then some { handle, listener, consumes } else none
  | _ => none

theorem Raw.hearer?_eq_some_iff {handle : Handle} {hearer : Hearer ω} :
    raw.hearer? index handle = some hearer ↔ hearer.handle = handle ∧ ∃ subscription,
      raw.subscriptions.get? hearer.handle = some subscription ∧
        subscription.interface = index ∧
        subscription.onReceive = some (hearer.listener, hearer.consumes) := by
  obtain ⟨own, listener, consumes⟩ := hearer
  unfold Raw.hearer?
  constructor
  · intro found
    split at found
    · rename_i interface _ _ _ _ live
      split at found
      · rename_i same
        cases found
        exact ⟨rfl, _, live, same, rfl⟩
      · cases found
    · cases found
  · rintro ⟨rfl, ⟨interface, pending, onReceive, onSent⟩, live, rfl, rfl⟩
    rw [live]
    exact if_pos rfl

/-- The subscriptions that a frame of this interface is offered to. -/
def Raw.hearers (raw : Raw ω) (index : InterfaceIndex) : List (Hearer ω) :=
  raw.order.filterMap (raw.hearer? index)

theorem Raw.Ordered.asks (ordered : raw.Ordered) (index : InterfaceIndex) :
    raw.Asks index (raw.hearers index) := by
  refine ⟨fun hearer => ?_, ?_⟩
  · simp only [Raw.hearers, List.mem_filterMap, Raw.hearer?_eq_some_iff]
    constructor
    · rintro ⟨_, _, _, found⟩
      exact found
    · rintro ⟨subscription, live, found⟩
      exact ⟨hearer.handle, ordered.listed _ (by rw [live]; rfl), rfl, subscription, live, found⟩
  · unfold Raw.hearers
    induction raw.order with
    | nil => exact .slnil
    | cons handle rest ih =>
      cases found : raw.hearer? index handle with
      | none =>
        rw [List.filterMap_cons_none found]
        exact ih.cons _
      | some hearer =>
        rw [List.filterMap_cons_some found, List.map_cons, (hearer?_eq_some_iff.mp found).1]
        exact ih.cons_cons _

/-- An offer passes over the subscriptions that are not asked. -/
theorem Raw.offer_cons (raw : Raw ω) (index : InterfaceIndex) (frame : Frame) (handle : Handle)
    (rest : List Handle) (outside : Outside ω) :
    raw.offer index frame (handle :: rest) outside =
      match raw.hearer? index handle with
      | none => raw.offer index frame rest outside
      | some hearer =>
        if (hearer.ask frame outside).1 then (some handle, (hearer.ask frame outside).2)
        else raw.offer index frame rest (hearer.ask frame outside).2 := by
  unfold Raw.hearer?
  rw [Raw.offer]
  rcases raw.subscriptions.get? handle with
    _ | ⟨interface, pending, _ | ⟨listener, consumes⟩, sent⟩
  · rfl
  · rfl
  · by_cases same : interface = index
    · simp only [if_pos same]
      rfl
    · simp only [if_neg same]

/-- An offer asks one subscription after the other, up to the one that consumes the frame. -/
theorem Raw.offer_cases (raw : Raw ω) (index : InterfaceIndex) (frame : Frame)
    (order : List Handle) (before : Outside ω) :
    (∃ after, Declined frame (order.filterMap (raw.hearer? index)) before after ∧
      raw.offer index frame order before = (none, after)) ∨
    ∃ declined consumer spared between after,
      order.filterMap (raw.hearer? index) = declined ++ consumer :: spared ∧
        Declined frame declined before between ∧ consumer.ask frame between = (true, after) ∧
        raw.offer index frame order before = (some consumer.handle, after) := by
  induction order generalizing before with
  | nil => exact Or.inl ⟨before, .done before, rfl⟩
  | cons handle rest ih =>
    rw [Raw.offer_cons]
    cases found : raw.hearer? index handle with
    | none =>
      rw [List.filterMap_cons_none found]
      exact ih before
    | some hearer =>
      rw [List.filterMap_cons_some found]
      simp only []
      rcases asked : hearer.ask frame before with ⟨_ | _, answered⟩
      · rcases ih answered with ⟨after, refused, offered⟩ |
          ⟨declined, consumer, spared, between, after, parts, refused, taken, offered⟩
        · exact Or.inl ⟨after, .next asked refused, offered⟩
        · exact Or.inr ⟨hearer :: declined, consumer, spared, between, after,
            by rw [parts, List.cons_append], .next asked refused, taken, offered⟩
      · have own := (Raw.hearer?_eq_some_iff.mp found).1
        exact Or.inr ⟨[], hearer, _, before, answered, rfl, .done before, asked, by rw [own]; rfl⟩

end

/-- The transport does not touch the raw subscriptions. -/
theorem Stack.raw_inputTransport (stack : Stack ω) (now : Tick) (index : InterfaceIndex)
    (frame : Frame) : ((stack.inputTransport now index frame).settle now).raw = stack.raw := by
  rw [Stack.arriving_eq]
  refine (Stack.moments_keep (fun after => after.raw = stack.raw)
    (fun step member before same => ?_) rfl).2
  obtain ⟨_, _, _, _, _, result⟩ :=
    Step.around_run (Stack.arriving_transport _ _ _ _ step member) before
  rw [result]
  exact same

/-- Every received frame is dispatched. -/
theorem Stack.dispatches (stack : Stack ω) (index : InterfaceIndex) (frame : Frame) :
    stack.Dispatches index frame (stack.raw.hearers index)
      ((Step.offer index frame).run stack) := by
  rcases stack.raw.offer_cases index frame stack.raw.order stack.outside with
    ⟨after, refused, offered⟩ |
    ⟨declined, consumer, spared, between, after, parts, refused, taken, offered⟩
  · have input : stack.raw.input index frame stack.outside = (false, stack.raw, after) := by
      unfold Raw.input
      rw [offered]
    have result (now : Tick) : stack.input now index frame =
        ({ stack with outside := after }.inputTransport now index frame).settle now := by
      unfold Stack.input
      rw [input]
    refine .declined refused ?_ (fun now => ?_) (fun now => ?_)
    · simp only [Step.run, input]
    · simp only [Step.run, input]
      exact result now
    · rw [result]
      exact Stack.raw_inputTransport _ _ _ _
  · have member : consumer ∈ stack.raw.hearers index := by
      unfold Raw.hearers
      rw [parts]
      exact List.mem_append_right _ List.mem_cons_self
    obtain ⟨handle, listed, found⟩ := List.mem_filterMap.mp member
    obtain ⟨rfl, _⟩ := Raw.hearer?_eq_some_iff.mp found
    obtain ⟨early, late, _, order, erased⟩ := List.exists_erase_eq listed
    have input : stack.raw.input index frame stack.outside =
        (true, { stack.raw with order := consumer.handle :: (early ++ late) }, after) := by
      unfold Raw.input
      rw [offered, ← erased]
    refine .consumed parts refused taken order ?_ fun now => ?_
    · simp only [Step.run, input]
    · unfold Stack.input
      simp only [Step.run, input]

theorem Stack.new_ordered {settings : Settings} {world : ω} {fresh : Stack ω}
    (made : Stack.new settings world = .ok fresh) : fresh.raw.Ordered := by
  unfold Stack.new at made
  cases valid : settings.validate with
  | error fault =>
    rw [valid] at made
    cases made
  | ok =>
    rw [valid] at made
    cases made
    obtain ⟨_, _, few, _⟩ := Settings.of_validate valid
    exact Raw.ofCapacity_ordered (by omega)

/-- At all times the order lists the live raw subscriptions, each of them once, and one that is
opened or bound is a subscription to the interface that the call names. Wherever a frame is received
it is offered in this order to the subscriptions to its interface that have a callback, up to the
first one that consumes it. That one is the first from then on, and the transport only sees a frame
that none consumes. -/
theorem frames_are_offered_in_order {settings : Settings} {world : ω} {fresh : Stack ω}
    (made : Stack.new settings world = .ok fresh) (calls : List (Call ω)) :
    (fresh.calls calls).raw.Lists ∧ (fresh.calls calls).Subscribing ∧
      ∀ past moment rest, fresh.history calls = past ++ moment :: rest →
        moment.before.raw.Lists ∧ moment.after.raw.Lists ∧
          ∀ index frame, moment.step = .offer index frame →
            (∃ hearers, moment.before.raw.Asks index hearers ∧
              moment.before.Dispatches index frame hearers moment.after) ∧
            ∃ now later, moment :: rest =
              moment.before.moments (moment.before.inputSteps now index frame) ++ later := by
  obtain ⟨ordered, final⟩ := Stack.history_ordered calls (Stack.new_ordered made)
  refine ⟨final.lists, final.subscribing, fun past moment rest whole => ?_⟩
  obtain ⟨before, after⟩ := ordered moment (by rw [whole]; simp)
  refine ⟨before.lists, after.lists, fun index frame offers => ⟨?_, ?_⟩⟩
  · refine ⟨_, before.asks index, ?_⟩
    rw [Moment.after, offers]
    exact moment.before.dispatches index frame
  · obtain ⟨early, late, parts, _, onward⟩ := Stack.moments_split whole
    obtain ⟨tail, rfl, here, _⟩ := Stack.moments_cons onward
    rw [offers] at parts
    obtain ⟨now, later, same⟩ := fresh.steps_admit calls early index frame tail parts
    rw [← here] at same onward
    refine ⟨now, (moment.before.through
      (moment.before.inputSteps now index frame)).moments later, ?_⟩
    rw [← onward, offers, same, Stack.moments_append]

/-- Two raw subscriptions; the one opened first consumes every frame, the other one none. -/
def sampleAudience : List (Call Unit) :=
  [.subscribe ⟨0⟩,
    .updateSubscription ⟨0, 0⟩ ({ · with onReceive := some (.application 0, fun _ _ => (true, ())) }),
    .subscribe ⟨0⟩,
    .updateSubscription ⟨1, 0⟩ ({ · with onReceive := some (.application 1, fun _ _ => (false, ())) })]

def sampleBroadcast : Frame :=
  .classic (.standard 0x123) 1 #v[7, 0, 0, 0, 0, 0, 0, 0]

/-- The subscription opened last is asked first, and declines. The other one consumes the frame and
is the first from then on. Then the former is bound to another interface. -/
theorem sample_frames_are_offered_in_order :
    Stack.new {} () = .ok sampleStack ∧
      (sampleStack.calls (sampleAudience ++ [.input 5 ⟨0⟩ sampleBroadcast])).raw.Lists ∧
      (∃ hearers after, (sampleStack.calls sampleAudience).raw.Asks ⟨0⟩ hearers ∧
        (sampleStack.calls sampleAudience).Dispatches ⟨0⟩ sampleBroadcast hearers after ∧
        after.raw.order = [⟨0, 0⟩, ⟨1, 0⟩] ∧
        after.outside.signals = [.offered (.application 1) ⟨1, 0⟩ sampleBroadcast false,
          .offered (.application 0) ⟨0, 0⟩ sampleBroadcast true]) ∧
      ∃ after, (sampleStack.calls (sampleAudience ++ [.input 5 ⟨0⟩ sampleBroadcast])).rebind
          ⟨1, 0⟩ ⟨1⟩ = .ok after ∧
        (after.raw.subscriptions.get? ⟨1, 0⟩).map (·.interface) = some ⟨1⟩ ∧
        after.raw.order = [⟨0, 0⟩, ⟨1, 0⟩] := by
  have made : Stack.new {} () = .ok sampleStack := rfl
  obtain ⟨lists, subscribing, history⟩ := frames_are_offered_in_order made
    (sampleAudience ++ [.input 5 ⟨0⟩ sampleBroadcast])
  obtain ⟨_, _, dispatched⟩ := history (sampleStack.history sampleAudience)
    ⟨sampleStack.calls sampleAudience, .offer ⟨0⟩ sampleBroadcast⟩ [] rfl
  obtain ⟨⟨hearers, asks, dispatches⟩, _⟩ := dispatched ⟨0⟩ sampleBroadcast rfl
  have binds := subscribing.binds ⟨1, 0⟩ ⟨1⟩
  cases bound : (sampleStack.calls (sampleAudience ++ [.input 5 ⟨0⟩ sampleBroadcast])).rebind
      ⟨1, 0⟩ ⟨1⟩ with
  | error fault =>
    rw [bound] at binds
    exact absurd (by decide +kernel) binds.2
  | ok after =>
    rw [bound] at binds
    obtain ⟨old, _, rebound⟩ := binds
    exact ⟨made, lists, ⟨hearers, _, asks, dispatches, by decide +kernel, by decide +kernel⟩, after,
      rfl, by rw [rebound.own, Option.map_some], rebound.order.trans (by decide +kernel)⟩

end DiagBus
