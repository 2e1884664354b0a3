import DiagBus.Proofs.Confirmations
import DiagBus.Proofs.Offers

namespace DiagBus

variable {ω : Type}

/-- The frame whose sending this raw subscription is told of, if the signal tells it. -/
def Signal.frameSent? (signal : Signal) (handle : Handle) : Option Frame :=
  match signal with
  | .frameSent _ subscription frame => if subscription = handle then some frame else none
  | _ => none

/-- The frame that a subscription has sent and that is not yet confirmed, if there is one. -/
def Stack.outstanding (stack : Stack ω) (handle : Handle) : List Frame :=
  ((stack.raw.subscriptions.get? handle).bind (·.pending)).toList

/-- The frame that a call sends through this subscription, if it does so with success. -/
def Call.accepted (call : Call ω) (stack : Stack ω) (handle : Handle) : List Frame :=
  match call with
  | .sendFrame other frame =>
    if other = handle ∧ (stack.sendFrame handle frame).1.isOk then [frame] else []
  | _ => []

/-- The frame that is forgotten because a call binds this subscription anew. -/
def Call.dropped (call : Call ω) (stack : Stack ω) (handle : Handle) : List Frame :=
  match call with
  | .rebind other _ => if other = handle then stack.outstanding handle else []
  | _ => []

/-- What is counted of each of these calls, one after the other. -/
def Stack.tally (stack : Stack ω) (count : Call ω → Stack ω → List Frame) :
    List (Call ω) → List Frame
  | [] => []
  | call :: rest => count call stack ++ (call.run stack).tally count rest

/-- A call that changes a subscription only changes its callbacks. -/
def Call.Proper : Call ω → Prop
  | .updateSubscription _ change => ∀ subscription,
    (change subscription).interface = subscription.interface ∧
      (change subscription).pending = subscription.pending
  | _ => True

/-- The subscription is live and has a callback for its frames. -/
def Stack.Notifies (stack : Stack ω) (handle : Handle) : Prop :=
  ∃ subscription, stack.raw.subscriptions.get? handle = some subscription ∧
    subscription.onSent.isSome = true

/-- The frames that are settled, with the confirmed ones and the dropped ones among them. -/
inductive Fates : List Frame → List Frame → List Frame → Prop
  | done : Fates [] [] []
  | confirmed {settled confirmed dropped : List Frame} (frame : Frame)
      (rest : Fates settled confirmed dropped) :
      Fates (frame :: settled) (frame :: confirmed) dropped
  | dropped {settled confirmed dropped : List Frame} (frame : Frame)
      (rest : Fates settled confirmed dropped) :
      Fates (frame :: settled) confirmed (frame :: dropped)

theorem Fates.length {settled confirmed dropped : List Frame}
    (fates : Fates settled confirmed dropped) :
    settled.length = confirmed.length + dropped.length := by
  induction fates with
  | done => rfl
  | confirmed frame _ ih =>
    simp only [List.length_cons]
    omega
  | dropped frame _ ih =>
    simp only [List.length_cons]
    omega

theorem Fates.sublist {settled confirmed dropped : List Frame}
    (fates : Fates settled confirmed dropped) : confirmed.Sublist settled := by
  induction fates with
  | done => exact .slnil
  | confirmed frame _ ih => exact ih.cons_cons frame
  | dropped frame _ ih => exact ih.cons frame

theorem Fates.append {settled confirmed dropped later told lost : List Frame}
    (fates : Fates settled confirmed dropped) (next : Fates later told lost) :
    Fates (settled ++ later) (confirmed ++ told) (dropped ++ lost) := by
  induction fates with
  | done => exact next
  | confirmed frame _ ih => exact .confirmed frame ih
  | dropped frame _ ih => exact .dropped frame ih

/-- All of these frames are dropped. -/
theorem Fates.lost (frames : List Frame) : Fates frames [] frames := by
  induction frames with
  | nil => exact .done
  | cons frame rest ih => exact .dropped frame ih

/-- A step of the transport leaves the outside alone unless it has a connection carry out a plan. -/
theorem Stack.Sound.transport_cases {stack : Stack ω} (sound : stack.Sound) {step : Step ω}
    (timely : step.Timely stack) (transport : step.isTransport = true) :
    (step.run stack).outside = stack.outside ∨ ∃ handle connection now direction plan,
      stack.Plans handle connection step now direction plan ∧
        stack.Acts now handle connection direction plan (step.run stack) := by
  have acted {handle : Handle} {connection : Connection} {now : Tick} {direction : Direction}
      {plan : Plan} (live : stack.connections.get? handle = some connection)
      (plans : stack.Plans handle connection step now direction plan) :
      ∃ handle connection now direction plan,
        stack.Plans handle connection step now direction plan ∧
          stack.Acts now handle connection direction plan (step.run stack) :=
    ⟨_, _, _, _, _, plans, sound.acts_of_plans timely live plans⟩
  have updated (handle : Handle) (change : Connection → Connection) :
      (stack.orStay (stack.updateConnection handle change)).outside = stack.outside := by
    unfold Stack.updateConnection
    cases stack.connections.get? handle <;> rfl
  cases step with
  | openConnection =>
    simp only [Step.run, Stack.openConnection]
    cases stack.connections.insert {} <;> exact Or.inl rfl
  | bind handle address =>
    refine Or.inl ?_
    simp only [Step.run, Stack.bind]
    split
    · rfl
    · split
      · rfl
      · split
        · rfl
        · exact updated handle _
  | listen handle onReceived onSent onFailed => exact Or.inl (updated handle _)
  | close handle =>
    simp only [Step.run, Stack.close]
    cases stack.connections.erase handle <;> exact Or.inl rfl
  | submit now handle message =>
    cases live : stack.connections.get? handle with
    | none =>
      rw [Step.run, Stack.on_dead live]
      exact Or.inl rfl
    | some connection => exact Or.inr (acted live (.submit now message))
  | arrive now handle pdu =>
    cases live : stack.connections.get? handle with
    | none =>
      rw [Step.run, Stack.on_dead live]
      exact Or.inl rfl
    | some connection => exact Or.inr (acted live (.arrive now pdu))
  | confirm now handle direction =>
    cases live : stack.connections.get? handle with
    | none =>
      rw [Step.run, Stack.on_dead live]
      exact Or.inl rfl
    | some connection => exact Or.inr (acted live (.confirm now direction))
  | settle now =>
    rcases sound.noted with quiet | ⟨handle, direction, connection, noted, live, _⟩
    · refine Or.inl ?_
      simp only [Step.run, quiet]
    · exact Or.inr (acted live (.settle now noted))
  | expire now =>
    cases due : stack.alarms.popDue now with
    | none =>
      refine Or.inl ?_
      simp only [Step.run, due]
    | some popped =>
      obtain ⟨alarm, alarms⟩ := popped
      cases live : stack.connections.get? alarm.connection with
      | none =>
        refine Or.inl ?_
        simp only [Step.run, due]
        rw [Stack.on_dead (by exact live)]
      | some connection => exact Or.inr (acted live (.expire now due rfl))
  | _ => cases transport

/-- The subscriptions are as they were, and none is told of a frame of its own. -/
structure Stack.Unsent (before after : Stack ω) : Prop where
  subscriptions : after.raw.subscriptions = before.raw.subscriptions
  news : ∃ news, after.outside.signals = before.outside.signals ++ news ∧
    ∀ signal ∈ news, ∀ handle, signal.frameSent? handle = none

section

variable {before middle after stack : Stack ω} {handle : Handle}

theorem Stack.Unsent.of_signals
    (subscriptions : after.raw.subscriptions = before.raw.subscriptions)
    (signals : after.outside.signals = before.outside.signals) : before.Unsent after :=
  ⟨subscriptions, [], by rw [signals, List.append_nil], by simp⟩

theorem Stack.Unsent.trans (early : before.Unsent middle) (late : middle.Unsent after) :
    before.Unsent after := by
  obtain ⟨news, told, silent⟩ := early.news
  obtain ⟨more, told', silent'⟩ := late.news
  refine ⟨late.subscriptions.trans early.subscriptions, news ++ more,
    by rw [told', told, List.append_assoc], ?_⟩
  exact List.forall_mem_append.mpr ⟨silent, silent'⟩

theorem Signal.frameSent?_of_isFrom {signal : Signal} {direction : Direction}
    (own : signal.isFrom handle direction = true) (other : Handle) :
    signal.frameSent? other = none := by
  cases signal with
  | frameSent listener subscription frame => cases own
  | _ => rfl

/-- The stack reacts without telling raw subscriptions of their frames. -/
theorem Step.unsent_run {step : Step ω} (reaction : step.isReaction = true)
    (sound : stack.Sound) (timely : step.Timely stack) : stack.Unsent (step.run stack) := by
  by_cases transport : step.isTransport = true
  · obtain ⟨_, _, _, _, _, around⟩ := Step.around_run transport stack
    have same : (step.run stack).raw.subscriptions = stack.raw.subscriptions := by rw [around]
    rcases sound.transport_cases timely transport with
      quiet | ⟨handle, connection, now, direction, plan, plans, acts⟩
    · exact .of_signals same (by rw [quiet])
    · obtain ⟨news, told, carried⟩ := acts.carries_out
      exact ⟨same, news, told, fun signal member =>
        Signal.frameSent?_of_isFrom (carried.speaks plans.speaks signal member)⟩
  · cases step with
    | world change => exact .of_signals rfl rfl
    | offer index frame =>
      obtain ⟨news, told, offers⟩ :=
        stack.raw.offer_offers index frame stack.raw.order stack.outside
      have offered : ((Step.offer index frame).run stack).outside =
          (stack.raw.offer index frame stack.raw.order stack.outside).2 := by
        simp only [Step.run, Raw.input]
        split <;> simp_all
      refine ⟨?_, news, by rw [offered, told], fun signal member handle => ?_⟩
      · simp only [Step.run, Raw.input]
        split <;> rfl
      · obtain ⟨_, _, _, rfl⟩ := offers signal member
        rfl
    | register | subscribe | sendFrame | acknowledge => cases reaction
    | _ => exact absurd rfl transport

theorem Stack.Orderly.unsent {steps : List (Step ω)} (orderly : stack.Orderly steps)
    (reactions : ∀ step ∈ steps, step.isReaction = true) : stack.Unsent (stack.through steps) := by
  induction steps generalizing stack with
  | nil => exact .of_signals rfl rfl
  | cons step rest ih =>
    obtain ⟨⟨sound, timely⟩, later⟩ := Stack.Orderly.cons_iff.mp orderly
    obtain ⟨here, others⟩ := List.forall_mem_cons.mp reactions
    exact (Step.unsent_run here sound timely).trans (ih later others)

end

/-- What comes of it that a raw subscription is to send a frame. -/
inductive Stack.SendsFrame (stack : Stack ω) (handle : Handle) (frame : Frame) :
    Except Fault Unit → Stack ω → Prop
  | dead (dead : stack.raw.subscriptions.get? handle = none) :
      SendsFrame stack handle frame (.error .argument) stack
  | busy {subscription : Subscription ω}
      (live : stack.raw.subscriptions.get? handle = some subscription)
      (waits : subscription.pending.isSome = true) :
      SendsFrame stack handle frame (.error .inProgress) stack
  | unconnected {subscription : Subscription ω}
      (live : stack.raw.subscriptions.get? handle = some subscription)
      (idle : subscription.pending = none)
      (unknown : stack.registry.get? subscription.interface = none) :
      SendsFrame stack handle frame (.error .notConnected) stack
  | refused {subscription : Subscription ω} {interface : Interface ω} {reason : Refusal}
      {world : ω} (live : stack.raw.subscriptions.get? handle = some subscription)
      (idle : subscription.pending = none)
      (known : stack.registry.get? subscription.interface = some interface)
      (answer : interface.output frame stack.outside.world = (.error reason, world)) :
      SendsFrame stack handle frame (.error reason.fault) { stack with
        outside := { stack.outside with world }.tell
          (.refused (.raw handle) subscription.interface frame reason) }
  | confirmed {subscription : Subscription ω} {interface : Interface ω} {world : ω}
      (live : stack.raw.subscriptions.get? handle = some subscription)
      (idle : subscription.pending = none)
      (known : stack.registry.get? subscription.interface = some interface)
      (answer : interface.output frame stack.outside.world = (.ok (), world))
      (atOnce : interface.confirmsLater world = false) :
      SendsFrame stack handle frame (.ok ()) { stack with
        outside := ({ stack.outside with world }.tell
          (.handed (.raw handle) subscription.interface frame)).tellAll
            (told subscription.onSent (.frameSent · handle frame)) }
  | handed {subscription : Subscription ω} {interface : Interface ω} {world : ω}
      (live : stack.raw.subscriptions.get? handle = some subscription)
      (idle : subscription.pending = none)
      (known : stack.registry.get? subscription.interface = some interface)
      (answer : interface.output frame stack.outside.world = (.ok (), world))
      (later : interface.confirmsLater world = true) :
      SendsFrame stack handle frame (.ok ()) { stack with
        raw := { stack.raw with subscriptions :=
          stack.raw.subscriptions.set handle { subscription with pending := some frame } }
        outside := { stack.outside with world }.tell
          (.handed (.raw handle) subscription.interface frame) }

/-- What comes of a report that a frame is on the bus. The first subscription that waits for this
frame on this interface is released, and that is all; if none does, the report goes to the
transport. -/
inductive Stack.Reported (stack : Stack ω) (now : Tick) (index : InterfaceIndex) (frame : Frame) :
    Stack ω → Prop
  | released {handle : Handle} {subscription : Subscription ω}
      (live : stack.raw.subscriptions.get? handle = some subscription)
      (own : subscription.interface = index) (waits : subscription.pending = some frame)
      (first : ∀ other found, stack.raw.subscriptions.get? other = some found →
        found.interface = index → found.pending = some frame →
          handle.slot.toNat ≤ other.slot.toNat) :
      Reported stack now index frame { stack with
        raw := { stack.raw with subscriptions :=
          stack.raw.subscriptions.set handle { subscription with pending := none } }
        outside := stack.outside.tellAll
          (told subscription.onSent (.frameSent · handle frame)) }
  | passed {after : Stack ω}
      (none : ∀ other found, stack.raw.subscriptions.get? other = some found →
        found.interface = index → found.pending ≠ some frame)
      (result : after = (stack.sentTransport now index frame).settle now)
      (unsent : stack.Unsent after) : Reported stack now index frame after

section

variable {stack : Stack ω} {handle : Handle} {frame : Frame}

theorem Outside.tellAll_told (outside : Outside ω) (listener : Option Listener)
    (news : Listener → Signal) :
    outside.tellAll (told listener news) =
      match listener with
      | none => outside
      | some name => outside.tell (news name) := by
  cases listener with
  | none => exact outside.tellAll_nil
  | some name => rfl

theorem Stack.sendFrame_sends (stack : Stack ω) (handle : Handle) (frame : Frame) :
    stack.SendsFrame handle frame (stack.sendFrame handle frame).1
      (stack.sendFrame handle frame).2 := by
  unfold Stack.sendFrame Raw.send
  cases live : stack.raw.subscriptions.get? handle with
  | none => exact .dead live
  | some subscription =>
    simp only []
    split
    · rename_i waits
      exact .busy live waits
    · rename_i waits
      have idle : subscription.pending = none := by simpa using waits
      unfold Registry.hand
      cases known : stack.registry.get? subscription.interface with
      | none => exact .unconnected live idle known
      | some interface =>
        simp only []
        rcases answer : interface.output frame stack.outside.world with ⟨reason | _, world⟩
        · exact .refused live idle known answer
        · simp only []
          cases confirms : interface.confirmsLater world with
          | true => exact .handed live idle known answer confirms
          | false =>
            have taken := Stack.SendsFrame.confirmed live idle known answer confirms
            rw [Outside.tellAll_told] at taken
            exact taken

theorem Stack.sent_reported (wellFormed : stack.raw.subscriptions.WellFormed)
    (sound : stack.Sound) (quiet : stack.confirmations = []) (now : Tick) (index : InterfaceIndex)
    (frame : Frame) : stack.Reported now index frame (stack.sent now index frame) := by
  have least (handle : Handle) (subscription : Subscription ω) :=
    @Slots.find?_entries_eq_some_iff _ _ wellFormed
      (fun subscription => subscription.interface = index ∧ subscription.pending = some frame)
      handle subscription
  cases waiting : stack.raw.awaiting? index frame with
  | some found =>
    obtain ⟨handle, subscription⟩ := found
    obtain ⟨live, test, first⟩ := (least handle subscription).mp waiting
    simp only [decide_eq_true_eq] at test first
    -- The table lists the subscriptions by their slots, so the first one found has the least.
    have released : stack.Reported now index frame _ := .released live test.1 test.2
      fun other found here own waits => first other found here ⟨own, waits⟩
    rw [Outside.tellAll_told] at released
    unfold Stack.sent Raw.sent
    rw [waiting]
    exact released
  | none =>
    have silent : ∀ other found, stack.raw.subscriptions.get? other = some found →
        found.interface = index → found.pending ≠ some frame := by
      intro other found live own waits
      have entry := (Slots.mem_entries_iff wellFormed).mpr live
      have apart := List.find?_eq_none.mp waiting _ entry
      simp [own, waits] at apart
    have taken : stack.raw.sent index frame stack.outside =
        (false, stack.raw, stack.outside) := by
      unfold Raw.sent
      rw [waiting]
    have same : (Step.acknowledge index frame).run stack = stack := by
      simp only [Step.run, taken]
    have steps : stack.sentSteps now index frame =
        .acknowledge index frame :: stack.confirming now index frame := by
      simp only [Stack.sentSteps, taken, same, Bool.false_eq_true, if_false]
    have orderly := (Stack.sentSteps_smooth sound quiet now index frame).orderly
    rw [steps, Stack.Orderly.cons_iff, same] at orderly
    have unsent := orderly.2.unsent fun step member =>
      Step.isReaction_of_isTransport (Stack.confirming_transport _ _ _ _ step member)
    have result : stack.sent now index frame =
        (stack.sentTransport now index frame).settle now := by
      unfold Stack.sent
      rw [taken]
    rw [← Stack.confirming_eq, ← result] at unsent
    exact .passed silent result unsent

end

/-- What is outstanding before a call, with what the call sends, is settled in it or outstanding
after it. -/
def Call.Settles (call : Call ω) (stack : Stack ω) (handle : Handle) : Prop :=
  ∃ news settled, (call.run stack).outside.signals = stack.outside.signals ++ news ∧
    stack.outstanding handle ++ call.accepted stack handle =
      settled ++ (call.run stack).outstanding handle ∧
    Fates settled (news.filterMap (·.frameSent? handle)) (call.dropped stack handle)

section

variable {stack after : Stack ω} {handle : Handle} {subscription : Subscription ω}

theorem Stack.outstanding_live (live : stack.raw.subscriptions.get? handle = some subscription) :
    stack.outstanding handle = subscription.pending.toList := by
  unfold Stack.outstanding
  rw [live, Option.bind_some]

theorem Stack.outstanding_of_same
    (same : after.raw.subscriptions.get? handle = stack.raw.subscriptions.get? handle) :
    after.outstanding handle = stack.outstanding handle := by
  unfold Stack.outstanding
  rw [same]

/-- A call that settles nothing, and sends nothing either. -/
theorem Call.Settles.of_nothing {call : Call ω} {news : List Signal}
    (told : (call.run stack).outside.signals = stack.outside.signals ++ news)
    (silent : ∀ signal ∈ news, signal.frameSent? handle = none)
    (same : (call.run stack).outstanding handle = stack.outstanding handle)
    (accepted : call.accepted stack handle = []) (dropped : call.dropped stack handle = []) :
    call.Settles stack handle := by
  refine ⟨news, [], told, by rw [same, accepted, List.append_nil, List.nil_append], ?_⟩
  rw [dropped, List.filterMap_eq_nil_iff.mpr silent]
  exact .done

theorem Call.Settles.of_unsent {call : Call ω} (unsent : stack.Unsent (call.run stack))
    (accepted : call.accepted stack handle = []) (dropped : call.dropped stack handle = []) :
    call.Settles stack handle := by
  obtain ⟨news, told, silent⟩ := unsent.news
  exact .of_nothing told (fun signal member => silent signal member handle)
    (Stack.outstanding_of_same (by rw [unsent.subscriptions])) accepted dropped

/-- A call that only changes which subscriptions there are. -/
theorem Call.Settles.of_quiet {call : Call ω}
    (signals : (call.run stack).outside.signals = stack.outside.signals)
    (same : (call.run stack).outstanding handle = stack.outstanding handle)
    (accepted : call.accepted stack handle = []) (dropped : call.dropped stack handle = []) :
    call.Settles stack handle :=
  .of_nothing (by rw [signals, List.append_nil]) (by simp) same accepted dropped

theorem Signal.filterMap_told_frameSent (listener : Option Listener) (other : Handle)
    (frame : Frame) (some : listener.isSome = true) :
    (told listener (.frameSent · other frame)).filterMap (·.frameSent? handle) =
      if other = handle then [frame] else [] := by
  obtain ⟨name, rfl⟩ := Option.isSome_iff_exists.mp some
  by_cases own : other = handle
  · simp [told, Signal.frameSent?, own]
  · simp [told, Signal.frameSent?, own]

theorem Signal.frameSent?_told {listener : Option Listener} {other : Handle} {frame : Frame}
    (apart : other ≠ handle) :
    ∀ signal ∈ told listener (.frameSent · other frame), signal.frameSent? handle = none := by
  intro signal member
  obtain ⟨name, _, rfl⟩ := mem_told.mp member
  exact if_neg apart

/-- Another subscription is to send a frame. -/
theorem Stack.SendsFrame.elsewhere {other : Handle} {frame : Frame} {result : Except Fault Unit}
    (sends : stack.SendsFrame other frame result after) (apart : other ≠ handle) :
    ∃ news, after.outside.signals = stack.outside.signals ++ news ∧
      (∀ signal ∈ news, signal.frameSent? handle = none) ∧
      after.raw.subscriptions.get? handle = stack.raw.subscriptions.get? handle := by
  cases sends with
  | dead _ | busy _ _ | unconnected _ _ _ => exact ⟨[], (List.append_nil _).symm, by simp, rfl⟩
  | refused _ _ _ _ => exact ⟨_, rfl, by simp [Signal.frameSent?], rfl⟩
  | confirmed _ _ _ _ _ =>
    refine ⟨_, List.append_assoc _ _ _, ?_, rfl⟩
    exact List.forall_mem_cons.mpr ⟨rfl, Signal.frameSent?_told apart⟩
  | handed live _ _ _ _ =>
    refine ⟨_, rfl, by simp [Signal.frameSent?], ?_⟩
    exact Slots.get?_set_of_ne _ live apart.symm

/-- A frame that the interface takes is outstanding until it is confirmed. -/
theorem Stack.SendsFrame.settles {frame : Frame} {result : Except Fault Unit}
    (sends : stack.SendsFrame handle frame result after) (notifies : stack.Notifies handle) :
    ∃ news settled, after.outside.signals = stack.outside.signals ++ news ∧
      stack.outstanding handle ++ (if result.isOk then [frame] else []) =
        settled ++ after.outstanding handle ∧
      Fates settled (news.filterMap (·.frameSent? handle)) [] := by
  cases sends with
  | dead _ | busy _ _ | unconnected _ _ _ =>
    exact ⟨[], [], (List.append_nil _).symm, List.append_nil _, .done⟩
  | refused _ _ _ _ => exact ⟨_, [], rfl, List.append_nil _, .done⟩
  | @confirmed subscription _ _ live idle _ _ _ =>
    obtain ⟨_, here, listens⟩ := notifies
    rw [live] at here
    cases here
    have free : stack.outstanding handle = [] := by rw [Stack.outstanding_live live, idle]; rfl
    refine ⟨_, [frame], List.append_assoc _ _ _, ?_, ?_⟩
    · show stack.outstanding handle ++ [frame] = [frame] ++ stack.outstanding handle
      rw [free]
      rfl
    · rw [List.filterMap_append, Signal.filterMap_told_frameSent _ _ _ listens, if_pos rfl]
      exact .confirmed frame .done
  | @handed subscription _ _ live idle _ _ _ =>
    have free : stack.outstanding handle = [] := by rw [Stack.outstanding_live live, idle]; rfl
    refine ⟨_, [], rfl, ?_, .done⟩
    rw [free, Stack.outstanding_live (Slots.get?_set_self _ live)]
    rfl

/-- The subscription that a report releases is told of its frame, and no other one. -/
theorem Stack.Reported.settles {now : Tick} {index : InterfaceIndex} {frame : Frame}
    (reported : stack.Reported now index frame after) (notifies : stack.Notifies handle) :
    ∃ news settled, after.outside.signals = stack.outside.signals ++ news ∧
      stack.outstanding handle = settled ++ after.outstanding handle ∧
      Fates settled (news.filterMap (·.frameSent? handle)) [] := by
  cases reported with
  | @released other subscription live _ waits _ =>
    by_cases own : other = handle
    · subst own
      obtain ⟨_, here, listens⟩ := notifies
      rw [live] at here
      cases here
      refine ⟨_, [frame], rfl, ?_, ?_⟩
      · rw [Stack.outstanding_live live, waits,
          Stack.outstanding_live (Slots.get?_set_self _ live)]
        rfl
      · rw [Signal.filterMap_told_frameSent _ _ _ listens, if_pos rfl]
        exact .confirmed frame .done
    · refine ⟨_, [], rfl, ?_, ?_⟩
      · exact (Stack.outstanding_of_same (Slots.get?_set_of_ne _ live (Ne.symm own))).symm
      · rw [List.filterMap_eq_nil_iff.mpr (Signal.frameSent?_told own)]
        exact .done
  | passed _ _ unsent =>
    obtain ⟨news, told, silent⟩ := unsent.news
    refine ⟨news, [], told, ?_, ?_⟩
    · exact Stack.outstanding_of_same (by rw [unsent.subscriptions])
    · rw [List.filterMap_eq_nil_iff.mpr fun signal member => silent signal member handle]
      exact .done

/-- A call that makes the stack react leaves the frames of raw subscriptions alone. -/
theorem Call.Settles.of_reactions {call : Call ω} (sound : stack.Sound)
    (quiet : stack.confirmations = [])
    (reactions : ∀ step ∈ call.steps stack, step.isReaction = true)
    (accepted : call.accepted stack handle = []) (dropped : call.dropped stack handle = []) :
    call.Settles stack handle := by
  have unsent := (call.steps_smooth sound quiet).orderly.unsent reactions
  rw [← Call.run_eq] at unsent
  exact .of_unsent unsent accepted dropped

theorem Call.subscribe_settles (ordered : stack.raw.Ordered) (notifies : stack.Notifies handle)
    (index : InterfaceIndex) : (Call.subscribe index).Settles stack handle := by
  obtain ⟨subscription, live, _⟩ := notifies
  have same : ((Call.subscribe index).run stack).raw.subscriptions.get? handle =
      stack.raw.subscriptions.get? handle := by
    simp only [Call.run, Stack.subscribe, Raw.open]
    cases insertion : stack.raw.subscriptions.insert { interface := index } with
    | none => rfl
    | some inserted =>
      obtain ⟨fresh, subscriptions⟩ := inserted
      have dead := Slots.get?_of_insert ordered.slots insertion
      have apart : handle ≠ fresh := by
        rintro rfl
        rw [dead] at live
        cases live
      exact (Slots.get?_insert ordered.slots insertion handle).trans (if_neg apart)
  exact .of_quiet (by rw [Call.run_eq]; rfl) (Stack.outstanding_of_same same) rfl rfl

theorem Call.updateSubscription_settles (other : Handle)
    {change : Subscription ω → Subscription ω}
    (proper : (Call.updateSubscription other change).Proper) :
    (Call.updateSubscription other change).Settles stack handle := by
  have same : ((Call.updateSubscription other change).run stack).outstanding handle =
      stack.outstanding handle := by
    simp only [Call.run, Stack.updateSubscription, Raw.update]
    cases live : stack.raw.subscriptions.get? other with
    | none => rfl
    | some subscription =>
      have found := Slots.get?_set (change subscription) live handle
      by_cases own : handle = other
      · subst own
        rw [Stack.outstanding_live live, ← (proper subscription).2]
        exact Stack.outstanding_live (found.trans (if_pos rfl))
      · exact Stack.outstanding_of_same (found.trans (if_neg own))
  exact .of_quiet (by rw [Call.run_eq]; rfl) same rfl rfl

/-- A subscription that is bound anew has nothing outstanding. -/
theorem Call.rebind_settles (notifies : stack.Notifies handle) (other : Handle)
    (index : InterfaceIndex) : (Call.rebind other index).Settles stack handle := by
  by_cases own : other = handle
  · subst own
    obtain ⟨subscription, live, _⟩ := notifies
    have dropped : (Call.rebind other index).dropped stack other = stack.outstanding other :=
      if_pos rfl
    have bound : ((Call.rebind other index).run stack).raw.subscriptions.get? other =
        some { subscription with interface := index, pending := none } := by
      simp only [Call.run, Stack.rebind, Raw.bind, Raw.update, live]
      exact Slots.get?_set_self _ live
    refine ⟨[], stack.outstanding other, by rw [Call.run_eq, List.append_nil]; rfl, ?_, ?_⟩
    · rw [Stack.outstanding_live bound]
      rfl
    · rw [dropped]
      exact .lost _
  · have same : ((Call.rebind other index).run stack).raw.subscriptions.get? handle =
        stack.raw.subscriptions.get? handle := by
      simp only [Call.run, Stack.rebind, Raw.bind, Raw.update]
      cases live : stack.raw.subscriptions.get? other with
      | none => rfl
      | some subscription => exact Slots.get?_set_of_ne _ live (Ne.symm own)
    exact .of_quiet (by rw [Call.run_eq]; rfl) (Stack.outstanding_of_same same) rfl (if_neg own)

theorem Call.unsubscribe_settles {other : Handle}
    (notifies : ((Call.unsubscribe other).run stack).Notifies handle) :
    (Call.unsubscribe other).Settles stack handle := by
  have same : ((Call.unsubscribe other).run stack).raw.subscriptions.get? handle =
      stack.raw.subscriptions.get? handle := by
    obtain ⟨subscription, live, _⟩ := notifies
    simp only [Call.run, Stack.unsubscribe, Raw.close] at live ⊢
    cases erasure : stack.raw.subscriptions.erase other with
    | none => rfl
    | some erased =>
      have found := Slots.get?_erase erasure handle
      rw [erasure] at live
      have still : erased.2.get? handle = some subscription := live
      by_cases own : handle = other
      · rw [found, if_pos own] at still
        cases still
      · exact found.trans (if_neg own)
  exact .of_quiet (by rw [Call.run_eq]; rfl) (Stack.outstanding_of_same same) rfl rfl

/-- Every call settles what it has to, as long as the subscription is told of its frames. -/
theorem Call.settles (call : Call ω) (proper : call.Proper) (sound : stack.Sound)
    (quiet : stack.confirmations = []) (ordered : stack.raw.Ordered)
    (before : stack.Notifies handle) (after : (call.run stack).Notifies handle) :
    call.Settles stack handle := by
  cases call with
  | subscribe index => exact Call.subscribe_settles ordered before index
  | updateSubscription other change => exact Call.updateSubscription_settles other proper
  | rebind other index => exact Call.rebind_settles before other index
  | unsubscribe other => exact Call.unsubscribe_settles after
  | addInterface | removeInterface =>
    exact .of_quiet (by rw [Call.run_eq]; rfl) (by rw [Call.run_eq]; rfl) rfl rfl
  | sendFrame other frame =>
    have sends := stack.sendFrame_sends other frame
    by_cases own : other = handle
    · subst own
      have accepted : (Call.sendFrame other frame).accepted stack other =
          if (stack.sendFrame other frame).1.isOk then [frame] else [] := by
        simp only [Call.accepted, true_and]
      unfold Call.Settles
      rw [accepted]
      exact sends.settles before
    · obtain ⟨news, told, silent, same⟩ := sends.elsewhere own
      exact .of_nothing told silent (Stack.outstanding_of_same same)
        (if_neg fun both => own both.1) rfl
  | sent now index frame =>
    obtain ⟨news, settled, told, same, fates⟩ :=
      (Stack.sent_reported ordered.slots sound quiet now index frame).settles before
    exact ⟨news, settled, told, (List.append_nil _).trans same, fates⟩
  | send | input | checkAlarms | process =>
    exact .of_reactions sound quiet (Call.steps_react rfl stack) rfl rfl
  | world | openConnection | bind | listen | close =>
    exact .of_reactions sound quiet (List.forall_mem_singleton.mpr rfl) rfl rfl

end

/-- The frames that this subscription sends in these calls. -/
def Stack.accepted (stack : Stack ω) (handle : Handle) (calls : List (Call ω)) : List Frame :=
  stack.tally (fun call stack => call.accepted stack handle) calls

/-- The frames of this subscription that are forgotten in these calls. -/
def Stack.dropped (stack : Stack ω) (handle : Handle) (calls : List (Call ω)) : List Frame :=
  stack.tally (fun call stack => call.dropped stack handle) calls

/-- Whatever a subscription has sent, it is told of, or it is dropped or still outstanding; and it is
told of its frames in the order in which it has sent them. -/
structure Stack.Balances (stack : Stack ω) (handle : Handle) (calls : List (Call ω))
    (news : List Signal) : Prop where
  told : (stack.calls calls).outside.signals = stack.outside.signals ++ news
  count : (stack.outstanding handle).length + (stack.accepted handle calls).length =
    (news.filterMap (·.frameSent? handle)).length + (stack.dropped handle calls).length +
      ((stack.calls calls).outstanding handle).length
  order : (news.filterMap (·.frameSent? handle)).Sublist
    (stack.outstanding handle ++ stack.accepted handle calls)

/-- What a stack does with the frames of its raw subscriptions. -/
structure Stack.KeepsAccounts (stack : Stack ω) : Prop where
  /-- Nothing is handed over while a frame is outstanding. -/
  busy : ∀ handle subscription frame, stack.raw.subscriptions.get? handle = some subscription →
    subscription.pending.isSome = true →
      stack.sendFrame handle frame = (.error .inProgress, stack)
  /-- A frame that is not sent changes nothing, but an interface may have refused it. -/
  failed : ∀ handle frame fault after, stack.sendFrame handle frame = (.error fault, after) →
    after = stack ∨ ∃ subscription interface reason world,
      stack.raw.subscriptions.get? handle = some subscription ∧
        stack.registry.get? subscription.interface = some interface ∧
        interface.output frame stack.outside.world = (.error reason, world) ∧
        after = { stack with
          outside := { stack.outside with world }.tell
            (.refused (.raw handle) subscription.interface frame reason) }
  reported : ∀ now index frame, stack.Reported now index frame (stack.sent now index frame)
  balances : ∀ handle calls, (∀ call ∈ calls, call.Proper) →
    (∀ early, early <+: calls → (stack.calls early).Notifies handle) →
      ∃ news, stack.Balances handle calls news

/-- What each call settles adds up. -/
theorem Stack.calls_settle {stack : Stack ω} {handle : Handle} (calls : List (Call ω))
    (proper : ∀ call ∈ calls, call.Proper)
    (notifies : ∀ early, early <+: calls → (stack.calls early).Notifies handle)
    (sound : stack.Sound) (quiet : stack.confirmations = []) (ordered : stack.raw.Ordered) :
    ∃ news settled, (stack.calls calls).outside.signals = stack.outside.signals ++ news ∧
      stack.outstanding handle ++ stack.accepted handle calls =
        settled ++ (stack.calls calls).outstanding handle ∧
      Fates settled (news.filterMap (·.frameSent? handle)) (stack.dropped handle calls) := by
  induction calls generalizing stack with
  | nil => exact ⟨[], [], (List.append_nil _).symm, List.append_nil _, .done⟩
  | cons call rest ih =>
    obtain ⟨here, later⟩ := List.forall_mem_cons.mp proper
    have smooth := call.steps_smooth sound quiet
    have next (early : List (Call ω)) (first : early <+: rest) :
        ((call.run stack).calls early).Notifies handle :=
      notifies (call :: early) (List.cons_prefix_cons.mpr ⟨rfl, first⟩)
    obtain ⟨news, settled, told, same, fates⟩ := call.settles here sound quiet ordered
      (notifies [] List.nil_prefix) (next [] List.nil_prefix)
    obtain ⟨more, others, told', same', fates'⟩ := ih later next
      (by rw [Call.run_eq]; exact smooth.sound) (by rw [Call.run_eq]; exact smooth.quiet)
      (Stack.history_ordered [call] ordered).2
    refine ⟨news ++ more, settled ++ others, ?_, ?_, ?_⟩
    · exact told'.trans (by rw [told, List.append_assoc])
    · calc stack.outstanding handle ++ stack.accepted handle (call :: rest)
        _ = (stack.outstanding handle ++ call.accepted stack handle) ++
            (call.run stack).accepted handle rest := (List.append_assoc _ _ _).symm
        _ = settled ++ ((call.run stack).outstanding handle ++
            (call.run stack).accepted handle rest) := by rw [same, List.append_assoc]
        _ = settled ++ others ++ ((call.run stack).calls rest).outstanding handle := by
          rw [same', List.append_assoc]
    · rw [List.filterMap_append]
      exact fates.append fates'

/-- As long as a raw subscription has a callback for its frames, each frame that an interface takes
from it is confirmed once, dropped when it is bound anew, or outstanding; and it is told of its frames
in the order in which it has sent them. While one is outstanding no other one is handed over, and one
that is not sent changes nothing. A report releases one subscription at most, and then the transport
does not see it. -/
theorem sent_frames_are_accounted_for {settings : Settings} {world : ω} {fresh : Stack ω}
    (made : Stack.new settings world = .ok fresh) (calls : List (Call ω)) :
    (fresh.calls calls).KeepsAccounts := by
  obtain ⟨sound, quiet⟩ := Stack.calls_sound made calls
  have ordered := (Stack.history_ordered calls (Stack.new_ordered made)).2
  generalize fresh.calls calls = stack at sound quiet ordered ⊢
  refine ⟨fun handle subscription frame live waits => ?_, fun handle frame fault after run => ?_,
    Stack.sent_reported ordered.slots sound quiet, fun handle later proper notifies => ?_⟩
  · unfold Stack.sendFrame Raw.send
    rw [live]
    simp only [waits, if_true]
  · have sends := stack.sendFrame_sends handle frame
    rw [run] at sends
    cases sends with
    | dead _ | busy _ _ | unconnected _ _ _ => exact Or.inl rfl
    | refused live _ known answer => exact Or.inr ⟨_, _, _, _, live, known, answer, rfl⟩
  · obtain ⟨news, settled, told, same, fates⟩ :=
      stack.calls_settle later proper notifies sound quiet ordered
    refine ⟨news, told, ?_, ?_⟩
    · rw [← List.length_append, same, List.length_append, fates.length]
    · rw [same]
      exact fates.sublist.trans (List.sublist_append_left _ _)

/-- A raw subscription to an interface that confirms later is told of its frames. -/
def sampleSender : List (Call Unit) :=
  [.addInterface .deferring, .subscribe ⟨0⟩,
    .updateSubscription sampleHandle ({ · with onSent := some (.application 0) })]

/-- Two frames are given to it, but the second one only is taken once the first one is confirmed. It
is bound anew before that one is confirmed too, and sends a third one. -/
def sampleTraffic : List (Call Unit) :=
  [.sendFrame sampleHandle sampleBroadcast, .sendFrame sampleHandle (sampleFraming.first 9 []).1,
    .sent 1 ⟨0⟩ sampleBroadcast, .sendFrame sampleHandle (sampleFraming.first 9 []).1,
    .rebind sampleHandle ⟨0⟩, .sendFrame sampleHandle sampleBroadcast]

/-- Three frames are taken: one is confirmed, one is dropped and one is outstanding. -/
theorem sample_frames_are_accounted_for :
    let stack := sampleStack.calls sampleSender
    Stack.new {} () = .ok sampleStack ∧
      (∃ news, stack.Balances sampleHandle sampleTraffic news) ∧
      stack.accepted sampleHandle sampleTraffic =
        [sampleBroadcast, (sampleFraming.first 9 []).1, sampleBroadcast] ∧
      stack.dropped sampleHandle sampleTraffic = [(sampleFraming.first 9 []).1] ∧
      (stack.calls sampleTraffic).outside.signals.filterMap (·.frameSent? sampleHandle) =
        [sampleBroadcast] ∧
      (stack.calls sampleTraffic).outstanding sampleHandle = [sampleBroadcast] := by
  intro stack
  have made : Stack.new {} () = .ok sampleStack := rfl
  have accounts := sent_frames_are_accounted_for made sampleSender
  have told : sampleTraffic.inits.all (fun early =>
      ((stack.calls early).raw.subscriptions.get? sampleHandle).any (·.onSent.isSome)) = true := by
    decide +kernel
  refine ⟨made, accounts.balances sampleHandle sampleTraffic ?_ fun early first => ?_,
    by decide +kernel, by decide +kernel, by decide +kernel, by decide +kernel⟩
  · simp [sampleTraffic, Call.Proper]
  · have here := List.all_eq_true.mp told early ((List.mem_inits ..).mpr first)
    exact (Option.any_eq_true ..).mp here

end DiagBus
