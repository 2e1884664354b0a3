import DiagBus.Proofs.Moments

namespace DiagBus

variable {ω : Type}

/-- The address of a live connection, if it has one. -/
def Stack.address? (stack : Stack ω) (handle : Handle) : Option Address :=
  (stack.connections.get? handle).bind (·.address)

/-- The connection sends flexible data-rate frames to an interface that cannot send them on. -/
structure Stack.Strained (stack : Stack ω) (handle : Handle) (address : Address) : Prop where
  bound : stack.address? handle = some address
  flexible : address.flexible = true
  known : stack.registry.contains address.interface = true
  unable : stack.registry.isFlexible address.interface stack.outside.world = false

/-- In this step a connection that was bound before becomes strained: another interface is registered
at its index, or the one that is there loses the capability. -/
structure Moment.Strains (moment : Moment ω) (handle : Handle) (address : Address) : Prop where
  bound : moment.before.address? handle = some address
  before : ¬moment.before.Strained handle address
  after : moment.after.Strained handle address
  cause : (∃ registry, moment.step = .register registry) ∨
    ∃ interface, moment.before.registry.get? address.interface = some interface ∧
      moment.after.registry.get? address.interface = some interface ∧
      interface.isFlexible moment.before.outside.world = true ∧
      interface.isFlexible moment.after.outside.world = false

theorem Encoder.isFlexible_frame (encoder : Encoder) (bytes : List UInt8) :
    (encoder.frame bytes).isFlexible = encoder.flexible := by
  unfold Encoder.frame
  split
  · rename_i flexible
    exact flexible.symm
  · rename_i classic
    exact (Bool.eq_false_of_not_eq_true classic).symm

theorem Encoder.nextFrame?_isFlexible {encoder : Encoder} {flow next : Flow} {frame : Frame}
    (run : encoder.nextFrame? flow = some (frame, next)) :
    frame.isFlexible = encoder.flexible := by
  unfold nextFrame? at run
  obtain ⟨buffer, _, run⟩ := Option.bind_eq_some_iff.mp run
  split at run
  · obtain ⟨single, found, run⟩ := Option.bind_eq_some_iff.mp run
    cases run
    unfold Encoder.single? at found
    split at found
    · cases found
      exact encoder.isFlexible_frame _
    · split at found
      · cases found
        exact encoder.isFlexible_frame _
      · cases found
  · cases run
    exact encoder.isFlexible_frame _
  · obtain ⟨_, _, run⟩ := Option.bind_eq_some_iff.mp run
    cases run
    exact encoder.isFlexible_frame _
  · cases run

/-- A flow hands its frames to the interface of its address, in the format of its address. -/
def Plan.Formatted (plan : Plan) (connection : Connection) : Prop :=
  match plan with
  | .hand _ index frame _ _ => ∃ address, connection.address = some address ∧
      index = address.interface ∧ frame.isFlexible = address.flexible
  | _ => True

section

variable (connection : Connection) (scope : Scope ω)

theorem Connection.next_formatted (flow : Flow) :
    (connection.next scope flow).Formatted connection := by
  unfold Connection.next
  cases bound : connection.address with
  | none => trivial
  | some address =>
    simp only []
    cases run : (address.encoder scope.settings).nextFrame? flow with
    | none => trivial
    | some found => exact ⟨address, bound, rfl, Encoder.nextFrame?_isFlexible run⟩

theorem Connection.answer_formatted (news : List Signal) (flow : Flow) :
    (connection.answer scope news flow).Formatted connection := by
  unfold Connection.answer
  cases bound : connection.address with
  | none => trivial
  | some address => exact ⟨address, bound, rfl, Encoder.isFlexible_frame _ _⟩

theorem Connection.confirmed_formatted (direction : Direction) :
    (connection.confirmed scope direction).Formatted connection := by
  cases direction with
  | output =>
    simp only [Connection.confirmed, Connection.outputConfirmed]
    repeat' split
    all_goals first | trivial | exact connection.next_formatted scope _
  | input =>
    simp only [Connection.confirmed, Connection.inputConfirmed]
    repeat' split
    all_goals trivial

theorem Connection.received_formatted (memory : Memory) (pdu : Pdu) :
    (connection.received scope memory pdu).Formatted connection := by
  cases pdu with
  | single message =>
    simp only [Connection.received, Connection.singleReceived]
    split <;> trivial
  | first length data =>
    simp only [Connection.received, Connection.firstReceived]
    repeat' split
    all_goals first | trivial | exact connection.answer_formatted scope _ _
  | consecutive sequence data =>
    simp only [Connection.received, Connection.consecutiveReceived]
    repeat' split
    all_goals first | trivial | exact connection.answer_formatted scope _ _
  | flowControl status blockSize separation =>
    simp only [Connection.received, Connection.controlReceived]
    repeat' split
    all_goals first | trivial | exact connection.next_formatted scope _

theorem Connection.expired_formatted (alarm : Alarm) :
    (connection.expired scope alarm).Formatted connection := by
  cases alarm with
  | output _ =>
    simp only [Connection.expired]
    split <;> trivial
  | input _ =>
    simp only [Connection.expired]
    split <;> trivial
  | separation _ =>
    simp only [Connection.expired]
    split
    · exact connection.next_formatted scope _
    · trivial

end

/-- A message is sent only to an interface that can send the frames of its connection. -/
theorem Exchange.submitted_formatted (x : Exchange ω) (scope : Scope ω) (message : List UInt8) :
    (x.submitted scope message).Formatted x.connection ∧
      ∀ news index frame flow refusal,
        x.submitted scope message = .hand news index frame flow refusal →
          frame.isFlexible = true → scope.registry.isFlexible index x.outside.world = true := by
  unfold Exchange.submitted
  cases accepted : x.accept scope message with
  | error fault => exact ⟨trivial, by simp⟩
  | ok address =>
    obtain ⟨_, bound, _, able, _⟩ := Exchange.accept_eq_ok_iff.mp accepted
    simp only []
    split
    · exact ⟨trivial, by simp⟩
    · cases run : (address.encoder scope.settings).nextFrame?
        (Exchange.outputFlow scope address ⟨message⟩) with
      | none => exact ⟨trivial, by simp⟩
      | some found =>
        have format := Encoder.nextFrame?_isFlexible run
        refine ⟨⟨address, bound, rfl, format⟩, fun news index frame flow refusal same flexible => ?_⟩
        cases same
        exact able (format.symm.trans flexible)

theorem Stack.Plans.formatted {stack : Stack ω} {handle : Handle} {connection : Connection}
    {step : Step ω} {now : Tick} {direction : Direction} {plan : Plan}
    (plans : stack.Plans handle connection step now direction plan) :
    plan.Formatted connection := by
  cases plans with
  | submit _ message => exact (Exchange.submitted_formatted _ _ message).1
  | arrive _ pdu => exact connection.received_formatted _ _ pdu
  | confirm _ direction => exact connection.confirmed_formatted _ direction
  | settle _ _ => exact connection.confirmed_formatted _ _
  | expire _ _ _ => exact connection.expired_formatted _ _

theorem Signal.offered?_of_tells {signal : Signal} {handle : Handle} {direction : Direction}
    (tells : signal.tells handle direction = true) (other : Handle) (flow : Direction) :
    signal.offered? other flow = none := by
  unfold Signal.tells at tells
  split at tells <;> first | rfl | cases tells

/-- Without an interface at its index a plan offers no frame. -/
theorem Stack.Acts.unheard {before after : Stack ω} {now : Tick} {handle : Handle}
    {connection : Connection} {direction : Direction} {news : List Signal} {index : InterfaceIndex}
    {frame : Frame} {flow : Flow} {refusal : Fault → List Signal}
    (acts : before.Acts now handle connection direction (.hand news index frame flow refusal) after)
    (unknown : before.registry.get? index = none) :
    ∃ fault, after.outside.signals = before.outside.signals ++ (news ++ refusal fault) := by
  obtain ⟨_, alarms, x, follows, rfl⟩ := acts
  have absent (outside : Outside ω) :
      before.registry.hand (.flow handle direction) index frame outside =
        (.error .notConnected, outside) :=
    Registry.hand_eq_error_iff.mpr (Or.inl ⟨unknown, rfl, rfl⟩)
  cases follows with
  | handed taken _ => cases (absent _).symm.trans taken
  | @refused _ _ _ _ _ fault _ _ declined turned =>
    cases (absent _).symm.trans declined
    refine ⟨.notConnected, ?_⟩
    rw [← List.append_assoc]
    exact congrArg Outside.signals turned.outside

/-- A frame that a flow offers to an interface is the one of its plan. -/
theorem Moment.offered_plan {moment : Moment ω} (sound : moment.before.Sound)
    (timely : moment.step.Timely moment.before) {handle : Handle} {direction : Direction}
    {index : InterfaceIndex} {frame : Frame} {signal : Signal} (member : signal ∈ moment.news)
    (offered : signal.offered? handle direction = some (index, frame)) :
    moment.before.registry.contains index = true ∧ ∃ connection now news flow refusal,
      moment.before.connections.get? handle = some connection ∧
      moment.before.Plans handle connection moment.step now direction
        (.hand news index frame flow refusal) := by
  have silent (news : List Signal)
      (tells : ∀ signal ∈ news, signal.tells handle direction = true)
      (inside : signal ∈ news) : False := by
    rw [Signal.offered?_of_tells (tells signal inside)] at offered
    cases offered
  suffices found : ∃ connection now news flow refusal,
      moment.before.connections.get? handle = some connection ∧
      moment.before.Plans handle connection moment.step now direction
        (.hand news index frame flow refusal) by
    refine ⟨?_, found⟩
    obtain ⟨connection, now, news, flow, refusal, live, plans⟩ := found
    by_contra unknown
    obtain ⟨fault, told⟩ := (sound.acts_of_plans timely live plans).unheard
      (Option.not_isSome_iff_eq_none.mp unknown)
    rw [Moment.news_eq told] at member
    rcases List.mem_append.mp member with early | late
    · exact silent _ plans.speaks.1 early
    · exact silent _ (plans.speaks.2 fault) late
  rcases moment.flow_cases sound timely handle direction with passes |
    ⟨connection, now, plan, live, plans, carried⟩
  · rw [(Signal.offered?_of_not_isOf (passes.silent signal member)).2] at offered
    cases offered
  have speaks := plans.speaks
  generalize moment.news = told at carried member
  generalize moment.after = after at carried
  cases carried with
  | stay => exact (silent _ speaks member).elim
  | wait => cases member
  | rest => exact (silent _ speaks member).elim
  | @handed news _ _ flow refusal =>
    rcases List.mem_append.mp member with early | last
    · exact (silent _ speaks.1 early).elim
    · rw [List.mem_singleton.mp last] at offered
      simp only [Signal.offered?, Signal.handed?, and_self, if_true, Option.some.injEq,
        Prod.mk.injEq] at offered
      obtain ⟨rfl, rfl⟩ := offered
      exact ⟨connection, now, news, flow, refusal, live, plans⟩
  | @refused news attempt _ _ flow refusal _ fault _ attempted _ =>
    rcases List.mem_append.mp member with early | last
    · rcases List.mem_append.mp early with first | tried
      · exact (silent _ speaks.1 first).elim
      · rcases attempted with nothing | ⟨reason, once⟩
        · rw [nothing] at tried
          cases tried
        · rw [once] at tried
          rw [List.mem_singleton.mp tried] at offered
          simp only [Signal.offered?, and_self, if_true, Option.some.injEq,
            Prod.mk.injEq] at offered
          obtain ⟨rfl, rfl⟩ := offered
          exact ⟨connection, now, news, flow, refusal, live, plans⟩
    · exact (silent _ (speaks.2 fault) last).elim

theorem Stack.Turns.address? {before after : Stack ω} {step : Step ω} (sound : before.Sound)
    (turns : before.Turns step after) {handle : Handle} {address : Address}
    (bound : after.address? handle = some address) :
    before.address? handle = some address ∨ step = .bind handle address := by
  unfold Stack.address? at bound ⊢
  cases turns with
  | apart apart _ =>
    rw [apart.connections] at bound
    exact Or.inl bound
  | opened insertion =>
    simp only [Slots.get?_insert sound.slots insertion] at bound
    split at bound
    · cases bound
    · exact Or.inl bound
  | @bound name other connection live _ =>
    simp only [Slots.get?_set _ live] at bound
    split at bound
    · rename_i same
      cases bound
      exact Or.inr (by rw [same])
    · exact Or.inl bound
  | listened live =>
    simp only [Slots.get?_set _ live] at bound
    split at bound
    · rename_i same
      rw [same, live]
      exact Or.inl bound
    · exact Or.inl bound
  | closed erasure =>
    simp only [Slots.get?_erase erasure] at bound
    split at bound
    · cases bound
    · exact Or.inl bound
  | @acted _ _ name connection direction _ _ _ acts =>
    have live := acts.live
    obtain ⟨_, _, carried⟩ := acts.carries_out
    obtain ⟨others, flow, here⟩ := carried.get? live
    left
    by_cases same : handle = name
    · rw [same, here, Option.bind_some, connection.address_setFlow] at bound
      rw [same, live]
      exact bound
    · rw [others handle same] at bound
      exact bound
  | lapsed _ _ => exact Or.inl bound

/-- An address for flexible data-rate frames is refused if the interface cannot send them. -/
theorem Stack.bind_unstrained {stack after : Stack ω} {handle : Handle} {address : Address}
    (run : stack.bind handle address = .ok after) (other : Address) :
    ¬after.Strained handle other := by
  unfold Stack.bind at run
  cases live : stack.connections.get? handle with
  | none => simp [live] at run
  | some connection =>
    simp only [live] at run
    split at run
    · cases run
    · split at run
      · cases run
      · rename_i able
        simp only [Stack.updateConnection, live] at run
        cases run
        rintro ⟨bound, flexible, known, unable⟩
        simp only [Stack.address?, Slots.get?_set _ live, if_true, Option.bind_some,
          Option.some.injEq] at bound
        subst bound
        simp [flexible, known, unable] at able

/-- A connection becomes strained only by what happens to the interface at its index. -/
theorem Moment.strains {moment : Moment ω} (sound : moment.before.Sound)
    (timely : moment.step.Timely moment.before) {handle : Handle} {address : Address}
    (strained : moment.after.Strained handle address)
    (before : ¬moment.before.Strained handle address) : moment.Strains handle address := by
  have bound : moment.before.address? handle = some address := by
    rcases (sound.turns timely).address? sound strained.bound with kept | binds
    · exact kept
    · -- a successful binding would have been checked
      have made : moment.after = moment.before.orStay (moment.before.bind handle address) := by
        rw [Moment.after, binds]
        rfl
      cases run : moment.before.bind handle address with
      | ok after =>
        rw [run] at made
        rw [made] at strained
        exact absurd strained (Stack.bind_unstrained run address)
      | error fault =>
        rw [run] at made
        rw [made] at strained
        exact absurd strained before
  refine ⟨bound, before, strained, ?_⟩
  by_cases registers : ∃ registry, moment.step = .register registry
  · exact Or.inl registers
  · have same : moment.after.registry = moment.before.registry :=
      congrArg Prod.snd (Step.surroundings_run (not_exists.mp registers) moment.before)
    obtain ⟨_, flexible, known, unable⟩ := strained
    rw [same] at known unable
    obtain ⟨interface, here⟩ := Option.isSome_iff_exists.mp known
    simp only [Registry.isFlexible, here, Option.any_some] at unable
    have able : interface.isFlexible moment.before.outside.world = true := by
      by_contra missing
      refine before ⟨bound, flexible, known, ?_⟩
      simpa [Registry.isFlexible, here] using missing
    exact Or.inr ⟨interface, here, by rw [same]; exact here, able, unable⟩

/-- A strained connection became so in one earlier step, and is strained ever since. -/
def Stack.Traced (past : List (Moment ω)) (stack : Stack ω) (handle : Handle) : Prop :=
  ∀ address, stack.Strained handle address →
    ∃ earlier straining later, past = earlier ++ straining :: later ∧
      straining.Strains handle address ∧ ∀ other ∈ later, other.after.Strained handle address

theorem Moment.traced {moment : Moment ω} {past : List (Moment ω)} (sound : moment.before.Sound)
    (timely : moment.step.Timely moment.before) {handle : Handle}
    (traced : moment.before.Traced past handle) :
    moment.after.Traced (past ++ [moment]) handle := by
  intro address strained
  by_cases before : moment.before.Strained handle address
  · obtain ⟨earlier, straining, later, rfl, strains, since⟩ := traced address before
    refine ⟨earlier, straining, later ++ [moment], by simp, strains, fun other member => ?_⟩
    rcases List.mem_append.mp member with old | last
    · exact since other old
    · rw [List.mem_singleton.mp last]
      exact strained
  · exact ⟨past, moment, [], rfl, Moment.strains sound timely strained before, by simp⟩

/-- A flow gives an interface a flexible data-rate frame that it cannot send only in the middle of
things, never when a message is taken, and only if another interface came to the index after the
connection was bound to it, or the interface lost the capability since. -/
theorem flexible_frames_are_within_capability {settings : Settings} {world : ω} {stack : Stack ω}
    {calls : List (Call ω)} (made : Stack.new settings world = .ok stack)
    {past rest : List (Moment ω)} {moment : Moment ω}
    (whole : stack.history calls = past ++ moment :: rest) {handle : Handle}
    {direction : Direction} {index : InterfaceIndex} {frame : Frame} {signal : Signal}
    (member : signal ∈ moment.news)
    (offered : signal.offered? handle direction = some (index, frame))
    (flexible : frame.isFlexible = true) :
    moment.before.registry.isFlexible index moment.before.outside.world = true ∨
      (∀ now message, moment.step ≠ .submit now handle message) ∧
        ∃ address earlier straining later, address.interface = index ∧
          past = earlier ++ straining :: later ∧ straining.Strains handle address ∧
          ∀ other ∈ later, other.after.Strained handle address := by
  obtain ⟨sound, timely, traced⟩ := (Stack.new_smooth made calls).orderly.reach whole
    (fun past stack => stack.Traced past handle)
    (fun address strained => by
      obtain ⟨_, _, _, rfl⟩ := Stack.new_eq made
      have unbound := strained.bound
      rw [Stack.address?, show Slots.get? _ handle = none from Slots.get?_ofCapacity _ _] at unbound
      cases unbound)
    fun _ _ sound timely => Moment.traced sound timely
  obtain ⟨known, connection, now, news, flow, refusal, live, plans⟩ :=
    Moment.offered_plan sound timely member offered
  obtain ⟨address, bound, rfl, format⟩ := plans.formatted
  by_cases able : moment.before.registry.isFlexible address.interface
      moment.before.outside.world = true
  · exact Or.inl able
  refine Or.inr ⟨fun now message submits => able ?_, ?_⟩
  · rw [submits] at plans
    generalize plan_eq : Plan.hand news address.interface frame flow refusal = plan at plans
    cases plans with
    | submit _ _ =>
      exact (Exchange.submitted_formatted _ _ message).2 _ _ _ _ _ plan_eq.symm flexible
  · obtain ⟨earlier, straining, later, parts, strains, since⟩ := traced address {
      bound := by rw [Stack.address?, live]; exact bound
      flexible := format.symm.trans flexible
      known
      unable := by simpa using able }
    exact ⟨address, earlier, straining, later, rfl, parts, strains, since⟩

/-- An interface that takes every frame, of either format, and confirms it at once. -/
def Interface.roomy : Interface Unit where
  output _ world := (.ok (), world)
  isFlexible _ := true

def flexibleAddress : Address :=
  { sampleAddress with flexible := true }

/-- In the middle of a message another interface comes to the index. -/
def sampleReplaced : List (Call Unit) :=
  [.addInterface .roomy, .openConnection, .bind sampleHandle flexibleAddress,
    .send 0 sampleHandle (List.replicate 70 7), .removeInterface ⟨0⟩, .addInterface .obliging,
    .input 1 ⟨0⟩ (.classic (.standard 0x7E8) 8 #v[0x30, 0, 0, 0xAA, 0xAA, 0xAA, 0xAA, 0xAA])]

theorem sample_flexible_frames_are_within_capability :
    Stack.new {} () = .ok sampleStack ∧ ∃ past moment rest signal frame,
      sampleStack.history sampleReplaced = past ++ moment :: rest ∧ signal ∈ moment.news ∧
      signal.offered? sampleHandle .output = some (⟨0⟩, frame) ∧ frame.isFlexible = true ∧
      (moment.before.registry.isFlexible ⟨0⟩ moment.before.outside.world = true ∨
        (∀ now message, moment.step ≠ .submit now sampleHandle message) ∧
          ∃ address earlier straining later, address.interface = ⟨0⟩ ∧
            past = earlier ++ straining :: later ∧ straining.Strains sampleHandle address ∧
            ∀ other ∈ later, other.after.Strained sampleHandle address) := by
  have made : Stack.new {} () = .ok sampleStack := rfl
  have inside : 8 < (sampleStack.history sampleReplaced).length := by decide +kernel
  let next := (flexibleAddress.encoder {}).frame (0x21 :: List.replicate 8 7)
  have news : (sampleStack.history sampleReplaced)[8].news =
      [.handed (.flow sampleHandle .output) ⟨0⟩ next] := by
    decide +kernel +revert
  have whole := eq_take_cons_drop (List.getElem?_eq_getElem inside)
  have member : Signal.handed (.flow sampleHandle .output) ⟨0⟩ next ∈
      (sampleStack.history sampleReplaced)[8].news := news ▸ List.mem_singleton_self _
  have offered : (Signal.handed (.flow sampleHandle .output) ⟨0⟩ next).offered? sampleHandle .output =
      some (⟨0⟩, next) := rfl
  have flexible : next.isFlexible = true := Encoder.isFlexible_frame _ _
  exact ⟨made, _, _, _, _, next, whole, member, offered, flexible,
    flexible_frames_are_within_capability made whole member offered flexible⟩

/-- The connection is bound before there is an interface at its index, and the one that comes cannot
send flexible data-rate frames. Then the peer starts a message. -/
def sampleLateInterface : List (Call Unit) :=
  [.openConnection, .bind sampleHandle flexibleAddress, .addInterface .obliging,
    .input 0 ⟨0⟩ (.classic (.standard 0x7E8) 8 #v[0x10, 20, 1, 2, 3, 4, 5, 6])]

/-- A flow hands an interface a flexible data-rate frame that it cannot send. -/
theorem late_interface_is_given_flexible_frame :
    Stack.new {} () = .ok sampleStack ∧ ∃ moment ∈ sampleStack.history sampleLateInterface,
      ∃ signal ∈ moment.news, ∃ frame,
        signal.handed? sampleHandle .input = some (⟨0⟩, frame) ∧ frame.isFlexible = true ∧
        moment.before.registry.contains ⟨0⟩ = true ∧
        moment.before.registry.isFlexible ⟨0⟩ moment.before.outside.world = false := by
  have inside : 4 < (sampleStack.history sampleLateInterface).length := by decide +kernel
  have news : (sampleStack.history sampleLateInterface)[4].news =
      [.handed (.flow sampleHandle .input) ⟨0⟩
        ((flexibleAddress.encoder {}).flowControl .continueToSend 0 0)] := by
    decide +kernel +revert
  have registry : (sampleStack.history sampleLateInterface)[4].before.registry.contains ⟨0⟩ = true ∧
      (sampleStack.history sampleLateInterface)[4].before.registry.isFlexible ⟨0⟩ () = false := by
    decide +kernel +revert
  exact ⟨rfl, _, List.getElem_mem inside, _, news ▸ List.mem_singleton_self _, _, rfl,
    Encoder.isFlexible_frame _ _, registry⟩

end DiagBus
