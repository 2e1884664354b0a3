import DiagBus.Proofs.Confirmations
import DiagBus.Proofs.Promptness

namespace DiagBus

variable {ω : Type}

/-- The confirmation of a frame of a flow, if its interface confirms frames as it takes them. The
interface is asked once it has taken the frame. -/
def Handover.confirmation? (handover : Handover) (registry : Registry ω) (world : ω) :
    Option Confirmation :=
  match handover.origin with
  | .flow connection direction =>
    if (registry.get? handover.index).any (!·.confirmsLater world) then
      some { connection, direction }
    else none
  | .raw _ => none

/-- The confirmations that interfaces give in a step, of frames that flows hand over. Each of them is
to be put into the queue. -/
def Moment.given (moment : Moment ω) : List Confirmation :=
  moment.handovers.filterMap (·.confirmation? moment.before.registry moment.after.outside.world)

/-- What a step takes out of the queue. -/
def Moment.handled (moment : Moment ω) : List Confirmation :=
  match moment.step with
  | .settle _ => moment.before.confirmations.take 1
  | _ => []

/-- What a step leaves in the queue of what stood there. -/
def Moment.kept (moment : Moment ω) : List Confirmation :=
  match moment.step with
  | .settle _ => moment.before.confirmations.drop 1
  | _ => moment.before.confirmations

/-- The queue in the course of a step: before it, without what the step takes out, and with each
confirmation that is put in when its frame is taken. -/
def Moment.queues (moment : Moment ω) : List (List Confirmation) :=
  moment.before.confirmations :: moment.given.inits.map (moment.kept ++ ·)

/-- No confirmation is lost in a step. -/
structure Moment.Relays (moment : Moment ω) : Prop where
  /-- As long as a confirmation stands in the queue, nothing happens but that it is taken out. -/
  first : (∀ now, moment.step ≠ .settle now) → moment.before.confirmations = []
  brief : ∀ queue ∈ moment.queues, queue.length ≤ 1
  /-- A confirmation that is put in finds room. -/
  room : ∀ earlier confirmation, earlier ++ [confirmation] <+: moment.given →
    (moment.kept ++ earlier).length < 2 * moment.before.settings.connections
  stored : moment.after.confirmations = moment.kept ++ moment.given
  /-- A confirmation that is taken out is of a frame that a live connection waits for. -/
  awaited : ∀ confirmation ∈ moment.handled, ∃ connection,
    moment.before.connections.get? confirmation.connection = some connection ∧
      (connection.flow confirmation.direction).unconfirmed = true
  /-- Its flow goes on: if it still waits, then for a frame that it hands over in this step. -/
  answered : ∀ confirmation ∈ moment.handled, ∀ connection,
    moment.after.connections.get? confirmation.connection = some connection →
      (connection.flow confirmation.direction).unconfirmed = true →
        ∃ handover ∈ moment.handovers,
          handover.origin = .flow confirmation.connection confirmation.direction

/-- No confirmation is lost in a call: the queue is empty before and after it, and what is given in
it is taken out in it, in the same order. -/
structure Stack.Relays (stack : Stack ω) (call : Call ω) : Prop where
  before : stack.confirmations = []
  after : (call.run stack).confirmations = []
  steps : ∀ moment ∈ stack.moments (call.steps stack), moment.Relays
  balanced : (stack.moments (call.steps stack)).flatMap Moment.given =
    (stack.moments (call.steps stack)).flatMap Moment.handled

/-- While a confirmation is noted nothing happens but that it is handled. -/
theorem Step.Timely.quiet {step : Step ω} {stack : Stack ω} (timely : step.Timely stack)
    (other : ∀ now, step ≠ .settle now) : stack.confirmations = [] := by
  cases step with
  | settle now => exact absurd rfl (other now)
  | _ => exact timely

theorem Stack.Sound.length_noted {stack : Stack ω} (sound : stack.Sound) :
    stack.confirmations.length ≤ 1 := by
  rcases sound.noted with quiet | ⟨_, _, _, noted, _⟩
  · simp [quiet]
  · simp [noted]

section

variable {moment : Moment ω} {handle : Handle} {connection : Connection} {direction : Direction}
  {now : Tick} {plan : Plan} {confirmation : Confirmation}

/-- A step that carries out a plan notes the confirmation of the frame that it hands over. -/
theorem Stack.Acts.given_eq
    (acts : moment.before.Acts now handle connection direction plan moment.after)
    (speaks : plan.Speaks handle direction) : moment.given = moment.after.confirmations := by
  obtain ⟨_, alarms, x, follows, after⟩ := acts
  have given {news : List Signal}
      (told : x.outside.signals = moment.before.outside.signals ++ news) :
      moment.given = (news.filterMap Signal.handover?).filterMap
        (·.confirmation? moment.before.registry x.outside.world) := by
    rw [show x.outside = moment.after.outside from (congrArg Stack.outside after).symm] at told ⊢
    exact congrArg (List.filterMap _) (Moment.handovers_of_news (Moment.news_eq told))
  rw [show moment.after.confirmations = x.confirmations from congrArg Stack.confirmations after]
  cases follows with
  | @stay news _ same =>
    have told : x.outside.signals = moment.before.outside.signals ++ news := by
      rw [same]
      rfl
    rw [given told, handovers_of_tells speaks, same]
    rfl
  | wait turned =>
    have told : x.outside.signals = moment.before.outside.signals ++ [] := by
      rw [turned.outside, List.append_nil]
      rfl
    rw [given told, turned.confirmations]
    rfl
  | @handed news index frame flow refusal confirmed outside _ taken turned =>
    obtain ⟨interface, world, known, _, rfl, rfl⟩ := Registry.hand_eq_ok_iff.mp taken
    have told : x.outside.signals =
        moment.before.outside.signals ++ (news ++ [.handed (.flow handle direction) index frame]) := by
      rw [turned.outside, ← List.append_assoc]
      rfl
    have known : moment.before.registry.get? index = some interface := known
    rw [given told, List.filterMap_append, handovers_of_tells speaks.1, turned.confirmations,
      turned.outside]
    simp only [List.nil_append, List.filterMap_cons, Signal.handover?, Handover.confirmation?, known,
      Option.any_some]
    cases interface.confirmsLater world <;> rfl
  | @refused news index frame flow refusal fault outside _ declined turned =>
    obtain ⟨_, attempt, signals, attempted⟩ := Registry.hand_error declined
    have told : x.outside.signals =
        moment.before.outside.signals ++ (news ++ attempt ++ refusal fault) := by
      rw [turned.outside]
      simp only [Outside.tellAll, signals, List.append_assoc]
      rfl
    simp only [given told, List.filterMap_append, handovers_of_tells speaks.1,
      handovers_of_tells (speaks.2 fault), turned.confirmations]
    rcases attempted with rfl | ⟨reason, rfl⟩ <;> rfl
  | @rest news _ turned =>
    have told : x.outside.signals = moment.before.outside.signals ++ news := by
      rw [turned.outside]
      rfl
    rw [given told, handovers_of_tells speaks, turned.confirmations]
    rfl

/-- Only flows have confirmations noted. -/
theorem Moment.given_of_raw (told : moment.before.outside.ToldRaw moment.after.outside) :
    moment.given = [] := by
  obtain ⟨news, signals, raw⟩ := told
  refine List.filterMap_eq_nil_iff.mpr fun handover member => ?_
  rw [Moment.handovers_of_news (Moment.news_eq signals)] at member
  obtain ⟨signal, here, same⟩ := List.mem_filterMap.mp member
  have own := raw signal here
  cases signal with
  | handed origin index frame =>
    cases origin with
    | flow name flow => cases own
    | raw subscription =>
      cases same
      rfl
  | _ => cases same

/-- The noted confirmation is taken out before anything is noted. -/
theorem Moment.kept_eq_nil (sound : moment.before.Sound)
    (timely : moment.step.Timely moment.before) : moment.kept = [] := by
  unfold Moment.kept
  split
  · exact List.drop_eq_nil_of_le sound.length_noted
  · rename_i other
    exact timely.quiet other

/-- After a step, the queue holds what interfaces have confirmed in it. -/
theorem Moment.given_eq (sound : moment.before.Sound) (timely : moment.step.Timely moment.before) :
    moment.given = moment.after.confirmations := by
  have turns : moment.before.Turns moment.step moment.after := sound.turns timely
  -- A step that is not for a flow finds the queue empty and leaves it so.
  have unnoted (quiet : moment.before.confirmations = [])
      (same : moment.after.confirmations = moment.before.confirmations)
      (told : moment.before.outside.ToldRaw moment.after.outside) :
      moment.given = moment.after.confirmations := by
    rw [moment.given_of_raw told, same, quiet]
  generalize after_eq : moment.after = after at turns unnoted ⊢
  generalize step_eq : moment.step = step at turns timely
  cases turns with
  | apart apart elsewhere =>
    refine unnoted ?_ apart.confirmations apart.outside
    rcases sound.noted with quiet | ⟨handle, direction, connection, noted, live, _⟩
    · exact quiet
    · refine timely.quiet ?_
      rintro now rfl
      exact elsewhere _ _ _ _ _ live (.settle now noted)
  | opened _ => exact unnoted timely rfl (.refl _)
  | bound _ _ => exact unnoted timely rfl (.refl _)
  | listened _ => exact unnoted timely rfl (.refl _)
  | closed _ => exact unnoted timely rfl (.refl _)
  | acted plans acts =>
    subst after_eq
    exact acts.given_eq plans.speaks
  | lapsed _ _ => exact unnoted timely rfl (.refl _)

/-- The plan of a receiving flow agrees with whether it awaits a confirmation. -/
theorem Connection.inputConfirmed_agrees
    (answering : connection.input.unconfirmed = true → connection.input.phase = .controlOut) :
    connection.inputConfirmed.Agrees handle connection.input.unconfirmed
      connection.input.unconfirmed := by
  unfold Connection.inputConfirmed
  cases unconfirmed : connection.input.unconfirmed with
  | false => rfl
  | true =>
    simp only [Bool.not_true, Bool.false_eq_true, if_false, answering unconfirmed]
    split
    · exact fun _ _ _ => rfl
    · rfl

/-- A flow that awaits a confirmation goes on with it. -/
theorem Stack.Sound.confirmed_agrees {stack : Stack ω} (sound : stack.Sound)
    (live : stack.connections.get? handle = some connection) (now : Tick) (direction : Direction)
    (awaits : (connection.flow direction).unconfirmed = true) :
    (connection.confirmed (stack.scope now handle) direction).Agrees handle true true := by
  cases direction with
  | output =>
    rcases (sound.flows handle connection live).output with free | ⟨_, _, _, _, underway⟩
    · rw [show (connection.flow .output) = {} from free] at awaits
      cases awaits
    · rw [← show connection.output.unconfirmed = true from awaits]
      exact Connection.outputConfirmed_agrees _ underway.stage
  | input =>
    rw [← show connection.input.unconfirmed = true from awaits]
    exact Connection.inputConfirmed_agrees (sound.ready live now stack.alarms).input

/-- What is taken out is of a frame that a live connection waits for. -/
theorem Moment.awaits_of_handled (sound : moment.before.Sound)
    (taken : confirmation ∈ moment.handled) :
    ∃ now connection, moment.step = .settle now ∧ moment.before.confirmations = [confirmation] ∧
      moment.before.connections.get? confirmation.connection = some connection ∧
        (connection.flow confirmation.direction).unconfirmed = true := by
  unfold Moment.handled at taken
  cases step : moment.step with
  | settle now =>
    simp only [step] at taken
    obtain ⟨only, connection, live, awaits⟩ := sound.only_noted (List.mem_of_mem_take taken)
    exact ⟨now, connection, rfl, only, live, awaits⟩
  | _ => simp [step] at taken

/-- The flow of a confirmation that is taken out goes on: if it waits again, then for a frame that
it has just handed over. -/
theorem Moment.hands_of_handled (sound : moment.before.Sound) (taken : confirmation ∈ moment.handled)
    (here : moment.after.connections.get? confirmation.connection = some connection)
    (still : (connection.flow confirmation.direction).unconfirmed = true) :
    ∃ handover ∈ moment.handovers,
      handover.origin = .flow confirmation.connection confirmation.direction := by
  obtain ⟨now, earlier, step, noted, live, awaits⟩ := moment.awaits_of_handled sound taken
  have agrees := sound.confirmed_agrees live now confirmation.direction awaits
  have acts := sound.settle_acts noted live now
  rw [← step] at acts
  obtain ⟨news, told, carried⟩ := acts.carries_out
  have waits {flow : Flow} {confirmed : Bool} (replaced : moment.before.Replaced
      confirmation.connection earlier confirmation.direction flow confirmed moment.after) :
      flow.unconfirmed = true := by
    rw [replaced.get? live] at here
    cases here
    rwa [Connection.flow_setFlow] at still
  rw [Moment.handovers_of_news (Moment.news_eq told)]
  generalize earlier.confirmed _ _ = plan at agrees carried
  cases carried with
  | stay _ _ _ => cases agrees
  | wait replaced => cases agrees.symm.trans (waits replaced)
  | handed _ => exact ⟨_, List.mem_filterMap.mpr ⟨_, List.mem_append_right _ (.head _), rfl⟩, rfl⟩
  | refused _ replaced _ _ => cases waits replaced
  | rest replaced => cases waits replaced

/-- No step that finds a sound queue loses a confirmation. -/
theorem Moment.relays (sound : moment.before.Sound) (timely : moment.step.Timely moment.before) :
    moment.Relays := by
  have given := moment.given_eq sound timely
  have kept := moment.kept_eq_nil sound timely
  have once : moment.given.length ≤ 1 := by
    rw [given]
    exact (sound.step timely).length_noted
  refine ⟨timely.quiet, ?_, ?_, ?_, ?_, ?_⟩
  · intro queue member
    rcases List.mem_cons.mp member with rfl | inside
    · exact sound.length_noted
    · obtain ⟨early, part, rfl⟩ := List.mem_map.mp inside
      rw [kept, List.nil_append]
      exact ((List.mem_inits _ _).mp part).length_le.trans once
  · intro early confirmation part
    have fewer := part.length_le
    rw [List.length_append, List.length_singleton] at fewer
    have positive := sound.positive
    rw [kept, List.nil_append]
    omega
  · rw [kept, given, List.nil_append]
  · intro confirmation taken
    obtain ⟨_, connection, _, _, live, awaits⟩ := moment.awaits_of_handled sound taken
    exact ⟨connection, live, awaits⟩
  · exact fun confirmation taken connection => moment.hands_of_handled sound taken

end

/-- What stood in the queue and what was put in is what was taken out and what is left. -/
theorem Moment.Relays.balanced {moment : Moment ω} (relays : moment.Relays) :
    moment.before.confirmations ++ moment.given = moment.handled ++ moment.after.confirmations := by
  have parts : moment.before.confirmations = moment.handled ++ moment.kept := by
    unfold Moment.handled Moment.kept
    cases moment.step with
    | settle now => exact (List.take_append_drop 1 _).symm
    | _ => rfl
  rw [parts, relays.stored, List.append_assoc]

/-- The same over any number of steps. -/
theorem Stack.Orderly.balanced {stack : Stack ω} {steps : List (Step ω)}
    (orderly : stack.Orderly steps) :
    stack.confirmations ++ (stack.moments steps).flatMap Moment.given =
      (stack.moments steps).flatMap Moment.handled ++ (stack.through steps).confirmations := by
  induction steps generalizing stack with
  | nil => exact List.append_nil _
  | cons step rest ih =>
    obtain ⟨⟨sound, timely⟩, later⟩ := Stack.Orderly.cons_iff.mp orderly
    let moment : Moment ω := ⟨stack, step⟩
    have here := (moment.relays sound timely).balanced
    calc stack.confirmations ++ (moment.given ++ (moment.after.moments rest).flatMap Moment.given)
        = moment.handled ++
            (moment.after.confirmations ++ (moment.after.moments rest).flatMap Moment.given) := by
          rw [← List.append_assoc, show stack.confirmations ++ moment.given = _ from here,
            List.append_assoc]
      _ = moment.handled ++ ((moment.after.moments rest).flatMap Moment.handled ++
            (moment.after.through rest).confirmations) := congrArg (moment.handled ++ ·) (ih later)
      _ = _ := (List.append_assoc ..).symm

/-- In every call on every stack that calls lead to, each confirmation that an interface gives at
once finds an empty queue, is the next thing to be handled, and lets the flow that awaits it go
on. -/
theorem confirmations_are_relayed {settings : Settings} {world : ω} {start : Stack ω}
    (made : Stack.new settings world = .ok start) (calls : List (Call ω)) (call : Call ω) :
    (start.calls calls).Relays call := by
  obtain ⟨sound, quiet⟩ := Stack.calls_sound made calls
  have smooth := call.steps_smooth sound quiet
  refine ⟨quiet, ?_, fun moment member => ?_, ?_⟩
  · rw [Call.run_eq]
    exact smooth.quiet
  · obtain ⟨sound, timely⟩ := smooth.orderly moment member
    exact moment.relays sound timely
  · have balanced := smooth.orderly.balanced
    rwa [quiet, smooth.quiet, List.nil_append, List.append_nil] at balanced

/-- Three consecutive frames are sent in one call. The confirmation of each one is handled before the
next one is sent, and the last one ends the transfer. -/
theorem sample_confirmations_are_relayed :
    Stack.new {} () = .ok sampleStack ∧
      (sampleStack.calls sampleBurst).Relays (.input 6 ⟨0⟩ sampleClearance) ∧
      ((sampleStack.calls sampleBurst).moments
        ((Call.input 6 ⟨0⟩ sampleClearance).steps (sampleStack.calls sampleBurst))).flatMap
          Moment.handled = List.replicate 3 ⟨sampleHandle, .output⟩ := by
  have made : Stack.new {} () = .ok sampleStack := rfl
  have relays := confirmations_are_relayed made sampleBurst (.input 6 ⟨0⟩ sampleClearance)
  exact ⟨made, relays, relays.balanced.symm.trans (by decide +kernel)⟩

end DiagBus
