import DiagBus.Proofs.Soundness

namespace DiagBus

variable {ω : Type}

/-- How many more confirmations may follow on the one that is noted. -/
def Stack.unsettled (stack : Stack ω) : Nat :=
  match stack.confirmations with
  | [] => 0
  | ⟨handle, .output⟩ :: _ => 1 + (stack.connections.get? handle).elim 0 (·.output.remaining)
  | ⟨_, .input⟩ :: _ => 1

theorem Connection.Sound.remaining_le {settings : Settings} {connection : Connection}
    (sound : connection.Sound settings) : connection.output.remaining ≤ connection.held := by
  rcases sound.output with free | ⟨address, message, emitted, _, underway⟩
  · rw [free]
    exact Nat.zero_le _
  · have held : connection.output.held = message.length := by
      unfold Flow.held
      rw [underway.sent.buffer]
      rfl
    have bound := underway.sent.remaining
    unfold Connection.held
    omega

/-- Every noted confirmation is settled: a message has more bytes than frames. -/
theorem Stack.Sound.unsettled_le {stack : Stack ω} (sound : stack.Sound) :
    stack.unsettled ≤ stack.confirmations.length + stack.memory.used := by
  unfold Stack.unsettled
  rcases sound.noted with quiet | ⟨handle, direction, connection, noted, live, _⟩
  · rw [quiet]
    exact Nat.zero_le _
  · have share := Slots.weigh_le_total Connection.held live
    have bound := (sound.flows handle connection live).remaining_le
    have used := sound.memory
    rw [noted]
    cases direction with
    | output =>
      simp only [live, Option.elim_some, List.length_cons, List.length_nil]
      omega
    | input =>
      simp only [List.length_cons, List.length_nil]
      omega

theorem Connection.inputConfirmed_ne_hand (connection : Connection) (news : List Signal)
    (index : InterfaceIndex) (frame : Frame) (flow : Flow) (refusal : Fault → List Signal) :
    connection.inputConfirmed ≠ .hand news index frame flow refusal := by
  unfold Connection.inputConfirmed
  split
  · simp
  · simp only []
    split
    · split <;> simp
    · simp

theorem Stack.Sound.settle_lt {stack : Stack ω} (sound : stack.Sound) (now : Tick)
    (noted : stack.confirmations ≠ []) :
    ((Step.settle now).run stack).unsettled < stack.unsettled := by
  rcases sound.noted with quiet | ⟨handle, direction, connection, named, live, _⟩
  · exact absurd quiet noted
  have flows := sound.flows handle connection live
  obtain ⟨_, alarms, x, follows, after⟩ := sound.settle_acts named live now
  have unsettled_of_quiet (quiet : x.confirmations = []) :
      (stack.restore handle x).unsettled = 0 := by
    unfold Stack.unsettled
    rw [show (stack.restore handle x).confirmations = [] from quiet]
  have some : 0 < stack.unsettled := by
    unfold Stack.unsettled
    rw [named]
    cases direction <;> simp only [] <;> omega
  rw [after]
  generalize plan_eq : connection.confirmed (stack.scope now handle) direction = plan at follows
  cases follows with
  | stay same =>
    rw [unsettled_of_quiet (by rw [same])]
    exact some
  | wait turned =>
    rw [unsettled_of_quiet turned.confirmations]
    exact some
  | @handed news index frame flow refusal confirmed outside _ taken turned =>
    cases direction with
    | input => exact absurd plan_eq (connection.inputConfirmed_ne_hand _ _ _ _ _)
    | output =>
      rcases flows.output with free | ⟨address, message, emitted, bound, underway⟩
      · rw [Connection.confirmed, (Connection.output_stays _ free).1] at plan_eq
        cases plan_eq
      · have sends : connection.Sends (stack.scope now handle) address message emitted
            (connection.outputConfirmed (stack.scope now handle)) :=
          Connection.outputConfirmed_sends bound underway
        rw [Connection.confirmed] at plan_eq
        rw [plan_eq] at sends
        cases sends with
        | hand _ shrinks =>
          cases confirmed with
          | false =>
            rw [unsettled_of_quiet turned.confirmations]
            exact some
          | true =>
            unfold Stack.unsettled
            rw [show (stack.restore handle x).confirmations = [⟨handle, .output⟩] from
              turned.confirmations, named]
            simp only [live, Option.elim_some, Stack.restore, Slots.get?_set _ live, if_true]
            rw [turned.connection]
            show 1 + flow.remaining < _
            omega
  | refused _ turned =>
    rw [unsettled_of_quiet turned.confirmations]
    exact some
  | rest turned =>
    rw [unsettled_of_quiet turned.confirmations]
    exact some

/-- Every step finds a sound stack, and no confirmation that should have been handled before it. -/
def Stack.Orderly (stack : Stack ω) (steps : List (Step ω)) : Prop :=
  ∀ moment ∈ stack.moments steps, moment.before.Sound ∧ moment.step.Timely moment.before

/-- Steps that follow on each other as calls have them: no confirmation is left at the end. -/
structure Stack.Smooth (stack : Stack ω) (steps : List (Step ω)) : Prop where
  orderly : stack.Orderly steps
  sound : (stack.through steps).Sound
  quiet : (stack.through steps).confirmations = []

theorem Stack.Smooth.nil {stack : Stack ω} (sound : stack.Sound)
    (quiet : stack.confirmations = []) : stack.Smooth [] :=
  ⟨by simp [Stack.Orderly, Stack.moments], sound, quiet⟩

theorem Stack.Smooth.append {stack : Stack ω} {first second : List (Step ω)}
    (early : stack.Smooth first) (late : (stack.through first).Smooth second) :
    stack.Smooth (first ++ second) := by
  refine ⟨?_, ?_, ?_⟩
  · intro moment member
    rw [Stack.moments_append] at member
    rcases List.mem_append.mp member with before | after
    · exact early.orderly moment before
    · exact late.orderly moment after
  · rw [Stack.through_append]
    exact late.sound
  · rw [Stack.through_append]
    exact late.quiet

theorem Stack.Smooth.cons {stack : Stack ω} {step : Step ω} {rest : List (Step ω)}
    (sound : stack.Sound) (timely : step.Timely stack) (late : (step.run stack).Smooth rest) :
    stack.Smooth (step :: rest) := by
  refine ⟨?_, late.sound, late.quiet⟩
  intro moment member
  rcases List.mem_cons.mp member with rfl | later
  · exact ⟨sound, timely⟩
  · exact late.orderly moment later

theorem Stack.settlingWithin_smooth (now : Tick) {fuel : Nat} {stack : Stack ω}
    (sound : stack.Sound) (enough : stack.unsettled ≤ fuel) :
    stack.Smooth (settlingWithin now fuel stack) := by
  induction fuel generalizing stack with
  | zero =>
    refine .nil sound ?_
    by_contra noted
    have fewer := sound.settle_lt now noted
    omega
  | succ fuel ih =>
    unfold settlingWithin
    by_cases quiet : stack.confirmations = []
    · rw [if_pos quiet]
      exact .nil sound quiet
    · rw [if_neg quiet]
      have fewer := sound.settle_lt now quiet
      exact .cons sound trivial (ih (sound.step trivial) (by omega))

/-- No confirmation outlives the call that brought it about. -/
theorem Stack.settling_smooth {stack : Stack ω} (sound : stack.Sound) (now : Tick) :
    stack.Smooth (stack.settling now) :=
  settlingWithin_smooth now sound sound.unsettled_le

theorem Stack.settled_smooth {stack : Stack ω} (sound : stack.Sound) (now : Tick) {step : Step ω}
    (timely : step.Timely stack) : stack.Smooth (stack.settled now step) :=
  .cons sound timely (settling_smooth (sound.step timely) now)

theorem Stack.Turns.quiet {before after : Stack ω} {step : Step ω} (turns : before.Turns step after)
    (plain : step.isPlain = true) : after.confirmations = before.confirmations := by
  cases turns with
  | apart apart _ => exact apart.confirmations
  | opened _ => rfl
  | bound _ _ => rfl
  | listened _ => rfl
  | closed _ => rfl
  | acted plans _ =>
    rw [plans.not_plain] at plain
    cases plain
  | lapsed _ _ => cases plain

theorem Stack.Sound.plain_step {stack : Stack ω} (sound : stack.Sound)
    (quiet : stack.confirmations = []) {step : Step ω} (plain : step.isPlain = true) :
    step.Timely stack ∧ (step.run stack).Sound ∧ (step.run stack).confirmations = [] := by
  have timely : step.Timely stack := by
    cases step with
    | settle now => cases plain
    | _ => exact quiet
  exact ⟨timely, sound.step timely, ((sound.turns timely).quiet plain).trans quiet⟩

theorem Stack.plain_smooth {stack : Stack ω} (sound : stack.Sound)
    (quiet : stack.confirmations = []) {step : Step ω} (plain : step.isPlain = true) :
    stack.Smooth [step] := by
  obtain ⟨timely, after, still⟩ := sound.plain_step quiet plain
  exact .cons sound timely (.nil after still)

theorem Stack.inputSteps_smooth {stack : Stack ω} (sound : stack.Sound)
    (quiet : stack.confirmations = []) (now : Tick) (index : InterfaceIndex) (frame : Frame) :
    stack.Smooth (stack.inputSteps now index frame) := by
  have offer : (Step.offer index frame : Step ω).isPlain = true := rfl
  obtain ⟨timely, after, still⟩ := sound.plain_step quiet offer
  unfold inputSteps
  refine .cons sound timely ?_
  split
  · exact .nil after still
  · unfold arriving
    split
    · exact settled_smooth after now still
    · exact settling_smooth after now

theorem Stack.sentSteps_smooth {stack : Stack ω} (sound : stack.Sound)
    (quiet : stack.confirmations = []) (now : Tick) (index : InterfaceIndex) (frame : Frame) :
    stack.Smooth (stack.sentSteps now index frame) := by
  have acknowledge : (Step.acknowledge index frame : Step ω).isPlain = true := rfl
  obtain ⟨timely, after, still⟩ := sound.plain_step quiet acknowledge
  unfold sentSteps
  refine .cons sound timely ?_
  split
  · exact .nil after still
  · unfold confirming
    simp only []
    split
    · exact settled_smooth after now still
    · exact settling_smooth after now

theorem Stack.alarmSteps_smooth (now : Tick) (fuel : Nat) {stack : Stack ω} (sound : stack.Sound)
    (quiet : stack.confirmations = []) : stack.Smooth (alarmSteps now fuel stack) := by
  induction fuel generalizing stack with
  | zero => exact .nil sound quiet
  | succ fuel ih =>
    unfold alarmSteps
    split
    · exact .nil sound quiet
    · have first := settled_smooth sound now (show (Step.expire now).Timely stack from quiet)
      exact first.append (ih first.sound first.quiet)

theorem Stack.pollSteps_smooth (now : Tick) (index : InterfaceIndex) (fuel : Nat) {stack : Stack ω}
    (sound : stack.Sound) (quiet : stack.confirmations = []) :
    stack.Smooth (pollSteps now index fuel stack) := by
  induction fuel generalizing stack with
  | zero => exact .nil sound quiet
  | succ fuel ih =>
    unfold pollSteps
    split
    · exact .nil sound quiet
    · simp only []
      split
      · exact plain_smooth sound quiet rfl
      · obtain ⟨timely, after, still⟩ := sound.plain_step quiet
          (show (Step.world _ : Step ω).isPlain = true from rfl)
        have input := inputSteps_smooth after still now index
        exact .cons sound timely ((input _).append (ih (input _).sound (input _).quiet))

theorem Stack.pollingSteps_smooth (now : Tick) (indexes : List InterfaceIndex) {stack : Stack ω}
    (sound : stack.Sound) (quiet : stack.confirmations = []) :
    stack.Smooth (pollingSteps now indexes stack) := by
  induction indexes generalizing stack with
  | nil => exact .nil sound quiet
  | cons index rest ih =>
    have first := pollSteps_smooth now index patience sound quiet
    exact first.append (ih first.sound first.quiet)

theorem Call.steps_smooth (call : Call ω) {stack : Stack ω} (sound : stack.Sound)
    (quiet : stack.confirmations = []) : stack.Smooth (call.steps stack) := by
  cases call with
  | send now handle message => exact Stack.settled_smooth sound now quiet
  | input now index frame => exact Stack.inputSteps_smooth sound quiet now index frame
  | sent now index frame => exact Stack.sentSteps_smooth sound quiet now index frame
  | checkAlarms now => exact Stack.alarmSteps_smooth now _ sound quiet
  | process now =>
    have polled := Stack.pollingSteps_smooth now stack.registry.indexes sound quiet
    exact polled.append (Stack.alarmSteps_smooth now _ polled.sound polled.quiet)
  | _ => exact Stack.plain_smooth sound quiet rfl

theorem Stack.steps_smooth (calls : List (Call ω)) {stack : Stack ω} (sound : stack.Sound)
    (quiet : stack.confirmations = []) : stack.Smooth (stack.steps calls) := by
  induction calls generalizing stack with
  | nil => exact .nil sound quiet
  | cons call rest ih =>
    have first := call.steps_smooth sound quiet
    unfold steps
    refine first.append ?_
    rw [Call.run_eq]
    exact ih first.sound first.quiet

/-- What it takes for a stack to be made, and the stack that is. -/
theorem Stack.new_eq {settings : Settings} {world : ω} {stack : Stack ω}
    (run : Stack.new settings world = .ok stack) :
    0 < settings.connections ∧ settings.connections ≤ 0xFFFF ∧ settings.timers ≤ 0xFFFF ∧
      stack = {
        settings
        registry := .ofCapacity settings.interfaces
        connections := .ofCapacity settings.connections
        memory := { capacity := settings.memory }
        alarms := .ofCapacity settings.timers
        raw := .ofCapacity settings.subscriptions
        outside := { world } } := by
  unfold Stack.new Settings.validate at run
  split at run
  · cases run
  · rename_i some
    split at run
    · cases run
    · rename_i numbered
      cases run
      exact ⟨by omega, by omega, by omega, rfl⟩

/-- A new stack is sound. -/
theorem Stack.new_sound {settings : Settings} {world : ω} {stack : Stack ω}
    (run : Stack.new settings world = .ok stack) :
    stack.Sound ∧ stack.confirmations = [] := by
  obtain ⟨positive, numbered, _, rfl⟩ := Stack.new_eq run
  refine ⟨⟨positive, Slots.ofCapacity_wellFormed (by omega), ?_, ?_, ?_, Or.inl rfl⟩, rfl⟩
  · simp [Slots.capacity, Slots.ofCapacity]
  · simp [Slots.total, Slots.ofCapacity]
  · intro handle connection here
    rw [show (Slots.ofCapacity settings.connections).get? handle = none from
      Slots.get?_ofCapacity _ _] at here
    cases here

/-- Everything that calls do to a new stack, they do in such steps. -/
theorem Stack.new_smooth {settings : Settings} {world : ω} {stack : Stack ω}
    (run : Stack.new settings world = .ok stack) (calls : List (Call ω)) :
    stack.Smooth (stack.steps calls) :=
  Stack.steps_smooth calls (Stack.new_sound run).1 (Stack.new_sound run).2

/-- A stack is sound between two calls. -/
theorem Stack.calls_sound {settings : Settings} {world : ω} {fresh : Stack ω}
    (made : Stack.new settings world = .ok fresh) (calls : List (Call ω)) :
    (fresh.calls calls).Sound ∧ (fresh.calls calls).confirmations = [] := by
  have smooth := Stack.new_smooth made calls
  rw [Stack.calls_eq]
  exact ⟨smooth.sound, smooth.quiet⟩

theorem Stack.Orderly.append_iff {stack : Stack ω} {first second : List (Step ω)} :
    stack.Orderly (first ++ second) ↔
      stack.Orderly first ∧ (stack.through first).Orderly second := by
  simp only [Stack.Orderly, Stack.moments_append, List.forall_mem_append]

theorem Stack.Orderly.cons_iff {stack : Stack ω} {step : Step ω} {rest : List (Step ω)} :
    stack.Orderly (step :: rest) ↔
      (stack.Sound ∧ step.Timely stack) ∧ (step.run stack).Orderly rest := by
  simp only [Stack.Orderly, Stack.moments, List.forall_mem_cons]

theorem Stack.settings_through (stack : Stack ω) (steps : List (Step ω)) :
    (stack.through steps).settings = stack.settings := by
  induction steps generalizing stack with
  | nil => rfl
  | cons step rest ih => exact (ih (step.run stack)).trans (step.settings_run stack)

/-- What each step keeps, given all that happened before it, holds after every run. -/
theorem Stack.Orderly.induct {stack : Stack ω} {steps : List (Step ω)}
    (orderly : stack.Orderly steps) (holds : List (Moment ω) → Stack ω → Prop)
    {start : List (Moment ω)} (base : holds start stack)
    (onward : ∀ past, ∀ moment ∈ stack.moments steps, moment.before.Sound →
      moment.step.Timely moment.before → holds past moment.before →
        holds (past ++ [moment]) moment.after) :
    holds (start ++ stack.moments steps) (stack.through steps) := by
  induction steps generalizing stack start with
  | nil =>
    rw [Stack.moments, List.append_nil]
    exact base
  | cons step rest ih =>
    obtain ⟨⟨sound, timely⟩, later⟩ := Stack.Orderly.cons_iff.mp orderly
    have next := onward start ⟨stack, step⟩ List.mem_cons_self sound timely base
    have final := ih later next fun past moment member =>
      onward past moment (List.mem_cons_of_mem _ member)
    rw [List.append_assoc, List.singleton_append] at final
    exact final

/-- What each step keeps where it stands in a run, holds after the run. -/
theorem Stack.Orderly.along {stack : Stack ω} {steps : List (Step ω)}
    (orderly : stack.Orderly steps) (holds : List (Moment ω) → Stack ω → Prop)
    (base : holds [] stack)
    (onward : ∀ past moment rest, stack.moments steps = past ++ moment :: rest →
      moment.before.Sound → moment.step.Timely moment.before → holds past moment.before →
        holds (past ++ [moment]) moment.after) :
    holds (stack.moments steps) (stack.through steps) := by
  induction steps using List.reverseRecOn with
  | nil => exact base
  | append_singleton early step ih =>
    have final : stack.moments (early ++ [step]) =
        stack.moments early ++ [⟨stack.through early, step⟩] := Stack.moments_append ..
    obtain ⟨before, last⟩ := Stack.Orderly.append_iff.mp orderly
    obtain ⟨⟨sound, timely⟩, _⟩ := Stack.Orderly.cons_iff.mp last
    have held := ih before fun past moment rest whole => onward past moment
      (rest ++ [⟨stack.through early, step⟩]) (by rw [final, whole]; simp)
    rw [final, Stack.through_append]
    exact onward _ _ [] final sound timely held

theorem eq_take_cons_drop {β : Type} {items : List β} {i : Nat} {item : β}
    (here : items[i]? = some item) : items = items.take i ++ item :: items.drop (i + 1) := by
  obtain ⟨inside, rfl⟩ := List.getElem?_eq_some_iff.mp here
  rw [← List.drop_eq_getElem_cons inside, List.take_append_drop]

/-- The first moments of a run are those of its first steps. -/
theorem Stack.moments_split {stack : Stack ω} {steps : List (Step ω)}
    {first second : List (Moment ω)} (whole : stack.moments steps = first ++ second) :
    ∃ early late, steps = early ++ late ∧ stack.moments early = first ∧
      (stack.through early).moments late = second := by
  induction first generalizing stack steps with
  | nil => exact ⟨[], steps, rfl, rfl, whole⟩
  | cons moment first ih =>
    cases steps with
    | nil => cases whole
    | cons step rest =>
      obtain ⟨here, later⟩ := List.cons.inj whole
      obtain ⟨early, late, parts, firsts, seconds⟩ := ih later
      refine ⟨step :: early, late, ?_, ?_, seconds⟩
      · rw [parts, List.cons_append]
      · rw [Stack.moments, firsts, here]

theorem Stack.moments_cons {stack : Stack ω} {steps : List (Step ω)} {moment : Moment ω}
    {later : List (Moment ω)} (whole : stack.moments steps = moment :: later) :
    ∃ rest, steps = moment.step :: rest ∧ moment.before = stack ∧
      moment.after.moments rest = later := by
  cases steps with
  | nil => cases whole
  | cons step rest =>
    obtain ⟨rfl, later⟩ := List.cons.inj whole
    exact ⟨rest, rfl, rfl, later⟩

/-- Each step starts where the one before it has led. -/
theorem Stack.moments_next {stack : Stack ω} {steps : List (Step ω)}
    {past rest : List (Moment ω)} {first second : Moment ω}
    (whole : stack.moments steps = past ++ first :: second :: rest) :
    second.before = first.after := by
  obtain ⟨_, _, _, _, lasts⟩ := Stack.moments_split whole
  obtain ⟨_, _, _, onward⟩ := Stack.moments_cons lasts
  obtain ⟨_, _, here, _⟩ := Stack.moments_cons onward
  exact here

/-- What each step keeps holds before every moment of a run. -/
theorem Stack.Orderly.reach {stack : Stack ω} {steps : List (Step ω)}
    (orderly : stack.Orderly steps) {past rest : List (Moment ω)} {moment : Moment ω}
    (whole : stack.moments steps = past ++ moment :: rest)
    (holds : List (Moment ω) → Stack ω → Prop) (base : holds [] stack)
    (onward : ∀ past, ∀ moment : Moment ω, moment.before.Sound →
      moment.step.Timely moment.before → holds past moment.before →
        holds (past ++ [moment]) moment.after) :
    moment.before.Sound ∧ moment.step.Timely moment.before ∧ holds past moment.before := by
  obtain ⟨early, late, parts, firsts, lasts⟩ := Stack.moments_split whole
  obtain ⟨tail, next, here, _⟩ := Stack.moments_cons lasts
  rw [parts, next, Stack.Orderly.append_iff, Stack.Orderly.cons_iff, ← here] at orderly
  obtain ⟨before, ⟨sound, timely⟩, _⟩ := orderly
  have held := before.induct holds base fun past moment _ => onward past moment
  rw [firsts, List.nil_append, ← here] at held
  exact ⟨sound, timely, held⟩

/-- A stretch of a run is the run of its own steps. -/
theorem Stack.Orderly.stretch {stack : Stack ω} {steps : List (Step ω)}
    (orderly : stack.Orderly steps) {past period rest : List (Moment ω)} {opening : Moment ω}
    (whole : stack.moments steps = past ++ opening :: (period ++ rest)) :
    opening.before.settings = stack.settings ∧ opening.before.Sound ∧
      opening.step.Timely opening.before ∧ ∃ middle later, opening.after.Orderly middle ∧
        opening.after.moments middle = period ∧
        (opening.after.through middle).moments later = rest := by
  obtain ⟨early, late, parts, _, onward⟩ := Stack.moments_split whole
  obtain ⟨tail, next, here, onward⟩ := Stack.moments_cons onward
  obtain ⟨middle, final, split, following, last⟩ := Stack.moments_split onward
  rw [parts, next, split, Stack.Orderly.append_iff, Stack.Orderly.cons_iff, ← here,
    Stack.Orderly.append_iff] at orderly
  obtain ⟨_, ⟨sound, timely⟩, inside, _⟩ := orderly
  refine ⟨?_, sound, timely, middle, final, inside, following, last⟩
  rw [here, Stack.settings_through]

/-- An interface that takes every frame and confirms it at once. -/
def Interface.obliging : Interface Unit where
  output _ world := (.ok (), world)

/-- An interface that takes every frame and confirms it later. -/
def Interface.deferring : Interface Unit where
  output _ world := (.ok (), world)
  confirmsLater _ := true

def sampleHandle : Handle := ⟨0, 0⟩

def sampleAddress : Address where
  interface := ⟨0⟩
  transmits := .standard 0x7E0
  receives := .standard 0x7E8

/-- A new stack with the default settings. -/
def sampleStack : Stack Unit where
  settings := {}
  registry := .ofCapacity 2
  connections := .ofCapacity 2
  memory := { capacity := 4096 }
  alarms := .ofCapacity 10
  raw := .ofCapacity 2
  outside := { world := () }

/-- A connection is opened on an obliging interface, and somebody listens. -/
def sampleCalls : List (Call Unit) :=
  [.addInterface .obliging, .openConnection, .bind sampleHandle sampleAddress,
    .listen sampleHandle (some (.application 0)) (some (.application 1)) (some (.application 2))]

/-- A connection is opened on an interface that confirms later, and somebody listens. -/
def sampleOpening : List (Call Unit) :=
  [.addInterface .deferring, .openConnection, .bind sampleHandle sampleAddress,
    .listen sampleHandle (some (.application 0)) (some (.application 1)) (some (.application 2))]

example : Stack.new {} () = .ok sampleStack := rfl

end DiagBus
