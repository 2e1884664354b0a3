import DiagBus.Proofs.Reassembly
import DiagBus.Proofs.Transmission

namespace DiagBus

variable {ω : Type}

/-- The bytes that a flow holds. A closed connection holds none. -/
def Stack.holding (stack : Stack ω) (handle : Handle) (direction : Direction) : Nat :=
  (stack.connections.get? handle).elim 0 fun connection => (connection.flow direction).held

/-- Whether a flow is in the middle of a transfer. -/
def Stack.busy (stack : Stack ω) (handle : Handle) (direction : Direction) : Bool :=
  (stack.connections.get? handle).any fun connection => !(connection.flow direction).isIdle

/-- A sending flow holds its message as long as it is busy, a receiving flow as long as it collects
one. -/
def Flow.Holds (flow : Flow) : Direction → Prop
  | .output => flow.isIdle = false
  | .input => flow.phase = .consecutiveIn ∨
      flow.phase = .controlOut ∧ flow.status = some .continueToSend

/-- The flow has a buffer just if it holds a message, and one of the message's length. No more than
that is left to go, and an idle flow is as a new one. -/
structure Flow.Accounted (flow : Flow) (direction : Direction) : Prop where
  buffer : flow.buffer.isSome = true ↔ flow.Holds direction
  size : ∀ buffer, flow.buffer = some buffer → buffer.size = flow.total
  remaining : flow.remaining ≤ flow.total
  idle : flow.isIdle = true → flow = {}

def Step.closes (step : Step ω) (handle : Handle) : Bool :=
  match step with
  | .close other => other = handle
  | _ => false

def Direction.other : Direction → Direction
  | .output => .input
  | .input => .output

/-- What a flow becomes that stays or gets busy: it holds as much as before, or what there is room
for if it was idle. -/
def Flow.Affords (old : Flow) (room : Nat) (flow : Flow) : Prop :=
  flow.isIdle = false ∧ if old.isIdle then flow.held ≤ room else flow.held = old.held

theorem Flow.Affords.of_idle {old flow : Flow} {room : Nat} (idle : old.isIdle = true)
    (busy : flow.isIdle = false) (enough : flow.held ≤ room) : old.Affords room flow :=
  ⟨busy, (if_pos idle).mpr enough⟩

theorem Flow.Affords.of_busy {old flow : Flow} {room : Nat} (busy : old.isIdle = false)
    (still : flow.isIdle = false) (same : flow.held = old.held) : old.Affords room flow :=
  ⟨still, (if_neg (by simp [busy])).mpr same⟩

theorem Underway.held {encoder : Encoder} {message : List UInt8} {emitted : List Frame}
    {flow : Flow} (underway : Underway encoder message emitted flow) :
    flow.held = message.length := by
  unfold Flow.held
  rw [underway.sent.buffer]
  rfl

theorem Collecting.held {settings : Settings} {length : Nat} {first : List UInt8}
    {arrived : List (UInt8 × List UInt8)} {flow : Flow}
    (collecting : Collecting settings length first arrived flow) : flow.held = length := by
  obtain ⟨rest, buffer, unfilled⟩ := collecting.buffer
  have received := collecting.received
  unfold Flow.held
  rw [buffer]
  simp only [Option.elim_some, Buffer.size, List.length_append]
  omega

theorem Underway.accounted {encoder : Encoder} {message : List UInt8} {emitted : List Frame}
    {flow : Flow} (underway : Underway encoder message emitted flow) : flow.Accounted .output := by
  have busy := underway.not_idle
  have total := underway.sent.total
  refine ⟨?_, fun buffer here => ?_, ?_, fun idle => ?_⟩
  · rw [underway.sent.buffer]
    exact ⟨fun _ => busy, fun _ => rfl⟩
  · rw [underway.sent.buffer] at here
    cases here
    exact total.symm
  · rw [total]
    exact underway.sent.remaining
  · rw [busy] at idle
    cases idle

theorem Collecting.holds {settings : Settings} {length : Nat} {first : List UInt8}
    {arrived : List (UInt8 × List UInt8)} {flow : Flow}
    (collecting : Collecting settings length first arrived flow) : flow.Holds .input := by
  rcases collecting.stage with ⟨phase, _⟩ | ⟨phase, _⟩
  · exact Or.inr ⟨phase, collecting.status⟩
  · exact Or.inl phase

theorem Collecting.accounted {settings : Settings} {length : Nat} {first : List UInt8}
    {arrived : List (UInt8 × List UInt8)} {flow : Flow}
    (collecting : Collecting settings length first arrived flow) : flow.Accounted .input := by
  have busy := collecting.not_idle
  have total := collecting.total
  have received := collecting.received
  have held := collecting.held
  obtain ⟨_, buffer, _⟩ := collecting.buffer
  refine ⟨?_, fun other here => ?_, by omega, fun idle => ?_⟩
  · rw [buffer]
    exact ⟨fun _ => collecting.holds, fun _ => rfl⟩
  · unfold Flow.held at held
    rw [here] at held
    exact held.trans total.symm
  · rw [busy] at idle
    cases idle

theorem Flow.accounted_idle (direction : Direction) : Flow.Accounted {} direction := by
  refine ⟨?_, by simp, le_rfl, fun _ => rfl⟩
  cases direction <;> simp [Flow.Holds, Flow.isIdle]

theorem Connection.Sound.accounted {settings : Settings} {connection : Connection}
    (sound : connection.Sound settings) (direction : Direction) :
    (connection.flow direction).Accounted direction := by
  cases direction with
  | output =>
    rcases sound.output with free | ⟨_, _, _, _, underway⟩
    · rw [show connection.flow .output = {} from free]
      exact Flow.accounted_idle .output
    · exact underway.accounted
  | input =>
    rcases sound.input with free | ⟨_, _, refusing | ⟨_, _, _, collecting⟩⟩
    · rw [show connection.flow .input = {} from free]
      exact Flow.accounted_idle .input
    · rw [show connection.flow .input = _ from refusing]
      refine ⟨by simp [Flow.Holds, overflowFlow], ?_, le_rfl, ?_⟩
      · simp [overflowFlow]
      · simp [overflowFlow, Flow.isIdle]
    · exact collecting.accounted

section

variable {stack before after : Stack ω} {handle : Handle} {connection : Connection}
  {step : Step ω} {now : Tick} {direction : Direction} {plan : Plan}

/-- A plan that keeps a transfer going keeps its buffer; one that starts a transfer finds room. -/
theorem Stack.Plans.charges (plans : stack.Plans handle connection step now direction plan)
    (sound : connection.Sound stack.settings) :
    plan.Keeps ((connection.flow direction).Affords stack.memory.available) := by
  cases way : direction with
  | output =>
    rcases sound.output with free | ⟨address, message, emitted, bound, underway⟩
    · have idle : (connection.flow .output).isIdle = true := by
        rw [show connection.flow .output = {} from free]
        rfl
      rcases plans.output_stays way free with rfl | ⟨message, rfl⟩
      · trivial
      · cases plans
        rcases (stack.exchange connection).submitted_sends (stack.scope now handle) message with
          stays | ⟨address, frame, flow, _, room, starts, underway⟩
        · rw [stays]
          trivial
        · rw [starts]
          exact .of_idle idle underway.not_idle (underway.held.le.trans room)
    · have busy : (connection.flow .output).isIdle = false := underway.not_idle
      have held : (connection.flow .output).held = message.length := underway.held
      cases plans.sends way bound underway with
      | stay => trivial
      | wait onward => exact .of_busy busy onward.not_idle (onward.held.trans held.symm)
      | hand onward _ => exact .of_busy busy onward.not_idle (onward.held.trans held.symm)
      | fail fault => trivial
      | finish _ _ => trivial
  | input =>
    rcases sound.input with free | ⟨address, bound, refusing | ⟨length, first, arrived, collecting⟩⟩
    · have idle : (connection.flow .input).isIdle = true := by
        rw [show connection.flow .input = {} from free]
        rfl
      rcases plans.input_stays way free with rfl | ⟨message, _, rfl⟩ | ⟨length, data, _, rfl⟩
      · trivial
      · trivial
      · cases bound : connection.address with
        | none =>
          rcases Connection.firstReceived_unbound (stack.scope now handle) bound stack.memory length
              data with stays | ⟨_, _, rests, _⟩
          · rw [stays]
            trivial
          · rw [rests]
            trivial
        | some address =>
          rcases Connection.firstReceived_starts (stack.scope now handle) bound idle stack.memory
              length data with ⟨stays, _⟩ | ⟨_, _, _, flow, starts, started⟩
          · rw [stays]
            trivial
          · rw [starts]
            rcases started with ⟨_, _, rfl⟩ | ⟨room, _, collecting, _⟩
            · exact .of_idle idle rfl (Nat.zero_le _)
            · exact .of_idle idle collecting.not_idle (collecting.held.le.trans room)
    · rcases plans.refuses way refusing with rfl | ⟨_, rfl, _⟩
      · trivial
      · trivial
    · have busy : (connection.flow .input).isIdle = false := collecting.not_idle
      have held : (connection.flow .input).held = length := collecting.held
      cases plans.collects way bound collecting with
      | stay _ => trivial
      | wait onward => exact .of_busy busy onward.not_idle (onward.held.trans held.symm)
      | hand onward => exact .of_busy busy onward.not_idle (onward.held.trans held.symm)
      | fail fault => trivial
      | finish _ _ => trivial

theorem Connection.Sound.held_idle {settings : Settings} (sound : connection.Sound settings)
    (idle : (connection.flow direction).isIdle = true) : (connection.flow direction).held = 0 := by
  rw [sound.idle direction idle]
  rfl

theorem Stack.Sound.held_le_used (sound : stack.Sound)
    (live : stack.connections.get? handle = some connection) (direction : Direction) :
    (connection.flow direction).held ≤ stack.memory.used := by
  have share := Slots.weigh_le_total Connection.held live
  rw [← sound.memory] at share
  unfold Connection.held at share
  cases direction <;> simp only [Connection.flow] <;> omega

theorem Stack.holding_eq (live : stack.connections.get? handle = some connection)
    (direction : Direction) :
    stack.holding handle direction = (connection.flow direction).held := by
  unfold Stack.holding
  rw [live]
  rfl

theorem Stack.busy_eq (live : stack.connections.get? handle = some connection)
    (direction : Direction) :
    stack.busy handle direction = !(connection.flow direction).isIdle := by
  unfold Stack.busy
  rw [live]
  rfl

/-- What a step on a flow does to the budget. -/
inductive Stack.Settles (before after : Stack ω) (handle : Handle) (direction : Direction) : Prop
  | same (memory : after.memory = before.memory)
      (busy : after.busy handle direction = before.busy handle direction)
      (holding : after.holding handle direction = before.holding handle direction)
  | starts (idle : before.busy handle direction = false) (busy : after.busy handle direction = true)
      (room : after.holding handle direction ≤ before.memory.available)
      (memory : after.memory = { before.memory with
        used := before.memory.used + after.holding handle direction })
  | ends (busy : before.busy handle direction = true) (idle : after.busy handle direction = false)
      (memory : after.memory = { before.memory with
        used := before.memory.used - before.holding handle direction })

/-- A flow is replaced by one that holds as much, or by an idle one, or it was idle before. -/
theorem Stack.Replaced.settles {flow : Flow} {noted : Bool} (sound : before.Sound)
    (live : before.connections.get? handle = some connection)
    (replaced : before.Replaced handle connection direction flow noted after)
    (charge : flow = {} ∨ (connection.flow direction).Affords before.memory.available flow) :
    before.Settles after handle direction := by
  have here := replaced.get? live
  have holding : after.holding handle direction = flow.held := by
    rw [Stack.holding_eq here, Connection.flow_setFlow]
  have busy : after.busy handle direction = !flow.isIdle := by
    rw [Stack.busy_eq here, Connection.flow_setFlow]
  have earlier := Stack.holding_eq live direction
  have working := Stack.busy_eq live direction
  have memory := replaced.memory
  have within := sound.held_le_used live direction
  cases idle : (connection.flow direction).isIdle with
  | true =>
    have nothing := (sound.flows handle connection live).held_idle idle
    rw [idle] at working
    rw [nothing, Nat.sub_zero] at memory
    rcases charge with rfl | ⟨on, room⟩
    · exact .same memory (busy.trans working.symm) (holding.trans (nothing.symm.trans earlier.symm))
    · rw [if_pos idle, ← holding] at room
      rw [on] at busy
      rw [← holding] at memory
      exact .starts working busy room memory
  | false =>
    rw [idle] at working
    rcases charge with rfl | ⟨on, same⟩
    · rw [← earlier] at memory
      exact .ends working busy memory
    · rw [if_neg (by simp [idle])] at same
      rw [same, Nat.sub_add_cancel within] at memory
      rw [on] at busy
      exact .same memory (busy.trans working.symm) (holding.trans (same.trans earlier.symm))

theorem Stack.Carried.settles {news : List Signal} (sound : before.Sound)
    (live : before.connections.get? handle = some connection)
    (plans : before.Plans handle connection step now direction plan)
    (carried : before.Carried handle connection direction plan after news) :
    before.Settles after handle direction := by
  have charges := plans.charges (sound.flows handle connection live)
  cases carried with
  | stay connections memory _ =>
    refine .same memory ?_ ?_
    · unfold Stack.busy
      rw [connections]
    · unfold Stack.holding
      rw [connections]
  | wait replaced => exact replaced.settles sound live (Or.inr charges)
  | handed replaced => exact replaced.settles sound live (Or.inr charges)
  | refused _ replaced _ => exact replaced.settles sound live (Or.inl rfl)
  | rest replaced => exact replaced.settles sound live (Or.inl rfl)

/-- Only closing a connection makes its handle dead, and that returns both buffers. -/
theorem Stack.Turns.closed_of_dead (sound : before.Sound) (turns : before.Turns step after)
    (live : before.connections.get? handle = some connection)
    (dead : after.connections.get? handle = none) :
    step.closes handle = true ∧ after.memory = { before.memory with
      used := before.memory.used - connection.output.held - connection.input.held } := by
  have still {other : Handle} {old new : Connection}
      (here : before.connections.get? other = some old)
      (gone : (before.connections.set other new).get? handle = none) : False := by
    obtain ⟨_, kept⟩ := Slots.live_set new here live
    rw [kept] at gone
    cases gone
  cases turns with
  | apart apart _ =>
    rw [apart.connections, live] at dead
    cases dead
  | @opened other connections insertion =>
    rw [show Slots.get? connections handle = _ from
      Slots.get?_insert sound.slots insertion handle] at dead
    by_cases same : handle = other
    · rw [if_pos same] at dead
      cases dead
    · rw [if_neg same, live] at dead
      cases dead
  | bound here _ => exact (still here dead).elim
  | listened here => exact (still here dead).elim
  | @closed other found connections erasure =>
    rw [show Slots.get? connections handle = _ from Slots.get?_erase erasure handle] at dead
    by_cases same : handle = other
    · subst same
      rw [Slots.get?_of_erase erasure] at live
      cases live
      refine ⟨by simp [Step.closes], ?_⟩
      simp only [Flow.release_eq]
    · rw [if_neg same, live] at dead
      cases dead
  | @acted _ _ other _ _ _ _ _ acts =>
    obtain ⟨_, _, carried⟩ := acts.carries_out
    obtain ⟨others, flow, here⟩ := carried.get? acts.live
    by_cases same : handle = other
    · rw [same, here] at dead
      cases dead
    · rw [others handle same, live] at dead
      cases dead
  | lapsed _ _ =>
    rw [show Slots.get? before.connections handle = _ from dead] at live
    cases live

end

/-- The budget of the settings is never exceeded. -/
structure Stack.Budgeted (stack : Stack ω) : Prop where
  capacity : stack.memory.capacity = stack.settings.memory
  used : stack.memory.used ≤ stack.memory.capacity

theorem Stack.Settles.used_le {before after : Stack ω} {handle : Handle} {direction : Direction}
    (settles : before.Settles after handle direction)
    (used : before.memory.used ≤ before.memory.capacity) :
    after.memory.capacity = before.memory.capacity ∧
      after.memory.used ≤ before.memory.capacity := by
  cases settles with
  | same memory _ _ =>
    rw [memory]
    exact ⟨rfl, used⟩
  | starts _ _ room memory =>
    unfold Memory.available at room
    rw [memory]
    exact ⟨rfl, by simp only []; omega⟩
  | ends _ _ memory =>
    rw [memory]
    exact ⟨rfl, (Nat.sub_le _ _).trans used⟩

theorem Stack.Budgeted.step {before : Stack ω} (budgeted : before.Budgeted) (sound : before.Sound)
    {step : Step ω} (timely : step.Timely before) : (step.run before).Budgeted := by
  have settings := step.settings_run before
  suffices kept : (step.run before).memory.capacity = before.memory.capacity ∧
      (step.run before).memory.used ≤ before.memory.capacity by
    refine ⟨?_, kept.2.trans kept.1.ge⟩
    rw [settings, kept.1]
    exact budgeted.capacity
  have turns := sound.turns timely
  generalize step.run before = after at turns
  cases turns with
  | apart apart _ =>
    rw [apart.memory]
    exact ⟨rfl, budgeted.used⟩
  | closed _ =>
    simp only [Flow.release_eq]
    exact ⟨trivial, ((Nat.sub_le _ _).trans (Nat.sub_le _ _)).trans budgeted.used⟩
  | acted plans acts =>
    obtain ⟨_, _, carried⟩ := acts.carries_out
    exact (carried.settles sound acts.live plans).used_le budgeted.used
  | _ => exact ⟨rfl, budgeted.used⟩

section

variable {moment : Moment ω} {handle : Handle} {direction : Direction}

/-- A step that has a plan for a flow closes no connection. -/
theorem Stack.Plans.closes_eq {stack : Stack ω} {connection : Connection} {step : Step ω}
    {now : Tick} {plan : Plan} (plans : stack.Plans handle connection step now direction plan)
    (other : Handle) : step.closes other = false := by
  cases plans <;> rfl

/-- For each flow, a step settles with the budget, or it leaves the flow as it was, or it closes the
connection. -/
theorem Moment.flow_settles (sound : moment.before.Sound)
    (timely : moment.step.Timely moment.before) (handle : Handle) (direction : Direction) :
    moment.before.Settles moment.after handle direction ∧ moment.step.closes handle = false ∨
      moment.after.busy handle direction = moment.before.busy handle direction ∧
        moment.after.holding handle direction = moment.before.holding handle direction ∨
      moment.step.closes handle = true ∧ moment.after.busy handle direction = false ∧
        moment.before.memory.used = moment.after.memory.used +
          moment.before.holding handle direction + moment.before.holding handle direction.other := by
  rcases moment.flow_cases sound timely handle direction with
    passes | ⟨connection, now, plan, live, plans, carried⟩
  · refine Or.inr ?_
    cases now_live : moment.after.connections.get? handle with
    | some found =>
      refine Or.inl ?_
      have later := Stack.holding_eq now_live direction
      have working := Stack.busy_eq now_live direction
      rcases passes.leaves found now_live with ⟨dead, rfl⟩ | ⟨earlier, live, same, _⟩
      · rw [later, working]
        unfold Stack.busy Stack.holding
        rw [dead]
        cases direction <;> exact ⟨rfl, rfl⟩
      · rw [later, working, Stack.holding_eq live, Stack.busy_eq live, same]
        exact ⟨rfl, rfl⟩
    | none =>
      have gone : moment.after.busy handle direction = false ∧
          moment.after.holding handle direction = 0 := by
        unfold Stack.busy Stack.holding
        rw [now_live]
        exact ⟨rfl, rfl⟩
      cases live : moment.before.connections.get? handle with
      | none =>
        refine Or.inl ?_
        rw [gone.1, gone.2]
        unfold Stack.busy Stack.holding
        rw [live]
        exact ⟨rfl, rfl⟩
      | some connection =>
        refine Or.inr ?_
        obtain ⟨closes, memory⟩ := (sound.turns timely).closed_of_dead sound live now_live
        refine ⟨closes, gone.1, ?_⟩
        have share := Slots.weigh_le_total Connection.held live
        rw [← sound.memory] at share
        unfold Connection.held at share
        rw [show moment.after.memory = _ from memory, Stack.holding_eq live, Stack.holding_eq live]
        cases direction <;> simp only [Direction.other, Connection.flow] <;> omega
  · exact Or.inl ⟨carried.settles sound live plans, plans.closes_eq handle⟩

/-- While a transfer goes on it holds the same bytes. -/
theorem Moment.holding_kept (sound : moment.before.Sound)
    (timely : moment.step.Timely moment.before) (before : moment.before.busy handle direction = true)
    (after : moment.after.busy handle direction = true) :
    moment.after.holding handle direction = moment.before.holding handle direction := by
  rcases moment.flow_settles sound timely handle direction with
    ⟨settles, _⟩ | ⟨_, same⟩ | ⟨_, idle, _⟩
  · cases settles with
    | same _ _ holding => exact holding
    | starts idle _ _ _ =>
      rw [idle] at before
      cases before
    | ends _ idle _ =>
      rw [idle] at after
      cases after
  · exact same
  · rw [idle] at after
    cases after

/-- The start of a transfer charges the bytes that it holds from then on. -/
theorem Moment.holding_charged (sound : moment.before.Sound)
    (timely : moment.step.Timely moment.before)
    (before : moment.before.busy handle direction = false)
    (after : moment.after.busy handle direction = true) :
    moment.after.memory.used =
      moment.before.memory.used + moment.after.holding handle direction := by
  rcases moment.flow_settles sound timely handle direction with
    ⟨settles, _⟩ | ⟨busy, _⟩ | ⟨_, idle, _⟩
  · cases settles with
    | same _ busy _ =>
      rw [busy, before] at after
      cases after
    | starts _ _ _ memory => rw [memory]
    | ends busy _ _ =>
      rw [busy] at before
      cases before
  · rw [busy, before] at after
    cases after
  · rw [idle] at after
    cases after

/-- The end of a transfer credits back the bytes that it held. Closing a connection ends two. -/
theorem Moment.holding_credited (sound : moment.before.Sound)
    (timely : moment.step.Timely moment.before)
    (before : moment.before.busy handle direction = true)
    (after : moment.after.busy handle direction = false) :
    moment.before.memory.used = moment.after.memory.used +
      moment.before.holding handle direction +
        if moment.step.closes handle then moment.before.holding handle direction.other else 0 := by
  rcases moment.flow_settles sound timely handle direction with
    ⟨settles, open_⟩ | ⟨busy, _⟩ | ⟨closes, _, memory⟩
  · cases settles with
    | same _ busy _ =>
      rw [busy, before] at after
      cases after
    | starts idle _ _ _ =>
      rw [idle] at before
      cases before
    | ends _ _ memory =>
      have within : moment.before.holding handle direction ≤ moment.before.memory.used := by
        unfold Stack.holding
        cases live : moment.before.connections.get? handle with
        | none => exact Nat.zero_le _
        | some connection => exact sound.held_le_used live direction
      rw [memory, open_]
      simp only [Bool.false_eq_true, if_false, Nat.add_zero]
      omega
  · rw [busy, before] at after
    cases after
  · rw [if_pos closes]
    exact memory

/-- What is busy before each of the next moments is busy now. -/
theorem Stack.busy_of_moments {stack : Stack ω} {steps : List (Step ω)}
    {between later : List (Moment ω)} {closing : Moment ω}
    (whole : stack.moments steps = between ++ closing :: later)
    (busy : ∀ moment ∈ between ++ [closing], moment.before.busy handle direction = true) :
    stack.busy handle direction = true := by
  cases between with
  | nil =>
    obtain ⟨_, _, here, _⟩ := Stack.moments_cons whole
    rw [← here]
    exact busy closing List.mem_cons_self
  | cons moment _ =>
    obtain ⟨_, _, here, _⟩ := Stack.moments_cons whole
    rw [← here]
    exact busy moment List.mem_cons_self

/-- A transfer holds the same bytes from its start to its end. -/
theorem Stack.Orderly.holding_eq {stack : Stack ω} {steps : List (Step ω)}
    (orderly : stack.Orderly steps) {between later : List (Moment ω)} {closing : Moment ω}
    (whole : stack.moments steps = between ++ closing :: later)
    (busy : ∀ moment ∈ between ++ [closing], moment.before.busy handle direction = true) :
    closing.before.holding handle direction = stack.holding handle direction := by
  induction between generalizing stack steps with
  | nil =>
    obtain ⟨_, _, here, _⟩ := Stack.moments_cons whole
    rw [here]
  | cons moment between ih =>
    obtain ⟨rest, rfl, here, onward⟩ := Stack.moments_cons whole
    obtain ⟨⟨sound, timely⟩, later_orderly⟩ := Stack.Orderly.cons_iff.mp orderly
    rw [← here] at sound timely later_orderly
    have further : ∀ other ∈ between ++ [closing], other.before.busy handle direction = true :=
      fun other member => busy other (List.mem_cons_of_mem _ member)
    have kept := moment.holding_kept sound timely (busy moment List.mem_cons_self)
      (Stack.busy_of_moments onward further)
    rw [ih later_orderly onward further, ← here]
    exact kept

end

/-- A new stack has its whole budget. -/
theorem Stack.new_budgeted {settings : Settings} {world : ω} {stack : Stack ω}
    (run : Stack.new settings world = .ok stack) : stack.Budgeted := by
  obtain ⟨_, _, _, rfl⟩ := Stack.new_eq run
  exact ⟨rfl, Nat.zero_le _⟩

/-- After any calls no more than the budget of the settings is in use. -/
theorem Stack.calls_budgeted {settings : Settings} {world : ω} {start : Stack ω}
    (run : Stack.new settings world = .ok start) (calls : List (Call ω)) :
    (start.calls calls).memory.used ≤ settings.memory := by
  have budgeted := @Stack.Orderly.induct _ _ _ (Stack.new_smooth run calls).orderly
    (fun _ stack => stack.Budgeted) [] (Stack.new_budgeted run)
    fun _ _ _ sound timely budgeted => budgeted.step sound timely
  have same := start.settings_through (start.steps calls)
  obtain ⟨_, _, _, rfl⟩ := Stack.new_eq run
  rw [Stack.calls_eq]
  have bound := budgeted.used
  rw [budgeted.capacity, same] at bound
  exact bound

/-- From the moment a transfer starts to the one in which it ends, the budget is charged for what the
transfer holds, and then it gets just that back. -/
theorem Stack.Orderly.credits {stack : Stack ω} {steps : List (Step ω)}
    (orderly : stack.Orderly steps) {handle : Handle} {direction : Direction}
    {earlier between later : List (Moment ω)} {opening closing : Moment ω}
    (whole : stack.moments steps = earlier ++ opening :: (between ++ closing :: later))
    (idle : opening.before.busy handle direction = false)
    (busy : ∀ moment ∈ between ++ [closing], moment.before.busy handle direction = true)
    (ended : closing.after.busy handle direction = false) :
    ∃ charge, opening.after.memory.used = opening.before.memory.used + charge ∧
      closing.before.holding handle direction = charge ∧
      closing.before.memory.used = closing.after.memory.used + charge +
        if closing.step.closes handle then closing.before.holding handle direction.other else 0 := by
  obtain ⟨_, late, rfl, _, lasts⟩ := Stack.moments_split whole
  obtain ⟨rest, rfl, here, onward⟩ := Stack.moments_cons lasts
  obtain ⟨_, tail⟩ := Stack.Orderly.append_iff.mp orderly
  obtain ⟨⟨sound, timely⟩, following⟩ := Stack.Orderly.cons_iff.mp tail
  rw [← here] at sound timely following
  have kept := following.holding_eq onward busy
  have begun := Stack.busy_of_moments onward busy
  have member : closing ∈ opening.after.moments rest := by
    rw [onward]
    exact List.mem_append_right _ List.mem_cons_self
  obtain ⟨closing_sound, closing_timely⟩ := following closing member
  refine ⟨closing.before.holding handle direction, ?_, rfl, ?_⟩
  · rw [kept]
    exact opening.holding_charged sound timely idle begun
  · exact closing.holding_credited closing_sound closing_timely (busy closing (by simp)) ended

/-- A message that is not taken leaves nothing to be settled, and the budget alone. -/
theorem Stack.Sound.refused_submit {stack : Stack ω} (sound : stack.Sound)
    (quiet : stack.confirmations = []) (now : Tick) (handle : Handle) (message : List UInt8)
    (refused : (stack.send now handle message).1 ≠ .ok ()) :
    ((Step.submit now handle message).run stack).memory = stack.memory ∧
      ((Step.submit now handle message).run stack).confirmations = [] := by
  cases live : stack.connections.get? handle with
  | none =>
    rw [Stack.submit_dead live]
    exact ⟨rfl, quiet⟩
  | some connection =>
    have timely : (Step.submit now handle message).Timely stack := quiet
    have acts := sound.acts_of_plans timely live (.submit now message)
    obtain ⟨_, _, carried⟩ := acts.carries_out
    rcases (stack.exchange connection).submitted_sends (stack.scope now handle) message with
      stays | ⟨address, frame, flow, acceptance, _, starts, _⟩
    · rw [stays] at carried
      cases carried with
      | stay _ memory confirmations => exact ⟨memory, confirmations⟩
    · have idle : connection.output.isIdle = true :=
        (Exchange.accept_eq_ok_iff.mp acceptance).2.2.2.2.2
      have free := (sound.flows handle connection live).idle .output idle
      rw [starts] at carried
      cases carried with
      | handed replaced =>
        have here := replaced.get? live
        rcases sound.submit_cases quiet live now message with ⟨taken, _⟩ | ⟨_, _, after, _, _⟩
        · exact absurd taken refused
        · rw [here] at after
          rcases after with same | same
          · have output := congrArg Connection.output (Option.some.inj same)
            rw [show connection.output = {} from free] at output
            cases congrArg Flow.unconfirmed output
          · cases congrArg (·.output.unconfirmed) (Option.some.inj same)
      | refused _ replaced _ =>
        have nothing : (connection.flow .output).held = 0 := by
          rw [free]
          rfl
        have memory := replaced.memory
        rw [nothing] at memory
        exact ⟨memory, replaced.confirmations⟩

/-- After any calls the memory in use is that of the buffers of all flows, and not more than the
budget. Each flow has a buffer just while it holds a message, and one of that message's length. A
transfer that starts charges the budget for its buffer; when it ends, by whatever step, the budget
gets just that back, and closing a connection returns the buffers of both flows. A message that is
not taken charges nothing. With all flows idle no memory is in use. -/
theorem memory_is_conserved {settings : Settings} {world : ω} {start : Stack ω}
    (run : Stack.new settings world = .ok start) (calls : List (Call ω)) :
    (start.calls calls).memory.used =
        ((start.calls calls).connections.entries.map fun entry =>
          entry.2.output.held + entry.2.input.held).sum ∧
      (start.calls calls).memory.used ≤ settings.memory ∧
      (∀ handle connection, (start.calls calls).connections.get? handle = some connection →
        ∀ direction, (connection.flow direction).Accounted direction) ∧
      (∀ handle direction earlier opening between closing later,
        start.history calls = earlier ++ opening :: (between ++ closing :: later) →
          opening.before.busy handle direction = false →
          (∀ moment ∈ between ++ [closing], moment.before.busy handle direction = true) →
          closing.after.busy handle direction = false →
          ∃ charge, opening.after.memory.used = opening.before.memory.used + charge ∧
            closing.before.holding handle direction = charge ∧
            closing.before.memory.used = closing.after.memory.used + charge +
              if closing.step.closes handle then closing.before.holding handle direction.other
              else 0) ∧
      (∀ now handle message, ((start.calls calls).send now handle message).1 ≠ .ok () →
        ((start.calls calls).send now handle message).2.memory = (start.calls calls).memory) ∧
      ((∀ handle direction, (start.calls calls).busy handle direction = false) →
        (start.calls calls).memory.used = 0) := by
  have smooth := Stack.new_smooth run calls
  have sound := smooth.sound
  have quiet := smooth.quiet
  rw [← Stack.calls_eq] at sound quiet
  have sum : (start.calls calls).memory.used =
      ((start.calls calls).connections.entries.map fun entry =>
        entry.2.output.held + entry.2.input.held).sum :=
    sound.memory.trans (Slots.total_eq_entries _ Connection.held)
  refine ⟨sum, Stack.calls_budgeted run calls, fun handle connection live direction =>
    (sound.flows handle connection live).accounted direction, ?_, ?_, fun rest => ?_⟩
  · intro handle direction earlier opening between closing later whole idle busy ended
    exact smooth.orderly.credits whole idle busy ended
  · intro now handle message refused
    obtain ⟨memory, still⟩ := sound.refused_submit quiet now handle message refused
    rw [Stack.send_eq, Stack.settle_quiet still]
    exact memory
  · rw [sum]
    refine List.sum_eq_zero fun share member => ?_
    obtain ⟨⟨handle, connection⟩, entry, rfl⟩ := List.mem_map.mp member
    have live := (Slots.mem_entries_iff sound.slots).mp entry
    have flows := sound.flows handle connection live
    have idle (direction : Direction) : (connection.flow direction).isIdle = true := by
      have nothing := rest handle direction
      rw [Stack.busy_eq live] at nothing
      simpa using nothing
    have output := flows.held_idle (idle .output)
    have input := flows.held_idle (idle .input)
    exact Nat.add_eq_zero_iff.mpr ⟨output, input⟩

/-- The first frame of a message is handed over, and that of another one arrives. -/
def sampleMeanwhile : List (Step Unit) :=
  [.settle 0, .offer ⟨0⟩ sampleStart, .arrive 0 sampleHandle (.first 8 [1, 2, 3, 4, 5, 6]),
    .settle 0]

/-- The connection is closed in the middle of both. -/
def sampleClosing : Moment Unit where
  before := sampleTaking.after.through sampleMeanwhile
  step := .close sampleHandle

/-- The sample connection holds fifteen bytes for the message that it sends and eight for the one that
it receives. Neither of them comes to its end, and then none are in use. -/
theorem sample_memory_is_conserved :
    let between := sampleTaking.after.moments sampleMeanwhile
    sampleTaking.before.busy sampleHandle .output = false ∧
      (∀ moment ∈ between ++ [sampleClosing], moment.before.busy sampleHandle .output = true) ∧
      sampleClosing.after.busy sampleHandle .output = false ∧
      sampleTaking.after.memory.used = sampleTaking.before.memory.used + 15 ∧
      sampleClosing.before.memory.used = sampleClosing.after.memory.used + 15 + 8 ∧
      sampleClosing.before.memory.used ≤ 4096 := by
  intro between
  have made : Stack.new {} () = .ok sampleStack := rfl
  let calls := sampleCalls ++ [.send 0 sampleHandle sampleText] ++ sampleArrivals.take 1
  have history : sampleStack.history (calls ++ [.close sampleHandle]) =
      sampleStack.history sampleCalls ++ sampleTaking :: (between ++ sampleClosing :: []) := rfl
  have idle : sampleTaking.before.busy sampleHandle .output = false := rfl
  have busy : ∀ moment ∈ between ++ [sampleClosing],
      moment.before.busy sampleHandle .output = true := by decide +kernel
  have ended : sampleClosing.after.busy sampleHandle .output = false := rfl
  obtain ⟨_, _, _, credits, _⟩ := memory_is_conserved made (calls ++ [.close sampleHandle])
  obtain ⟨charge, charged, held, credited⟩ :=
    credits sampleHandle .output _ _ _ _ _ history idle busy ended
  have fifteen : charge = 15 := held.symm.trans (by decide +kernel)
  have eight : (if sampleClosing.step.closes sampleHandle then
      sampleClosing.before.holding sampleHandle Direction.output.other else 0) = 8 := by
    decide +kernel
  rw [fifteen] at charged credited
  rw [eight] at credited
  have reached : sampleStack.calls calls = sampleClosing.before := rfl
  have bound := (memory_is_conserved made calls).2.1
  rw [reached] at bound
  exact ⟨idle, busy, ended, charged, credited, bound⟩

end DiagBus
