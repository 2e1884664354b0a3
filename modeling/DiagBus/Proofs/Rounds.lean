import DiagBus.Proofs.Abreast
import DiagBus.Proofs.Bursts
import DiagBus.Proofs.FiringOrder
import DiagBus.Proofs.FlowControl

namespace DiagBus

variable {ω : Type}

/-- What the loop makes of a stack: it handles the first alarm and the confirmations that follow,
and goes on for as long as the first alarm is due. It handles so many of them. -/
inductive Stack.Rings (now : Tick) : Nat → Stack ω → Stack ω → Prop
  | done {stack : Stack ω} (later : stack.alarms.popDue now = none) : Rings now 0 stack stack
  | next {count : Nat} {stack settled after : Stack ω} {alarm : Alarm} {alarms : TimerQueue Alarm}
      (due : stack.alarms.popDue now = some (alarm, alarms))
      (drains : ({ stack with alarms }.on now alarm.connection (·.expire · alarm)).Drains now
        settled)
      (onward : Rings now count settled after) : Rings now (count + 1) stack after

/-- The alarms that are due were handled: at most twice as many as were pending, and the first one
that is left is not due. -/
structure Stack.Exhausts (now : Tick) (before after : Stack ω) : Prop where
  few : ∃ count, count ≤ 2 * before.alarms.size ∧ before.Rings now count after
  later : ∀ deadline, after.nextAlarm = some deadline → now.before deadline = true

/-- How many alarms go off at most when this one does: the frame that goes out after a separation
time is watched by an alarm of its own. -/
def Alarm.toll : Alarm → Nat
  | .separation _ => 2
  | _ => 1

/-- How many alarms can go off, at this reading of the clock, of those that are pending or follow
on them. -/
def toll (now : Tick) (pending : List (Alarm × Tick)) : Nat :=
  (pending.map fun entry => if now.before entry.2 then 0 else entry.1.toll).sum

/-- A flow that waits for its separation time to be over has one to wait for, and a short one. -/
structure Flow.Spaced (flow : Flow) : Prop where
  short : flow.separation.toNat ≤ 127
  waits : flow.phase = .consecutiveOut → flow.unconfirmed = false → flow.separation ≠ 0

/-- No sending flow waits for a separation time that is over at once, or never. -/
def Stack.Spaced (stack : Stack ω) : Prop :=
  ∀ handle, (stack.sending handle).Spaced

theorem Alarm.toll_le (alarm : Alarm) : alarm.toll ≤ 2 := by
  cases alarm <;> simp [Alarm.toll]

section

variable {now : Tick} {pending : List (Alarm × Tick)}

theorem toll_nil (now : Tick) : toll now [] = 0 :=
  rfl

theorem toll_cons (now : Tick) (alarm : Alarm) (deadline : Tick) (pending : List (Alarm × Tick)) :
    toll now ((alarm, deadline) :: pending) =
      (if now.before deadline then 0 else alarm.toll) + toll now pending := by
  simp [toll]

theorem toll_le (now : Tick) (pending : List (Alarm × Tick)) :
    toll now pending ≤ 2 * pending.length := by
  induction pending with
  | nil => exact Nat.le_refl _
  | cons entry rest ih =>
    obtain ⟨alarm, deadline⟩ := entry
    have few := alarm.toll_le
    rw [toll_cons, List.length_cons]
    split <;> omega

/-- The alarms of one flow and those of all others go off independently. -/
theorem TimerQueue.toll_split (queue : TimerQueue Alarm) (now : Tick) (handle : Handle)
    (direction : Direction) : toll now queue.pending =
      toll now (queue.watching handle direction) + toll now (queue.elsewhere handle direction) := by
  unfold toll watching elsewhere
  rw [← List.sum_append, ← List.map_append]
  exact ((List.filter_append_perm _ queue.pending).map _).sum_eq.symm

/-- The toll falls if the only alarm of a flow goes off, and what the flow has pending then stands
for fewer. -/
theorem TimerQueue.toll_lt {queue after : TimerQueue Alarm} {handle : Handle}
    {direction : Direction} {alarm : Alarm} {deadline : Tick}
    (one : queue.watching handle direction = [(alarm, deadline)])
    (due : now.before deadline = false)
    (others : after.elsewhere handle direction = queue.elsewhere handle direction)
    (fewer : toll now (after.watching handle direction) < alarm.toll) :
    toll now after.pending < toll now queue.pending := by
  have before := queue.toll_split now handle direction
  have behind := after.toll_split now handle direction
  rw [one, toll_cons, toll_nil, due, if_neg Bool.false_ne_true] at before
  rw [others] at behind
  omega

/-- A short delay is not over at once. -/
theorem Tick.before_after {delay : Tick} (now : Tick) (short : delay.toNat ≤ 127)
    (some : delay ≠ 0) : now.before (now.after delay) = true := by
  have positive : delay.toNat ≠ 0 := fun none => some (UInt32.toNat_inj.mp none)
  unfold Tick.before Tick.after
  rw [decide_eq_true_eq, gt_iff_lt, UInt32.lt_iff_toNat_lt, UInt32.toNat_sub, UInt32.toNat_add]
  have half : (0x7FFFFFFF : UInt32).toNat = 0x7FFFFFFF := rfl
  have range := now.toNat_lt
  omega

theorem toll_singleton_le {alarm : Alarm} {deadline : Tick}
    (later : alarm.toll = 2 → now.before deadline = true) : toll now [(alarm, deadline)] ≤ 1 := by
  have few := alarm.toll_le
  rw [toll_cons, toll_nil]
  split
  · exact Nat.zero_le _
  · rename_i due
    have plain : alarm.toll ≠ 2 := fun twice => due (later twice)
    omega

/-- The alarm that watches a flow stands for one alarm at most at the time when it is armed. -/
theorem Flow.toll_watched {flow : Flow} {direction : Direction}
    (spaced : direction = .output → flow.Spaced) (settings : Settings) (handle : Handle)
    (now : Tick) : toll now (flow.watched settings handle direction now) ≤ 1 := by
  unfold Flow.watched
  split
  · exact Nat.zero_le _
  refine toll_singleton_le ?_
  cases direction with
  | input => simp [Flow.watch, Alarm.toll]
  | output =>
    unfold Flow.watch
    simp only []
    split
    · simp [Alarm.toll]
    · rename_i confirmed
      split
      · rename_i phase
        have spaced := spaced rfl
        exact fun _ => Tick.before_after now spaced.short
          (spaced.waits phase (by simpa using confirmed))
      · simp [Alarm.toll]

end

section

variable {stack : Stack ω} {handle : Handle} {connection : Connection} {now : Tick}
  {direction : Direction} {plan : Plan}

theorem Flow.Spaced.idle : Flow.Spaced {} :=
  ⟨by decide, by simp⟩

/-- While a frame is unconfirmed no separation time runs. -/
theorem Flow.Spaced.of_short {flow : Flow} (short : flow.separation.toNat ≤ 127) :
    Flow.Spaced { flow with unconfirmed := true } :=
  ⟨short, by simp⟩

theorem Connection.next_spaced (connection : Connection) (scope : Scope ω) {flow : Flow}
    (short : flow.separation.toNat ≤ 127) : (connection.next scope flow).Keeps Flow.Spaced := by
  unfold Connection.next
  split
  · trivial
  · split
    · trivial
    · rename_i run
      obtain ⟨_, _, rfl⟩ := Encoder.nextFrame?_keeps run
      exact .of_short short

theorem Connection.outputConfirmed_spaced (scope : Scope ω) (spaced : connection.output.Spaced) :
    (connection.outputConfirmed scope).Keeps Flow.Spaced := by
  unfold Connection.outputConfirmed
  split
  · trivial
  · simp only []
    split
    · trivial
    · exact ⟨spaced.short, by simp⟩
    · split
      · trivial
      · split
        · exact ⟨spaced.short, by simp⟩
        · split
          · exact connection.next_spaced scope spaced.short
          · rename_i some
            exact ⟨spaced.short, fun _ _ => some⟩
    · trivial

theorem Connection.controlReceived_spaced (scope : Scope ω) (spaced : connection.output.Spaced)
    (status : FlowStatus) (blockSize separation : UInt8) :
    (connection.controlReceived scope status blockSize separation).Keeps Flow.Spaced := by
  unfold Connection.controlReceived
  simp only []
  split
  · trivial
  · rename_i waiting
    split
    · exact connection.next_spaced scope (separationTime_le separation)
    · split
      · trivial
      · exact ⟨spaced.short, fun phase => by simp_all⟩
    · trivial

theorem Connection.expired_spaced (scope : Scope ω) (spaced : connection.output.Spaced)
    {alarm : Alarm} (own : alarm.direction = .output) :
    (connection.expired scope alarm).Keeps Flow.Spaced := by
  unfold Connection.expired
  cases alarm with
  | input _ => cases own
  | output _ =>
    simp only []
    split <;> trivial
  | separation _ =>
    simp only []
    split
    · exact connection.next_spaced scope spaced.short
    · trivial

theorem Exchange.submitted_spaced (x : Exchange ω) (scope : Scope ω) (message : List UInt8) :
    (x.submitted scope message).Keeps Flow.Spaced := by
  unfold Exchange.submitted
  split
  · trivial
  · split
    · trivial
    · split
      · trivial
      · rename_i run
        obtain ⟨_, _, rfl⟩ := Encoder.nextFrame?_keeps run
        exact .of_short (Nat.zero_le _)

/-- A plan lets a sending flow wait for a separation time only if there is one. -/
theorem Stack.Plans.spaced {step : Step ω}
    (plans : stack.Plans handle connection step now direction plan)
    (own : direction = .output) (spaced : connection.output.Spaced) : plan.Keeps Flow.Spaced := by
  cases plans with
  | submit _ message => exact Exchange.submitted_spaced _ _ message
  | arrive _ pdu =>
    cases pdu with
    | flowControl status blockSize separation =>
      exact Connection.controlReceived_spaced _ spaced status blockSize separation
    | _ => cases own
  | confirm _ direction =>
    cases own
    exact Connection.outputConfirmed_spaced _ spaced
  | settle _ _ =>
    cases own
    exact Connection.outputConfirmed_spaced _ spaced
  | expire _ _ _ => exact Connection.expired_spaced _ spaced own

/-- What a plan keeps holds of the flow that carried it out. -/
theorem Plan.Keeps.sending {after : Stack ω} {news : List Signal} {holds : Flow → Prop}
    (keeps : plan.Keeps holds)
    (carried : stack.Carried handle connection .output plan after news)
    (live : stack.connections.get? handle = some connection) (idle : holds {})
    (held : holds connection.output) : holds (after.sending handle) := by
  cases carried with
  | stay connections _ _ =>
    rw [Stack.sending_of_live (by rw [connections]; exact live)]
    exact held
  | wait replaced =>
    rw [replaced.sending live]
    exact keeps
  | handed replaced =>
    rw [replaced.sending live]
    exact keeps
  | refused _ replaced _ _ =>
    rw [replaced.sending live]
    exact idle
  | rest replaced =>
    rw [replaced.sending live]
    exact idle

theorem Stack.Spaced.step (spaced : stack.Spaced) (sound : stack.Sound) {step : Step ω}
    (timely : step.Timely stack) : (step.run stack).Spaced := by
  intro handle
  rcases (⟨stack, step⟩ : Moment ω).flow_cases sound timely handle .output with
    passes | ⟨connection, now, plan, live, plans, carried⟩
  · cases found : (step.run stack).connections.get? handle with
    | none =>
      rw [Stack.sending_of_dead found]
      exact .idle
    | some other =>
      rw [Stack.sending_of_live found]
      rcases passes.leaves other found with ⟨_, rfl⟩ | ⟨earlier, live, flow, _⟩
      · exact .idle
      · rw [show other.output = earlier.output from flow, ← Stack.sending_of_live live]
        exact spaced handle
  · have held : connection.output.Spaced := by
      rw [← Stack.sending_of_live live]
      exact spaced handle
    exact (plans.spaced rfl held).sending carried live .idle held

/-- A plan that a flow carries out leaves it no alarm or one, from which no other one follows at
once. -/
theorem Stack.Plans.rearms_lightly {step : Step ω}
    (plans : stack.Plans handle connection step now direction plan) (kept : stack.Kept)
    (spaced : stack.Spaced) (timely : step.Timely stack)
    (live : stack.connections.get? handle = some connection) :
    (∃ news, plan = .stay news) ∧ (step.run stack).alarms = stack.alarms ∨
      ∃ own, stack.alarms.Rearmed (step.run stack).alarms handle direction own ∧
        toll now own ≤ 1 ∧ ((∃ news, plan = .rest news) → own = []) := by
  obtain ⟨past, overseen⟩ := kept.overseen
  rcases plans.rearms kept.sound timely live (overseen.guarded live now direction) with
    stays | ⟨_, x, result, own, rearmed, given, _⟩
  · exact Or.inl stays
  have stored : (step.run stack).connections.get? handle = some x.connection := by
    rw [result]
    exact Stack.get?_restore live x
  have demanded : toll now (x.demanded (stack.scope now handle) direction) ≤ 1 := by
    unfold Exchange.demanded
    split
    · refine Flow.toll_watched (fun own => ?_) _ _ _
      have after := spaced.step kept.sound timely handle
      rw [Stack.sending_of_live stored] at after
      cases own
      exact after
    · exact Nat.zero_le _
  have same : (step.run stack).alarms = x.alarms := by rw [result]; rfl
  refine Or.inr ⟨own, same ▸ rearmed, ?_, ?_⟩
  · rcases given with rfl | ⟨rfl, _⟩
    · exact demanded
    · exact Nat.zero_le _
  · rintro ⟨news, rfl⟩
    obtain ⟨_, _, carried⟩ := (kept.sound.acts_of_plans timely live plans).carries_out
    cases carried with
    | rest replaced =>
      have idle : x.connection = connection.setFlow {} direction :=
        Option.some.inj (stored.symm.trans (replaced.get? live))
      have nothing : x.demanded (stack.scope now handle) direction = [] :=
        Exchange.demanded_of_idle (by rw [idle, Connection.flow_setFlow]; rfl)
      rcases given with rfl | ⟨rfl, _⟩
      · exact nothing
      · rfl

/-- The alarm that goes off is the only one of its flow, which is busy and was watched by it. -/
theorem Stack.Kept.due {alarm : Alarm} {alarms : TimerQueue Alarm} (kept : stack.Kept)
    (due : stack.alarms.popDue now = some (alarm, alarms)) :
    ∃ connection deadline, stack.connections.get? alarm.connection = some connection ∧
      now.before deadline = false ∧
      stack.alarms.watching alarm.connection alarm.direction = [(alarm, deadline)] ∧
      (connection.flow alarm.direction).isIdle = false ∧
      alarm = ((connection.flow alarm.direction).watch stack.settings alarm.connection
        alarm.direction).1 := by
  obtain ⟨past, overseen⟩ := kept.overseen
  obtain ⟨_, _, deadline, _, pending⟩ := TimerQueue.popDue_linked overseen.linked due
  obtain ⟨connection, live⟩ := overseen.live (alarm, deadline) (by simp [pending])
  obtain ⟨only, idle⟩ := (overseen.flows _ connection live alarm.direction).only
  obtain ⟨same, ⟨deadline, reached, one⟩, _⟩ := only.popDue overseen.linked due
  refine ⟨connection, deadline, live, reached, one, ?_, same⟩
  by_contra resting
  rw [idle (by simpa using resting)] at one
  cases one

/-- While the confirmations of a sending flow are handled, no alarm of another flow changes, and
its own one stays light. -/
theorem Stack.Drains.lightly {after : Stack ω} (drains : stack.Drains now after)
    (kept : stack.Kept) (spaced : stack.Spaced)
    (own : ∀ confirmation ∈ stack.confirmations, confirmation = ⟨handle, .output⟩)
    (light : toll now (stack.alarms.watching handle .output) ≤ 1) :
    after.Kept ∧ after.Spaced ∧ after.confirmations = [] ∧
      after.alarms.elsewhere handle .output = stack.alarms.elsewhere handle .output ∧
      toll now (after.alarms.watching handle .output) ≤ 1 := by
  induction drains with
  | done quiet => exact ⟨kept, spaced, quiet, rfl, light⟩
  | @next stack after confirmation rest noted _ ih =>
    have timely : (Step.settle now).Timely stack := trivial
    have turned : (Step.settle now).run stack = ({ stack with confirmations := rest }.on now
        confirmation.connection (·.confirm · confirmation.direction)) := by
      simp only [Step.run, noted]
    obtain ⟨only, connection, live, _⟩ :=
      kept.sound.only_noted (noted.symm ▸ List.mem_cons_self : confirmation ∈ stack.confirmations)
    rw [only] at noted
    cases noted
    cases own _ (only ▸ List.mem_cons_self)
    have plans := @Stack.Plans.settle ω stack _ connection now _ only
    obtain ⟨_, _, carried⟩ := (kept.sound.acts_of_plans timely live plans).carries_out
    rw [← turned] at ih
    obtain ⟨same, few⟩ : ((Step.settle now).run stack).alarms.elsewhere handle .output =
        stack.alarms.elsewhere handle .output ∧
          toll now (((Step.settle now).run stack).alarms.watching handle .output) ≤ 1 := by
      rcases plans.rearms_lightly kept spaced timely live with
        ⟨_, stays⟩ | ⟨own, rearmed, few, _⟩
      · rw [stays]
        exact ⟨rfl, light⟩
      · exact ⟨rearmed.elsewhere, rearmed.own ▸ few⟩
    have noted : ∀ confirmation ∈ ((Step.settle now).run stack).confirmations,
        confirmation = ⟨handle, .output⟩ := by
      rcases carried.confirmations with quiet | again
      · simp [quiet]
      · simp [again]
    obtain ⟨kept, spaced, quiet, others, light⟩ :=
      ih (kept.step _ timely) (spaced.step kept.sound timely) noted few
    exact ⟨kept, spaced, quiet, others.trans same, light⟩

/-- An alarm that watches for an answer ends the transfer. -/
theorem Connection.expired_rests {alarm : Alarm} (scope : Scope ω)
    (busy : (connection.flow alarm.direction).isIdle = false)
    (plain : ∀ handle, alarm ≠ .separation handle) :
    ∃ news, connection.expired scope alarm = .rest news := by
  unfold Connection.expired
  cases alarm with
  | output _ =>
    have busy : connection.output.isIdle = false := busy
    simp [busy]
  | input _ =>
    have busy : connection.input.isIdle = false := busy
    simp [busy]
  | separation handle => exact absurd rfl (plain handle)

/-- Each alarm that is handled leaves fewer that can go off. -/
theorem Stack.Kept.round {alarm : Alarm} {alarms : TimerQueue Alarm} {settled : Stack ω}
    (kept : stack.Kept) (spaced : stack.Spaced) (quiet : stack.confirmations = [])
    (due : stack.alarms.popDue now = some (alarm, alarms))
    (drains : ({ stack with alarms }.on now alarm.connection (·.expire · alarm)).Drains now
      settled) :
    settled.Kept ∧ settled.Spaced ∧ settled.confirmations = [] ∧
      toll now settled.alarms.pending < toll now stack.alarms.pending := by
  have timely : (Step.expire now).Timely stack := quiet
  have turned : (Step.expire now).run stack =
      { stack with alarms }.on now alarm.connection (·.expire · alarm) := by
    simp only [Step.run, due]
  rw [← turned] at drains
  obtain ⟨connection, deadline, live, reached, one, busy, watch⟩ := kept.due due
  have plans := @Stack.Plans.expire ω stack _ connection now _ _ due rfl
  obtain ⟨_, _, carried⟩ := (kept.sound.acts_of_plans timely live plans).carries_out
  have next := kept.step _ timely
  have apart := spaced.step kept.sound timely
  rcases plans.rearms_lightly kept spaced timely live with
    ⟨⟨news, stays⟩, _⟩ | ⟨own, rearmed, few, rests⟩
  · exact absurd stays (Connection.expired_ne_stay busy watch news)
  by_cases plain : ∀ handle, alarm ≠ .separation handle
  · obtain ⟨news, rest⟩ := Connection.expired_rests (stack.scope now alarm.connection) busy plain
    have nothing := rests ⟨news, rest⟩
    rw [rest] at carried
    have silent : ((Step.expire now).run stack).confirmations = [] := by
      cases carried with
      | rest replaced => exact replaced.confirmations
    rw [drains.of_quiet silent]
    refine ⟨next, apart, silent, TimerQueue.toll_lt one reached rearmed.elsewhere ?_⟩
    rw [rearmed.own, nothing]
    cases alarm <;> simp [Alarm.toll, toll]
  · -- The frame that goes out now may be confirmed at once; this is handled in the same round.
    simp only [not_forall, not_not] at plain
    obtain ⟨handle, rfl⟩ := plain
    have noted : ∀ confirmation ∈ ((Step.expire now).run stack).confirmations,
        confirmation = ⟨handle, .output⟩ := by
      rcases carried.confirmations with silent | own
      · simp [silent]
      · simp [own, Alarm.connection, Alarm.direction]
    obtain ⟨kept, spaced, silent, others, light⟩ :=
      drains.lightly next apart noted (rearmed.own ▸ few)
    exact ⟨kept, spaced, silent, TimerQueue.toll_lt one reached (others.trans rearmed.elsewhere)
      (Nat.lt_succ_of_le light)⟩

/-- With fuel for all alarms that can go off the loop runs to its end. -/
theorem Stack.Kept.rings (now : Tick) {fuel : Nat} (kept : stack.Kept) (spaced : stack.Spaced)
    (quiet : stack.confirmations = []) (enough : toll now stack.alarms.pending ≤ fuel) :
    (Stack.checkAlarmsWithin now fuel stack).Kept ∧
      ∃ count, count ≤ toll now stack.alarms.pending ∧
        stack.Rings now count (Stack.checkAlarmsWithin now fuel stack) := by
  -- Each round takes at least one from the toll, and at most one from the fuel.
  induction fuel generalizing stack with
  | zero =>
    cases due : stack.alarms.popDue now with
    | none => exact ⟨kept, 0, Nat.zero_le _, .done due⟩
    | some popped =>
      have timely : (Step.expire now).Timely stack := quiet
      have drains := (kept.step _ timely).sound.drains now
      simp only [Step.run, due] at drains
      obtain ⟨_, _, _, fewer⟩ := kept.round spaced quiet due drains
      omega
  | succ fuel ih =>
    unfold Stack.checkAlarmsWithin
    cases due : stack.alarms.popDue now with
    | none => exact ⟨kept, 0, Nat.zero_le _, .done due⟩
    | some popped =>
      have timely : (Step.expire now).Timely stack := quiet
      have drains := (kept.step _ timely).sound.drains now
      simp only [Step.run, due] at drains
      obtain ⟨next, apart, silent, fewer⟩ := kept.round spaced quiet due drains
      obtain ⟨last, count, few, rings⟩ := ih next apart silent (by omega)
      exact ⟨last, count + 1, by omega, .next due drains rings⟩

theorem Stack.Rings.later {count : Nat} {after : Stack ω} (rings : stack.Rings now count after) :
    after.alarms.popDue now = none := by
  induction rings with
  | done later => exact later
  | next _ _ _ ih => exact ih

/-- A stack between two calls has its alarms exhausted when they are checked. -/
theorem Stack.Kept.exhausts (kept : stack.Kept) (spaced : stack.Spaced)
    (quiet : stack.confirmations = []) (now : Tick) :
    Stack.Exhausts now stack (stack.checkAlarms now) := by
  obtain ⟨past, overseen⟩ := kept.overseen
  have enough : toll now stack.alarms.pending ≤ 2 * stack.alarms.size := by
    rw [← overseen.linked.length_pending]
    exact toll_le now _
  obtain ⟨last, count, few, rings⟩ := kept.rings now spaced quiet enough
  refine ⟨⟨count, few.trans enough, rings⟩, fun deadline first => ?_⟩
  obtain ⟨_, overseen⟩ := last.overseen
  have linked : (stack.checkAlarms now).alarms.Linked := overseen.linked
  rw [Stack.nextAlarm, linked.nextDeadline_eq] at first
  obtain ⟨entry, head, rfl⟩ := Option.map_eq_some_iff.mp first
  exact TimerQueue.popDue_none linked rings.later entry head

/-- What each step keeps holds after steps that follow on each other as calls have them. -/
theorem Stack.Smooth.kept {steps : List (Step ω)} (smooth : stack.Smooth steps)
    (kept : stack.Kept) (spaced : stack.Spaced) :
    (stack.through steps).Kept ∧ (stack.through steps).Spaced :=
  smooth.orderly.along (fun _ stack => stack.Kept ∧ stack.Spaced) ⟨kept, spaced⟩
    fun _ _ _ _ sound timely held => ⟨held.1.step _ timely, held.2.step sound timely⟩

end

/-- In every run, and at every reading of the clock: handling the alarms that are due comes to an
end. It handles at most twice as many alarms as were pending when it started, and when it is done
the first alarm, if there is one, is not due. So it is where the interfaces are polled before. -/
theorem due_alarms_are_exhausted {settings : Settings} {world : ω} {start : Stack ω}
    (run : Stack.new settings world = .ok start) (calls : List (Call ω)) (now : Tick) :
    let stack := start.calls calls
    let polled := stack.registry.indexes.foldl (fun stack index => stack.poll now index) stack
    Stack.Exhausts now stack (stack.checkAlarms now) ∧
      Stack.Exhausts now polled (stack.process now) := by
  intro stack polled
  obtain ⟨sound, quiet⟩ := Stack.calls_sound run calls
  have fresh : start.Spaced := fun handle => by
    rw [Stack.new_sending run]
    exact .idle
  have smooth := Stack.new_smooth run calls
  obtain ⟨kept, spaced⟩ :=
    smooth.kept ⟨(Stack.new_sound run).1, [], (Stack.new_watched run).2.overseen⟩ fresh
  rw [← Stack.calls_eq] at kept spaced
  have polling := Stack.pollingSteps_smooth now stack.registry.indexes sound quiet
  have same : polled = stack.through (Stack.pollingSteps now stack.registry.indexes stack) :=
    Stack.polling_eq now _ stack
  obtain ⟨later, apart⟩ := polling.kept kept spaced
  have silent := polling.quiet
  rw [← same] at later apart silent
  exact ⟨kept.exhausts spaced quiet now, later.exhausts apart silent now⟩

/-- The confirmation of a frame is awaited for no time at all. -/
def sampleHaste : Settings where
  confirmOutput := 0

def sampleHasty : Stack Unit :=
  { sampleStack with settings := sampleHaste }

/-- A frame of the sample connection, as far as its confirmation goes. -/
def sampleReport (control : UInt8) : Frame :=
  .classic (.standard 0x7E0) 8 (.replicate 8 control)

/-- The interface confirms later, and the peer asks for ten milliseconds between two frames; the
first frame and the first consecutive one are confirmed in time. -/
def sampleHurry : List (Call Unit) :=
  .addInterface (.reporting true .obliging) :: sampleCalls.tail ++
    [.send 5 sampleHandle (List.replicate 20 0), .sent 5 ⟨0⟩ (sampleReport 0x10),
      .input 9 ⟨0⟩ (.classic (.standard 0x7E8) 3 #v[0x30, 0, 10, 0, 0, 0, 0, 0]),
      .sent 9 ⟨0⟩ (sampleReport 0x21)]

/-- One alarm is pending, and two go off: the separation time is over, and the frame that goes out
then is not confirmed in no time. -/
theorem sample_alarms_are_exhausted :
    (sampleHasty.calls sampleHurry).alarms.size = 1 ∧
      Stack.Exhausts 19 (sampleHasty.calls sampleHurry)
        ((sampleHasty.calls sampleHurry).checkAlarms 19) ∧
      ((sampleHasty.calls sampleHurry).checkAlarms 19).outside.signals =
        (sampleHasty.calls sampleHurry).outside.signals ++
          [.handed (.flow sampleHandle .output) ⟨0⟩
              (.classic (.standard 0x7E0) 8 #v[0x22, 0, 0, 0, 0, 0, 0, 0]),
            .failed (.application 2) sampleHandle .transmitTimeout] ∧
      ((sampleHasty.calls sampleHurry).checkAlarms 19).nextAlarm = none := by
  have made : Stack.new sampleHaste () = .ok sampleHasty := rfl
  refine ⟨by decide +kernel, (due_alarms_are_exhausted made sampleHurry 19).1, ?_, ?_⟩
  · decide +kernel
  · decide +kernel

end DiagBus
