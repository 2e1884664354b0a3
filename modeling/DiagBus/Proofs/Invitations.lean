import DiagBus.Proofs.Isolation
import DiagBus.Proofs.Ledger
import DiagBus.Proofs.Reports

namespace DiagBus

variable {ω : Type}

/-- An interface is registered and takes every frame, in the state that its world is in. -/
def Stack.Takes (stack : Stack ω) (index : InterfaceIndex) : Prop :=
  ∃ interface, stack.registry.get? index = some interface ∧
    ∀ frame, (interface.output frame stack.outside.world).1 = .ok ()

/-- The frame that refuses a message. -/
def Address.refusal (address : Address) (settings : Settings) : Frame :=
  (address.encoder settings).flowControl .overflow 0 settings.separation

/-- The flow control that a connection handed over in a step. -/
def Moment.answers (moment : Moment ω) (handle : Handle) : List (InterfaceIndex × Frame) :=
  moment.news.filterMap (·.handed? handle .input)

/-- The consecutive frames that reached a connection which awaited them, since it last handed over
flow control. -/
def takenSince (handle : Handle) (period : List (Moment ω)) : List (UInt8 × List UInt8) :=
  (period.rtakeWhile fun moment => (moment.answers handle).isEmpty).flatMap (·.taken handle)

/-- Whether a connection that has been receiving a message for this period takes a consecutive frame
now that completes a block, but not the message. -/
def Moment.fillsBlock (moment : Moment ω) (handle : Handle) (settings : Settings) (length : Nat)
    (first : List UInt8) (period : List (Moment ω)) : Bool :=
  (moment.taken handle).any fun part =>
    part.1 = sequenceAfter ((period.flatMap (·.taken handle)).length + 1) ∧
      (assembled first (period.flatMap (·.taken handle) ++ [part])).length < length ∧
      settings.blockSize ≠ 0 ∧
      (takenSince handle period).length + 1 = settings.blockSize.toNat

/-- A first frame announces more than it carries to a connection that receives nothing, on an
interface that takes what it is given. -/
structure Moment.Announces (moment : Moment ω) (handle : Handle) (connection : Connection)
    (address : Address) (length : Nat) (first : List UInt8) : Prop where
  arrives : ∃ now, moment.step = .arrive now handle (.first length first)
  live : moment.before.connections.get? handle = some connection
  idle : connection.input.phase = .idle
  bound : connection.address = some address
  longer : first.length < length
  takes : moment.before.Takes address.interface

/-- What the consecutive frames `taken` make of a reception, to which those in `arrived` have come
before: the frame of a step is counted, and the one that completes the block is answered. -/
inductive Connection.Counts (connection : Connection) (scope : Scope ω) (address : Address)
    (length : Nat) (first : List UInt8) (arrived taken : List (UInt8 × List UInt8)) : Plan → Prop
  | stay (nothing : taken = []) : Counts connection scope address length first arrived taken (.stay [])
  | wait {flow : Flow} (collecting : Collecting scope.settings length first (arrived ++ taken) flow)
      (count : scope.settings.blockSize ≠ 0 →
        flow.blockCount.toNat = connection.input.blockCount.toNat + taken.length ∧
          flow.blockCount < scope.settings.blockSize) :
      Counts connection scope address length first arrived taken (.wait flow)
  | answer {flow : Flow} (collecting : Collecting scope.settings length first (arrived ++ taken)
        { flow with unconfirmed := true }) (one : taken.length = 1)
      (limited : scope.settings.blockSize ≠ 0)
      (full : connection.input.blockCount.toNat + 1 = scope.settings.blockSize.toNat)
      (fresh : flow.blockCount = 0) :
      Counts connection scope address length first arrived taken
        (.hand [] address.interface (address.invitation scope.settings) flow
          (connection.failure scope))
  | rest {news : List Signal} (mute : news.filterMap (·.handed? scope.handle .input) = [])
      (ended : ∀ part ∈ taken, part.1 = sequenceAfter (arrived.length + 1) →
        length ≤ (assembled first (arrived ++ [part])).length) :
      Counts connection scope address length first arrived taken (.rest news)

theorem told_received_handed (listener : Option Listener) (handle other : Handle)
    (message : List UInt8) :
    (told listener (.received · other message)).filterMap (·.handed? handle .input) = [] := by
  cases listener <;> rfl

theorem Connection.failure_handed (connection : Connection) (scope : Scope ω) (fault : Fault)
    (handle : Handle) :
    (connection.failure scope fault).filterMap (·.handed? handle .input) = [] := by
  unfold Connection.failure told
  cases connection.onFailed <;> rfl

section

variable {connection : Connection} {scope : Scope ω} {address : Address} {length : Nat}
  {first : List UInt8} {arrived : List (UInt8 × List UInt8)}

theorem Connection.consecutiveReceived_counts (bound : connection.address = some address)
    (collecting : Collecting scope.settings length first arrived connection.input)
    (below : scope.settings.blockSize ≠ 0 →
      connection.input.blockCount < scope.settings.blockSize) (sequence : UInt8)
    (data : List UInt8) :
    connection.Counts scope address length first arrived
      (connection.taken (.consecutive sequence data))
      (connection.consecutiveReceived scope sequence data) := by
  unfold Connection.taken
  by_cases waiting : connection.input.phase = .consecutiveIn
  · simp only [waiting, if_true]
    have outcome := Connection.consecutiveReceived_cases bound collecting waiting sequence data
    rw [← collecting.blockSize] at below
    split at outcome
    · split at outcome
      · rename_i whole
        rw [outcome]
        refine .rest (told_received_handed _ _ _ _) fun part member _ => ?_
        rw [List.mem_singleton.mp member]
        exact whole
      · rcases outcome with ⟨flow, plan, further, _, unfilled, count⟩ | ⟨flow, plan, further, full, fresh⟩
        · rw [plan]
          refine .wait further fun limited => ?_
          rw [← collecting.blockSize] at limited ⊢
          rw [count]
          exact Flow.countFrame_unfilled below (by simp [unfilled]) limited
        · rw [plan]
          obtain ⟨limited, last⟩ := (Flow.countFrame_complete below).mp full
          rw [collecting.blockSize] at limited last
          exact .answer further rfl limited last fresh
    · rename_i wrong
      rw [outcome]
      refine .rest (connection.failure_handed scope _ _) fun part member right => ?_
      rw [List.mem_singleton.mp member] at right
      exact absurd right wrong
  · simp only [waiting, if_false]
    unfold Connection.consecutiveReceived
    simp only [waiting, ne_eq, not_false_eq_true, if_true]
    exact .stay rfl

theorem Connection.inputConfirmed_counts (address : Address)
    (collecting : Collecting scope.settings length first arrived connection.input)
    (below : scope.settings.blockSize ≠ 0 →
      connection.input.blockCount < scope.settings.blockSize) :
    connection.Counts scope address length first arrived [] connection.inputConfirmed := by
  have collects := Connection.inputConfirmed_collects address collecting
  unfold Connection.inputConfirmed at collects ⊢
  rcases collecting.stage with ⟨phase, unconfirmed⟩ | ⟨_, confirmed⟩
  · simp only [unconfirmed, Bool.not_true, Bool.false_eq_true, if_false, phase] at collects ⊢
    rw [if_neg (by simp [collecting.status])] at collects ⊢
    cases collects with
    | wait collected =>
      rw [← List.append_nil arrived] at collected
      exact .wait collected fun limited => ⟨rfl, below limited⟩
  · rw [if_pos (by simp [confirmed])]
    exact .stay rfl

end

section

variable {stack : Stack ω} {handle : Handle} {connection : Connection} {step : Step ω} {now : Tick}
  {direction : Direction} {plan : Plan} {address : Address} {length : Nat} {first : List UInt8}
  {arrived : List (UInt8 × List UInt8)}

/-- Every plan of a connection that is receiving a message counts the frames of the block. -/
theorem Stack.Plans.counts (plans : stack.Plans handle connection step now direction plan)
    (own : direction = .input) (bound : connection.address = some address)
    (collecting : Collecting stack.settings length first arrived connection.input)
    (below : stack.settings.blockSize ≠ 0 →
      connection.input.blockCount < stack.settings.blockSize) :
    connection.Counts (stack.scope now handle) address length first arrived
      (step.taken handle connection) plan := by
  cases plans with
  | submit _ message => cases own
  | arrive _ pdu =>
    simp only [Step.taken, if_true]
    cases pdu with
    | single message =>
      simp only [Connection.received, Connection.singleReceived, collecting.not_idle,
        Bool.false_eq_true, if_false]
      exact .stay rfl
    | first announced data =>
      simp only [Connection.received, Connection.firstReceived, collecting.not_idle, Bool.not_false,
        if_true]
      exact .stay rfl
    | consecutive sequence data =>
      exact Connection.consecutiveReceived_counts bound collecting below sequence data
    | flowControl status blockSize separation => cases own
  | confirm _ direction =>
    cases own
    exact Connection.inputConfirmed_counts address collecting below
  | settle _ noted =>
    cases own
    exact Connection.inputConfirmed_counts address collecting below
  | expire _ due named =>
    unfold Connection.expired
    rename_i alarm _
    cases alarm with
    | input name =>
      simp only [collecting.not_idle, Bool.false_eq_true, if_false]
      exact .rest (connection.failure_handed _ _ _) (by simp [Step.taken])
    | output name => cases own
    | separation name => cases own

/-- An interface that takes every frame takes this one. -/
theorem Stack.Takes.hand {index : InterfaceIndex} (takes : stack.Takes index) (origin : Origin)
    (frame : Frame) {outside : Outside ω} (same : outside.world = stack.outside.world) :
    ∃ confirmed after, stack.registry.hand origin index frame outside = (.ok confirmed, after) := by
  obtain ⟨interface, found, accepts⟩ := takes
  have accepted := accepts frame
  rw [← same] at accepted
  exact ⟨_, _, Registry.hand_eq_ok_iff.mpr ⟨interface, _, found, Prod.ext accepted rfl, rfl, rfl⟩⟩

/-- A frame that is to be handed over to such an interface is. -/
theorem Stack.Takes.hands {index : InterfaceIndex} (takes : stack.Takes index) (sound : stack.Sound)
    (timely : step.Timely stack) (live : stack.connections.get? handle = some connection)
    {news : List Signal} {frame : Frame} {flow : Flow} {refusal : Fault → List Signal}
    (plans : stack.Plans handle connection step now direction
      (.hand news index frame flow refusal)) :
    (∃ confirmed, stack.Replaced handle connection direction { flow with unconfirmed := true }
        confirmed (step.run stack)) ∧
      Moment.news ⟨stack, step⟩ = news ++ [.handed (.flow handle direction) index frame] := by
  obtain ⟨confirmed, outside, taken⟩ := takes.hand (.flow handle direction) frame
    (rfl : (stack.outside.tellAll news).world = _)
  obtain ⟨replaced, told⟩ := (sound.acts_of_plans timely live plans).of_taken taken
  refine ⟨⟨confirmed, replaced⟩, Moment.news_eq ?_⟩
  show (step.run stack).outside.signals = _
  rw [told, Registry.hand_ok taken, ← List.append_assoc]
  rfl

end

/-- A flow that is to wait does so, and nothing is told. -/
theorem Stack.Carried.of_wait {before after : Stack ω} {handle : Handle} {connection : Connection}
    {direction : Direction} {flow : Flow} {told : List Signal}
    (carried : before.Carried handle connection direction (.wait flow) after told) :
    told = [] ∧ before.Replaced handle connection direction flow false after := by
  cases carried with
  | wait replaced => exact ⟨rfl, replaced⟩

theorem takenSince_concat (handle : Handle) (period : List (Moment ω)) (moment : Moment ω) :
    takenSince handle (period ++ [moment]) =
      if moment.answers handle = [] then takenSince handle period ++ moment.taken handle
      else [] := by
  unfold takenSince
  rw [List.rtakeWhile_concat]
  by_cases silent : moment.answers handle = []
  · simp [silent]
  · simp [silent]

/-- Where a connection stands that has been receiving a message for this period. -/
structure Connection.Gathers (connection : Connection) (settings : Settings) (handle : Handle)
    (address : Address) (length : Nat) (first : List UInt8) (period : List (Moment ω)) : Prop where
  bound : connection.address = some address
  collecting : Collecting settings length first (period.flatMap (·.taken handle)) connection.input
  block : settings.blockSize ≠ 0 →
    connection.input.blockCount.toNat = (takenSince handle period).length ∧
      connection.input.blockCount < settings.blockSize

section

variable {moment : Moment ω} {period : List (Moment ω)} {handle : Handle} {connection : Connection}
  {address : Address} {length : Nat} {first : List UInt8} {settings : Settings}

theorem Moment.Passes.answers (passes : moment.Passes handle .input) :
    moment.answers handle = [] :=
  List.filterMap_eq_nil_iff.mpr fun signal member =>
    (Signal.offered?_of_not_isOf (passes.silent signal member)).1

theorem Moment.answers_of_news {news : List Signal} (told : moment.news = news)
    (mute : news.filterMap (·.handed? handle .input) = []) : moment.answers handle = [] := by
  unfold Moment.answers
  rw [told]
  exact mute

theorem Moment.answers_of_handed {index : InterfaceIndex} {frame : Frame}
    (told : moment.news = [] ++ [.handed (.flow handle .input) index frame]) :
    moment.answers handle = [(index, frame)] := by
  unfold Moment.answers
  rw [told]
  simp [Signal.handed?]

theorem Moment.fillsBlock_of_not_taken (nothing : moment.taken handle = []) :
    moment.fillsBlock handle settings length first period = false := by
  unfold Moment.fillsBlock
  rw [nothing]
  rfl

/-- A frame that leaves the count below the block size does not complete the block. -/
theorem Connection.Gathers.not_full
    (gathers : connection.Gathers settings handle address length first period) {flow : Flow}
    (count : settings.blockSize ≠ 0 →
      flow.blockCount.toNat =
          connection.input.blockCount.toNat + (moment.taken handle).length ∧
        flow.blockCount < settings.blockSize) :
    moment.fillsBlock handle settings length first period = false := by
  refine List.any_eq_false.mpr fun part member full => ?_
  obtain ⟨_, _, limited, last⟩ := of_decide_eq_true full
  obtain ⟨further, below⟩ := count limited
  have counted := (gathers.block limited).1
  have some := List.length_pos_of_mem member
  have inside := UInt8.lt_iff_toNat_lt.mp below
  omega

/-- Nor does a frame that ends the reception. -/
theorem Moment.fillsBlock_of_ended
    (ended : ∀ part ∈ moment.taken handle,
      part.1 = sequenceAfter ((period.flatMap (·.taken handle)).length + 1) →
        length ≤ (assembled first (period.flatMap (·.taken handle) ++ [part])).length) :
    moment.fillsBlock handle settings length first period = false := by
  refine List.any_eq_false.mpr fun part member full => ?_
  obtain ⟨right, short, _⟩ := of_decide_eq_true full
  exact absurd (ended part member right) (by omega)

/-- The frame with which the count reaches the block size completes the block. -/
theorem Connection.Gathers.full
    (gathers : connection.Gathers settings handle address length first period) {flow : Flow}
    (collecting : Collecting settings length first
      (period.flatMap (·.taken handle) ++ moment.taken handle) flow)
    (one : (moment.taken handle).length = 1) (limited : settings.blockSize ≠ 0)
    (last : connection.input.blockCount.toNat + 1 = settings.blockSize.toNat) :
    moment.fillsBlock handle settings length first period = true := by
  obtain ⟨part, taken⟩ := List.length_eq_one_iff.mp one
  rw [taken] at collecting
  have right := collecting.numbered (period.flatMap (·.taken handle)).length part (by simp)
  have received := collecting.received
  have left := collecting.left
  have counted := (gathers.block limited).1
  unfold Moment.fillsBlock
  rw [taken, List.any_cons, List.any_nil, Bool.or_false, decide_eq_true_iff]
  exact ⟨right, by omega, limited, by omega⟩

/-- A step without a frame of the message and without an answer changes no count. -/
theorem Connection.Gathers.keep {other : Connection}
    (gathers : connection.Gathers settings handle address length first period)
    (bound : other.address = connection.address) (same : other.input = connection.input)
    (silent : moment.answers handle = []) (nothing : moment.taken handle = []) :
    other.Gathers settings handle address length first (period ++ [moment]) := by
  have since : takenSince handle (period ++ [moment]) = takenSince handle period := by
    rw [takenSince_concat, if_pos silent, nothing, List.append_nil]
  have arrived : (period ++ [moment]).flatMap (·.taken handle) =
      period.flatMap (·.taken handle) := by
    rw [List.flatMap_append, List.flatMap_singleton, nothing, List.append_nil]
  refine ⟨bound.trans gathers.bound, ?_, ?_⟩
  · rw [arrived, same]
    exact gathers.collecting
  · rw [since, same]
    exact gathers.block

/-- Each step of a reception hands over flow control just if it completes a block, and keeps count. -/
theorem Connection.Gathers.step
    (gathers : connection.Gathers moment.before.settings handle address length first period)
    (live : moment.before.connections.get? handle = some connection) (sound : moment.before.Sound)
    (timely : moment.step.Timely moment.before) (takes : moment.before.Takes address.interface) :
    moment.answers handle =
        (if moment.fillsBlock handle moment.before.settings length first period then
          [(address.interface, address.invitation moment.before.settings)]
        else []) ∧
      ∀ other, moment.after.connections.get? handle = some other → other.input.phase ≠ .idle →
        other.Gathers moment.before.settings handle address length first (period ++ [moment]) := by
  rcases moment.flow_cases sound timely handle .input with
    passes | ⟨found, now, plan, there, plans, carried⟩
  · rw [passes.answers, Moment.fillsBlock_of_not_taken passes.taken]
    refine ⟨rfl, fun other here busy => ?_⟩
    rcases passes.leaves other here with ⟨dead, _⟩ | ⟨earlier, found, flow, address⟩
    · rw [live] at dead
      cases dead
    · rw [live] at found
      cases found
      rcases address with same | idle
      · exact gathers.keep same flow passes.answers passes.taken
      · rw [show (connection.flow .input).isIdle = false from gathers.collecting.not_idle] at idle
        cases idle
  rw [live] at there
  cases there
  have taken : moment.taken handle = moment.step.taken handle connection := by
    unfold Moment.taken
    rw [live, Option.elim_some]
  have grown : (period ++ [moment]).flatMap (·.taken handle) =
      period.flatMap (·.taken handle) ++ moment.taken handle := by
    rw [List.flatMap_append, List.flatMap_singleton]
  have counts := plans.counts rfl gathers.bound gathers.collecting fun limited =>
    (gathers.block limited).2
  rw [← taken] at counts
  cases counts with
  | stay nothing =>
    obtain ⟨told, connections⟩ := carried.of_stay
    have silent : moment.answers handle = [] := Moment.answers_of_news told rfl
    rw [silent, Moment.fillsBlock_of_not_taken nothing]
    refine ⟨rfl, fun other here _ => ?_⟩
    rw [connections, live] at here
    cases here
    exact gathers.keep rfl rfl silent nothing
  | wait collecting count =>
    obtain ⟨told, replaced⟩ := carried.of_wait
    have silent : moment.answers handle = [] := Moment.answers_of_news told rfl
    rw [silent, gathers.not_full count]
    refine ⟨rfl, fun other here _ => ?_⟩
    rw [replaced.get? live] at here
    cases here
    refine ⟨gathers.bound, by rw [grown]; exact collecting, fun limited => ?_⟩
    rw [takenSince_concat, if_pos silent, List.length_append, ← (gathers.block limited).1]
    exact count limited
  | @answer flow collecting one limited full fresh =>
    obtain ⟨⟨confirmed, replaced⟩, told⟩ := takes.hands sound timely live plans
    have answers : moment.answers handle =
        [(address.interface, address.invitation moment.before.settings)] :=
      Moment.answers_of_handed told
    rw [answers, gathers.full collecting one limited full]
    refine ⟨rfl, fun other here _ => ?_⟩
    rw [show moment.after.connections.get? handle = _ from replaced.get? live] at here
    cases here
    refine ⟨gathers.bound, by rw [grown]; exact collecting, fun _ => ?_⟩
    rw [takenSince_concat, if_neg (by simp [answers])]
    refine ⟨congrArg UInt8.toNat fresh, ?_⟩
    show flow.blockCount < moment.before.settings.blockSize
    rw [fresh]
    exact UInt8.pos_iff_ne_zero.mpr limited
  | rest mute ended =>
    obtain ⟨told, replaced⟩ := carried.replaced_of_rest
    have silent : moment.answers handle = [] := Moment.answers_of_news told mute
    rw [silent, Moment.fillsBlock_of_ended ended]
    refine ⟨rfl, fun other here busy => ?_⟩
    rw [replaced.get? live] at here
    cases here
    exact absurd rfl busy

/-- A first frame is answered: it is let go on if there is memory for its message, and else the
message is refused. -/
theorem Moment.Announces.opens
    (announces : moment.Announces handle connection address length first)
    (sound : moment.before.Sound) (timely : moment.step.Timely moment.before) :
    (length ≤ moment.before.memory.available →
      moment.answers handle =
          [(address.interface, address.invitation moment.before.settings)] ∧
        ∃ other, moment.after.connections.get? handle = some other ∧
          other.Gathers moment.before.settings handle address length first ([] : List (Moment ω))) ∧
      (moment.before.memory.available < length →
        moment.news = told connection.onFailed (.failed · handle .memory) ++
            [.handed (.flow handle .input) address.interface
              (address.refusal moment.before.settings)] ∧
          moment.after.memory = moment.before.memory ∧
          moment.after.connections.get? handle =
            some { connection with input := { overflowFlow with unconfirmed := true } }) := by
  obtain ⟨⟨now, arrives⟩, live, idle, bound, longer, takes⟩ := announces
  have resting : connection.input = {} :=
    (sound.flows handle connection live).idle .input (by simp [Connection.flow, Flow.isIdle, idle])
  have plans : moment.before.Plans handle connection moment.step now .input
      (connection.firstReceived (moment.before.scope now handle) moment.before.memory length
        first) := by
    rw [arrives]
    exact .arrive now (.first length first)
  constructor
  · intro room
    rcases Connection.firstReceived_starts (moment.before.scope now handle) bound
      (by simp [resting, Flow.isIdle]) moment.before.memory length first with
      ⟨_, covered⟩ | ⟨_, news, frame, flow, plan, ⟨scarce, _⟩ | ⟨_, rfl, collecting, rfl, fresh⟩⟩
    · omega
    · omega
    rw [plan] at plans
    obtain ⟨⟨confirmed, replaced⟩, told⟩ := takes.hands sound timely live plans
    refine ⟨Moment.answers_of_handed told, _, replaced.get? live, bound, collecting,
      fun limited => ⟨?_, ?_⟩⟩
    · exact congrArg UInt8.toNat fresh
    · show flow.blockCount < _
      rw [fresh]
      exact UInt8.pos_iff_ne_zero.mpr limited
  · intro scarce
    have plan : connection.firstReceived (moment.before.scope now handle) moment.before.memory
        length first = .hand (connection.failure (moment.before.scope now handle) .memory)
          address.interface (address.refusal moment.before.settings) overflowFlow
          (connection.failure (moment.before.scope now handle)) := by
      unfold Connection.firstReceived
      rw [resting, if_neg (by simp [Flow.isIdle]), if_neg (by omega), if_pos scarce,
        connection.answer_eq _ bound]
      rfl
    rw [plan] at plans
    obtain ⟨⟨confirmed, replaced⟩, told⟩ := takes.hands sound timely live plans
    refine ⟨told, ?_, replaced.get? live⟩
    have held : (connection.flow .input).held = 0 := by
      rw [show connection.flow .input = {} from resting]
      rfl
    rw [show moment.after.memory = _ from replaced.memory, held]
    rfl

end

/-- Whatever flow a plan leaves has a property that its flow, an idle one and the plan's have. -/
theorem Stack.Carried.keeps {before after : Stack ω} {handle : Handle} {connection : Connection}
    {direction : Direction} {plan : Plan} {news : List Signal} {holds : Flow → Prop}
    (carried : before.Carried handle connection direction plan after news)
    (live : before.connections.get? handle = some connection) (keeps : plan.Keeps holds)
    (idle : holds {}) (here : holds (connection.flow direction)) :
    ∀ other, after.connections.get? handle = some other → holds (other.flow direction) := by
  intro other there
  cases carried with
  | stay connections _ _ =>
    rw [connections, live] at there
    cases there
    exact here
  | wait replaced =>
    rw [replaced.get? live] at there
    cases there
    rw [Connection.flow_setFlow]
    exact keeps
  | handed replaced =>
    rw [replaced.get? live] at there
    cases there
    rw [Connection.flow_setFlow]
    exact keeps
  | refused _ replaced _ _ =>
    rw [replaced.get? live] at there
    cases there
    rw [Connection.flow_setFlow]
    exact idle
  | rest replaced =>
    rw [replaced.get? live] at there
    cases there
    rw [Connection.flow_setFlow]
    exact idle

section

variable {moment : Moment ω} {handle : Handle} {connection : Connection}

theorem Connection.answer_deaf (connection : Connection) (scope : Scope ω) (news : List Signal)
    {flow : Flow} (deaf : flow.phase ≠ .consecutiveIn) :
    (connection.answer scope news flow).Keeps fun flow => flow.phase ≠ .consecutiveIn := by
  unfold Connection.answer
  cases connection.address with
  | none => trivial
  | some address => exact deaf

/-- Nothing but a confirmation gets a flow to await consecutive frames. -/
theorem Stack.Plans.deaf {direction : Direction} {now : Tick} {plan : Plan}
    (plans : moment.before.Plans handle connection moment.step now direction plan)
    (own : direction = .input) (live : moment.before.connections.get? handle = some connection)
    (unconfirmed : moment.confirms handle .input = false)
    (deaf : connection.input.phase ≠ .consecutiveIn) :
    plan.Keeps fun flow => flow.phase ≠ .consecutiveIn := by
  rw [Moment.confirms_eq live] at unconfirmed
  obtain ⟨before, step⟩ := moment
  have stays (named : step.confirms before.confirmations handle .input = true) :
      connection.inputConfirmed.Keeps fun flow => flow.phase ≠ .consecutiveIn := by
    have settled : connection.input.unconfirmed = false := by
      rw [named, Bool.true_and] at unconfirmed
      exact unconfirmed
    unfold Connection.inputConfirmed
    rw [if_pos (by simp [settled])]
    trivial
  cases plans with
  | submit _ message => cases own
  | arrive _ pdu =>
    cases pdu with
    | single message =>
      simp only [Connection.received, Connection.singleReceived]
      split <;> trivial
    | first length data =>
      simp only [Connection.received, Connection.firstReceived]
      split
      · trivial
      · split
        · trivial
        · split
          · exact connection.answer_deaf _ _ (by simp [overflowFlow])
          · exact connection.answer_deaf _ _ (by simp [startedFlow])
    | consecutive sequence data =>
      simp only [Connection.received, Connection.consecutiveReceived]
      rw [if_pos deaf]
      trivial
    | flowControl status blockSize separation => cases own
  | confirm _ direction =>
    cases own
    exact stays (decide_eq_true ⟨rfl, rfl⟩)
  | settle _ noted =>
    cases own
    exact stays (decide_eq_true (congrArg List.head? noted))
  | @expire _ alarm _ due named =>
    cases alarm with
    | input name =>
      simp only [Connection.expired]
      split <;> trivial
    | output name => cases own
    | separation name => cases own

/-- Without a confirmation no flow gets to await consecutive frames. -/
theorem Moment.awaits_confirmation (sound : moment.before.Sound)
    (timely : moment.step.Timely moment.before)
    (unconfirmed : moment.confirms handle .input = false)
    (deaf : ∀ connection, moment.before.connections.get? handle = some connection →
      connection.input.phase ≠ .consecutiveIn) :
    ∀ connection, moment.after.connections.get? handle = some connection →
      connection.input.phase ≠ .consecutiveIn := by
  rcases moment.flow_cases sound timely handle .input with
    passes | ⟨connection, now, plan, live, plans, carried⟩
  · intro connection here
    rcases passes.leaves connection here with ⟨_, rfl⟩ | ⟨earlier, found, flow, _⟩
    · simp
    · rw [show connection.input = earlier.input from flow]
      exact deaf earlier found
  · exact carried.keeps live (plans.deaf rfl live unconfirmed (deaf connection live)) (by simp)
      (deaf connection live)

theorem Signal.handed?_of_tells {signal : Signal} {direction : Direction}
    (tells : signal.tells handle direction = true) (other : Handle) (flow : Direction) :
    signal.handed? other flow = none := by
  cases signal with
  | handed origin index frame => cases tells
  | _ => rfl

theorem Connection.flow_of_answer {scope : Scope ω} {early news : List Signal} {flow next : Flow}
    {index : InterfaceIndex} {frame : Frame} {refusal : Fault → List Signal}
    (hands : connection.answer scope early flow = .hand news index frame next refusal) :
    next = flow := by
  unfold Connection.answer at hands
  split at hands
  · cases hands
  · cases hands
    rfl

/-- A flow that hands over flow control waits for it to be confirmed. -/
theorem Stack.Plans.phase_of_hand {stack : Stack ω} {step : Step ω} {direction : Direction}
    {now : Tick} {news : List Signal} {index : InterfaceIndex} {frame : Frame} {flow : Flow}
    {refusal : Fault → List Signal}
    (plans : stack.Plans handle connection step now direction (.hand news index frame flow refusal))
    (own : direction = .input) : flow.phase = .controlOut := by
  generalize planned : Plan.hand news index frame flow refusal = plan at plans
  have unhanded : connection.inputConfirmed ≠ .hand news index frame flow refusal := by
    unfold Connection.inputConfirmed
    intro hands
    split at hands
    · cases hands
    · simp only [] at hands
      split at hands
      · split at hands <;> cases hands
      · cases hands
  cases plans with
  | submit _ message => cases own
  | arrive _ pdu =>
    cases pdu with
    | single message =>
      simp only [Connection.received, Connection.singleReceived] at planned
      split at planned <;> cases planned
    | first length data =>
      simp only [Connection.received, Connection.firstReceived] at planned
      split at planned
      · cases planned
      · split at planned
        · cases planned
        · split at planned
          · rw [Connection.flow_of_answer planned.symm]
            rfl
          · rw [Connection.flow_of_answer planned.symm]
            rfl
    | consecutive sequence data =>
      simp only [Connection.received, Connection.consecutiveReceived] at planned
      split at planned
      · cases planned
      · split at planned
        · cases planned
        · split at planned
          · cases planned
          · split at planned
            · rw [Connection.flow_of_answer planned.symm]
            · cases planned
    | flowControl status blockSize separation => cases own
  | confirm _ direction =>
    cases own
    exact absurd planned.symm unhanded
  | settle _ noted =>
    cases own
    exact absurd planned.symm unhanded
  | @expire _ alarm _ due named =>
    cases alarm with
    | input name =>
      simp only [Connection.expired] at planned
      split at planned <;> cases planned
    | output name => cases own
    | separation name => cases own

/-- After flow control was handed over no consecutive frame is awaited. -/
theorem Moment.deaf_of_answers (sound : moment.before.Sound)
    (timely : moment.step.Timely moment.before) (answers : moment.answers handle ≠ []) :
    ∀ connection, moment.after.connections.get? handle = some connection →
      connection.input.phase ≠ .consecutiveIn := by
  rcases moment.flow_cases sound timely handle .input with
    passes | ⟨connection, now, plan, live, plans, carried⟩
  · exact absurd passes.answers answers
  intro other here
  have speaks := plans.speaks
  have mute {news : List Signal} (own : ∀ signal ∈ news, signal.tells handle .input = true) :
      news.filterMap (·.handed? handle .input) = [] :=
    List.filterMap_eq_nil_iff.mpr fun signal member =>
      Signal.handed?_of_tells (own signal member) handle .input
  have told : moment.answers handle = moment.news.filterMap (·.handed? handle .input) := rfl
  rw [told] at answers
  generalize moment.news = news at carried answers
  generalize moment.after = after at carried here
  cases carried with
  | stay _ _ _ => exact absurd (mute speaks) answers
  | wait _ => exact absurd rfl answers
  | handed replaced =>
    rw [replaced.get? live] at here
    cases here
    show Flow.phase _ ≠ _
    rw [Connection.setFlow]
    simp [plans.phase_of_hand rfl]
  | refused fault replaced _ _ =>
    rw [replaced.get? live] at here
    cases here
    simp [Connection.setFlow]
  | rest _ => exact absurd (mute speaks) answers

/-- What a step has a plan for, it carries out. -/
theorem Moment.carries_out {direction : Direction} {now : Tick} {plan : Plan}
    (sound : moment.before.Sound) (timely : moment.step.Timely moment.before)
    (live : moment.before.connections.get? handle = some connection)
    (plans : moment.before.Plans handle connection moment.step now direction plan) :
    moment.before.Carried handle connection direction plan moment.after moment.news := by
  obtain ⟨news, told, carried⟩ := (sound.acts_of_plans timely live plans).carries_out
  rw [Moment.news_eq told]
  exact carried

/-- What is told of a failure to send is told for one of these reasons. -/
theorem Stack.Carried.output_faults {before after : Stack ω} {step : Step ω} {now : Tick}
    {plan : Plan} {news : List Signal}
    (carried : before.Carried handle connection .output plan after news)
    (plans : before.Plans handle connection step now .output plan)
    (sound : connection.Sound before.settings) {listener : Listener} {name : Handle} {fault : Fault}
    (told : .failed listener name fault ∈ news) :
    fault ∈ Direction.faults .output ++ handingFaults := by
  have untried {attempt : List Signal} {origin : Origin} {index : InterfaceIndex} {frame : Frame}
      (attempted : attempt = [] ∨ ∃ reason, attempt = [.refused origin index frame reason]) :
      Signal.failed listener name fault ∉ attempt := by
    rcases attempted with rfl | ⟨reason, rfl⟩ <;> simp
  rcases sound.output with idle | ⟨address, message, emitted, bound, underway⟩
  · rcases plans.output_stays rfl idle with rfl | ⟨message, rfl⟩
    · cases carried with
      | stay _ _ _ => cases told
    · cases plans with
      | submit =>
        rcases (before.exchange connection).submitted_sends (before.scope now handle) message with
          stays | ⟨_, _, _, _, _, starts, _⟩
        · rw [stays] at carried
          cases carried with
          | stay _ _ _ => cases told
        · rw [starts] at carried
          cases carried with
          | handed _ => simp at told
          | refused _ _ attempted _ =>
            rw [List.nil_append, List.append_nil] at told
            exact absurd told (untried attempted)
  · have sends := plans.sends rfl bound underway
    cases sends with
    | stay =>
      cases carried with
      | stay _ _ _ => cases told
    | wait _ =>
      cases carried with
      | wait _ => cases told
    | hand _ _ =>
      cases carried with
      | handed _ => simp at told
      | refused _ _ attempted reason =>
        rw [List.nil_append] at told
        rcases List.mem_append.mp told with early | late
        · exact absurd early (untried attempted)
        · obtain ⟨_, _, same⟩ := mem_told.mp late
          cases same
          exact List.mem_append_right _ reason
    | fail _ reason =>
      cases carried with
      | rest _ =>
        obtain ⟨_, _, same⟩ := mem_told.mp told
        cases same
        exact List.mem_append_left _ reason
    | finish _ _ =>
      cases carried with
      | rest _ =>
        obtain ⟨_, _, same⟩ := mem_told.mp told
        cases same

/-- While a message is refused nothing else is handed over and no other lack of memory is told. -/
theorem Flow.Refusing.step (refusing : connection.input.Refusing)
    (live : moment.before.connections.get? handle = some connection) (sound : moment.before.Sound)
    (timely : moment.step.Timely moment.before) :
    moment.answers handle = [] ∧ (∀ listener, .failed listener handle .memory ∉ moment.news) ∧
      (moment.confirms handle .input = true → moment.news = [] ∧
        moment.after.memory = moment.before.memory ∧
        moment.after.connections.get? handle = some { connection with input := {} }) ∧
      ∀ other, moment.after.connections.get? handle = some other → other.input.phase ≠ .idle →
        other.input.Refusing := by
  have held : (connection.flow .input).held = 0 := by
    rw [show connection.flow .input = _ from refusing]
    rfl
  refine ⟨?_, fun listener told => ?_, fun confirms => ?_, ?_⟩
  · rcases moment.flow_cases sound timely handle .input with
      passes | ⟨found, now, plan, there, plans, carried⟩
    · exact passes.answers
    · rw [live] at there
      cases there
      rcases plans.of_refusing rfl refusing with rfl | rfl | rfl
      · exact Moment.answers_of_news carried.of_stay.1 rfl
      · exact Moment.answers_of_news carried.replaced_of_rest.1 rfl
      · exact Moment.answers_of_news carried.replaced_of_rest.1 (connection.failure_handed _ _ _)
  · have report : (Signal.failed listener handle .memory).isReport handle = true :=
      decide_eq_true rfl
    obtain ⟨direction, own, _⟩ := Moment.flow_of_report sound timely told report
    obtain ⟨now, plan, plans⟩ := sound.plans_of_flow? own connection
    have carried := Moment.carries_out sound timely live plans
    cases direction with
    | output =>
      have reason := carried.output_faults plans (sound.flows handle connection live) told
      simp [Direction.faults, handingFaults] at reason
    | input =>
      rcases plans.of_refusing rfl refusing with rfl | rfl | rfl
      · rw [carried.of_stay.1] at told
        cases told
      · rw [carried.replaced_of_rest.1] at told
        cases told
      · rw [carried.replaced_of_rest.1] at told
        obtain ⟨_, _, same⟩ := mem_told.mp told
        cases same
  · obtain ⟨_, now, plans⟩ := Moment.plans_of_confirms confirms sound live
    rw [show connection.confirmed _ .input = .rest [] from
      (Connection.refusing_rests (moment.before.scope now handle) refusing).1] at plans
    obtain ⟨told, replaced⟩ :=
      (Moment.carries_out sound timely live plans).replaced_of_rest
    refine ⟨told, ?_, replaced.get? live⟩
    rw [replaced.memory, held]
    rfl
  · intro other here busy
    rcases moment.flow_cases sound timely handle .input with
      passes | ⟨found, now, plan, there, plans, carried⟩
    · rcases passes.leaves other here with ⟨dead, _⟩ | ⟨earlier, found, flow, _⟩
      · rw [live] at dead
        cases dead
      · rw [live] at found
        cases found
        rw [show other.input = connection.input from flow]
        exact refusing
    · rw [live] at there
      cases there
      have keeps : plan.Keeps fun flow => flow.phase ≠ .idle → flow.Refusing := by
        rcases plans.of_refusing rfl refusing with rfl | rfl | rfl <;> trivial
      exact carried.keeps live keeps (by simp) (fun _ => refusing) other here busy

end

/-- What each step keeps during a period holds at its end. -/
theorem Stack.Orderly.during {stack : Stack ω} {steps : List (Step ω)}
    (orderly : stack.Orderly steps) {past period rest : List (Moment ω)} {opening next : Moment ω}
    (whole : stack.moments steps = past ++ opening :: (period ++ next :: rest))
    (holds : List (Moment ω) → Stack ω → Prop) (base : holds [] opening.after)
    (onward : ∀ past, ∀ moment ∈ period, moment.before.Sound →
      moment.step.Timely moment.before → moment.before.settings = stack.settings →
        holds past moment.before → holds (past ++ [moment]) moment.after) :
    next.before.Sound ∧ next.step.Timely next.before ∧ next.before.settings = stack.settings ∧
      holds period next.before := by
  obtain ⟨settings, _, _, middle, later, inside, periods, lasts⟩ := orderly.stretch whole
  obtain ⟨_, _, here, _⟩ := Stack.moments_cons lasts
  obtain ⟨sound, timely⟩ := orderly next (by rw [whole]; simp)
  have opened : opening.after.settings = stack.settings :=
    (opening.step.settings_run _).trans settings
  obtain ⟨same, held⟩ := inside.induct
    (fun past stack => stack.settings = opening.after.settings ∧ holds past stack) ⟨rfl, base⟩
    fun past moment member sound timely held =>
      ⟨(moment.step.settings_run _).trans held.1, onward past moment (periods ▸ member) sound timely
        (held.1.trans opened) held.2⟩
  rw [periods, List.nil_append, ← here] at held
  rw [← here] at same
  exact ⟨sound, timely, same.trans opened, held⟩

/-- A receiver asks for a message that a first frame announces once, and then after each block of
consecutive frames that does not complete the message, and at no other time while it receives. A
message that there is no memory for is refused with one frame and reported once; it takes no memory,
and the receiver is idle again when that frame is confirmed. Consecutive frames that arrive before
an answer is confirmed change nothing. -/
theorem receivers_invite_blocks {settings : Settings} {world : ω} {start : Stack ω}
    (run : Stack.new settings world = .ok start) (calls : List (Call ω))
    {early later : List (Moment ω)} {moment : Moment ω}
    (history : start.history calls = early ++ moment :: later) (handle : Handle) :
    (∀ connection address length first, moment.Announces handle connection address length first →
      length ≤ moment.before.memory.available →
        moment.answers handle = [(address.interface, address.invitation settings)] ∧
          ∀ period next rest, later = period ++ next :: rest →
            (∀ step ∈ period ++ [next],
              step.before.Receives handle ∧ step.before.Takes address.interface) →
            next.answers handle =
              if next.fillsBlock handle settings length first period then
                [(address.interface, address.invitation settings)]
              else []) ∧
      (∀ connection address length first, moment.Announces handle connection address length first →
        moment.before.memory.available < length →
          moment.news = told connection.onFailed (.failed · handle .memory) ++
              [.handed (.flow handle .input) address.interface (address.refusal settings)] ∧
            moment.after.memory = moment.before.memory ∧
            ∀ period next rest, later = period ++ next :: rest →
              (∀ step ∈ period ++ [next], step.before.Receives handle) →
              next.answers handle = [] ∧ (∀ listener, .failed listener handle .memory ∉ next.news) ∧
                (next.confirms handle .input = true → next.news = [] ∧
                  next.after.memory = next.before.memory ∧
                  ∃ other, next.after.connections.get? handle = some other ∧ other.input = {})) ∧
      (moment.answers handle ≠ [] → ∀ period next rest now sequence data,
        later = period ++ next :: rest →
        (∀ step ∈ period, step.confirms handle .input = false) →
        next.step = .arrive now handle (.consecutive sequence data) → next.after = next.before) := by
  have orderly := (Stack.new_smooth run calls).orderly
  obtain ⟨sound, timely⟩ := orderly moment (by
    rw [show Stack.moments _ _ = _ from history]
    simp)
  have configured : start.settings = settings := (Stack.new_watched run).1
  have own : moment.before.settings = settings := by
    have whole : start.moments (start.steps calls) = early ++ moment :: ([] ++ later) := history
    rw [(orderly.stretch whole).1, configured]
  refine ⟨?_, ?_, ?_⟩
  · intro connection address length first announces room
    obtain ⟨answers, opened, there, gathers⟩ := (announces.opens sound timely).1 room
    rw [own] at answers gathers
    refine ⟨answers, fun period next rest parts receiving => ?_⟩
    rw [parts] at history
    obtain ⟨sound, timely, same, held⟩ := orderly.during history
      (fun past stack => ∀ other, stack.connections.get? handle = some other →
        other.input.phase ≠ .idle → other.Gathers settings handle address length first past)
      (fun other here _ => by
        rw [there] at here
        cases here
        exact gathers)
      fun past step member sound timely same held => by
        obtain ⟨⟨other, live, busy⟩, takes⟩ :=
          receiving step (List.mem_append_left _ member)
        have gathers := held other live busy
        rw [← configured, ← same] at gathers ⊢
        exact (gathers.step live sound timely takes).2
    obtain ⟨⟨other, live, busy⟩, takes⟩ := receiving next (by simp)
    have gathers := held other live busy
    rw [← configured, ← same] at gathers ⊢
    exact (gathers.step live sound timely takes).1
  · intro connection address length first announces scarce
    obtain ⟨news, memory, there⟩ := (announces.opens sound timely).2 scarce
    rw [own] at news
    refine ⟨news, memory, fun period next rest parts receiving => ?_⟩
    rw [parts] at history
    obtain ⟨sound, timely, _, held⟩ := orderly.during history
      (fun _ stack => ∀ other, stack.connections.get? handle = some other →
        other.input.phase ≠ .idle → other.input.Refusing)
      (fun other here _ => by
        rw [there] at here
        cases here
        rfl)
      fun past step member sound timely _ held => by
        obtain ⟨other, live, busy⟩ := receiving step (List.mem_append_left _ member)
        exact (Flow.Refusing.step (held other live busy) live sound timely).2.2.2
    obtain ⟨other, live, busy⟩ := receiving next (by simp)
    obtain ⟨silent, reported, confirmed, _⟩ :=
      Flow.Refusing.step (held other live busy) live sound timely
    refine ⟨silent, reported, fun confirms => ?_⟩
    obtain ⟨mute, memory, here⟩ := confirmed confirms
    exact ⟨mute, memory, _, here, rfl⟩
  · intro answers period next rest now sequence data parts unconfirmed arrives
    rw [parts] at history
    obtain ⟨_, _, _, deaf⟩ := orderly.during history
      (fun _ stack => ∀ other, stack.connections.get? handle = some other →
        other.input.phase ≠ .consecutiveIn)
      (Moment.deaf_of_answers sound timely answers)
      fun _ step member sound timely _ deaf =>
        Moment.awaits_confirmation sound timely (unconfirmed step member) deaf
    unfold Moment.after
    rw [arrives]
    show next.before.on now handle (·.receive · (.consecutive sequence data)) = next.before
    refine Stack.on_same fun connection live => ?_
    have unexpected : (next.before.exchange connection).connection.expects
        (.consecutive sequence data) = false := decide_eq_false (deaf connection live)
    exact Exchange.receive_unexpected unexpected _

/-- Sixteen bytes of memory, and blocks of one frame. -/
def sampleNarrow : Settings where
  memory := 16
  blockSize := 1

def sampleMeasured : Stack Unit :=
  { sampleStack with settings := sampleNarrow, memory := { capacity := 16 } }

/-- The peer announces a message of seventeen bytes, and one of sixteen. -/
def sampleTooLong : Frame :=
  .classic (.standard 0x7E8) 8 #v[0x10, 17, 1, 2, 3, 4, 5, 6]

def sampleFitting : Frame :=
  .classic (.standard 0x7E8) 8 #v[0x10, 16, 1, 2, 3, 4, 5, 6]

def sampleSecond : Frame :=
  .classic (.standard 0x7E8) 8 #v[0x21, 7, 8, 9, 10, 11, 12, 13]

/-- The second frame of the message that there is memory for comes twice, the first time before the
answer to its first frame is confirmed. -/
def sampleBlocks : List (Call Unit) :=
  sampleOpening ++ [.input 0 ⟨0⟩ sampleTooLong, .sent 1 ⟨0⟩ (sampleAddress.refusal sampleNarrow),
    .input 2 ⟨0⟩ sampleFitting, .input 3 ⟨0⟩ sampleSecond,
    .sent 4 ⟨0⟩ (sampleAddress.invitation sampleNarrow), .input 5 ⟨0⟩ sampleSecond]

def samplePrelude : List (Step Unit) :=
  sampleMeasured.steps sampleOpening ++ [.offer ⟨0⟩ sampleTooLong]

/-- The first message is refused. -/
def sampleRefusal : Moment Unit where
  before := sampleMeasured.through samplePrelude
  step := .arrive 0 sampleHandle (.first 17 [1, 2, 3, 4, 5, 6])

def sampleRelease : Moment Unit where
  before := sampleRefusal.after.through [.acknowledge ⟨0⟩ (sampleAddress.refusal sampleNarrow)]
  step := .confirm 1 sampleHandle .input

/-- The second one is asked for. -/
def sampleAnnouncement : Moment Unit where
  before := sampleRelease.after.through [.offer ⟨0⟩ sampleFitting]
  step := .arrive 2 sampleHandle (.first 16 [1, 2, 3, 4, 5, 6])

def sampleEarly : Moment Unit where
  before := sampleAnnouncement.after.through [.offer ⟨0⟩ sampleSecond]
  step := .arrive 3 sampleHandle (.consecutive 1 [7, 8, 9, 10, 11, 12, 13])

/-- What happens until the second frame comes again. -/
def samplePause : List (Step Unit) :=
  [.acknowledge ⟨0⟩ (sampleAddress.invitation sampleNarrow), .confirm 4 sampleHandle .input,
    .offer ⟨0⟩ sampleSecond]

def sampleBlockEnd : Moment Unit where
  before := sampleEarly.after.through samplePause
  step := .arrive 5 sampleHandle (.consecutive 1 [7, 8, 9, 10, 11, 12, 13])

/-- The sample receiver refuses the first message and asks for the second one. It leaves the consecutive
frame alone that comes too early, and asks again after the one that comes in time. -/
theorem sample_receiver_invites_block :
    ∃ early wait pause hurry period : List (Moment Unit),
      sampleMeasured.history sampleBlocks =
          early ++ sampleRefusal :: (wait ++ sampleRelease :: (pause ++ sampleAnnouncement ::
            (hurry ++ sampleEarly :: (period ++ [sampleBlockEnd])))) ∧
        sampleRefusal.news = [.failed (.application 2) sampleHandle .memory,
          .handed (.flow sampleHandle .input) ⟨0⟩ (sampleAddress.refusal sampleNarrow)] ∧
        (∃ other, sampleRelease.after.connections.get? sampleHandle = some other ∧
          other.input = {}) ∧
        sampleAnnouncement.answers sampleHandle = [(⟨0⟩, sampleAddress.invitation sampleNarrow)] ∧
        sampleEarly.after = sampleEarly.before ∧
        sampleBlockEnd.answers sampleHandle = [(⟨0⟩, sampleAddress.invitation sampleNarrow)] := by
  have made : Stack.new sampleNarrow () = .ok sampleMeasured := rfl
  let early := sampleMeasured.moments samplePrelude
  let wait := sampleRefusal.after.moments [.acknowledge ⟨0⟩ (sampleAddress.refusal sampleNarrow)]
  let pause := sampleRelease.after.moments [.offer ⟨0⟩ sampleFitting]
  let hurry := sampleAnnouncement.after.moments [.offer ⟨0⟩ sampleSecond]
  let period := sampleEarly.after.moments samplePause
  have history : sampleMeasured.history sampleBlocks =
      early ++ sampleRefusal :: (wait ++ sampleRelease :: (pause ++ sampleAnnouncement ::
        (hurry ++ sampleEarly :: (period ++ [sampleBlockEnd])))) := rfl
  have history' : sampleMeasured.history sampleBlocks =
      (early ++ sampleRefusal :: (wait ++ sampleRelease :: pause)) ++ sampleAnnouncement ::
        (hurry ++ sampleEarly :: (period ++ [sampleBlockEnd])) := by
    rw [history]
    simp only [List.append_assoc, List.cons_append]
  have takes (stack : Stack Unit) (registered : stack.registry.get? ⟨0⟩ = some .deferring) :
      stack.Takes sampleAddress.interface := ⟨.deferring, registered, fun _ => rfl⟩
  -- the refusal, and its confirmation
  have tooLong : sampleRefusal.Announces sampleHandle _ sampleAddress 17 [1, 2, 3, 4, 5, 6] :=
    ⟨⟨0, rfl⟩, rfl, rfl, rfl, by decide, takes _ rfl⟩
  obtain ⟨refused, _, released⟩ := (receivers_invite_blocks made _ history sampleHandle).2.1 _ _ _ _
    tooLong (by decide +kernel)
  have refusing : ∀ step ∈ wait ++ [sampleRelease], step.before.Receives sampleHandle := by
    intro step member
    simp only [wait, Stack.moments, List.cons_append, List.nil_append, List.mem_cons,
      List.not_mem_nil, or_false] at member
    rcases member with rfl | rfl
    all_goals exact ⟨_, rfl, by decide +kernel⟩
  have release := (released wait sampleRelease _ rfl refusing).2.2 (by decide +kernel)
  -- the invitation, and what follows on it
  have fitting : sampleAnnouncement.Announces sampleHandle _ sampleAddress 16 [1, 2, 3, 4, 5, 6] :=
    ⟨⟨2, rfl⟩, rfl, rfl, rfl, by decide, takes _ rfl⟩
  obtain ⟨invites, _, ignores⟩ := receivers_invite_blocks made _ history' sampleHandle
  obtain ⟨first, later⟩ := invites _ _ _ _ fitting (by decide +kernel)
  have unconfirmed : ∀ step ∈ hurry, step.confirms sampleHandle .input = false := by
    decide +kernel
  have ignored := ignores (by rw [first]; exact List.cons_ne_nil _ _) hurry sampleEarly _ _ _ _ rfl
    unconfirmed rfl
  have receiving : ∀ step ∈ (hurry ++ sampleEarly :: period) ++ [sampleBlockEnd],
      step.before.Receives sampleHandle ∧ step.before.Takes sampleAddress.interface := by
    intro step member
    simp only [hurry, period, samplePause, Stack.moments, List.cons_append, List.nil_append,
      List.mem_cons, List.not_mem_nil, or_false] at member
    rcases member with rfl | rfl | rfl | rfl | rfl | rfl
    all_goals exact ⟨⟨_, rfl, by decide +kernel⟩, takes _ rfl⟩
  have full : sampleBlockEnd.fillsBlock sampleHandle sampleNarrow 16 [1, 2, 3, 4, 5, 6]
      (hurry ++ sampleEarly :: period) = true := by decide +kernel
  have second := later (hurry ++ sampleEarly :: period) sampleBlockEnd [] (by simp) receiving
  rw [full] at second
  exact ⟨_, _, _, _, _, history, refused, release.2.2, first, ignored, second⟩

end DiagBus
