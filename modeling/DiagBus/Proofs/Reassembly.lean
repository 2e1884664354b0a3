import DiagBus.Proofs.Moments

namespace DiagBus

variable {ω : Type}

/-- The consecutive frame that reaches a connection which awaits one in this step. -/
def Step.taken (step : Step ω) (handle : Handle) (connection : Connection) :
    List (UInt8 × List UInt8) :=
  match step with
  | .arrive _ other pdu => if other = handle then connection.taken pdu else []
  | _ => []

def Moment.taken (moment : Moment ω) (handle : Handle) : List (UInt8 × List UInt8) :=
  (moment.before.connections.get? handle).elim [] (moment.step.taken handle)

theorem Step.taken_cases (step : Step ω) (handle : Handle) (connection : Connection) :
    step.taken handle connection = [] ∨ ∃ now sequence data,
      step = .arrive now handle (.consecutive sequence data) ∧
        step.taken handle connection = [(sequence, data)] := by
  cases step with
  | arrive now other pdu =>
    simp only [Step.taken]
    split
    · rename_i same
      subst same
      cases pdu with
      | consecutive sequence data =>
        simp only [Connection.taken]
        split
        · exact Or.inr ⟨now, sequence, data, rfl, rfl⟩
        · exact Or.inl rfl
      | _ => exact Or.inl rfl
    · exact Or.inl rfl
  | _ => exact Or.inl rfl

/-- Whether the receiving flow of a connection is idle. -/
def Stack.Rests (stack : Stack ω) (handle : Handle) : Prop :=
  ∃ connection, stack.connections.get? handle = some connection ∧ connection.input.phase = .idle

/-- Whether the receiving flow of a connection is busy. -/
def Stack.Receives (stack : Stack ω) (handle : Handle) : Prop :=
  ∃ connection, stack.connections.get? handle = some connection ∧ connection.input.phase ≠ .idle

/-- In these moments a first frame reached an idle connection, which has been busy since and has
awaited the consecutive frames `arrived`. The first frame carried `first` and announced more. -/
def Reception (handle : Handle) (past : List (Moment ω)) (length : Nat) (first : List UInt8)
    (arrived : List (UInt8 × List UInt8)) : Prop :=
  ∃ early opening between, past = early ++ opening :: between ∧
    (∃ now, opening.step = .arrive now handle (.first length first)) ∧
    opening.before.Rests handle ∧ first.length < length ∧
    (∀ moment ∈ between, moment.before.Receives handle) ∧
    arrived = between.flatMap (·.taken handle)

theorem Reception.concat {handle : Handle} {past : List (Moment ω)} {length : Nat}
    {first : List UInt8} {arrived : List (UInt8 × List UInt8)}
    (reception : Reception handle past length first arrived) {moment : Moment ω}
    (busy : moment.before.Receives handle) :
    Reception handle (past ++ [moment]) length first (arrived ++ moment.taken handle) := by
  obtain ⟨early, opening, between, rfl, opens, rests, announced, received, rfl⟩ := reception
  refine ⟨early, opening, between ++ [moment], by simp, opens, rests, announced, ?_, by simp⟩
  intro other member
  rcases List.mem_append.mp member with before | last
  · exact received other before
  · rw [List.mem_singleton.mp last]
    exact busy

/-- A connection receives nothing, refuses a message, or has put together what arrived. -/
def Stack.Assembles (stack : Stack ω) (handle : Handle) (past : List (Moment ω)) : Prop :=
  ∀ connection, stack.connections.get? handle = some connection →
    connection.input = {} ∨ connection.input.Refusing ∨
      ∃ length first arrived, Reception handle past length first arrived ∧
        Collecting stack.settings length first arrived connection.input

/-- Nobody is given a message of the connection. -/
def Unheard (handle : Handle) (news : List Signal) : Prop :=
  ∀ listener message, .received listener handle message ∉ news

theorem Unheard.nil (handle : Handle) : Unheard handle [] := by
  simp [Unheard]

theorem Unheard.append {handle : Handle} {first second : List Signal}
    (early : Unheard handle first) (late : Unheard handle second) :
    Unheard handle (first ++ second) := by
  intro listener message member
  rcases List.mem_append.mp member with before | after
  · exact early listener message before
  · exact late listener message after

theorem Connection.failure_unheard (connection : Connection) (scope : Scope ω) (fault : Fault)
    (handle : Handle) : Unheard handle (connection.failure scope fault) := by
  intro listener message member
  obtain ⟨_, _, absurd⟩ := mem_told.mp member
  cases absurd

theorem unheard_handed (handle : Handle) (origin : Origin) (index : InterfaceIndex)
    (frame : Frame) : Unheard handle [.handed origin index frame] := by
  simp [Unheard]

theorem unheard_attempt (handle : Handle) {origin : Origin} {index : InterfaceIndex}
    {frame : Frame} {attempt : List Signal}
    (attempted : attempt = [] ∨ ∃ reason, attempt = [.refused origin index frame reason]) :
    Unheard handle attempt := by
  rcases attempted with rfl | ⟨reason, rfl⟩ <;> simp [Unheard]

theorem Collecting.phase_ne_idle {settings : Settings} {length : Nat} {first : List UInt8}
    {arrived : List (UInt8 × List UInt8)} {flow : Flow}
    (collecting : Collecting settings length first arrived flow) : flow.phase ≠ .idle := by
  rcases collecting.stage with ⟨phase, _⟩ | ⟨phase, _⟩ <;> simp [phase]

section

variable {handle : Handle} {connection : Connection} {stack : Stack ω} {step : Step ω} {now : Tick}
  {direction : Direction} {plan : Plan}

/-- Every plan of a busy receiving flow goes on with its message or ends the reception. -/
theorem Stack.Plans.collects {address : Address} {length : Nat} {first : List UInt8}
    {arrived : List (UInt8 × List UInt8)}
    (plans : stack.Plans handle connection step now direction plan) (own : direction = .input)
    (bound : connection.address = some address)
    (collecting : Collecting stack.settings length first arrived connection.input) :
    connection.Collects (stack.scope now handle) address length first
      (arrived ++ step.taken handle connection) plan := by
  cases plans with
  | submit _ message => cases own
  | arrive _ pdu =>
    simp only [Step.taken, if_true]
    exact Connection.received_collects bound collecting stack.memory own
  | confirm _ direction =>
    cases own
    simp only [Step.taken, List.append_nil]
    exact Connection.inputConfirmed_collects address collecting
  | settle _ noted =>
    cases own
    simp only [Step.taken, List.append_nil]
    exact Connection.inputConfirmed_collects address collecting
  | expire _ due named =>
    simp only [Step.taken, List.append_nil]
    exact Connection.expired_collects address collecting own

/-- A flow that refuses a message ends with the confirmation of its answer, or because there is
none; and until then it stays as it is. -/
theorem Stack.Plans.of_refusing (plans : stack.Plans handle connection step now direction plan)
    (own : direction = .input) (refusing : connection.input.Refusing) :
    plan = .stay [] ∨ plan = .rest [] ∨
      plan = .rest (connection.failure (stack.scope now handle) .receiveTimeout) := by
  have rests := Connection.refusing_rests (stack.scope now handle) refusing
  cases plans with
  | submit _ message => cases own
  | arrive _ pdu => exact Or.inl (rests.2.1 _ pdu own)
  | confirm _ direction =>
    cases own
    exact Or.inr (Or.inl rests.1)
  | settle _ noted =>
    cases own
    exact Or.inr (Or.inl rests.1)
  | expire _ due named => exact Or.inr (Or.inr (rests.2.2 _ own))

/-- A flow that refuses a message starts no other. -/
theorem Stack.Plans.refuses (plans : stack.Plans handle connection step now direction plan)
    (own : direction = .input) (refusing : connection.input.Refusing) :
    plan = .stay [] ∨ ∃ news, plan = .rest news ∧ Unheard handle news := by
  rcases plans.of_refusing own refusing with stays | rests | rests
  · exact Or.inl stays
  · exact Or.inr ⟨[], rests, .nil handle⟩
  · exact Or.inr ⟨_, rests, connection.failure_unheard _ _ handle⟩

/-- Only the start of a message gets an idle flow to receive. -/
theorem Stack.Plans.input_stays (plans : stack.Plans handle connection step now direction plan)
    (own : direction = .input) (idle : connection.input = {}) :
    plan = .stay [] ∨
      (∃ message, step = .arrive now handle (.single message) ∧
        plan = .stay (told connection.onReceived (.received · handle message))) ∨
      ∃ length data, step = .arrive now handle (.first length data) ∧
        plan = connection.firstReceived (stack.scope now handle) stack.memory length data := by
  have stays := Connection.input_stays (stack.scope now handle) idle
  cases plans with
  | submit _ message => cases own
  | arrive _ pdu =>
    cases pdu with
    | single message =>
      refine Or.inr (Or.inl ⟨message, rfl, ?_⟩)
      simp [Connection.received, Connection.singleReceived, idle, Flow.isIdle, Stack.scope]
    | first length data => exact Or.inr (Or.inr ⟨length, data, rfl, rfl⟩)
    | consecutive sequence data => exact Or.inl (stays.2.1 _ _)
    | flowControl status blockSize separation => cases own
  | confirm _ direction =>
    cases own
    exact Or.inl stays.1
  | settle _ noted =>
    cases own
    exact Or.inl stays.1
  | expire _ due named => exact Or.inl (stays.2.2 _ own)

/-- What a first frame makes of an idle flow. -/
theorem Stack.Carried.starts {before after : Stack ω} {news : List Signal} {length : Nat}
    {data : List UInt8}
    (carried : before.Carried handle connection .input
      (connection.firstReceived (before.scope now handle) before.memory length data) after news)
    (live : before.connections.get? handle = some connection) (idle : connection.input = {}) :
    Unheard handle news ∧ ∃ other, after.connections.get? handle = some other ∧
      (other.input = {} ∨ other.input.Refusing ∨
        data.length < length ∧ Collecting before.settings length data [] other.input) := by
  have resting : connection.input.isIdle = true := by rw [idle]; rfl
  have failed (fault : Fault) :=
    connection.failure_unheard (before.scope now handle) fault handle
  cases bound : connection.address with
  | none =>
    rcases Connection.firstReceived_unbound (before.scope now handle) bound before.memory length
      data with stays | ⟨fault, more, rests, spoken⟩
    · rw [stays] at carried
      cases carried with
      | stay connections _ _ =>
        exact ⟨.nil handle, connection, by rw [connections]; exact live, Or.inl idle⟩
    · rw [rests] at carried
      cases carried with
      | rest replaced =>
        refine ⟨.append ?_ (failed fault), _, replaced.get? live, Or.inl rfl⟩
        rcases spoken with rfl | rfl
        · exact .nil handle
        · exact failed .memory
  | some address =>
    rcases Connection.firstReceived_starts (before.scope now handle) bound resting before.memory
      length data with ⟨stays, _⟩ | ⟨announced, early, frame, flow, starts, started⟩
    · rw [stays] at carried
      cases carried with
      | stay connections _ _ =>
        exact ⟨.nil handle, connection, by rw [connections]; exact live, Or.inl idle⟩
    · have spoken : Unheard handle early := by
        rcases started with ⟨_, rfl, _⟩ | ⟨_, rfl, _⟩
        · exact failed .memory
        · exact .nil handle
      rw [starts] at carried
      cases carried with
      | handed replaced =>
        refine ⟨spoken.append (unheard_handed _ _ _ _), _, replaced.get? live, Or.inr ?_⟩
        rcases started with ⟨_, _, rfl⟩ | ⟨_, _, collecting, _⟩
        · exact Or.inl rfl
        · exact Or.inr ⟨announced, collecting⟩
      | refused fault replaced attempted =>
        exact ⟨(spoken.append (unheard_attempt handle attempted)).append (failed fault), _,
          replaced.get? live, Or.inl rfl⟩

/-- A receiving flow goes on with what it has put together, or ends the reception. -/
theorem Stack.Carried.collects {before after : Stack ω} {news : List Signal} {address : Address}
    {length : Nat} {first : List UInt8} {arrived : List (UInt8 × List UInt8)}
    (carried : before.Carried handle connection .input plan after news)
    (live : before.connections.get? handle = some connection)
    (collects : connection.Collects (before.scope now handle) address length first arrived plan) :
    ∃ other, after.connections.get? handle = some other ∧
      (other.input = {} ∨ Collecting before.settings length first arrived other.input) := by
  cases collects with
  | stay collecting =>
    cases carried with
    | stay connections _ _ =>
      exact ⟨connection, by rw [connections]; exact live, Or.inr collecting⟩
  | wait collecting =>
    cases carried with
    | wait replaced => exact ⟨_, replaced.get? live, Or.inr collecting⟩
  | hand collecting =>
    cases carried with
    | handed replaced => exact ⟨_, replaced.get? live, Or.inr collecting⟩
    | refused fault replaced _ => exact ⟨_, replaced.get? live, Or.inl rfl⟩
  | fail fault =>
    cases carried with
    | rest replaced => exact ⟨_, replaced.get? live, Or.inl rfl⟩
  | finish _ _ =>
    cases carried with
    | rest replaced => exact ⟨_, replaced.get? live, Or.inl rfl⟩

end

section

variable {handle : Handle} {moment : Moment ω} {past : List (Moment ω)}

theorem Moment.Passes.taken (passes : moment.Passes handle .input) : moment.taken handle = [] := by
  unfold Moment.taken
  cases live : moment.before.connections.get? handle with
  | none => rfl
  | some connection =>
    have unplanned := fun now plan => passes.unplanned connection now plan live
    rw [Option.elim_some]
    generalize moment.step = step at unplanned
    cases step with
    | arrive now other pdu =>
      unfold Step.taken
      by_cases own : other = handle
      · subst own
        cases pdu with
        | consecutive sequence data =>
          exact absurd (.arrive now (.consecutive sequence data)) (unplanned now _)
        | _ => simp [Connection.taken]
      · simp [own]
    | _ => rfl

/-- Each step goes on with what was put together, or ends the reception. -/
theorem Stack.Assembles.step (assembles : moment.before.Assembles handle past)
    (sound : moment.before.Sound) (timely : moment.step.Timely moment.before) :
    moment.after.Assembles handle (past ++ [moment]) := by
  have settings : moment.after.settings = moment.before.settings := moment.step.settings_run _
  unfold Stack.Assembles
  rw [settings]
  rcases moment.flow_cases sound timely handle .input with
    passes | ⟨connection, now, plan, live, plans, carried⟩
  · intro other here
    rcases passes.leaves other here with ⟨_, rfl⟩ | ⟨earlier, found, flow, _⟩
    · exact Or.inl rfl
    · have same : other.input = earlier.input := flow
      rw [same]
      rcases assembles earlier found with idle | refusing | ⟨length, first, arrived, reception,
        collecting⟩
      · exact Or.inl idle
      · exact Or.inr (Or.inl refusing)
      · have further := reception.concat ⟨earlier, found, collecting.phase_ne_idle⟩
        rw [passes.taken, List.append_nil] at further
        exact Or.inr (Or.inr ⟨length, first, arrived, further, collecting⟩)
  · have taken : moment.taken handle = moment.step.taken handle connection := by
      unfold Moment.taken
      rw [live, Option.elim_some]
    suffices found : ∃ other, moment.after.connections.get? handle = some other ∧
        (other.input = {} ∨ other.input.Refusing ∨ ∃ length first arrived,
          Reception handle (past ++ [moment]) length first arrived ∧
            Collecting moment.before.settings length first arrived other.input) by
      obtain ⟨other, there, fine⟩ := found
      intro found here
      rw [there] at here
      cases here
      exact fine
    generalize moment.news = news at carried
    generalize moment.after = after at carried ⊢
    rcases assembles connection live with idle | refusing | ⟨length, first, arrived, reception,
      collecting⟩
    · rcases plans.input_stays rfl idle with stays | ⟨message, _, stays⟩ | ⟨length, data, given,
        starts⟩
      · rw [stays] at carried
        cases carried with
        | stay connections _ _ => exact ⟨connection, by rw [connections]; exact live, Or.inl idle⟩
      · rw [stays] at carried
        cases carried with
        | stay connections _ _ => exact ⟨connection, by rw [connections]; exact live, Or.inl idle⟩
      · rw [starts] at carried
        obtain ⟨_, other, here, fine⟩ := carried.starts live idle
        refine ⟨other, here, ?_⟩
        rcases fine with rests | refusing | ⟨announced, collecting⟩
        · exact Or.inl rests
        · exact Or.inr (Or.inl refusing)
        · refine Or.inr (Or.inr ⟨length, data, [], ?_, collecting⟩)
          exact ⟨past, moment, [], rfl, ⟨now, given⟩, ⟨connection, live, by rw [idle]⟩, announced,
            by simp, rfl⟩
    · rcases plans.refuses rfl refusing with stays | ⟨_, rests, _⟩
      · rw [stays] at carried
        cases carried with
        | stay connections _ _ =>
          exact ⟨connection, by rw [connections]; exact live, Or.inr (Or.inl refusing)⟩
      · rw [rests] at carried
        cases carried with
        | rest replaced => exact ⟨_, replaced.get? live, Or.inl rfl⟩
    · have further := reception.concat ⟨connection, live, collecting.phase_ne_idle⟩
      rw [taken] at further
      rcases (sound.flows handle connection live).input with idle | ⟨address, bound, _⟩
      · exact absurd (by rw [idle]) collecting.phase_ne_idle
      obtain ⟨other, here, rests | collecting⟩ :=
        carried.collects live (plans.collects rfl bound collecting)
      · exact ⟨other, here, Or.inl rests⟩
      · exact ⟨other, here, Or.inr (Or.inr ⟨length, first, _, further, collecting⟩)⟩

/-- A message is given to a listener when its only frame arrives at an idle connection, or with the
consecutive frame that completes it. -/
theorem Stack.Assembles.received (assembles : moment.before.Assembles handle past)
    (sound : moment.before.Sound) (timely : moment.step.Timely moment.before)
    {listener : Listener} {message : List UInt8}
    (told : .received listener handle message ∈ moment.news) :
    (∃ now, moment.step = .arrive now handle (.single message)) ∧ moment.before.Rests handle ∨
      ∃ now sequence data length first arrived,
        moment.step = .arrive now handle (.consecutive sequence data) ∧
        Reception handle past length first arrived ∧
        moment.taken handle = [(sequence, data)] ∧ Numbered (arrived ++ [(sequence, data)]) ∧
        (assembled first arrived).length < length ∧
        length ≤ (assembled first (arrived ++ [(sequence, data)])).length ∧
        message = (assembled first (arrived ++ [(sequence, data)])).take length := by
  rcases moment.flow_cases sound timely handle .input with
    passes | ⟨connection, now, plan, live, plans, carried⟩
  · have foreign := passes.silent _ told
    simp [Signal.isOf] at foreign
  have taken : moment.taken handle = moment.step.taken handle connection := by
    unfold Moment.taken
    rw [live, Option.elim_some]
  generalize moment.news = news at carried told
  rcases assembles connection live with idle | refusing | ⟨length, first, arrived, reception,
    collecting⟩
  · rcases plans.input_stays rfl idle with stays | ⟨only, given, stays⟩ | ⟨length, data, _, starts⟩
    · rw [stays] at carried
      cases carried with
      | stay _ _ _ => cases told
    · rw [stays] at carried
      cases carried with
      | stay _ _ _ =>
        obtain ⟨_, _, same⟩ := mem_told.mp told
        cases same
        exact Or.inl ⟨⟨now, given⟩, connection, live, by rw [idle]⟩
    · rw [starts] at carried
      exact absurd told ((carried.starts live idle).1 _ _)
  · rcases plans.refuses rfl refusing with stays | ⟨_, rests, unheard⟩
    · rw [stays] at carried
      cases carried with
      | stay _ _ _ => cases told
    · rw [rests] at carried
      cases carried with
      | rest _ => exact absurd told (unheard _ _)
  · rcases (sound.flows handle connection live).input with idle | ⟨address, bound, _⟩
    · exact absurd (by rw [idle]) collecting.phase_ne_idle
    have collects := plans.collects rfl bound collecting
    have failed (fault : Fault) :=
      connection.failure_unheard (moment.before.scope now handle) fault handle
    cases collects with
    | stay _ =>
      cases carried with
      | stay _ _ _ => cases told
    | wait _ =>
      cases carried with
      | wait _ => cases told
    | hand _ =>
      cases carried with
      | handed _ =>
        exact absurd told ((Unheard.nil handle).append (unheard_handed _ _ _ _) _ _)
      | refused fault _ attempted =>
        exact absurd told
          (((Unheard.nil handle).append (unheard_attempt handle attempted)).append (failed fault) _ _)
    | fail fault =>
      cases carried with
      | rest _ => exact absurd told (failed fault _ _)
    | finish numbered whole =>
      cases carried with
      | rest _ =>
        obtain ⟨_, _, same⟩ := mem_told.mp told
        cases same
        have received := collecting.received
        have left := collecting.left
        -- what had arrived before was short of the whole message
        rcases moment.step.taken_cases handle connection with none | ⟨at_, sequence, data, given, new⟩
        · rw [none, List.append_nil] at whole
          omega
        · rw [new] at numbered whole
          refine Or.inr ⟨at_, sequence, data, length, first, arrived, given, reception, ?_, numbered,
            by omega, whole, ?_⟩
          · rw [taken, new]
          · rw [new]

/-- What the consecutive frame that a connection awaits brings about. -/
theorem Stack.Assembles.arrives (assembles : moment.before.Assembles handle past)
    (sound : moment.before.Sound) (timely : moment.step.Timely moment.before) {now : Tick}
    {sequence : UInt8} {data : List UInt8}
    (given : moment.step = .arrive now handle (.consecutive sequence data))
    {connection : Connection} (live : moment.before.connections.get? handle = some connection)
    (waiting : connection.input.phase = .consecutiveIn) :
    ∃ length first arrived, Reception handle past length first arrived ∧ Numbered arrived ∧
      (assembled first arrived).length < length ∧
      if sequence = sequenceAfter (arrived.length + 1) then
        if length ≤ (assembled first (arrived ++ [(sequence, data)])).length then
          moment.news = told connection.onReceived
            (.received · handle ((assembled first (arrived ++ [(sequence, data)])).take length))
        else Unheard handle moment.news
      else
        moment.news = told connection.onFailed (.failed · handle .frameSequence) ∧
          moment.after.connections.get? handle = some { connection with input := {} } ∧
          moment.after.memory.used + length = moment.before.memory.used := by
  rcases assembles connection live with idle | refusing | ⟨length, first, arrived, reception,
    collecting⟩
  · simp [idle] at waiting
  · rw [show connection.input.phase = .controlOut by rw [refusing]; rfl] at waiting
    cases waiting
  have received := collecting.received
  have left := collecting.left
  refine ⟨length, first, arrived, reception, collecting.numbered, by omega, ?_⟩
  rcases (sound.flows handle connection live).input with idle | ⟨address, bound, _⟩
  · exact absurd (by rw [idle]) collecting.phase_ne_idle
  have planned : moment.before.Plans handle connection moment.step now .input
      (connection.received (moment.before.scope now handle) moment.before.memory
        (.consecutive sequence data)) := by
    rw [given]
    exact .arrive now (.consecutive sequence data)
  rcases moment.flow_cases sound timely handle .input with
    passes | ⟨found, now', plan, there, plans, carried⟩
  · exact absurd planned (passes.unplanned connection now _ live)
  rw [live] at there
  cases there
  rw [given] at plans
  obtain ⟨rfl, rfl⟩ : now' = now ∧ plan = connection.consecutiveReceived
      (moment.before.scope now handle) sequence data := by
    cases plans with
    | arrive => exact ⟨rfl, rfl⟩
  have viewed : Collecting (moment.before.scope now' handle).settings length first arrived
      connection.input := collecting
  have outcome := Connection.consecutiveReceived_cases bound viewed waiting sequence data
  generalize moment.news = news at carried ⊢
  generalize moment.after = after at carried ⊢
  split at outcome
  · rename_i next
    rw [if_pos next]
    split at outcome
    · rename_i whole
      rw [if_pos whole]
      rw [outcome] at carried
      cases carried with
      | rest _ => rfl
    · rename_i short
      rw [if_neg short]
      rcases outcome with ⟨flow, waits, _⟩ | ⟨flow, hands, _⟩
      · rw [waits] at carried
        cases carried with
        | wait _ => exact .nil handle
      · rw [hands] at carried
        cases carried with
        | handed _ => exact (Unheard.nil handle).append (unheard_handed _ _ _ _)
        | refused fault _ attempted =>
          exact ((Unheard.nil handle).append (unheard_attempt handle attempted)).append
            (connection.failure_unheard _ fault handle)
  · rename_i wrong
    rw [if_neg wrong]
    rw [outcome] at carried
    cases carried with
    | rest replaced =>
      have held : connection.input.held = length := by
        obtain ⟨rest, buffer, unfilled⟩ := collecting.buffer
        unfold Flow.held
        rw [buffer, Option.elim_some]
        unfold Buffer.size
        rw [List.length_append]
        omega
      have share := Slots.weigh_le_total Connection.held live
      have used := sound.memory
      have own : connection.input.held ≤ connection.held := Nat.le_add_left _ _
      refine ⟨rfl, replaced.get? live, ?_⟩
      rw [replaced.memory]
      show moment.before.memory.used - connection.input.held + 0 + length = _
      omega

end

/-- Whatever arrives in whatever order, a listener is given only messages that arrived in one frame
while nothing else was being received, or that are made of the bytes of a first frame and of all
consecutive frames awaited since, in order and numbered without a gap, with the first frame that
completes the announced length. A frame with any other number ends the reception. -/
theorem received_message_is_reassembled {settings : Settings} {world : ω} {start : Stack ω}
    (run : Stack.new settings world = .ok start) (calls : List (Call ω))
    {past rest : List (Moment ω)} {moment : Moment ω}
    (history : start.history calls = past ++ moment :: rest) (handle : Handle) :
    (∀ listener message, .received listener handle message ∈ moment.news →
      (∃ now, moment.step = .arrive now handle (.single message)) ∧ moment.before.Rests handle ∨
        ∃ now sequence data length first arrived,
          moment.step = .arrive now handle (.consecutive sequence data) ∧
          Reception handle past length first arrived ∧
          moment.taken handle = [(sequence, data)] ∧ Numbered (arrived ++ [(sequence, data)]) ∧
          (assembled first arrived).length < length ∧
          length ≤ (assembled first (arrived ++ [(sequence, data)])).length ∧
          message = (assembled first (arrived ++ [(sequence, data)])).take length) ∧
      ∀ now sequence data connection,
        moment.step = .arrive now handle (.consecutive sequence data) →
        moment.before.connections.get? handle = some connection →
        connection.input.phase = .consecutiveIn →
        ∃ length first arrived, Reception handle past length first arrived ∧ Numbered arrived ∧
          (assembled first arrived).length < length ∧
          if sequence = sequenceAfter (arrived.length + 1) then
            if length ≤ (assembled first (arrived ++ [(sequence, data)])).length then
              moment.news = told connection.onReceived (.received · handle
                ((assembled first (arrived ++ [(sequence, data)])).take length))
            else Unheard handle moment.news
          else
            moment.news = told connection.onFailed (.failed · handle .frameSequence) ∧
              moment.after.connections.get? handle = some { connection with input := {} } ∧
              moment.after.memory.used + length = moment.before.memory.used := by
  have base : start.Assembles handle [] := by
    obtain ⟨_, _, _, rfl⟩ := Stack.new_eq run
    intro connection here
    rw [show (Slots.ofCapacity settings.connections).get? handle = none from
      Slots.get?_ofCapacity _ _] at here
    cases here
  obtain ⟨sound, timely, assembles⟩ := (Stack.new_smooth run calls).orderly.reach history
    (fun past stack => stack.Assembles handle past) base
    fun _ _ sound timely assembles => assembles.step sound timely
  exact ⟨fun _ _ told => assembles.received sound timely told,
    fun _ _ _ _ given live waiting => assembles.arrives sound timely given live waiting⟩

def sampleStart : Frame :=
  .classic (.standard 0x7E8) 8 #v[0x10, 8, 1, 2, 3, 4, 5, 6]

/-- A message of eight bytes in a first frame and a consecutive one reaches the sample connection. -/
def sampleArrivals : List (Call Unit) :=
  [.input 0 ⟨0⟩ sampleStart,
    .input 0 ⟨0⟩ (.classic (.standard 0x7E8) 3 #v[0x21, 7, 8, 0, 0, 0, 0, 0])]

def sampleCompletion : Moment Unit where
  before := (sampleStack.calls (sampleCalls ++ sampleArrivals.take 1)).through
    [.offer ⟨0⟩ (.classic (.standard 0x7E8) 3 #v[0x21, 7, 8, 0, 0, 0, 0, 0])]
  step := .arrive 0 sampleHandle (.consecutive 1 [7, 8])

theorem sample_message_is_reassembled :
    ∃ past : List (Moment Unit),
      sampleStack.history (sampleCalls ++ sampleArrivals) = past ++ sampleCompletion :: [] ∧
      sampleCompletion.news =
        [.received (.application 0) sampleHandle [1, 2, 3, 4, 5, 6, 7, 8]] ∧
      ∃ now sequence data length first arrived,
        sampleCompletion.step = .arrive now sampleHandle (.consecutive sequence data) ∧
        Reception sampleHandle past length first arrived ∧
        [1, 2, 3, 4, 5, 6, 7, 8] = (assembled first (arrived ++ [(sequence, data)])).take length := by
  have history : sampleStack.history (sampleCalls ++ sampleArrivals) =
      (sampleStack.history (sampleCalls ++ sampleArrivals)).dropLast ++ sampleCompletion :: [] := rfl
  have news : sampleCompletion.news =
    [.received (.application 0) sampleHandle [1, 2, 3, 4, 5, 6, 7, 8]] := rfl
  have made : Stack.new {} () = .ok sampleStack := rfl
  have given := (received_message_is_reassembled made _ history sampleHandle).1 (.application 0)
    [1, 2, 3, 4, 5, 6, 7, 8] (by rw [news]; exact List.mem_singleton.mpr rfl)
  rcases given with ⟨⟨now, absurd⟩, _⟩ | ⟨now, sequence, data, length, first, arrived, given,
    reception, _, _, _, _, whole⟩
  · cases absurd
  · exact ⟨_, history, news, now, sequence, data, length, first, arrived, given, reception, whole⟩

end DiagBus
