import DiagBus.Proofs.Handovers

namespace DiagBus

variable {ω : Type}

/-- The frames whose report made a flow go on, each in the step after its report. -/
def confirmedTo (handle : Handle) (direction : Direction) (moments : List (Moment ω)) :
    List (InterfaceIndex × Frame) :=
  (moments.zip moments.tail).filterMap fun (report, moment) =>
    if moment.confirms handle direction then report.reported? else none

theorem zip_tail_concat {α : Type} (early : List α) (last final : α) :
    ((early ++ [last]) ++ [final]).zip ((early ++ [last]) ++ [final]).tail =
      (early ++ [last]).zip (early ++ [last]).tail ++ [(last, final)] := by
  induction early with
  | nil => rfl
  | cons first early ih =>
    cases early with
    | nil => rfl
    | cons second early => exact congrArg ((first, second) :: ·) ih

theorem confirmedTo_concat {handle : Handle} {direction : Direction}
    {moments : List (Moment ω)} (some : moments ≠ []) (moment : Moment ω) :
    confirmedTo handle direction (moments ++ [moment]) = confirmedTo handle direction moments ++
      if moment.confirms handle direction then (justReported moments).toList else [] := by
  obtain ⟨early, last, rfl⟩ := (List.eq_nil_or_concat' moments).resolve_left some
  unfold confirmedTo justReported
  rw [zip_tail_concat, List.filterMap_append, List.getLast?_concat]
  congr 1
  cases confirmed : moment.confirms handle direction with
  | false => simp [confirmed]
  | true =>
    cases reported : last.reported? with
    | none => simp [confirmed, reported]
    | some report => simp [confirmed, reported]

theorem confirmedTo_concat_idle {handle : Handle} {direction : Direction}
    {moments : List (Moment ω)} {moment : Moment ω} (some : moments ≠ [])
    (quiet : moment.confirms handle direction = false) :
    confirmedTo handle direction (moments ++ [moment]) = confirmedTo handle direction moments := by
  rw [confirmedTo_concat some, quiet, if_neg Bool.false_ne_true, List.append_nil]

/-- All that a flow handed over is confirmed, but for the frame whose confirmation it awaits. -/
def Flow.Accounts (flow : Flow) (handed confirmed : List (InterfaceIndex × Frame)) : Prop :=
  if flow.unconfirmed then ∃ last, handed = confirmed ++ [last] else handed = confirmed

/-- A plan of a busy sending flow agrees with whether the flow awaits a confirmation and whether
there is one. -/
def Plan.Agrees (plan : Plan) (handle : Handle) (awaiting confirmed : Bool) : Prop :=
  match plan with
  | .stay _ => confirmed = false
  | .wait flow => flow.unconfirmed = (awaiting && !confirmed)
  | .hand _ _ _ _ _ => awaiting = confirmed
  | .rest news => ∀ listener length, .sent listener handle length ∈ news → confirmed = true

section

variable {moment : Moment ω} {handle : Handle} {direction : Direction}

theorem Connection.next_agrees (connection : Connection) (scope : Scope ω) (flow : Flow)
    (same : Bool) : (connection.next scope flow).Agrees handle same same := by
  unfold Connection.next
  have silent (fault : Fault) : ∀ listener length,
      .sent listener handle length ∈ connection.failure scope fault → same = true :=
    fun listener length told => absurd told (connection.sent_not_mem_failure _ _ _ _)
  cases connection.address with
  | none => exact silent _
  | some address =>
    simp only []
    cases (address.encoder scope.settings).nextFrame? flow with
    | none => exact silent _
    | some found => rfl

theorem Connection.outputConfirmed_agrees {connection : Connection} (scope : Scope ω)
    (stage : connection.output.Stage) : (connection.outputConfirmed scope).Agrees handle
      connection.output.unconfirmed connection.output.unconfirmed := by
  unfold Connection.outputConfirmed
  cases unconfirmed : connection.output.unconfirmed with
  | false => rfl
  | true =>
    simp only [Bool.not_true, Bool.false_eq_true, if_false]
    rcases stage with ⟨phase, _⟩ | ⟨phase, _⟩ | ⟨_, confirmed, _⟩ | ⟨phase, _⟩
    · simp only [phase]
      exact fun _ _ _ => rfl
    · simp only [phase]
      rfl
    · rw [confirmed] at unconfirmed
      cases unconfirmed
    · simp only [phase]
      split
      · exact fun _ _ _ => rfl
      · split
        · rfl
        · split
          · exact connection.next_agrees scope _ true
          · rfl

theorem Connection.controlReceived_agrees {connection : Connection} (scope : Scope ω)
    (stage : connection.output.Stage) (status : FlowStatus) (blockSize separation : UInt8) :
    (connection.controlReceived scope status blockSize separation).Agrees handle
      connection.output.unconfirmed false := by
  unfold Connection.controlReceived
  by_cases elsewhere : connection.output.phase ≠ .controlIn
  · rw [if_pos elsewhere]
    rfl
  · simp only [elsewhere, if_false]
    have confirmed := (stage.of_control (not_not.mp elsewhere)).1
    have silent (fault : Fault) : ∀ listener length,
        .sent listener handle length ∈ connection.failure scope fault → false = true :=
      fun listener length told => absurd told (connection.sent_not_mem_failure _ _ _ _)
    cases status with
    | continueToSend =>
      rw [confirmed]
      exact connection.next_agrees scope _ false
    | wait =>
      simp only []
      split
      · exact silent _
      · exact (Bool.and_true _).symm
    | overflow => exact silent _
    | reserved nibble => exact silent _

theorem Connection.expired_agrees {connection : Connection} (scope : Scope ω) {alarm : Alarm}
    (own : alarm.direction = .output) : (connection.expired scope alarm).Agrees handle
      connection.output.unconfirmed false := by
  unfold Connection.expired
  cases alarm with
  | output name =>
    simp only []
    split
    · rfl
    · exact fun listener length told => absurd told (connection.sent_not_mem_failure _ _ _ _)
  | input name => cases own
  | separation name =>
    simp only []
    split
    · rename_i pausing
      rw [show connection.output.unconfirmed = false by simpa using pausing.2]
      exact connection.next_agrees scope _ false
    · rfl

/-- A flow that goes on because of a confirmation carries out a plan. -/
theorem Moment.Passes.not_confirms (passes : moment.Passes handle direction)
    (sound : moment.before.Sound) : moment.confirms handle direction = false := by
  by_contra confirms
  have confirms : moment.confirms handle direction = true := (Bool.not_eq_false _).mp confirms
  obtain ⟨_, connection, live, _⟩ := Moment.confirms_iff.mp confirms
  obtain ⟨_, now, plans⟩ := Moment.plans_of_confirms confirms sound live
  exact passes.unplanned connection now _ live plans

/-- What a plan of a busy sending flow is for. -/
theorem Stack.Plans.agrees {connection : Connection} {now : Tick} {plan : Plan}
    (plans : moment.before.Plans handle connection moment.step now direction plan)
    (own : direction = .output) (live : moment.before.connections.get? handle = some connection)
    (busy : connection.output.isIdle = false) (stage : connection.output.Stage) :
    plan.Agrees handle connection.output.unconfirmed (moment.confirms handle .output) := by
  rw [Moment.confirms_eq live]
  obtain ⟨before, step⟩ := moment
  cases plans with
  | submit _ message =>
    rw [Exchange.submitted_busy busy]
    rfl
  | arrive _ pdu =>
    cases pdu with
    | flowControl status blockSize separation =>
      exact Connection.controlReceived_agrees _ stage status blockSize separation
    | _ => cases own
  | confirm _ direction =>
    cases own
    have here : (Step.confirm now handle .output : Step ω).confirms before.confirmations handle
        .output = true := decide_eq_true ⟨rfl, rfl⟩
    rw [here, Bool.true_and]
    exact Connection.outputConfirmed_agrees _ stage
  | settle _ noted =>
    cases own
    have here : (Step.settle now : Step ω).confirms before.confirmations handle .output = true :=
      decide_eq_true (congrArg List.head? noted)
    rw [here, Bool.true_and]
    exact Connection.outputConfirmed_agrees _ stage
  | expire _ due named => exact Connection.expired_agrees _ own

/-- Success is told in the step of a confirmation. -/
theorem Moment.sent_confirms (sound : moment.before.Sound)
    (timely : moment.step.Timely moment.before) {listener : Listener} {length : Nat}
    (told : .sent listener handle length ∈ moment.news) :
    moment.confirms handle .output = true := by
  obtain ⟨connection, now, live, busy, plans, news⟩ := moment.finishes sound timely told
  rw [news] at told
  rcases (sound.flows handle connection live).output with
    free | ⟨address, message, emitted, bound, underway⟩
  · rw [free] at busy
    cases busy
  · exact plans.agrees rfl live busy underway.stage listener length told

theorem Moment.handovers_hands (moment : Moment ω) (handle : Handle) :
    (moment.handovers.filter (·.origin = .flow handle .output)).map
      (fun handover => (handover.index, handover.frame)) = moment.hands handle := by
  unfold Moment.handovers Moment.hands
  rw [List.filter_filterMap, List.map_filterMap]
  refine congrFun (congrArg List.filterMap (funext fun signal => ?_)) _
  cases signal with
  | handed origin index frame =>
    cases origin with
    | flow connection direction =>
      simp only [Signal.handover?, Signal.handed?]
      split <;> simp_all
    | raw subscription => rfl
  | _ => rfl

theorem lastHandover?_hands (past : List (Moment ω)) (handle : Handle) :
    (lastHandover? past (·.origin = .flow handle .output)).map
      (fun handover => (handover.index, handover.frame)) =
        (past.flatMap (·.hands handle)).getLast? := by
  unfold lastHandover?
  rw [← List.getLast?_map, List.filter_flatMap, List.map_flatMap]
  simp only [Moment.handovers_hands]

/-- What the sending flow of a connection has handed over in these moments, and what of it was
confirmed. -/
def Stack.Accounts (stack : Stack ω) (handle : Handle) (moments : List (Moment ω)) : Prop :=
  ∀ connection, stack.connections.get? handle = some connection →
    connection.output.isIdle = false →
      connection.output.Accounts (moments.flatMap (·.hands handle))
        (confirmedTo handle .output moments)

section

variable {flow : Flow} {moments : List (Moment ω)}

/-- A confirmation completes the account of what was handed over so far. -/
theorem Flow.Accounts.confirmed
    (accounts : flow.Accounts (moments.flatMap (·.hands handle))
      (confirmedTo handle .output moments)) (some : moments ≠ [])
    (unconfirmed : flow.unconfirmed = true) (confirms : moment.confirms handle .output = true)
    (reports : justReported moments = (moments.flatMap (·.hands handle)).getLast?) :
    confirmedTo handle .output (moments ++ [moment]) = moments.flatMap (·.hands handle) := by
  unfold Flow.Accounts at accounts
  rw [if_pos unconfirmed] at accounts
  obtain ⟨last, handed⟩ := accounts
  rw [handed, List.getLast?_concat] at reports
  rw [confirmedTo_concat some, if_pos confirms, reports, handed]
  rfl

/-- When the next frame may be handed over, all earlier ones are confirmed. -/
theorem Flow.Accounts.complete
    (accounts : flow.Accounts (moments.flatMap (·.hands handle))
      (confirmedTo handle .output moments)) (some : moments ≠ [])
    (agrees : flow.unconfirmed = moment.confirms handle .output)
    (reports : moment.confirms handle .output = true →
      justReported moments = (moments.flatMap (·.hands handle)).getLast?) :
    confirmedTo handle .output (moments ++ [moment]) = moments.flatMap (·.hands handle) := by
  cases confirms : moment.confirms handle .output with
  | true => exact accounts.confirmed some (agrees.trans confirms) confirms (reports confirms)
  | false =>
    unfold Flow.Accounts at accounts
    rw [agrees, confirms, if_neg Bool.false_ne_true] at accounts
    rw [confirmedTo_concat_idle some confirms, accounts]

/-- A flow that hands nothing over may see its last frame confirmed. -/
theorem Flow.Accounts.waits {next : Flow}
    (accounts : flow.Accounts (moments.flatMap (·.hands handle))
      (confirmedTo handle .output moments)) (some : moments ≠ [])
    (agrees : next.unconfirmed = (flow.unconfirmed && !moment.confirms handle .output))
    (awaited : moment.confirms handle .output = true → flow.unconfirmed = true)
    (reports : moment.confirms handle .output = true →
      justReported moments = (moments.flatMap (·.hands handle)).getLast?) :
    next.Accounts (moments.flatMap (·.hands handle))
      (confirmedTo handle .output (moments ++ [moment])) := by
  cases confirms : moment.confirms handle .output with
  | false =>
    rw [confirms, Bool.not_false, Bool.and_true] at agrees
    rw [confirmedTo_concat_idle some confirms]
    unfold Flow.Accounts at accounts ⊢
    rw [agrees]
    exact accounts
  | true =>
    rw [confirms, Bool.not_true, Bool.and_false] at agrees
    rw [accounts.confirmed some (awaited confirms) confirms (reports confirms)]
    unfold Flow.Accounts
    rw [agrees]
    rfl

end

/-- Each step hands over the next frame only if all earlier ones are confirmed. -/
theorem Stack.Accounts.step {moments : List (Moment ω)}
    (accounts : moment.before.Accounts handle moments) (some : moments ≠ [])
    (sound : moment.before.Sound) (timely : moment.step.Timely moment.before)
    (only : ∀ other, ¬moment.Accepts handle other)
    (reports : moment.confirms handle .output = true →
      justReported moments = (moments.flatMap (·.hands handle)).getLast?) :
    moment.after.Accounts handle (moments ++ [moment]) := by
  intro connection here busy
  rw [List.flatMap_append, List.flatMap_singleton]
  rcases moment.flow_cases sound timely handle .output with
    passes | ⟨earlier, now, plan, live, plans, carried⟩
  · rw [confirmedTo_concat_idle some (passes.not_confirms sound), passes.offers.1, List.append_nil]
    rcases passes.leaves connection here with ⟨_, rfl⟩ | ⟨earlier, live, flow, _⟩
    · cases busy
    · have same : connection.output = earlier.output := flow
      rw [same] at busy ⊢
      exact accounts earlier live busy
  · rcases (sound.flows handle earlier live).output with
      free | ⟨address, message, emitted, bound, underway⟩
    · have idle := moment.rests sound timely only (fun other found => by
        rw [live] at found
        cases found
        exact free) connection here
      rw [idle] at busy
      cases busy
    · have before := accounts earlier live underway.not_idle
      have agrees := plans.agrees rfl live underway.not_idle underway.stage
      have sends := plans.sends rfl bound underway
      have awaited (confirms : moment.confirms handle .output = true) :
          earlier.output.unconfirmed = true := by
        obtain ⟨_, other, found, unconfirmed⟩ := Moment.confirms_iff.mp confirms
        rw [live] at found
        cases found
        exact unconfirmed
      have hands : moment.hands handle = moment.news.filterMap (·.handed? handle .output) := rfl
      generalize moment.after = after at carried here
      generalize moment.news = news at carried hands
      have ended {noted : Bool}
          (replaced : moment.before.Replaced handle earlier .output {} noted after) : False := by
        rw [replaced.get? live] at here
        cases here
        cases busy
      cases sends with
      | stay =>
        obtain ⟨rfl, same⟩ := carried.of_stay
        rw [same, live] at here
        cases here
        rw [confirmedTo_concat_idle some agrees, hands, List.filterMap_nil, List.append_nil]
        exact before
      | wait _ =>
        cases carried with
        | wait replaced =>
          rw [replaced.get? live] at here
          cases here
          rw [hands, List.filterMap_nil, List.append_nil]
          exact before.waits some agrees awaited reports
      | @hand frame _ _ _ =>
        cases carried with
        | handed replaced =>
          rw [replaced.get? live] at here
          cases here
          have next : moment.hands handle = [(address.interface, frame)] := by
            rw [hands]
            simp [Signal.handed?]
          rw [next, before.complete some agrees reports]
          exact ⟨_, rfl⟩
        | refused fault replaced _ => exact (ended replaced).elim
      | fail fault =>
        cases carried with
        | rest replaced => exact (ended replaced).elim
      | finish _ _ =>
        cases carried with
        | rest replaced => exact (ended replaced).elim

theorem Moment.Accepts.accounts {taking : Moment ω} {message : List UInt8}
    (taken : taking.Accepts handle message) (sound : taking.before.Sound)
    (timely : taking.step.Timely taking.before) :
    taking.hands handle ≠ [] ∧ taking.after.Accounts handle [taking] := by
  obtain ⟨connection, address, frame, flow, confirmed, live, _, _, replaced, news⟩ :=
    taken.starts sound timely
  have hands : taking.hands handle = [(address.interface, frame)] := by
    simp [Moment.hands, news, Signal.handed?]
  refine ⟨by simp [hands], fun other here busy => ?_⟩
  rw [replaced.get? live] at here
  cases here
  refine ⟨(address.interface, frame), ?_⟩
  simp [hands, confirmedTo]

/-- The message that a connection took last, if it ever took one. -/
theorem last_accepted (handle : Handle) (past : List (Moment ω)) :
    (∀ moment ∈ past, ∀ other, ¬moment.Accepts handle other) ∨
      ∃ early taking later message, past = early ++ taking :: later ∧
        taking.Accepts handle message ∧
        ∀ moment ∈ later, ∀ other, ¬moment.Accepts handle other := by
  induction past using List.reverseRecOn with
  | nil => exact Or.inl (by simp)
  | append_singleton past moment ih =>
    by_cases takes : ∃ message, moment.Accepts handle message
    · obtain ⟨message, taken⟩ := takes
      exact Or.inr ⟨past, moment, [], message, rfl, taken, by simp⟩
    · have here : ∀ other, ¬moment.Accepts handle other := not_exists.mp takes
      rcases ih with never | ⟨early, taking, later, message, rfl, taken, only⟩
      · exact Or.inl (by simpa [or_imp, forall_and] using ⟨never, here⟩)
      · exact Or.inr ⟨early, taking, later ++ [moment], message, by simp, taken,
          by simpa [or_imp, forall_and] using ⟨only, here⟩⟩

/-- From the step on in which a message is taken only its own frames matter. -/
theorem Attributes.since {history early past rest : List (Moment ω)} {taking : Moment ω}
    (attributes : Attributes history)
    (whole : history = early ++ taking :: (past ++ moment :: rest))
    (some : taking.hands handle ≠ []) (confirms : moment.confirms handle .output = true) :
    justReported (taking :: past) = ((taking :: past).flatMap (·.hands handle)).getLast? := by
  obtain ⟨index, frame, reported, handed⟩ := attributes (early ++ taking :: past) moment rest
    (by rw [whole, List.append_assoc, List.cons_append]) handle .output confirms
  have last := lastHandover?_hands (early ++ taking :: past) handle
  unfold justReported at reported ⊢
  rw [List.getLast?_append_of_ne_nil _ (List.cons_ne_nil _ _)] at reported
  rw [handed, List.flatMap_append, List.getLast?_append_of_ne_nil _ (by simp [some])] at last
  rw [reported, ← last]
  rfl

/-- A connection tells success when all frames of the message that it took last are confirmed. -/
theorem Stack.Orderly.success {stack : Stack ω} {steps : List (Step ω)}
    (orderly : stack.Orderly steps) (fresh : ∀ handle, stack.connections.get? handle = none)
    (attributes : Attributes (stack.moments steps)) {past rest : List (Moment ω)}
    (whole : stack.moments steps = past ++ moment :: rest) {listener : Listener} {length : Nat}
    (told : .sent listener handle length ∈ moment.news) :
    ∃ early taking later message connection address frames,
      past = early ++ taking :: later ∧ taking.Accepts handle message ∧
      (∀ moment ∈ later, ∀ other, ¬moment.Accepts handle other) ∧
      taking.before.connections.get? handle = some connection ∧
      connection.address = some address ∧
      (address.encoder stack.settings).Segments message frames ∧
      confirmedTo handle .output (taking :: (later ++ [moment])) =
        frames.map (address.interface, ·) := by
  obtain ⟨sound, timely⟩ := orderly moment (by rw [whole]; simp)
  obtain ⟨last, _, live, busy, _⟩ := moment.finishes sound timely told
  have confirms := moment.sent_confirms sound timely told
  rcases last_accepted handle past with
    never | ⟨early, taking, later, message, rfl, taken, only⟩
  · obtain ⟨first, second, parts, firsts, lasts⟩ := Stack.moments_split whole
    obtain ⟨_, _, here, _⟩ := Stack.moments_cons lasts
    rw [parts, Stack.Orderly.append_iff] at orderly
    have idle := orderly.1.along (fun _ stack => ∀ connection,
        stack.connections.get? handle = some connection → connection.output = {})
      (fun connection found => by rw [fresh handle] at found; cases found)
      fun past moment rest inside sound timely idle =>
        moment.rests sound timely (never moment (by rw [← firsts, inside]; simp)) idle
    rw [← here] at idle
    rw [idle last live] at busy
    cases busy
  · have cut : stack.moments steps = early ++ taking :: (later ++ moment :: rest) := by
      rw [whole, List.append_assoc, List.cons_append]
    obtain ⟨same, begins, opens, middle, final, inside, following, lasts⟩ := orderly.stretch cut
    obtain ⟨_, _, here, _⟩ := Stack.moments_cons lasts
    obtain ⟨some, base⟩ := taken.accounts begins opens
    obtain ⟨connection, address, _, bound, addressed, _, transmits⟩ :=
      taken.transmits same begins opens
    have accounts := inside.along (fun past stack => stack.Accounts handle (taking :: past)) base
      fun past moment rest' part sound timely accounts => by
        rw [following] at part
        refine accounts.step (List.cons_ne_nil _ _) sound timely
          (only moment (by rw [part]; simp)) fun confirms => ?_
        exact attributes.since (by rw [cut, part, List.append_assoc, List.cons_append]) some
          confirms
    have run := Stack.Transmits.run inside ((taking.step.settings_run _).trans same) transmits
      (by rw [following]; exact only)
    rw [following, ← here] at accounts run
    have handed := (run.2.sent run.1 sound timely told).2
    obtain ⟨_, found, there, unconfirmed⟩ := Moment.confirms_iff.mp confirms
    rw [live] at there
    cases there
    have complete := (accounts last live busy).confirmed (List.cons_ne_nil _ _) unconfirmed
      confirms (attributes.since cut some confirms)
    exact ⟨early, taking, later, message, connection, address, _, rfl, taken, only, bound,
      addressed, Encoder.segmentation_segments _ message, complete.trans handed⟩

end

/-- As long as flows do not compete for confirmations, whatever is reported late or never and
whatever runs out of time: a flow goes on only because the frame that it handed over last is
confirmed, and success is told of a message when all its frames are confirmed, in order. -/
theorem confirmations_are_attributed {settings : Settings} {world : ω} {start : Stack ω}
    (run : Stack.new settings world = .ok start) (calls : List (Call ω))
    (deferred : ∀ call ∈ calls, call.Defers) (uncontested : Uncontested (start.history calls)) :
    Attributes (start.history calls) ∧
      ∀ past moment rest, start.history calls = past ++ moment :: rest →
        ∀ handle listener length, .sent listener handle length ∈ moment.news →
          ∃ early taking later message connection address frames,
            past = early ++ taking :: later ∧ taking.Accepts handle message ∧
            (∀ moment ∈ later, ∀ other, ¬moment.Accepts handle other) ∧
            taking.before.connections.get? handle = some connection ∧
            connection.address = some address ∧
            (address.encoder settings).Segments message frames ∧
            confirmedTo handle .output (taking :: (later ++ [moment])) =
              frames.map (address.interface, ·) := by
  have smooth := Stack.new_smooth run calls
  obtain ⟨_, _, _, created⟩ := Stack.new_eq run
  have fresh : ∀ handle, start.connections.get? handle = none := by
    intro handle
    rw [created]
    exact Slots.get?_ofCapacity _ _
  have defers : start.registry.Defers := by
    rw [created]
    exact .ofCapacity _
  have same : start.settings = settings := by rw [created]
  have attributes : Attributes (start.history calls) :=
    smooth.orderly.attributes (Stack.steps_warranted deferred defers) defers
      (Stack.new_sound run).2 (.of_idle fresh) uncontested
  refine ⟨attributes, fun past moment rest whole handle listener length told => ?_⟩
  rw [← same]
  exact smooth.orderly.success fresh attributes whole told

def sampleFraming : Encoder :=
  sampleAddress.encoder {}

def sampleMessage : List UInt8 :=
  [1, 2, 3, 4, 5, 6, 7, 8, 9]

/-- A message of two frames is sent, and both are reported. -/
def sampleReports : List (Call Unit) :=
  sampleOpening ++ [.send 0 sampleHandle sampleMessage,
    .sent 1 ⟨0⟩ (sampleFraming.first 9 sampleMessage).1,
    .input 2 ⟨0⟩ (.classic (.standard 0x7E8) 3 #v[0x30, 0, 0, 0, 0, 0, 0, 0]),
    .sent 3 ⟨0⟩ (sampleFraming.consecutive 1 (sampleMessage.drop 6)).1]

/-- What holds at every position of a list holds wherever the list is cut. -/
theorem forall_cut_of_forall_lt {α : Type} {list : List α} {holds : List α → α → Prop}
    (all : ∀ i (inside : i < list.length), holds (list.take i) list[i]) :
    ∀ early value late, list = early ++ value :: late → holds early value := by
  rintro early value late rfl
  have here := all early.length (by simp)
  simpa using here

theorem sampleReports_uncontested : Uncontested (sampleStack.history sampleReports) := by
  have latest : ∀ past (moment : Moment Unit) rest,
      sampleStack.history sampleReports = past ++ moment :: rest →
        ∀ report ∈ moment.reported?, moment.before.contenders (report.2.kind report.1) ≠ [] →
          (lastHandover? past (·.isOf (report.2.kind report.1))).map
            (fun handover => (handover.index, handover.frame)) = some report :=
    forall_cut_of_forall_lt (by decide +kernel)
  refine ⟨by decide +kernel, fun past moment rest whole index frame reported some => ?_⟩
  obtain ⟨⟨origin, _, _⟩, found, same⟩ :=
    Option.map_eq_some_iff.mp (latest past moment rest whole _ reported some)
  cases same
  exact ⟨origin, found⟩

theorem sample_confirmations_are_attributed :
    Stack.new {} () = .ok sampleStack ∧ (∀ call ∈ sampleReports, call.Defers) ∧
      Uncontested (sampleStack.history sampleReports) ∧
      Attributes (sampleStack.history sampleReports) ∧
      .sent (.application 1) sampleHandle 9 ∈
        (sampleStack.calls sampleReports).outside.signals := by
  have made : Stack.new {} () = .ok sampleStack := rfl
  have deferred : ∀ call ∈ sampleReports, call.Defers := by
    simp [sampleReports, sampleOpening, Call.Defers, Interface.deferring]
  obtain ⟨attributes, _⟩ :=
    confirmations_are_attributed made sampleReports deferred sampleReports_uncontested
  exact ⟨made, deferred, sampleReports_uncontested, attributes, by decide +kernel⟩

/-- A message runs out of time, the next is handed over, and then the first is reported. -/
def sampleLateReport : List (Call Unit) :=
  sampleOpening ++ [.send 0 sampleHandle [0x3E, 0x00], .checkAlarms 1000,
    .send 1000 sampleHandle [0x10, 0x03],
    .sent 1001 ⟨0⟩ (sampleFraming.frame [2, 0x3E, 0x00])]

/-- A frame that was given up is reported once and in order, and the frame behind it counts as
confirmed: success is told of a message that nobody reported. -/
theorem late_report_confirms_next_frame :
    Stack.new {} () = .ok sampleStack ∧ (∀ call ∈ sampleLateReport, call.Defers) ∧
      ((sampleStack.history sampleLateReport).flatMap Moment.handovers).map (·.frame) =
        [sampleFraming.frame [2, 0x3E, 0x00], sampleFraming.frame [2, 0x10, 0x03]] ∧
      (sampleStack.history sampleLateReport).filterMap (·.reported?) =
        [(⟨0⟩, sampleFraming.frame [2, 0x3E, 0x00])] ∧
      .sent (.application 1) sampleHandle 2 ∈
        (sampleStack.calls sampleLateReport).outside.signals ∧
      ¬Attributes (sampleStack.history sampleLateReport) := by
  refine ⟨rfl, ?_, by decide +kernel, by decide +kernel, by decide +kernel, fun attributes => ?_⟩
  · simp [sampleLateReport, sampleOpening, Call.Defers, Interface.deferring]
  · have inside : 8 < (sampleStack.history sampleLateReport).length := by decide +kernel
    have confirms : (sampleStack.history sampleLateReport)[8].confirms sampleHandle .output =
        true := by decide +kernel +revert
    obtain ⟨index, frame, reported, handed⟩ := attributes
      _ _ _ (eq_take_cons_drop (List.getElem?_eq_getElem inside)) sampleHandle .output confirms
    have first : (justReported ((sampleStack.history sampleLateReport).take 8)).map (·.2) =
        some (sampleFraming.frame [2, 0x3E, 0x00]) := by decide +kernel
    have second : (lastHandover? ((sampleStack.history sampleLateReport).take 8)
        (·.origin = .flow sampleHandle .output)).map (·.frame) =
          some (sampleFraming.frame [2, 0x10, 0x03]) := by decide +kernel
    rw [reported] at first
    rw [handed] at second
    have apart : sampleFraming.frame [2, 0x3E, 0x00] ≠ sampleFraming.frame [2, 0x10, 0x03] := by
      decide +kernel
    exact apart ((Option.some.inj first).symm.trans (Option.some.inj second))

end DiagBus
