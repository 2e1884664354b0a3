import DiagBus.Proofs.Plans

namespace DiagBus

variable {ω : Type}

/-- The bytes of a first frame and of the consecutive frames after it. -/
def assembled (first : List UInt8) (arrived : List (UInt8 × List UInt8)) : List UInt8 :=
  first ++ (arrived.map (·.2)).flatten

/-- Consecutive frames are numbered from 1 on, modulo 16. -/
def Numbered (arrived : List (UInt8 × List UInt8)) : Prop :=
  ∀ i entry, arrived[i]? = some entry → entry.1 = sequenceAfter (i + 1)

/-- The flow is receiving a message of `length` bytes. It took the bytes `first` of the first frame
and the consecutive frames `arrived`, which do not make up the whole message. -/
structure Collecting (settings : Settings) (length : Nat) (first : List UInt8)
    (arrived : List (UInt8 × List UInt8)) (flow : Flow) : Prop where
  buffer : ∃ rest, flow.buffer = some ⟨assembled first arrived ++ rest⟩ ∧
    rest.length = flow.remaining
  total : flow.total = length
  received : (assembled first arrived).length + flow.remaining = length
  left : 0 < flow.remaining
  numbered : Numbered arrived
  sequence : flow.sequence = sequenceAfter (arrived.length + 1)
  status : flow.status = some .continueToSend
  blockSize : flow.blockSize = settings.blockSize
  stage : flow.phase = .controlOut ∧ flow.unconfirmed = true ∨
    flow.phase = .consecutiveIn ∧ flow.unconfirmed = false

/-- The flow has answered a first frame that there is no memory for. -/
def Flow.Refusing (flow : Flow) : Prop :=
  flow = { overflowFlow with unconfirmed := true }

/-- The consecutive frame that a unit of the peer is for a connection that awaits one. -/
def Connection.taken (connection : Connection) : Pdu → List (UInt8 × List UInt8)
  | .consecutive sequence data =>
    if connection.input.phase = .consecutiveIn then [(sequence, data)] else []
  | _ => []

/-- What becomes of a reception that the frames `arrived` have made so far, the last of them just
now. -/
inductive Connection.Collects (connection : Connection) (scope : Scope ω) (address : Address)
    (length : Nat) (first : List UInt8) (arrived : List (UInt8 × List UInt8)) : Plan → Prop
  | stay (collecting : Collecting scope.settings length first arrived connection.input) :
      Collects connection scope address length first arrived (.stay [])
  | wait {flow : Flow} (collecting : Collecting scope.settings length first arrived flow) :
      Collects connection scope address length first arrived (.wait flow)
  | hand {frame : Frame} {flow : Flow} (collecting : Collecting scope.settings length first arrived
        { flow with unconfirmed := true }) :
      Collects connection scope address length first arrived
        (.hand [] address.interface frame flow (connection.failure scope))
  | fail (fault : Fault) (reason : fault ∈ Direction.faults .input) :
      Collects connection scope address length first arrived
        (.rest (connection.failure scope fault))
  | finish (numbered : Numbered arrived) (whole : length ≤ (assembled first arrived).length) :
      Collects connection scope address length first arrived
        (.rest (told connection.onReceived
          (.received · scope.handle ((assembled first arrived).take length))))

theorem assembled_concat (first : List UInt8) (arrived : List (UInt8 × List UInt8))
    (sequence : UInt8) (data : List UInt8) :
    assembled first (arrived ++ [(sequence, data)]) = assembled first arrived ++ data := by
  simp [assembled]

theorem Numbered.concat {arrived : List (UInt8 × List UInt8)} (numbered : Numbered arrived)
    (data : List UInt8) :
    Numbered (arrived ++ [(sequenceAfter (arrived.length + 1), data)]) := by
  intro i entry here
  rcases Nat.lt_or_ge i arrived.length with earlier | later
  · rw [List.getElem?_append_left earlier] at here
    exact numbered i entry here
  · rw [List.getElem?_append_right later] at here
    rcases Nat.eq_zero_or_pos (i - arrived.length) with last | beyond
    · have position : i = arrived.length := by omega
      rw [last, List.getElem?_cons_zero, Option.some.injEq] at here
      rw [← here, position]
    · rw [List.getElem?_eq_none (by simpa using Nat.succ_le_of_lt beyond)] at here
      cases here

/-- Writing behind what is there already. -/
theorem Buffer.write_behind {start rest data : List UInt8} (fits : data.length ≤ rest.length) :
    (Buffer.write ⟨start ++ rest⟩ start.length data).2 =
      ⟨start ++ data ++ rest.drop data.length⟩ := by
  unfold Buffer.write Buffer.size
  simp [Nat.min_eq_right fits]

theorem Collecting.offset {settings : Settings} {length : Nat} {first : List UInt8}
    {arrived : List (UInt8 × List UInt8)} {flow : Flow}
    (collecting : Collecting settings length first arrived flow) :
    flow.offset = (assembled first arrived).length := by
  have received := collecting.received
  unfold Flow.offset
  rw [collecting.total]
  omega

theorem Collecting.not_idle {settings : Settings} {length : Nat} {first : List UInt8}
    {arrived : List (UInt8 × List UInt8)} {flow : Flow}
    (collecting : Collecting settings length first arrived flow) : flow.isIdle = false := by
  unfold Flow.isIdle
  rcases collecting.stage with ⟨phase, _⟩ | ⟨phase, _⟩ <;> simp [phase]

/-- With the last frame the buffer holds the whole message; before that it holds all bytes that
have arrived, and none of the frame's bytes is dropped. -/
theorem Collecting.collect {settings : Settings} {length : Nat} {first : List UInt8}
    {arrived : List (UInt8 × List UInt8)} {flow : Flow}
    (collecting : Collecting settings length first arrived flow) (sequence : UInt8)
    (data : List UInt8) :
    if flow.remaining ≤ data.length then
      (flow.collect data).remaining = 0 ∧ (flow.collect data).buffer =
        some ⟨(assembled first (arrived ++ [(sequence, data)])).take length⟩
    else
      (flow.collect data).remaining = flow.remaining - data.length ∧
        ∃ rest, (flow.collect data).buffer =
          some ⟨assembled first (arrived ++ [(sequence, data)]) ++ rest⟩ ∧
          rest.length = flow.remaining - data.length := by
  obtain ⟨rest, buffer, unfilled⟩ := collecting.buffer
  have received := collecting.received
  have fits : (data.take (min flow.remaining data.length)).length ≤ rest.length := by
    simp only [List.length_take]
    omega
  have written : (flow.collect data).buffer = some ⟨assembled first arrived ++
      data.take (min flow.remaining data.length) ++
        rest.drop (data.take (min flow.remaining data.length)).length⟩ := by
    unfold Flow.collect
    rw [buffer, collecting.offset]
    simp only [Option.map_some, Buffer.write_behind fits]
  rw [assembled_concat]
  split
  · rename_i enough
    have count : min flow.remaining data.length = flow.remaining := by omega
    refine ⟨?_, ?_⟩
    · show flow.remaining - min flow.remaining data.length = 0
      omega
    · have all : length = (assembled first arrived).length + flow.remaining := by omega
      have filled : rest.drop (data.take flow.remaining).length = [] := by
        rw [List.drop_eq_nil_iff, List.length_take]
        omega
      rw [written, count, filled, List.append_nil, all, List.take_length_add_append]
  · rename_i short
    have count : min flow.remaining data.length = data.length := by omega
    refine ⟨?_, rest.drop data.length, ?_, ?_⟩
    · show flow.remaining - min flow.remaining data.length = _
      rw [count]
    · rw [written, count, List.take_length]
    · rw [List.length_drop, unfilled]

section

variable {connection : Connection} {scope : Scope ω} {address : Address} {length : Nat}
  {first : List UInt8} {arrived : List (UInt8 × List UInt8)}

/-- The frame that lets the peer send its next block. -/
def Address.invitation (address : Address) (settings : Settings) : Frame :=
  (address.encoder settings).flowControl .continueToSend settings.blockSize settings.separation

theorem Connection.answer_eq (scope : Scope ω) (bound : connection.address = some address)
    (news : List Signal) (flow : Flow) : connection.answer scope news flow =
      .hand news address.interface
        ((address.encoder scope.settings).flowControl (flow.status.getD .continueToSend)
          flow.blockSize scope.settings.separation) flow (connection.failure scope) := by
  unfold Connection.answer
  rw [bound]

/-- A consecutive frame that is awaited ends the reception if it has a wrong number, completes the
message if that has all its bytes now, and else is one more of the frames that arrived. After the
last frame of a block the peer is asked for the next one. -/
theorem Connection.consecutiveReceived_cases (bound : connection.address = some address)
    (collecting : Collecting scope.settings length first arrived connection.input)
    (waiting : connection.input.phase = .consecutiveIn) (sequence : UInt8) (data : List UInt8) :
    if sequence = sequenceAfter (arrived.length + 1) then
      if length ≤ (assembled first (arrived ++ [(sequence, data)])).length then
        connection.consecutiveReceived scope sequence data =
          .rest (told connection.onReceived (.received · scope.handle
            ((assembled first (arrived ++ [(sequence, data)])).take length)))
      else
        (∃ flow, connection.consecutiveReceived scope sequence data = .wait flow ∧
            Collecting scope.settings length first (arrived ++ [(sequence, data)]) flow ∧
            flow.unconfirmed = false ∧ connection.input.countFrame.blockComplete = false ∧
            flow.blockCount = connection.input.countFrame.blockCount) ∨
          ∃ flow, connection.consecutiveReceived scope sequence data =
              .hand [] address.interface (address.invitation scope.settings) flow
                (connection.failure scope) ∧
            Collecting scope.settings length first (arrived ++ [(sequence, data)])
              { flow with unconfirmed := true } ∧
            connection.input.countFrame.blockComplete = true ∧ flow.blockCount = 0
    else connection.consecutiveReceived scope sequence data =
      .rest (connection.failure scope .frameSequence) := by
  have settled : connection.input.unconfirmed = false := by
    rcases collecting.stage with ⟨phase, _⟩ | ⟨_, settled⟩
    · simp [phase] at waiting
    · exact settled
  have received := collecting.received
  rw [← collecting.sequence]
  unfold Connection.consecutiveReceived
  simp only [waiting, ne_eq, not_true_eq_false, if_false]
  by_cases next : sequence = connection.input.sequence
  · have numbered : Numbered (arrived ++ [(sequence, data)]) := by
      rw [next, collecting.sequence]
      exact collecting.numbered.concat data
    have grown := collecting.collect sequence data
    have grown_length : (assembled first (arrived ++ [(sequence, data)])).length =
        (assembled first arrived).length + data.length := by
      rw [assembled_concat, List.length_append]
    have proceeds : ¬¬sequence = connection.input.sequence := not_not.mpr next
    rw [if_pos next, if_neg proceeds]
    by_cases enough : connection.input.remaining ≤ data.length
    · rw [if_pos enough] at grown
      rw [if_pos (by omega), if_pos grown.1, grown.2]
      rfl
    · rw [if_neg enough] at grown
      obtain ⟨remaining, rest, buffer, unfilled⟩ := grown
      have onward (flow : Flow) (same_buffer : flow.buffer = (connection.input.collect data).buffer)
          (same_total : flow.total = connection.input.total)
          (same_remaining : flow.remaining = (connection.input.collect data).remaining)
          (same_sequence : flow.sequence = nextSequence connection.input.sequence)
          (same_status : flow.status = connection.input.status)
          (same_size : flow.blockSize = connection.input.blockSize)
          (stage : flow.phase = .controlOut ∧ flow.unconfirmed = true ∨
            flow.phase = .consecutiveIn ∧ flow.unconfirmed = false) :
          Collecting scope.settings length first (arrived ++ [(sequence, data)]) flow := by
        refine ⟨⟨rest, same_buffer.trans buffer, ?_⟩, same_total.trans collecting.total, ?_, ?_,
          numbered, ?_, same_status.trans collecting.status,
          same_size.trans collecting.blockSize, stage⟩
        · omega
        · omega
        · omega
        · rw [same_sequence, collecting.sequence, nextSequence_sequenceAfter, List.length_append]
          rfl
      have complete : (connection.input.collect data).countFrame.blockComplete =
          connection.input.countFrame.blockComplete := rfl
      rw [if_neg (by omega), if_neg (by omega), complete]
      cases block : connection.input.countFrame.blockComplete with
      | true =>
        let asking : Flow :=
          { (connection.input.collect data).countFrame with blockCount := 0, phase := .controlOut }
        rw [if_pos rfl, connection.answer_eq scope bound [] asking]
        refine Or.inr ⟨asking, ?_, onward _ rfl rfl rfl rfl rfl rfl (Or.inl ⟨rfl, rfl⟩), rfl, rfl⟩
        simp [asking, Address.invitation, Flow.collect, Flow.countFrame, collecting.status,
          collecting.blockSize]
      | false =>
        rw [if_neg (by simp)]
        exact Or.inl ⟨_, rfl, onward _ rfl rfl rfl rfl rfl rfl (Or.inr ⟨waiting, settled⟩), settled,
          rfl, rfl⟩
  · rw [if_neg next, if_pos next]

theorem Connection.consecutiveReceived_collects (bound : connection.address = some address)
    (collecting : Collecting scope.settings length first arrived connection.input)
    (sequence : UInt8) (data : List UInt8) :
    connection.Collects scope address length first
      (arrived ++ connection.taken (.consecutive sequence data))
      (connection.consecutiveReceived scope sequence data) := by
  unfold Connection.taken
  by_cases waiting : connection.input.phase = .consecutiveIn
  · simp only [waiting, if_true]
    have cases := Connection.consecutiveReceived_cases bound collecting waiting sequence data
    split at cases
    · rename_i number
      have numbered : Numbered (arrived ++ [(sequence, data)]) := by
        rw [number]
        exact collecting.numbered.concat data
      split at cases
      · rename_i whole
        rw [cases]
        exact .finish numbered whole
      · rcases cases with ⟨flow, plan, further, _⟩ | ⟨flow, plan, further, _⟩
        · rw [plan]
          exact .wait further
        · rw [plan]
          exact .hand further
    · rw [cases]
      exact .fail _ (by simp [Direction.faults])
  · simp only [waiting, if_false, List.append_nil]
    unfold Connection.consecutiveReceived
    simp only [waiting, ne_eq, not_false_eq_true, if_true]
    exact .stay collecting

theorem Connection.inputConfirmed_collects (address : Address)
    (collecting : Collecting scope.settings length first arrived connection.input) :
    connection.Collects scope address length first arrived connection.inputConfirmed := by
  unfold Connection.inputConfirmed
  rcases collecting.stage with ⟨phase, unconfirmed⟩ | ⟨_, confirmed⟩
  · simp only [unconfirmed, Bool.not_true, Bool.false_eq_true, if_false, phase]
    rw [if_neg (by simp [collecting.status])]
    exact .wait ⟨collecting.buffer, collecting.total, collecting.received, collecting.left,
      collecting.numbered, collecting.sequence, collecting.status, collecting.blockSize,
      Or.inr ⟨rfl, rfl⟩⟩
  · rw [if_pos (by simp [confirmed])]
    exact .stay collecting

theorem Connection.expired_collects (address : Address)
    (collecting : Collecting scope.settings length first arrived connection.input)
    {alarm : Alarm} (own : alarm.direction = .input) :
    connection.Collects scope address length first arrived (connection.expired scope alarm) := by
  cases alarm with
  | output handle => cases own
  | input handle =>
    simp only [Connection.expired, collecting.not_idle, Bool.false_eq_true, if_false]
    exact .fail _ (by simp [Direction.faults])
  | separation handle => cases own

/-- While a message is being received all other units but consecutive frames are dropped. -/
theorem Connection.received_collects (bound : connection.address = some address)
    (collecting : Collecting scope.settings length first arrived connection.input)
    (memory : Memory) {pdu : Pdu} (own : pdu.direction = .input) :
    connection.Collects scope address length first (arrived ++ connection.taken pdu)
      (connection.received scope memory pdu) := by
  cases pdu with
  | single message =>
    simp only [Connection.received, Connection.singleReceived, collecting.not_idle,
      Bool.false_eq_true, if_false, Connection.taken, List.append_nil]
    exact .stay collecting
  | first announced data =>
    simp only [Connection.received, Connection.firstReceived, collecting.not_idle, Bool.not_false,
      if_true, Connection.taken, List.append_nil]
    exact .stay collecting
  | consecutive sequence data =>
    exact Connection.consecutiveReceived_collects bound collecting sequence data
  | flowControl status blockSize separation => cases own

/-- What a first frame does to a connection that is not receiving. -/
theorem Connection.firstReceived_starts (scope : Scope ω) (bound : connection.address = some address)
    (idle : connection.input.isIdle = true) (memory : Memory) (announced : Nat)
    (data : List UInt8) :
    connection.firstReceived scope memory announced data =
        .stay [] ∧ announced ≤ data.length ∨
      data.length < announced ∧ ∃ news frame flow, connection.firstReceived scope memory announced data =
          .hand news address.interface frame flow (connection.failure scope) ∧
        (memory.available < announced ∧ news = connection.failure scope .memory ∧
            flow = overflowFlow ∨
          announced ≤ memory.available ∧ news = [] ∧ Collecting scope.settings announced data []
            { flow with unconfirmed := true } ∧ frame = address.invitation scope.settings ∧
            flow.blockCount = 0) := by
  unfold Connection.firstReceived
  simp only [idle, Bool.not_true, Bool.false_eq_true, if_false]
  by_cases covered : announced ≤ data.length
  · rw [if_pos covered]
    exact Or.inl ⟨rfl, covered⟩
  · rw [if_neg covered]
    refine Or.inr ⟨by omega, ?_⟩
    by_cases scarce : memory.available < announced
    · rw [if_pos scarce]
      have answer := connection.answer_eq scope bound (connection.failure scope .memory) overflowFlow
      exact ⟨_, _, _, answer, Or.inl ⟨scarce, rfl, rfl⟩⟩
    · rw [if_neg scarce]
      have answer := connection.answer_eq scope bound [] (startedFlow scope.settings announced data)
      refine ⟨_, _, _, answer, Or.inr ⟨by omega, rfl, ?_, rfl, rfl⟩⟩
      have empty : (Buffer.write ⟨List.replicate announced 0⟩ 0 data).2 =
          ⟨data ++ (List.replicate announced 0).drop data.length⟩ := by
        have fits : data.length ≤ (List.replicate announced (0 : UInt8)).length := by
          rw [List.length_replicate]
          omega
        have behind : (Buffer.write ⟨[] ++ List.replicate announced 0⟩ ([] : List UInt8).length
            data).2 = ⟨[] ++ data ++ (List.replicate announced 0).drop data.length⟩ :=
          Buffer.write_behind fits
        exact behind
      refine ⟨⟨(List.replicate announced 0).drop data.length, ?_, ?_⟩, rfl, ?_, ?_, ?_, rfl, rfl,
        rfl, Or.inl ⟨rfl, rfl⟩⟩
      · simp [startedFlow, empty, assembled]
      · simp [startedFlow]
      · simp only [startedFlow, assembled, List.map_nil, List.flatten_nil, List.append_nil]
        omega
      · simp only [startedFlow]
        omega
      · intro i entry here
        simp at here

/-- A connection without an address cannot answer a first frame. -/
theorem Connection.firstReceived_unbound (scope : Scope ω) (unbound : connection.address = none)
    (memory : Memory) (announced : Nat) (data : List UInt8) :
    connection.firstReceived scope memory announced data = .stay [] ∨
      ∃ fault more, connection.firstReceived scope memory announced data =
        .rest (more ++ connection.failure scope fault) ∧
          (more = [] ∨ more = connection.failure scope .memory) := by
  unfold Connection.firstReceived Connection.answer
  rw [unbound]
  split
  · exact Or.inl rfl
  · split
    · exact Or.inl rfl
    · split
      · exact Or.inr ⟨_, _, rfl, Or.inr rfl⟩
      · exact Or.inr ⟨_, _, rfl, Or.inl rfl⟩

/-- Nothing but the start of a message happens to a flow that is not receiving. -/
theorem Connection.input_stays (scope : Scope ω) (idle : connection.input = {}) :
    connection.inputConfirmed = .stay [] ∧
      (∀ sequence data, connection.consecutiveReceived scope sequence data = .stay []) ∧
      ∀ alarm : Alarm, alarm.direction = .input → connection.expired scope alarm = .stay [] := by
  refine ⟨?_, ?_, ?_⟩
  · simp [Connection.inputConfirmed, idle]
  · simp [Connection.consecutiveReceived, idle]
  · intro alarm own
    cases alarm with
    | output handle => cases own
    | input handle => simp [Connection.expired, idle, Flow.isIdle]
    | separation handle => cases own

/-- A flow that refuses a message only waits for its answer to be confirmed. -/
theorem Connection.refusing_rests (scope : Scope ω) (refusing : connection.input.Refusing) :
    connection.inputConfirmed = .rest [] ∧
      (∀ memory pdu, pdu.direction = .input → connection.received scope memory pdu = .stay []) ∧
      ∀ alarm : Alarm, alarm.direction = .input →
        connection.expired scope alarm = .rest (connection.failure scope .receiveTimeout) := by
  unfold Flow.Refusing at refusing
  refine ⟨?_, ?_, ?_⟩
  · simp [Connection.inputConfirmed, refusing, overflowFlow]
  · intro memory pdu own
    cases pdu with
    | single message =>
      simp [Connection.received, Connection.singleReceived, refusing, overflowFlow, Flow.isIdle]
    | first announced data =>
      simp [Connection.received, Connection.firstReceived, refusing, overflowFlow, Flow.isIdle]
    | consecutive sequence data =>
      simp [Connection.received, Connection.consecutiveReceived, refusing, overflowFlow]
    | flowControl status blockSize separation => cases own
  · intro alarm own
    cases alarm with
    | output handle => cases own
    | input handle => simp [Connection.expired, refusing, overflowFlow, Flow.isIdle]
    | separation handle => cases own

end

end DiagBus
