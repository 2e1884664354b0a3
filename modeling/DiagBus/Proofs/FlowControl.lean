import DiagBus.Proofs.SendingSteps
import DiagBus.Proofs.Watching

namespace DiagBus

variable {ω : Type}

/-- The peer asks for a block while the sending flow awaits it. -/
def Moment.Grants (moment : Moment ω) (handle : Handle) (blockSize separation : UInt8) : Prop :=
  moment.control? handle = some ⟨.continueToSend, blockSize, separation⟩

/-- A message is taken or a block is asked for. -/
def Moment.Opens (moment : Moment ω) (handle : Handle) : Prop :=
  (∃ message, moment.Accepts handle message) ∨
    ∃ blockSize separation, moment.Grants handle blockSize separation

/-- Whether the peer asks for time in a step and the sending flow waits. -/
def Moment.tolerates (moment : Moment ω) (handle : Handle) : Bool :=
  (moment.control? handle).any (·.status = .wait) && !(moment.after.sending handle).isIdle

/-- The consecutive frames that a connection hands over in these moments. -/
def partsOf (handle : Handle) (moments : List (Moment ω)) : List (InterfaceIndex × Frame) :=
  moments.flatMap (·.parts handle)

/-- Where a sending flow stands that was asked for a block and has handed over `count` consecutive
frames since. -/
structure Flow.InBlock (blockSize separation : UInt8) (count : Nat) (flow : Flow) : Prop where
  stage : flow.isIdle = true ∨ flow.phase = .consecutiveOut ∨ flow.phase = .controlIn
  few : blockSize ≠ 0 → count ≤ blockSize.toNat
  inside : flow.phase = .consecutiveOut → flow.blockSize = blockSize ∧
    flow.separation = separationTime separation ∧
    (blockSize ≠ 0 → flow.blockCount < blockSize ∧
      count = flow.blockCount.toNat + flow.unconfirmed.toNat)
  whole : flow.phase = .controlIn → blockSize ≠ 0 ∧ count = blockSize.toNat

/-- The peer may still ask for time as often as it has not yet done so. -/
structure Flow.Patient (limit : UInt8) (waits : Nat) (flow : Flow) : Prop where
  few : waits ≤ limit.toNat
  left : flow.isIdle = false → waits + flow.waitsLeft.toNat = limit.toNat

section

variable {moment : Moment ω} {handle : Handle} {flow next : Flow} {asked : Option Control}
  {parts count waits : Nat} {blockSize separation limit : UInt8}

theorem Moment.Grants.opens (grants : moment.Grants handle blockSize separation) :
    moment.Opens handle :=
  Or.inr ⟨blockSize, separation, grants⟩

theorem Moment.grants_of_control {control : Control} (same : moment.control? handle = some control)
    (status : control.status = .continueToSend) :
    moment.Grants handle control.blockSize control.separation := by
  unfold Moment.Grants
  rw [same, ← status]

theorem Flow.InBlock.idle (few : blockSize ≠ 0 → count ≤ blockSize.toNat) :
    ({} : Flow).InBlock blockSize separation count :=
  ⟨Or.inl rfl, few, by simp, by simp⟩

theorem Flow.busy_of_phase {phase : Phase} (here : flow.phase = phase) (busy : phase ≠ .idle) :
    flow.isIdle = false := by
  unfold Flow.isIdle
  rw [here]
  exact decide_eq_false busy

/-- A frame of a block is counted when it is handed over. -/
theorem Flow.InBlock.onward (inside : flow.InBlock blockSize separation count)
    (phase : flow.phase = .consecutiveOut) (confirmed : flow.unconfirmed = false)
    (onward : flow.Onward next) : next.InBlock blockSize separation (count + 1) := by
  obtain ⟨size, delay, counted⟩ := inside.inside phase
  obtain ⟨remaining, sequence, rfl⟩ := onward
  refine ⟨Or.inr (Or.inl phase), fun limited => ?_, fun _ => ⟨size, delay, fun limited => ?_⟩,
    fun waiting => ?_⟩
  · obtain ⟨below, number⟩ := counted limited
    rw [confirmed] at number
    have bound := UInt8.lt_iff_toNat_lt.mp below
    simp only [Bool.toNat_false] at number
    omega
  · obtain ⟨below, number⟩ := counted limited
    rw [confirmed] at number
    refine ⟨below, ?_⟩
    simp only [Bool.toNat_false] at number
    simp only [Bool.toNat_true]
    omega
  · have other : flow.phase = .controlIn := waiting
    rw [phase] at other
    cases other

/-- A frame that is confirmed inside a block is one of the block; another one may follow. -/
theorem Flow.InBlock.confirmed (inside : flow.InBlock blockSize separation count)
    (phase : flow.phase = .consecutiveOut) (unconfirmed : flow.unconfirmed = true)
    (incomplete : ¬flow.countFrame.blockComplete = true) :
    ({ flow.countFrame with unconfirmed := false } : Flow).InBlock blockSize separation count := by
  obtain ⟨size, delay, counted⟩ := inside.inside phase
  refine ⟨Or.inr (Or.inl phase), inside.few, fun _ => ⟨size, delay, fun limited => ?_⟩,
    fun waiting => ?_⟩
  · obtain ⟨below, number⟩ := counted limited
    subst size
    obtain ⟨more, open_⟩ := Flow.countFrame_unfilled (fun _ => below) incomplete limited
    rw [unconfirmed, Bool.toNat_true] at number
    exact ⟨open_, number.trans more.symm⟩
  · have other : flow.phase = .controlIn := waiting
    rw [phase] at other
    cases other

/-- With its last frame confirmed a block has all its frames. -/
theorem Flow.InBlock.completed (inside : flow.InBlock blockSize separation count)
    (phase : flow.phase = .consecutiveOut) (unconfirmed : flow.unconfirmed = true)
    (complete : flow.countFrame.blockComplete = true) :
    blockSize ≠ 0 ∧ count = blockSize.toNat := by
  obtain ⟨size, _, counted⟩ := inside.inside phase
  have full : blockSize ≠ 0 ∧ flow.blockCount.toNat + 1 = blockSize.toNat := by
    rw [← size]
    refine (Flow.countFrame_complete fun limited => ?_).mp complete
    rw [size] at limited ⊢
    exact (counted limited).1
  have number := (counted full.1).2
  rw [unconfirmed, Bool.toNat_true] at number
  exact ⟨full.1, by omega⟩

/-- Until the next block is asked for, every step goes on with the block, waits for the next one or
ends the transfer. -/
theorem Flow.InBlock.step (inside : flow.InBlock blockSize separation count)
    (drives : moment.Drives handle flow asked parts next) (same : moment.control? handle = asked)
    (alone : ¬moment.Opens handle) : next.InBlock blockSize separation (count + parts) := by
  cases drives with
  | rest => exact inside
  | started taken _ _ => exact absurd (Or.inl ⟨_, taken⟩) alone
  | ended _ => exact .idle inside.few
  | announced phase =>
    rcases inside.stage with idle | other | other
    · rw [Flow.busy_of_phase phase (by decide)] at idle
      cases idle
    all_goals
      rw [phase] at other
      cases other
  | waited awaited _ _ => exact ⟨inside.stage, inside.few, inside.inside, inside.whole⟩
  | refused _ _ _ => exact .idle inside.few
  | @granted control _ _ status _ =>
    exact absurd (Moment.grants_of_control same status).opens alone
  | completed phase unconfirmed complete =>
    have full := inside.completed phase unconfirmed complete
    exact ⟨Or.inr (Or.inr rfl), inside.few, by simp, fun _ => full⟩
  | paused phase unconfirmed incomplete => exact inside.confirmed phase unconfirmed incomplete
  | followed phase unconfirmed incomplete _ onward =>
    exact (inside.confirmed phase unconfirmed incomplete).onward phase rfl onward
  | resumed phase confirmed _ _ onward => exact inside.onward phase confirmed onward

/-- The step that asks for a block hands over its first frame, or the transfer ends. -/
theorem Moment.Drives.grants (drives : moment.Drives handle flow asked parts next)
    (grants : asked = some ⟨.continueToSend, blockSize, separation⟩) :
    next.InBlock blockSize separation parts := by
  cases drives with
  | ended _ => exact .idle fun _ => Nat.zero_le _
  | granted _ _ onward =>
    cases grants
    obtain ⟨remaining, sequence, rfl⟩ := onward
    refine ⟨Or.inr (Or.inl rfl), fun limited => ?_, fun _ => ⟨rfl, rfl, fun limited => ?_⟩, ?_⟩
    · have positive : blockSize.toNat ≠ 0 := fun none => limited (UInt8.toNat_inj.mp none)
      omega
    · exact ⟨UInt8.pos_iff_ne_zero.mpr limited, rfl⟩
    · simp [Flow.startBlock]
  | waited _ status _ =>
    cases grants
    cases status
  | refused unwilling _ _ =>
    cases grants
    exact absurd rfl unwilling
  | _ => cases grants

theorem Flow.Patient.idle (few : waits ≤ limit.toNat) : ({} : Flow).Patient limit waits :=
  ⟨few, by simp [Flow.isIdle]⟩

theorem Flow.Patient.of_same (patient : flow.Patient limit waits)
    (same : next.waitsLeft = flow.waitsLeft) (busy : flow.isIdle = false) :
    next.Patient limit waits := by
  refine ⟨patient.few, fun _ => ?_⟩
  rw [same]
  exact patient.left busy

/-- A flow that has just begun to wait, or may yet do so, has all its patience. -/
theorem Flow.Patient.of_limit (same : next.waitsLeft = limit) : next.Patient limit 0 := by
  refine ⟨Nat.zero_le _, fun _ => ?_⟩
  rw [same, Nat.zero_add]

/-- A request for time that is granted uses up some patience. -/
theorem Flow.Patient.waited (patient : flow.Patient limit waits) (busy : flow.isIdle = false)
    (left : flow.waitsLeft ≠ 0) :
    ({ flow with status := some .wait, waitsLeft := flow.waitsLeft - 1 } : Flow).Patient limit
      (waits + 1) := by
  have budget := patient.left busy
  have some_left : flow.waitsLeft.toNat ≠ 0 := fun none => left (UInt8.toNat_inj.mp none)
  have fewer : (flow.waitsLeft - 1).toNat = flow.waitsLeft.toNat - 1 := by
    refine UInt8.toNat_sub_of_le _ _ (UInt8.le_iff_toNat_le.mpr ?_)
    show 1 ≤ _
    omega
  refine ⟨by omega, fun _ => ?_⟩
  show waits + 1 + (flow.waitsLeft - 1).toNat = _
  omega

/-- Only a request for time that is granted uses up patience. -/
theorem Flow.Patient.step (patient : flow.Patient limit waits)
    (drives : moment.Drives handle flow asked parts next) (same : moment.control? handle = asked)
    (alone : ¬moment.Opens handle) :
    next.Patient limit
      (waits + (asked.any (·.status = .wait) && !next.isIdle).toNat) := by
  have stopped : (asked.any (·.status = .wait) && !({} : Flow).isIdle).toNat = 0 := by
    simp [Flow.isIdle]
  cases drives with
  | rest => exact patient
  | started taken _ _ => exact absurd (Or.inl ⟨_, taken⟩) alone
  | ended _ =>
    rw [stopped]
    exact .idle patient.few
  | announced phase => exact patient.of_same rfl (Flow.busy_of_phase phase (by decide))
  | @waited control awaited status left =>
    have busy := Flow.busy_of_phase awaited (by decide)
    have one : ((some control).any (·.status = .wait) && !flow.isIdle).toNat = 1 := by
      simp [status, busy]
    exact one ▸ patient.waited busy left
  | refused _ _ _ =>
    rw [stopped]
    exact .idle patient.few
  | granted _ status _ => exact absurd (Moment.grants_of_control same status).opens alone
  | completed phase _ _ => exact patient.of_same rfl (Flow.busy_of_phase phase (by decide))
  | paused phase _ _ => exact patient.of_same rfl (Flow.busy_of_phase phase (by decide))
  | followed phase _ _ _ onward =>
    obtain ⟨_, _, rfl⟩ := onward
    exact patient.of_same rfl (Flow.busy_of_phase phase (by decide))
  | resumed phase _ _ _ onward =>
    obtain ⟨_, _, rfl⟩ := onward
    exact patient.of_same rfl (Flow.busy_of_phase phase (by decide))

/-- The step that asks for a block gives back all patience. -/
theorem Moment.Drives.grants_patient (drives : moment.Drives handle flow asked parts next)
    (grants : asked = some ⟨.continueToSend, blockSize, separation⟩) :
    next.Patient moment.before.settings.waitLimit 0 := by
  cases drives with
  | ended _ => exact .idle (Nat.zero_le _)
  | granted _ _ onward =>
    obtain ⟨_, _, rfl⟩ := onward
    exact .of_limit rfl
  | waited _ status _ =>
    cases grants
    cases status
  | refused unwilling _ _ =>
    cases grants
    exact absurd rfl unwilling
  | _ => cases grants

/-- A flow that was idle and is busy has started with a message: no consecutive frame was handed
over. -/
theorem Moment.Drives.starts (drives : moment.Drives handle flow asked parts next)
    (idle : flow.isIdle = true) (busy : next.isIdle = false) :
    parts = 0 ∧ next.phase ≠ .consecutiveOut ∧
      next.Patient moment.before.settings.waitLimit 0 := by
  have resting {phase : Phase} (here : flow.phase = phase) (other : phase ≠ .idle) : False := by
    rw [Flow.busy_of_phase here other] at idle
    cases idle
  cases drives with
  | rest =>
    rw [idle] at busy
    cases busy
  | started _ phase waits =>
    refine ⟨rfl, ?_, .of_limit waits⟩
    rcases phase with phase | phase <;> simp [phase]
  | ended _ => cases busy
  | refused _ _ _ => cases busy
  | announced phase => exact (resting phase (by decide)).elim
  | waited phase _ _ => exact (resting phase (by decide)).elim
  | granted phase _ _ => exact (resting phase (by decide)).elim
  | completed phase _ _ => exact (resting phase (by decide)).elim
  | paused phase _ _ => exact (resting phase (by decide)).elim
  | followed phase _ _ _ _ => exact (resting phase (by decide)).elim
  | resumed phase _ _ _ _ => exact (resting phase (by decide)).elim

/-- A message that is taken and a block that is asked for give back all patience. -/
theorem Moment.Opens.patient (opens : moment.Opens handle) (sound : moment.before.Sound)
    (timely : moment.step.Timely moment.before) :
    (moment.after.sending handle).Patient moment.before.settings.waitLimit 0 := by
  have drives := Moment.drives sound timely handle
  rcases opens with ⟨message, taken⟩ | ⟨blockSize, separation, grants⟩
  · obtain ⟨idle, busy⟩ := taken.begins sound timely
    exact (drives.starts idle busy).2.2
  · exact drives.grants_patient grants

/-- A step that hands over a consecutive frame, or after which the flow is inside a block, asks for
the block or finds the flow inside. -/
theorem Moment.Drives.inside (drives : moment.Drives handle flow asked parts next)
    (here : next.phase = .consecutiveOut ∨ parts ≠ 0) :
    (∃ blockSize separation, asked = some ⟨.continueToSend, blockSize, separation⟩) ∨
      flow.phase = .consecutiveOut ∧ asked = none := by
  cases drives with
  | rest => exact Or.inr ⟨here.resolve_right (by simp), rfl⟩
  | started _ phase _ =>
    have inside := here.resolve_right (by simp)
    rcases phase with phase | phase <;> simp [phase] at inside
  | ended _ => simp at here
  | announced _ => simp at here
  | waited awaited _ _ => simp [awaited] at here
  | refused _ _ _ => simp at here
  | @granted control _ _ status _ =>
    refine Or.inl ⟨control.blockSize, control.separation, ?_⟩
    rw [← status]
  | completed _ _ _ => simp at here
  | paused phase _ _ => exact Or.inr ⟨phase, rfl⟩
  | followed phase _ _ _ _ => exact Or.inr ⟨phase, rfl⟩
  | resumed phase _ _ _ _ => exact Or.inr ⟨phase, rfl⟩

/-- A consecutive frame other than the first of its block follows at once if there is no separation
time, and else when the alarm goes off. -/
theorem Moment.Drives.follows (drives : moment.Drives handle flow asked parts next)
    (some : parts ≠ 0) (unasked : asked = none) :
    flow.separation = 0 ∨ flow.phase = .consecutiveOut ∧ flow.unconfirmed = false ∧
      ∃ now alarms, moment.step = .expire now ∧
        moment.before.alarms.popDue now = .some (.separation handle, alarms) := by
  cases drives with
  | granted _ _ _ => cases unasked
  | followed _ _ _ prompt _ => exact Or.inl prompt
  | resumed phase confirmed expires due _ => exact Or.inr ⟨phase, confirmed, _, _, expires, due⟩
  | _ => exact absurd rfl some

theorem Moment.Drives.parts_le (drives : moment.Drives handle flow asked parts next) :
    parts ≤ 1 := by
  cases drives <;> decide

/-- A peer that does not ask for a block gets more time as long as it may still ask for it; else the
transfer ends. -/
theorem Moment.Drives.answers {control : Control}
    (drives : moment.Drives handle flow asked parts next) (same : asked = some control)
    (unwilling : control.status ≠ .continueToSend) :
    control.status = .wait ∧ flow.waitsLeft ≠ 0 ∧ next.isIdle = false ∨
      (control.status = .wait → flow.waitsLeft = 0) ∧ moment.Fails handle .flowStatus := by
  cases drives with
  | ended willing => exact absurd (willing control same) unwilling
  | waited awaited status left =>
    cases same
    exact Or.inl ⟨status, left, Flow.busy_of_phase awaited (by decide)⟩
  | refused _ spent fails =>
    cases same
    exact Or.inr ⟨spent, fails⟩
  | granted _ status _ =>
    cases same
    exact absurd status unwilling
  | _ => cases same

/-- Inside a block nothing is taken, and no other block can be asked for. -/
theorem Moment.not_opens (sound : moment.before.Sound) (timely : moment.step.Timely moment.before)
    (phase : (moment.before.sending handle).phase = .consecutiveOut)
    (unasked : moment.control? handle = none) : ¬moment.Opens handle := by
  rintro (⟨message, taken⟩ | ⟨blockSize, separation, grants⟩)
  · have idle := (taken.begins sound timely).1
    rw [Flow.busy_of_phase phase (by decide)] at idle
    cases idle
  · rw [show moment.control? handle = _ from grants] at unasked
    cases unasked

end

/-- The peer asks for a block in `opening`, and for no other in `period`; nor is a message taken. -/
structure Block (handle : Handle) (blockSize separation : UInt8) (opening : Moment ω)
    (period : List (Moment ω)) : Prop where
  grants : opening.Grants handle blockSize separation
  alone : ∀ later ∈ period, ¬later.Opens handle

section

variable {handle : Handle} {blockSize separation : UInt8} {stack : Stack ω} {steps : List (Step ω)}
  {opening moment : Moment ω} {past period rest : List (Moment ω)}

theorem partsOf_concat (handle : Handle) (past : List (Moment ω)) (moment : Moment ω) :
    (partsOf handle (past ++ [moment])).length =
      (partsOf handle past).length + (moment.parts handle).length := by
  unfold partsOf
  rw [List.flatMap_append, List.length_append, List.flatMap_singleton]

/-- The last of these moments is in a block. -/
def EndsInBlock (handle : Handle) (moments : List (Moment ω)) : Prop :=
  ∃ earlier opening period blockSize separation, moments = earlier ++ opening :: period ∧
    Block handle blockSize separation opening period

/-- The sending flow has been asked for a block when it goes on. -/
theorem EndsInBlock.step
    (held : (moment.before.sending handle).phase = .consecutiveOut → EndsInBlock handle past)
    (sound : moment.before.Sound) (timely : moment.step.Timely moment.before)
    (here : (moment.after.sending handle).phase = .consecutiveOut ∨
      (moment.parts handle).length ≠ 0) : EndsInBlock handle (past ++ [moment]) := by
  rcases (Moment.drives sound timely handle).inside here with
    ⟨blockSize, separation, grants⟩ | ⟨inside, unasked⟩
  · exact ⟨past, moment, [], blockSize, separation, rfl, grants, by simp⟩
  · obtain ⟨earlier, opening, period, blockSize, separation, rfl, block⟩ := held inside
    refine ⟨earlier, opening, period ++ [moment], blockSize, separation,
      by rw [List.append_assoc, List.cons_append], block.grants, ?_⟩
    intro later member
    rcases List.mem_append.mp member with before | last
    · exact block.alone later before
    · rw [List.mem_singleton.mp last]
      exact Moment.not_opens sound timely inside unasked

/-- How far a flow is with a block, at any time before the next one is asked for. -/
theorem Block.run (sound : opening.before.Sound) (timely : opening.step.Timely opening.before)
    (orderly : opening.after.Orderly steps)
    (block : Block handle blockSize separation opening (opening.after.moments steps)) :
    ((opening.after.through steps).sending handle).InBlock blockSize separation
      (partsOf handle (opening :: opening.after.moments steps)).length := by
  refine @Stack.Orderly.induct _ _ _ orderly (fun past stack =>
    (stack.sending handle).InBlock blockSize separation (partsOf handle past).length)
      [opening] ?_ ?_
  · have base := (Moment.drives sound timely handle).grants block.grants
    unfold partsOf
    rw [List.flatMap_singleton]
    exact base
  · intro past moment member sound timely held
    rw [partsOf_concat]
    exact held.step (Moment.drives sound timely handle) rfl (block.alone moment member)

/-- How much patience a flow has left, at any time before a message is taken or a block asked for. -/
theorem Moment.Opens.run (opens : opening.Opens handle) (sound : opening.before.Sound)
    (timely : opening.step.Timely opening.before) (orderly : opening.after.Orderly steps)
    (alone : ∀ later ∈ opening.after.moments steps, ¬later.Opens handle) :
    ((opening.after.through steps).sending handle).Patient opening.before.settings.waitLimit
      ((opening.after.moments steps).countP (·.tolerates handle)) := by
  refine @Stack.Orderly.induct _ _ _ orderly (fun past stack =>
    (stack.sending handle).Patient opening.before.settings.waitLimit
      (past.countP (·.tolerates handle))) [] (opens.patient sound timely) ?_
  intro past moment member sound timely held
  have next := held.step (Moment.drives sound timely handle) rfl (alone moment member)
  have count : (past ++ [moment]).countP (·.tolerates handle) =
      past.countP (·.tolerates handle) + (moment.tolerates handle).toNat := by
    rw [List.countP_append, List.countP_singleton]
    cases moment.tolerates handle <;> rfl
  rw [count]
  exact next

end

/-- A clock that never goes back, of which these moments are given the lower 32 bits: `clock i` is
the time of the `i`-th of them. -/
structure Shows (clock : Nat → Nat) (moments : List (Moment ω)) : Prop where
  forward : ∀ i j, i ≤ j → clock i ≤ clock j
  shown : ∀ i moment now, moments[i]? = some moment → moment.step.time? = some now →
    now.toNat = clock i % 2 ^ 32

theorem separationTime_le (byte : UInt8) : (separationTime byte).toNat ≤ 127 := by
  have all : ∀ byte : UInt8, (separationTime byte).toNat ≤ 127 := forall_byte (by decide +kernel)
  exact all byte

/-- What is due was armed at least its delay ago. -/
theorem Tick.delay_le {start now delay : Tick} {early late : Nat}
    (due : now.before (start.after delay) = false) (half : delay.toNat ≤ 2 ^ 31)
    (first : start.toNat = early % 2 ^ 32) (second : now.toNat = late % 2 ^ 32)
    (order : early ≤ late) : early + delay.toNat ≤ late := by
  unfold Tick.before Tick.after at due
  have near := of_decide_eq_false due
  rw [gt_iff_lt, UInt32.lt_iff_toNat_lt, UInt32.toNat_sub, UInt32.toNat_add, first, second] at near
  have limit : (0x7FFFFFFF : UInt32).toNat = 0x7FFFFFFF := rfl
  rw [limit] at near
  omega

/-- The last event of a flow comes after all others. -/
theorem lastEvent_split {handle : Handle} {direction : Direction} {past : List (Moment ω)}
    {since : Tick} (last : lastEvent handle direction past = some since) :
    ∃ before event after, past = before ++ event :: after ∧ event.step.time? = some since ∧
      ∀ later ∈ after, later.isEvent handle direction = false := by
  induction past using List.reverseRecOn with
  | nil => cases last
  | append_singleton past moment ih =>
    rw [lastEvent_concat] at last
    split at last
    · exact ⟨past, moment, [], rfl, last, by simp⟩
    · rename_i calm
      obtain ⟨before, event, after, rfl, time, quiet⟩ := ih last
      refine ⟨before, event, after ++ [moment], by simp, time, fun later member => ?_⟩
      rcases List.mem_append.mp member with early | here
      · exact quiet later early
      · rw [List.mem_singleton.mp here]
        simpa using calm

section

variable {handle : Handle} {blockSize separation : UInt8} {stack : Stack ω} {steps : List (Step ω)}
  {opening moment : Moment ω} {past period rest : List (Moment ω)}

/-- Handing over a frame is an event of the flow. -/
theorem Moment.isEvent_of_parts (some : moment.parts handle ≠ []) :
    moment.isEvent handle .output = true := by
  obtain ⟨entry, member⟩ := List.exists_mem_of_ne_nil _ some
  have handed : entry ∈ moment.hands handle := List.mem_of_mem_filter member
  obtain ⟨signal, told, same⟩ := List.mem_filterMap.mp handed
  unfold Moment.isEvent
  rw [Bool.or_eq_true]
  refine Or.inl (List.any_eq_true.mpr ⟨signal, told, ?_⟩)
  rw [same]
  rfl

/-- When the separation alarm of a pausing flow goes off, the separation time is over since the last
event of the flow. -/
theorem Stack.Overseen.due (overseen : moment.before.Overseen past)
    (timely : moment.step.Timely moment.before)
    (phase : (moment.before.sending handle).phase = .consecutiveOut)
    (confirmed : (moment.before.sending handle).unconfirmed = false) {now : Tick}
    {alarms : TimerQueue Alarm} (expires : moment.step = .expire now)
    (due : moment.before.alarms.popDue now = some (.separation handle, alarms)) :
    ∃ since, lastEvent handle .output past = some since ∧
      now.before (since.after (moment.before.sending handle).separation) = false := by
  obtain ⟨connection, live, same⟩ :=
    Stack.live_of_busy (Flow.busy_of_phase phase (by decide))
  rw [same] at phase confirmed ⊢
  have quiet : moment.before.confirmations = [] := by
    rw [expires] at timely
    exact timely
  obtain ⟨_, _, deadline, reached, pending⟩ := TimerQueue.popDue_linked overseen.linked due
  have first : (.separation handle, deadline) ∈ moment.before.alarms.watching handle .output := by
    refine List.mem_filter.mpr ⟨by rw [pending]; exact List.mem_cons_self, ?_⟩
    simp [Alarm.watches, Alarm.connection, Alarm.direction]
  rcases overseen.flows handle connection live .output with watched | ⟨_, nothing⟩
  · cases watched with
    | idle _ nothing =>
      rw [nothing] at first
      cases first
    | noted noted _ =>
      rw [quiet] at noted
      cases noted
    | busy since busy last own =>
      refine ⟨since, last, ?_⟩
      have watch : connection.output.watch moment.before.settings handle .output =
          (.separation handle, connection.output.separation) := by
        unfold Flow.watch
        simp [confirmed, phase]
      have awake : connection.output.isIdle = false := busy
      rw [own, Connection.flow, Flow.watched, awake, watch] at first
      have same := (Prod.mk.inj (List.mem_singleton.mp first)).2
      rw [← same]
      exact reached
  · rw [nothing] at first
    cases first

/-- A consecutive frame that is not the first of its block is handed over when the separation time
is over since the last event of the flow. -/
theorem Block.late (orderly : stack.Orderly steps) (base : stack.Overseen [])
    (whole : stack.moments steps = past ++ opening :: (period ++ moment :: rest))
    (block : Block handle blockSize separation opening (period ++ [moment]))
    (some : moment.parts handle ≠ []) :
    separationTime separation = 0 ∨ ∃ now since, moment.step.time? = .some now ∧
      lastEvent handle .output (past ++ opening :: period) = .some since ∧
      now.before (since.after (separationTime separation)) = false := by
  obtain ⟨_, sound, timely, middle, later, inside, following, last⟩ := orderly.stretch whole
  obtain ⟨_, _, here, _⟩ := Stack.moments_cons last
  have stands : (moment.before.sending handle).InBlock blockSize separation
      (partsOf handle (opening :: period)).length := by
    rw [here, ← following]
    refine Block.run sound timely inside ⟨block.grants, fun later member => ?_⟩
    rw [following] at member
    exact block.alone later (List.mem_append_left _ member)
  have alone : ¬moment.Opens handle := block.alone moment (by simp)
  have placed : stack.moments steps = (past ++ opening :: period) ++ moment :: rest := by
    rw [whole, List.append_assoc, List.cons_append]
  obtain ⟨sound, timely, overseen⟩ := orderly.reach placed (fun past stack => stack.Overseen past)
    base fun past moment sound timely overseen => overseen.step sound timely
  have drives := Moment.drives sound timely handle
  have handed : (moment.parts handle).length ≠ 0 := fun none => some (List.length_eq_zero_iff.mp none)
  rcases drives.inside (Or.inr handed) with ⟨_, _, grants⟩ | ⟨phase, unasked⟩
  · exact absurd (Or.inr ⟨_, _, grants⟩) alone
  · have delay := (stands.inside phase).2.1
    rcases drives.follows handed unasked with prompt | ⟨_, confirmed, now, alarms, expires, due⟩
    · exact Or.inl (delay.symm.trans prompt)
    · obtain ⟨since, last, reached⟩ := overseen.due timely phase confirmed expires due
      rw [delay] at reached
      exact Or.inr ⟨now, since, by rw [expires]; rfl, last, reached⟩

/-- Any two consecutive frames of a block are at least the separation time apart. -/
theorem Block.spaced (orderly : stack.Orderly steps) (base : stack.Overseen [])
    (whole : stack.moments steps = past ++ opening :: (period ++ rest))
    (block : Block handle blockSize separation opening period) {clock : Nat → Nat}
    (shows : Shows clock (stack.moments steps)) {early between late : List (Moment ω)}
    {first second : Moment ω} (parts : opening :: period = early ++ first :: (between ++ second :: late))
    (first_part : first.parts handle ≠ []) (second_part : second.parts handle ≠ []) :
    clock (past.length + early.length) + (separationTime separation).toNat ≤
      clock (past.length + early.length + 1 + between.length) := by
  obtain ⟨inner, before_eq, period_eq⟩ : ∃ inner, opening :: inner = early ++ first :: between ∧
      period = inner ++ second :: late := by
    cases early with
    | nil =>
      obtain ⟨rfl, same⟩ := List.cons.inj parts
      exact ⟨between, rfl, same⟩
    | cons head early =>
      obtain ⟨rfl, same⟩ := List.cons.inj parts
      exact ⟨early ++ first :: between, rfl, by rw [same]; simp⟩
  subst period_eq
  have placed : stack.moments steps = past ++ opening :: (inner ++ second :: (late ++ rest)) := by
    rw [whole, List.append_assoc, List.cons_append]
  have shorter : Block handle blockSize separation opening (inner ++ [second]) := by
    refine ⟨block.grants, fun later member => block.alone later ?_⟩
    rcases List.mem_append.mp member with before | here
    · exact List.mem_append_left _ before
    · rw [List.mem_singleton.mp here]
      simp
  have order : clock (past.length + early.length) ≤
      clock (past.length + early.length + 1 + between.length) := shows.forward _ _ (by omega)
  rcases Block.late orderly base placed shorter second_part with
    none | ⟨now, since, time, last, reached⟩
  · rw [none]
    exact order
  · obtain ⟨before, event, after, split, since_eq, calm⟩ := lastEvent_split last
    have places : past ++ early ++ first :: between = before ++ event :: after := by
      rw [← split, before_eq, List.append_assoc]
    have not_after : (past ++ early).length ≤ before.length := by
      rcases List.append_eq_append_iff.mp places with ⟨tail, same, _⟩ | ⟨tail, same, behind⟩
      · rw [same]
        exact (List.prefix_append _ _).length_le
      · cases tail with
        | nil => rw [same, List.append_nil]
        | cons _ tail =>
          have quiet := calm first (by rw [(List.cons.inj behind).2]; simp)
          rw [Moment.isEvent_of_parts first_part] at quiet
          cases quiet
    have here : stack.moments steps =
        (past ++ early ++ first :: between) ++ second :: (late ++ rest) := by
      rw [placed, ← List.cons_append, before_eq]
      simp
    have length : (past ++ early ++ first :: between).length =
        past.length + early.length + 1 + between.length := by
      simp only [List.length_append, List.length_cons]
      omega
    have second_at : (stack.moments steps)[past.length + early.length + 1 + between.length]? =
        some second := by
      rw [here, ← length]
      simp
    have event_at : (stack.moments steps)[before.length]? = some event := by
      rw [here, places]
      simp
    have not_before := congrArg List.length places
    rw [length] at not_before
    simp only [List.length_append, List.length_cons] at not_after not_before
    have enough := Tick.delay_le reached ((separationTime_le _).trans (by decide))
      (shows.shown _ _ _ event_at since_eq) (shows.shown _ _ _ second_at time)
      (shows.forward _ _ (by omega))
    have since_le := shows.forward _ _ not_after
    omega

end

/-- A peer that asks for time gets it as often as the settings allow, and then no more. -/
theorem Flow.Patient.answer {moment : Moment ω} {handle : Handle} {limit : UInt8} {waits : Nat}
    {control : Control} (patient : (moment.before.sending handle).Patient limit waits)
    (sound : moment.before.Sound) (timely : moment.step.Timely moment.before)
    (alone : ¬moment.Opens handle) (asked : moment.control? handle = some control) :
    if control.status = .wait ∧ waits < limit.toNat then moment.tolerates handle = true
    else moment.Fails handle .flowStatus := by
  have awaited := (Moment.control?_eq_some_iff.mp asked).2
  have budget := patient.left (Flow.busy_of_phase awaited (by decide))
  have unwilling : control.status ≠ .continueToSend := fun status =>
    alone (Moment.grants_of_control asked status).opens
  rcases (Moment.drives sound timely handle).answers asked unwilling with
    ⟨status, left, busy⟩ | ⟨spent, fails⟩
  · have some_left : (moment.before.sending handle).waitsLeft.toNat ≠ 0 :=
      fun none => left (UInt8.toNat_inj.mp none)
    rw [if_pos ⟨status, by omega⟩]
    unfold Moment.tolerates
    rw [asked, busy]
    simp [status]
  · rw [if_neg]
    · exact fails
    · rintro ⟨status, few⟩
      rw [spent status] at budget
      simp only [UInt8.toNat_zero] at budget
      omega

theorem Stack.new_sending {settings : Settings} {world : ω} {stack : Stack ω}
    (run : Stack.new settings world = .ok stack) (handle : Handle) : stack.sending handle = {} := by
  obtain ⟨_, _, _, rfl⟩ := Stack.new_eq run
  exact Stack.sending_of_dead (Slots.get?_ofCapacity _ _)

/-- In every run, and for every connection:

* A consecutive frame is handed over only in a block, which the peer asked for when it was awaited
  and after the message was taken.
* Of a block of limited size no more frames are handed over, and all of them before flow control is
  awaited again. Any two frames of a block are at least the separation time apart.
* From a message or block to the next one, the peer may ask for time as often as the settings say.
  If it does so once more, or answers anything else but a block, the transfer fails. -/
theorem sender_obeys_flow_control {settings : Settings} {world : ω} {start : Stack ω}
    (run : Stack.new settings world = .ok start) (calls : List (Call ω)) (handle : Handle) :
    (∀ (past rest : List (Moment ω)) (moment : Moment ω),
      start.history calls = past ++ moment :: rest → moment.parts handle ≠ [] →
        (moment.parts handle).length = 1 ∧ EndsInBlock handle (past ++ [moment])) ∧
    (∀ (past period rest : List (Moment ω)) (opening : Moment ω) (blockSize separation : UInt8),
      start.history calls = past ++ opening :: (period ++ rest) →
      Block handle blockSize separation opening period →
        (blockSize ≠ 0 → (partsOf handle (opening :: period)).length ≤ blockSize.toNat ∧
          ∀ next later, rest = next :: later →
            (next.before.sending handle).isIdle = true ∨
            (next.before.sending handle).phase = .consecutiveOut ∨
            (next.before.sending handle).phase = .controlIn ∧
              (partsOf handle (opening :: period)).length = blockSize.toNat) ∧
        ∀ clock, Shows clock (start.history calls) →
          ∀ (early between late : List (Moment ω)) (first second : Moment ω),
          opening :: period = early ++ first :: (between ++ second :: late) →
          first.parts handle ≠ [] → second.parts handle ≠ [] →
            clock (past.length + early.length) + (separationTime separation).toNat ≤
              clock (past.length + early.length + 1 + between.length)) ∧
    ∀ (past period rest : List (Moment ω)) (opening : Moment ω),
      start.history calls = past ++ opening :: (period ++ rest) →
      opening.Opens handle → (∀ later ∈ period, ¬later.Opens handle) →
        period.countP (·.tolerates handle) ≤ settings.waitLimit.toNat ∧
        ∀ (early late : List (Moment ω)) (moment : Moment ω) (control : Control),
          period = early ++ moment :: late → moment.control? handle = some control →
            if control.status = .wait ∧
                early.countP (·.tolerates handle) < settings.waitLimit.toNat then
              moment.tolerates handle = true
            else moment.Fails handle .flowStatus := by
  have orderly := (Stack.new_smooth run calls).orderly
  have base : start.Overseen [] := (Stack.new_watched run).2.overseen
  have settings_eq : start.settings = settings := (Stack.new_watched run).1
  refine ⟨?_, ?_, ?_⟩
  · intro past rest moment whole some
    obtain ⟨sound, timely, held⟩ := orderly.reach whole (fun past stack =>
      (stack.sending handle).phase = .consecutiveOut → EndsInBlock handle past)
      (by simp [Stack.new_sending run])
      fun past moment sound timely held phase => .step held sound timely (Or.inl phase)
    have handed : (moment.parts handle).length ≠ 0 :=
      fun none => some (List.length_eq_zero_iff.mp none)
    have few := (Moment.drives sound timely handle).parts_le
    exact ⟨by omega, .step held sound timely (Or.inr handed)⟩
  · intro past period rest opening blockSize separation whole block
    refine ⟨fun limited => ?_, fun clock shows early between late first second parts =>
      Block.spaced orderly base whole block shows parts⟩
    obtain ⟨_, sound, timely, middle, later, inside, rfl, last⟩ := orderly.stretch whole
    have stands := Block.run sound timely inside block
    refine ⟨stands.few limited, fun next later following => ?_⟩
    rw [following] at last
    obtain ⟨_, _, here, _⟩ := Stack.moments_cons last
    rw [here]
    rcases stands.stage with idle | phase | phase
    · exact Or.inl idle
    · exact Or.inr (Or.inl phase)
    · exact Or.inr (Or.inr ⟨phase, (stands.whole phase).2⟩)
  · intro past period rest opening whole opens alone
    obtain ⟨same, sound, timely, middle, later, inside, following, _⟩ := orderly.stretch whole
    have patience := opens.run sound timely inside (by rw [following]; exact alone)
    rw [following, same, settings_eq] at patience
    refine ⟨patience.few, fun early late moment control split asked => ?_⟩
    subst split
    rw [List.append_assoc, List.cons_append] at whole
    obtain ⟨_, _, _, before, _, inside, following, last⟩ := orderly.stretch whole
    obtain ⟨_, _, here, _⟩ := Stack.moments_cons last
    have waited := opens.run sound timely inside
      (by rw [following]; exact fun later member => alone later (List.mem_append_left _ member))
    rw [following, same, settings_eq, ← here] at waited
    obtain ⟨sound, timely⟩ := orderly moment (by rw [show start.moments _ = _ from whole]; simp)
    exact waited.answer sound timely (alone moment (by simp)) asked

/-- The sample connection sends twenty bytes, which take two consecutive frames. -/
def sampleBlockCalls : List (Call Unit) :=
  sampleCalls ++ [.send 0 sampleHandle (List.replicate 20 0), .input 5 ⟨0⟩ sampleControl,
    .checkAlarms 15]

/-- The step in which the peer asks for the block. -/
def sampleGrant : Moment Unit where
  before := (Step.offer ⟨0⟩ sampleControl).run
    (sampleStack.calls (sampleCalls ++ [.send 0 sampleHandle (List.replicate 20 0)]))
  step := .arrive 5 sampleHandle (.flowControl .continueToSend 2 10)

/-- The time at each step of `sampleBlockCalls`. -/
def sampleClock (i : Nat) : Nat :=
  if i < 7 then 0 else if i < 9 then 5 else 15

theorem sampleClock_shows : Shows sampleClock (sampleStack.history sampleBlockCalls) := by
  refine ⟨fun i j order => ?_, fun i moment now found time => ?_⟩
  · unfold sampleClock
    split_ifs <;> omega
  · have times : (sampleStack.history sampleBlockCalls).map (·.step.time?) =
        [none, none, none, none, some 0, some 0, none, some 5, some 5, some 15, some 15] := by
      decide +kernel
    have here := congrArg (·[i]?) times
    simp only [List.getElem?_map, found, Option.map_some, time] at here
    have table : ∀ i, i < 11 → ([none, none, none, none, some 0, some 0, none, some 5, some 5,
        some 15, some 15] : List (Option Tick))[i]?.join.all
          (fun now => now.toNat = sampleClock i % 2 ^ 32) = true := by decide
    have inside : i < 11 := by
      have bound := (List.getElem?_eq_some_iff.mp found).1
      rw [← List.length_map (·.step.time?), times] at bound
      exact bound
    have entry := table i inside
    rw [← here] at entry
    simpa using entry

theorem sample_sender_obeys_flow_control :
    let period := sampleGrant.after.moments [.settle 5, .expire 15, .settle 15]
    Block sampleHandle 2 10 sampleGrant period ∧
      (partsOf sampleHandle (sampleGrant :: period)).length ≤ 2 ∧
      sampleClock 7 + (separationTime 10).toNat ≤ sampleClock 9 := by
  intro period
  have block : Block sampleHandle 2 10 sampleGrant period := by
    refine ⟨rfl, fun later member => ?_⟩
    have unasked : later.control? sampleHandle = none ∧ later.step.submits sampleHandle = false := by
      rcases List.mem_cons.mp member with rfl | member
      · exact ⟨rfl, rfl⟩
      · rcases List.mem_cons.mp member with rfl | member
        · exact ⟨rfl, rfl⟩
        · rw [List.mem_singleton.mp member]
          exact ⟨rfl, rfl⟩
    rintro (⟨message, now, given, _⟩ | ⟨blockSize, separation, grants⟩)
    · rw [given] at unasked
      simp [Step.submits] at unasked
    · rw [show later.control? sampleHandle = _ from grants] at unasked
      cases unasked.1
  have history : sampleStack.history sampleBlockCalls =
      (sampleStack.history sampleBlockCalls).take 7 ++ sampleGrant :: (period ++ []) := rfl
  have obeys := (sender_obeys_flow_control (rfl : Stack.new {} () = .ok sampleStack)
    sampleBlockCalls sampleHandle).2.1 _ _ _ _ 2 10 history block
  have spaced := obeys.2 sampleClock sampleClock_shows [] (period.take 1) (period.drop 2) sampleGrant
    ⟨(Step.settle 5).run sampleGrant.after, .expire 15⟩ rfl
    (List.cons_ne_nil _ _) (List.cons_ne_nil _ _)
  exact ⟨block, (obeys.1 (by decide)).1, spaced⟩

end DiagBus
