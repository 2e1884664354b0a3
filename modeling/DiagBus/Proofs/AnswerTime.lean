import DiagBus.Proofs.FlowControl
import DiagBus.Proofs.Undisturbed

namespace DiagBus

variable {ω : Type}

/-- The reading of the clock that a call of the stack is given. -/
def Call.time? : Call ω → Option Tick
  | .send now .. => some now
  | .input now .. => some now
  | .sent now .. => some now
  | .checkAlarms now => some now
  | .process now => some now
  | _ => none

def DeskStep.time? : DeskStep ω → Option Tick
  | .deed (.call made) => made.time?
  | .deed done => done.asks?.map (·.1)
  | .deliver => none
  | .take now => some now
  | .expire now => some now

/-- A clock that never goes back, of which these steps are given the lower 32 bits: `clock i` is the
time of the `i`-th of them. -/
structure Ticks (clock : Nat → Nat) (moments : List (DeskMoment ω)) : Prop where
  forward : ∀ i j, i ≤ j → clock i ≤ clock j
  shown : ∀ i moment now, moments[i]? = some moment → moment.step.time? = some now →
    now.toNat = clock i % 2 ^ 32

/-- While a request is outstanding its time for an answer stays as it is, or is over. -/
theorem DeskMoment.Course.answer_due {moment : DeskMoment ω} (course : moment.Course)
    (busy : moment.before.client.isBusy = true) :
    moment.after.client.due .answer = none ∨
      moment.after.client.due .answer = moment.before.client.due .answer := by
  have working : moment.before.client.state ≠ .idle := of_decide_eq_true busy
  have due {situation : Situation} (same : moment.after.client.situation = situation) :
      moment.after.client.due .answer = situation.due .answer :=
    congrFun (congrArg Situation.due same) .answer
  have before : moment.before.client.situation.due = moment.before.client.due := rfl
  cases course with
  | rests same _ => exact Or.inr (due same)
  | adjusted _ _ _ situation _ => exact Or.inr (due situation)
  | asked _ idle _ _ => exact absurd idle working
  | announced _ _ situation _ =>
    exact Or.inl ((due situation).trans (by simp [Situation.postpone]))
  | rejected _ _ _ situation _ => exact Or.inl ((due situation).trans (by simp [Situation.finish]))
  | granted _ _ situation _ => exact Or.inl ((due situation).trans (by simp [Situation.finish]))
  | broken _ situation _ => exact Or.inl ((due situation).trans (by simp [Situation.finish]))
  | @unanswered _ timer _ kind situation _ =>
    rw [due situation]
    simp only [Situation.due_stop, before]
    split
    · exact Or.inl rfl
    · exact Or.inr rfl
  | lapsed _ _ situation _ =>
    exact Or.inr ((due situation).trans (by simp [Situation.lapse, before]))
  | kept _ idle _ _ => exact absurd idle working
  | dropped _ situation _ => exact Or.inr ((due situation).trans (by simp [before]))

theorem DeskStep.time?_of_asks {deed : Deed ω} {now : Tick} {message : List UInt8}
    {expectsAnswer : Bool} (asks : deed.asks? = some (now, message, expectsAnswer)) :
    (DeskStep.deed deed).time? = some now := by
  cases deed <;> cases asks <;> rfl

/-- A timer fires if it is the first that is due. -/
theorem DeskMoment.Fires.of_first {moment : DeskMoment ω} {now : Tick} {timer : ClientTimer}
    (step : moment.step = .expire now)
    (first : (moment.before.client.timers.popDue now).map (·.1) = some timer) :
    moment.Fires now timer := by
  obtain ⟨⟨_, timers⟩, popped, rfl⟩ := Option.map_eq_some_iff.mp first
  exact ⟨step, timers, popped⟩

/-- The time for an answer starts when the stack has taken the request. -/
theorem Deed.answer_due {deed : Deed ω} {desk : Desk ω} {now : Tick} {message : List UInt8}
    (asks : deed.asks? = some (now, message, true)) (taken : deed.answer desk = .ok ())
    (timed : desk.client.Timed) :
    (deed.run desk).client.due .answer = some (now.after desk.client.answer) := by
  rcases Deed.asks_cases asks with ⟨fault, refused, _⟩ | ⟨_, _, some, sent⟩
  · rw [taken] at refused
    cases refused
  obtain ⟨service, parameters, rfl⟩ := List.exists_cons_of_ne_nil some
  have situation := (timed.ask now service parameters true).2
  have due : (deed.run desk).client.due .answer = _ :=
    congrFun (congrArg Situation.due ((congrArg Client.situation sent).trans situation)) .answer
  rw [due]
  unfold Situation.ask
  rw [Situation.prolong_due _ _ (by decide)]
  simp [Client.situation]

/-- The timer for the answer to an outstanding request does not fire before its time. -/
theorem Desk.Orderly.answer_reached {opened : Desk ω} (orderly : opened.Orderly) {deadline : Tick}
    (due : opened.client.due .answer = some deadline) {steps : List (DeskStep ω)}
    {period rest : List (DeskMoment ω)} {closing : DeskMoment ω}
    (whole : opened.moments steps = period ++ closing :: rest)
    (busy : ∀ moment ∈ period, moment.before.client.isBusy = true) {now : Tick}
    (fires : closing.Fires now .answer) : now.before deadline = false := by
  let holds (past : List (DeskMoment ω)) (desk : Desk ω) : Prop := desk.Orderly ∧
    ((∀ moment ∈ past, moment.before.client.isBusy = true) →
      desk.client.due .answer = none ∨ desk.client.due .answer = some deadline)
  have onward (past : List (DeskMoment ω)) (moment : DeskMoment ω)
      (before : holds past moment.before) : holds (past ++ [moment]) moment.after := by
    obtain ⟨orderly, same⟩ := before
    refine ⟨DeskMoment.orderly orderly, fun busy => ?_⟩
    have before := same fun other member => busy other (List.mem_append_left _ member)
    rcases (DeskMoment.course orderly.timed).2.answer_due
      (busy moment (List.mem_append_right _ List.mem_cons_self)) with absent | stays
    · exact Or.inl absent
    · rwa [stays]
  have base : holds [] opened := ⟨orderly, fun _ => Or.inr due⟩
  obtain ⟨orderly, same⟩ : holds period closing.before :=
    (Desk.reach_from base onward).2 period closing rest whole
  obtain ⟨limit, pending, reached⟩ := fires.reached orderly.timed
  rcases same busy with absent | still
  · rw [absent] at pending
    cases pending
  · rw [still] at pending
    cases pending
    exact reached

/-- Looking at all news empties the mailbox. -/
theorem Client.mailbox_openMailbox (client : Client) (now : Tick) :
    (client.openMailbox now).mailbox = [] := by
  have fold (news : List Delivery) (client : Client) :
      (news.foldl (·.take now ·) client).mailbox = client.mailbox := by
    induction news generalizing client with
    | nil => rfl
    | cons delivery rest ih => exact (ih _).trans (client.mailbox_take now delivery)
  exact fold client.mailbox { client with mailbox := [] }

namespace DeskMoment

/-- Up to the first request that the client makes, all news is read whenever a timer fires. -/
def ReadFirst : List (DeskMoment ω) → Prop
  | [] => True
  | moment :: later => (∀ now, moment.step = .expire now → moment.before.unread = []) ∧
      (moment.isRequest = false → ReadFirst later)

variable {moment : DeskMoment ω} {first second : List (DeskMoment ω)}

theorem ReadFirst.append (early : ReadFirst first)
    (late : (∀ moment ∈ first, moment.isRequest = false) → ReadFirst second) :
    ReadFirst (first ++ second) := by
  induction first with
  | nil => exact late fun _ member => absurd member List.not_mem_nil
  | cons moment rest ih =>
    exact ⟨early.1, fun alone => ih (early.2 alone) fun others =>
      late (List.forall_mem_cons.mpr ⟨alone, others⟩)⟩

theorem ReadFirst.reads (reads : ReadFirst (first ++ moment :: second))
    (alone : ∀ other ∈ first, other.isRequest = false) {now : Tick}
    (step : moment.step = .expire now) : moment.before.unread = [] := by
  induction first with
  | nil => exact reads.1 now step
  | cons other rest ih =>
    obtain ⟨here, others⟩ := List.forall_mem_cons.mp alone
    exact ih (reads.2 here) others

theorem ReadFirst.of_no_expiry {moments : List (DeskMoment ω)}
    (none : ∀ moment ∈ moments, ∀ now, moment.step ≠ .expire now) : ReadFirst moments := by
  induction moments with
  | nil => trivial
  | cons moment rest ih =>
    obtain ⟨here, others⟩ := List.forall_mem_cons.mp none
    exact ⟨fun now step => absurd step (here now), fun _ => ih others⟩

end DeskMoment

namespace Desk

variable {desk : Desk ω}

theorem unread_reading (heard : desk.heard = desk.stack.outside.signals.length) (now : Tick) :
    (desk.through (desk.reading now)).unread = [] := by
  rw [reading_eq, Desk.unread, Client.mailbox_openMailbox, List.nil_append]
  exact news_of_heard heard

/-- Timers that fire and have the client make no request leave all news read. -/
theorem expiries_read {now : Tick} {fuel : Nat} (read : desk.unread = []) :
    DeskMoment.ReadFirst (desk.moments (expiries now fuel desk)) ∧
      ((∀ moment ∈ desk.moments (expiries now fuel desk), moment.isRequest = false) →
        (desk.through (expiries now fuel desk)).unread = []) := by
  induction fuel generalizing desk with
  | zero => exact ⟨trivial, fun _ => read⟩
  | succ fuel ih =>
    unfold expiries
    cases due : desk.client.timers.popDue now with
    | none => exact ⟨trivial, fun _ => read⟩
    | some popped =>
      have fires : DeskMoment.Fires ⟨desk, .expire now⟩ now popped.1 := ⟨rfl, popped.2, due⟩
      have onward (alone : DeskMoment.isRequest ⟨desk, .expire now⟩ = false) :=
        ih ((fires.leaves alone).2.2.trans read)
      refine ⟨⟨fun _ _ => read, fun alone => (onward alone).1⟩, fun alone => ?_⟩
      obtain ⟨here, later⟩ := List.forall_mem_cons.mp alone
      exact (onward here).2 later

theorem call_read (heard : desk.heard = desk.stack.outside.signals.length) (call : DeskCall ω) :
    DeskMoment.ReadFirst (desk.moments (call.steps desk)) := by
  cases call with
  | deed deed =>
    refine .of_no_expiry fun moment member now step => ?_
    have inside := step_mem member
    rw [step] at inside
    simp [DeskCall.steps] at inside
  | process time =>
    unfold DeskCall.steps
    rw [moments_append, moments_append]
    refine .append (.append (.of_no_expiry ?_) fun _ =>
      (expiries_read (unread_reading heard time)).1) fun _ => .of_no_expiry ?_
    · intro moment member now step
      have inside := step_mem member
      rw [step] at inside
      cases List.eq_of_mem_replicate inside
    · intro moment member now step
      have inside := step_mem member
      rw [step] at inside
      simp at inside

/-- A client that has processed, and made no request then, has looked at all news. -/
theorem process_read (heard : desk.heard = desk.stack.outside.signals.length) {now : Tick}
    (alone : ∀ moment ∈ desk.moments ((DeskCall.process now).steps desk),
      moment.isRequest = false) : ((DeskCall.process now).run desk).unread = [] := by
  rw [DeskCall.run_eq]
  unfold DeskCall.steps at alone ⊢
  simp only [moments_append, List.forall_mem_append] at alone
  have read := (expiries_read (unread_reading heard now)).2 alone.1.2
  rw [through_append, through_append]
  exact (unread_deliver_of_few (by rw [read]; decide)).trans read

/-- The client looks at all news before its timers fire. -/
theorem history_read (heard : desk.heard = desk.stack.outside.signals.length)
    (calls : List (DeskCall ω)) : DeskMoment.ReadFirst (desk.history calls) := by
  induction calls generalizing desk with
  | nil => trivial
  | cons call rest ih =>
    rw [history_cons]
    exact (call_read heard call).append fun _ => ih (by cases call <;> rfl)

end Desk

/-- The client has looked at all news, and its peer is not sending a message. -/
structure Desk.Clear (desk : Desk ω) : Prop where
  read : desk.unread = []
  receiving : (desk.stack.receiving desk.client.connection).isIdle = true

/-- As long as the client's connection has a message to send in these moments, this time is not
reached. -/
def Brief (clock : Nat → Nat) (limit : Nat) (moments : List (DeskMoment ω)) : Prop :=
  ∀ i moment, moments[i]? = some moment → moment.transmits = true → clock i < limit

section

variable {before : Desk ω} {deed : Deed ω} {asked : Tick} {message : List UInt8}
  {clock : Nat → Nat} {moment closing : DeskMoment ω} {moments period rest : List (DeskMoment ω)}

theorem Ticks.of_list (forward : ∀ i j, i ≤ j → clock i ≤ clock j)
    (shown : ∀ i (_ : i < moments.length),
      moments[i].step.time?.all (fun now => now.toNat = clock i % 2 ^ 32) = true) :
    Ticks clock moments := by
  refine ⟨forward, fun i moment now here time => ?_⟩
  obtain ⟨inside, rfl⟩ := List.getElem?_eq_some_iff.mp here
  have entry := shown i inside
  rw [time] at entry
  simpa using entry

theorem Brief.of_list {limit : Nat} (shown : ∀ i (_ : i < moments.length),
    moments[i].transmits = true → clock i < limit) : Brief clock limit moments := by
  intro i moment here sending
  obtain ⟨inside, rfl⟩ := List.getElem?_eq_some_iff.mp here
  exact shown i inside sending

/-- When the time is reached, the connection has nothing left to send. -/
theorem Brief.sent {limit i : Nat} (brief : Brief clock limit moments)
    (here : moments[i]? = some moment) (late : limit ≤ clock i) : moment.transmits = false := by
  by_contra sending
  exact absurd (brief i moment here (Bool.not_eq_false _ ▸ sending)) (Nat.not_lt.mpr late)

/-- The time for an answer is over no earlier than that after the request was taken. -/
theorem Ticks.answer_time (ticks : Ticks clock (⟨before, .deed deed⟩ :: moments))
    (asks : deed.asks? = some (asked, message, true)) {delay now : Tick}
    (half : delay.toNat ≤ 2 ^ 31) (whole : moments = period ++ closing :: rest)
    (time : closing.step.time? = some now) (reached : now.before (asked.after delay) = false) :
    clock 0 + delay.toNat ≤ clock (period.length + 1) := by
  have here : (⟨before, .deed deed⟩ :: moments)[period.length + 1]? = some closing := by
    simp [whole]
  exact Tick.delay_le reached half (ticks.shown 0 _ asked rfl (DeskStep.time?_of_asks asks))
    (ticks.shown _ closing now here time) (ticks.forward 0 _ (Nat.zero_le _))

/-- Where a request stands when the client knows that the stack took it. -/
theorem Desk.Orderly.opens (orderly : before.Orderly)
    (asks : deed.asks? = some (asked, message, true)) (taken : deed.answer before = .ok ()) :
    let opened := (DeskCall.deed deed).run before
    opened.Orderly ∧ opened.client.due .answer = some (asked.after before.client.answer) ∧
      (opened.Clear → opened.Endures opened.stack.outside.signals.length
        (asked.after before.client.answer) []) := by
  intro opened
  have orderly' : opened.Orderly := @DeskMoment.orderly ω ⟨deed.run before, .deliver⟩
    (@DeskMoment.orderly ω ⟨before, .deed deed⟩ orderly)
  have due : opened.client.due .answer = some (asked.after before.client.answer) := by
    obtain ⟨_, situation, _⟩ := (deed.run before).deliver_same
    exact (congrFun (congrArg Situation.due situation) .answer).trans
      (Deed.answer_due asks taken orderly.timed)
  refine ⟨orderly', due, fun ⟨read, receiving⟩ => ?_⟩
  have told : opened.toldSince opened.stack.outside.signals.length = [] := by
    unfold Desk.toldSince
    rw [List.drop_length]
    rfl
  refine ⟨orderly', Nat.le_refl _, Nat.le_refl _, receiving, ?_⟩
  cases idle : (opened.stack.sending opened.client.connection).isIdle with
  | true => exact .sent idle told read
  | false => exact .underway idle told read due

/-- The timer for the answer to a request does not fire before its time, which counts from the moment
in which the stack took the request. -/
theorem Desk.Orderly.answer_reached_since (orderly : before.Orderly)
    (asks : deed.asks? = some (asked, message, true)) (taken : deed.answer before = .ok ())
    (half : before.client.answer.toNat ≤ 2 ^ 31) {later : List (DeskCall ω)}
    (ticks : Ticks clock (⟨before, .deed deed⟩ :: ((DeskCall.deed deed).run before).history later))
    (whole : ((DeskCall.deed deed).run before).history later = period ++ closing :: rest)
    (busy : ∀ moment ∈ period, moment.before.client.isBusy = true) {now : Tick}
    (fires : closing.Fires now .answer) :
    clock 0 + before.client.answer.toNat ≤ clock (period.length + 1) := by
  obtain ⟨orderly', due, _⟩ := orderly.opens asks taken
  exact ticks.answer_time asks half whole (by rw [fires.step]; rfl)
    (orderly'.answer_reached due whole busy fires)

/-- A request whose transmission does not take that long is sent by then. -/
theorem Desk.Orderly.sent_before_answer_time (orderly : before.Orderly)
    (asks : deed.asks? = some (asked, message, true)) (taken : deed.answer before = .ok ())
    (half : before.client.answer.toNat ≤ 2 ^ 31) {later : List (DeskCall ω)}
    (ticks : Ticks clock (⟨before, .deed deed⟩ :: ((DeskCall.deed deed).run before).history later))
    (whole : ((DeskCall.deed deed).run before).history later = period ++ closing :: rest)
    (busy : ∀ moment ∈ period, moment.before.client.isBusy = true) {now : Tick}
    (fires : closing.Fires now .answer)
    (brief : Brief clock (clock 0 + before.client.answer.toNat)
      (⟨before, .deed deed⟩ :: (period ++ [closing]))) : closing.transmits = false :=
  brief.sent (by simp) (orderly.answer_reached_since asks taken half ticks whole busy fires)

/-- Nothing happens to a request before its time, if nothing but flow control reaches the client. -/
theorem Brief.calm (brief : Brief clock (clock 0 + before.client.answer.toNat)
      (⟨before, .deed deed⟩ :: period))
    (ticks : Ticks clock (⟨before, .deed deed⟩ :: moments))
    (asks : deed.asks? = some (asked, message, true))
    (half : before.client.answer.toNat ≤ 2 ^ 31) (whole : moments = period ++ rest)
    (reads : DeskMoment.ReadFirst moments)
    (undisturbed : ∀ moment ∈ period, moment.Undisturbed) :
    ∀ moment ∈ period, moment.Calm (asked.after before.client.answer) := by
  intro moment member
  obtain ⟨past, later, rfl⟩ := List.append_of_mem member
  rw [List.append_assoc, List.cons_append] at whole
  refine ⟨undisturbed moment member, fun now step => ?_, fun now step sending => ?_⟩
  · rw [whole] at reads
    exact reads.reads (fun other earlier =>
      (undisturbed other (List.mem_append_left _ earlier)).alone) step
  · by_contra late
    have enough := ticks.answer_time asks half whole (by rw [step]; rfl)
      (Bool.eq_false_iff.mpr late)
    have sent := brief.sent (show _[past.length + 1]? = some moment by simp) enough
    rw [sending] at sent
    cases sent

end

/-- The time for the answer to a request counts from the call in which the stack took it, whatever
becomes of its transmission. If it is over while the connection is sending, and nothing but flow
control has reached the client, then it is the request that the connection is sending, and it has been
all that time; so this does not happen to one whose transmission does not take as long
(`Desk.Orderly.sent_before_answer_time`). Of such a request, if its transmission fails, there is one
event, which says so, when the client processes the news. -/
theorem answer_time_counts_from_acceptance {settings : Settings} {world : ω} {fresh : Stack ω}
    {earlier : List (Call ω)} {options : ClientSettings} {listener : Listener} {desk : Desk ω}
    (made : Stack.new settings world = .ok fresh)
    (attached : Desk.attach options listener (fresh.calls earlier) = .ok desk)
    (calls later : List (DeskCall ω)) {deed : Deed ω} {asked : Tick} {message : List UInt8}
    (asks : deed.asks? = some (asked, message, true))
    (taken : deed.answer (desk.calls calls) = .ok ())
    (half : (desk.calls calls).client.answer.toNat ≤ 2 ^ 31) :
    let before := desk.calls calls
    let opening : DeskMoment ω := ⟨before, .deed deed⟩
    let opened := (DeskCall.deed deed).run before
    ∀ clock, Ticks clock (opening :: opened.history later) →
      let deadline := clock 0 + before.client.answer.toNat
      (∀ period closing rest, opened.history later = period ++ closing :: rest →
        ((∀ moment ∈ period, moment.before.client.isBusy = true) →
          ∀ now, closing.Fires now .answer → deadline ≤ clock (period.length + 1) ∧
            ((∀ moment ∈ period, moment.Undisturbed) → closing.transmits = true →
              ∀ moment ∈ period, moment.transmits = true)) ∧
          (opened.Clear → (∀ moment ∈ period, moment.Undisturbed) →
            Brief clock (deadline) (opening :: period) → ∀ fault,
              .failed fault ∈ closing.before.toldSince opened.stack.outside.signals.length →
              closing.before.unread = [.failed fault] ∧ period.flatMap (·.pushed) = [] ∨
                closing.before.unread = [] ∧ period.flatMap (·.pushed) = [.failed fault] ∧
                  closing.before.client.isBusy = false)) ∧
      (opened.Clear → (∀ moment ∈ opened.history later, moment.Undisturbed) →
        Brief clock (deadline) (opening :: opened.history later) →
          ∀ sooner now, later = sooner ++ [.process now] → ∀ fault,
            .failed fault ∈ (opened.calls later).toldSince opened.stack.outside.signals.length →
              (opened.history later).flatMap (·.pushed) = [.failed fault]) := by
  intro before opening opened deadline ticks
  have orderly : before.Orderly := (Desk.calls_orderly made attached calls).1
  obtain ⟨orderly', _, opens⟩ := orderly.opens asks taken
  have reads : DeskMoment.ReadFirst (opened.history later) := Desk.history_read rfl later
  refine ⟨fun period closing rest whole => ⟨fun busy now fires => ?_, ?_⟩, ?_⟩
  · exact ⟨orderly.answer_reached_since asks taken half ticks whole busy fires,
      orderly'.transmitting whole⟩
  · intro clear undisturbed brief fault failed
    have calm := brief.calm ticks asks half whole reads undisturbed
    exact (((opens clear).run _).2 period closing rest whole calm).stands.failed failed
  · intro clear undisturbed brief sooner now last fault failed
    have calm := brief.calm ticks asks half (List.append_nil _).symm reads undisturbed
    have endures := ((opens clear).run _).1 calm
    rw [← Desk.calls_eq] at endures
    subst last
    have read : (opened.calls (sooner ++ [.process now])).unread = [] := by
      rw [Desk.calls, List.foldl_append]
      refine Desk.process_read (Desk.calls_told rfl sooner) fun moment member => ?_
      refine (undisturbed moment ?_).alone
      rw [Desk.history_append]
      refine List.mem_append_right _ ?_
      rw [Desk.history_cons]
      exact List.mem_append_left _ member
    rcases endures.stands.failed failed with ⟨unread, _⟩ | ⟨_, once, _⟩
    · rw [read] at unread
      cases unread
    · exact once

/-- The connection of the sample client is bound. -/
def sampleBinding : List (DeskCall Unit) :=
  [.deed (.call (.bind sampleHandle sampleAddress))]

/-- A request of ten bytes, which take two frames. -/
def sampleWriting : Deed Unit :=
  .requestBytes 0 (0x2E :: List.replicate 9 0)

/-- The stack has taken the request. -/
def samplePending : Desk Unit :=
  (DeskCall.deed sampleWriting).run (sampleDesk.calls sampleBinding)

/-- The server sends this flow control, and the client processes what came of it. -/
def sampleControlled (status : UInt8) (time : Tick) : List (DeskCall Unit) :=
  [.deed (.call (.input 10 ⟨0⟩ (.classic (.standard 0x7E8) 3 #v[status, 0, 0, 0, 0, 0, 0, 0]))),
    .process time]

/-- The server is silent, and nobody looks at anything until the time for its flow control is over. -/
def sampleSilence : List (DeskCall Unit) :=
  [.deed (.call (.process 50)), .process 50, .deed (.call (.process 1000)), .process 1000]

theorem sampleSilence_expires :
    ∃ closing, (samplePending.history (sampleSilence.take 2))[2]? = some closing ∧
      closing.Fires 50 .answer ∧ closing.transmits = true := by
  obtain ⟨closing, here, step⟩ : ∃ closing, (samplePending.history
      (sampleSilence.take 2))[2]? = some closing ∧ closing.step = .expire 50 := ⟨_, rfl, rfl⟩
  have first : (samplePending.history (sampleSilence.take 2))[2]?.map (fun moment =>
      ((moment.before.client.timers.popDue 50).map (·.1), moment.transmits)) =
        some (some .answer, true) := by
    decide +kernel
  rw [here, Option.map_some, Option.some_inj] at first
  exact ⟨closing, here, .of_first step (congrArg Prod.fst first), congrArg Prod.snd first⟩

/-- The time of the request, of the flow control, and of what follows it. -/
def sampleAnswerClock (last : Nat) (i : Nat) : Nat :=
  if i = 0 then 0 else if i < 3 then 10 else last

/-- A server that takes the request has until the fiftieth millisecond to answer it. One that is silent
has no longer, though the request is still being sent. One that has no room for it ends it. -/
theorem sample_answer_time_counts_from_acceptance :
    let taken := samplePending.history (sampleControlled 0x30 50)
    let silent := samplePending.history (sampleSilence.take 2)
    let refused := samplePending.history (sampleControlled 0x32 11)
    taken.map (·.transmits) = [true, false, false, false] ∧
      (∃ closing ∈ taken, closing.Fires 50 .answer ∧
        0 + 50 ≤ sampleAnswerClock 50 3 ∧ closing.transmits = false) ∧
      (∃ closing, silent[2]? = some closing ∧ closing.Fires 50 .answer ∧
        closing.transmits = true ∧ ∀ moment ∈ silent.take 2, moment.transmits = true) ∧
      refused.map (·.transmits) = [true, false, false, false] ∧
      (∀ moment ∈ refused, moment.Undisturbed) ∧
      (∃ closing, refused[2]? = some closing ∧ closing.before.unread = [.failed .flowStatus] ∧
        (refused.take 2).flatMap (·.pushed) = []) ∧
      refused.flatMap (·.pushed) = [.failed .flowStatus] := by
  intro taken silent refused
  have made : Stack.new {} () = .ok sampleStack := rfl
  have attached : Desk.attach {} (.client 0) (sampleStack.calls [.addInterface .obliging]) =
      .ok sampleDesk := rfl
  have asks : sampleWriting.asks? = some (0, 0x2E :: List.replicate 9 0, true) := rfl
  have accepted : sampleWriting.answer (sampleDesk.calls sampleBinding) = .ok () := rfl
  have half : (sampleDesk.calls sampleBinding).client.answer.toNat ≤ 2 ^ 31 := by decide +kernel
  have forward (last : Nat) (late : 10 ≤ last) (i j : Nat) (order : i ≤ j) :
      sampleAnswerClock last i ≤ sampleAnswerClock last j := by
    unfold sampleAnswerClock
    split_ifs <;> omega
  have undisturbed : ∀ moment ∈ refused, moment.Undisturbed := by decide +kernel
  refine ⟨by decide +kernel, ?_, ?_, by decide +kernel, undisturbed, ?_⟩
  · obtain ⟨closing, here, step⟩ : ∃ closing, (samplePending.history
        (sampleControlled 0x30 50))[2]? = some closing ∧ closing.step = .expire 50 := ⟨_, rfl, rfl⟩
    have first : taken[2]?.map (fun moment =>
        (moment.before.client.timers.popDue 50).map (·.1)) = some (some .answer) := by
      decide +kernel
    rw [show taken[2]? = _ from here] at first
    have fires : closing.Fires 50 .answer := .of_first step (Option.some.inj first)
    have whole : taken = _ := eq_take_cons_drop here
    have ticks : Ticks (sampleAnswerClock 50)
        (⟨sampleDesk.calls sampleBinding, .deed sampleWriting⟩ :: taken) :=
      .of_list (forward 50 (by decide)) (by decide +kernel)
    have busy : ∀ moment ∈ taken.take 2, moment.before.client.isBusy = true := by decide +kernel
    have settled := ((answer_time_counts_from_acceptance made attached sampleBinding
      (sampleControlled 0x30 50) asks accepted half (sampleAnswerClock 50) ticks).1 _ _ _ whole).1
      busy 50 fires
    have three : taken.take 3 = taken.take 2 ++ [closing] :=
      List.take_add_one.trans (congrArg (taken.take 2 ++ ·.toList) here)
    have brief : Brief (sampleAnswerClock 50) (sampleAnswerClock 50 0 + 50)
        (⟨sampleDesk.calls sampleBinding, .deed sampleWriting⟩ :: (taken.take 2 ++ [closing])) := by
      rw [← three]
      exact .of_list (by decide +kernel)
    have orderly := (Desk.calls_orderly made attached sampleBinding).1
    exact ⟨closing, List.mem_of_getElem? here, fires, settled.1,
      orderly.sent_before_answer_time asks accepted half ticks whole busy fires brief⟩
  · obtain ⟨closing, here, fires, sending⟩ := sampleSilence_expires
    let clock (i : Nat) : Nat := if i = 0 then 0 else 50
    have ticks : Ticks clock (⟨sampleDesk.calls sampleBinding, .deed sampleWriting⟩ :: silent) := by
      refine .of_list (fun i j order => ?_) (by decide +kernel)
      simp only [clock]
      split_ifs <;> omega
    have settled := ((answer_time_counts_from_acceptance made attached sampleBinding
      (sampleSilence.take 2) asks accepted half clock ticks).1 _ _ _
      (eq_take_cons_drop here)).1 (by decide +kernel) 50 fires
    exact ⟨closing, here, fires, sending, settled.2 (by decide +kernel) sending⟩
  · obtain ⟨closing, here⟩ : ∃ closing, refused[2]? = some closing :=
      Option.isSome_iff_exists.mp (by decide +kernel)
    have failed : refused[2]?.map (fun moment =>
        moment.before.toldSince samplePending.stack.outside.signals.length) =
          some [.failed .flowStatus] := by
      decide +kernel
    rw [here, Option.map_some, Option.some_inj] at failed
    have clear : samplePending.Clear := ⟨by decide +kernel, by decide +kernel⟩
    have ticks : Ticks (sampleAnswerClock 11)
        (⟨sampleDesk.calls sampleBinding, .deed sampleWriting⟩ :: refused) :=
      .of_list (forward 11 (by decide)) (by decide +kernel)
    have settled := answer_time_counts_from_acceptance made attached sampleBinding
      (sampleControlled 0x32 11) asks accepted half (sampleAnswerClock 11) ticks
    refine ⟨⟨closing, here, ?_⟩, ?_⟩
    · have unread := (settled.1 _ _ _ (eq_take_cons_drop here)).2 clear
        (fun moment member => undisturbed moment (List.mem_of_mem_take member))
        (.of_list (by decide +kernel)) .flowStatus (failed ▸ List.mem_singleton_self _)
      refine unread.resolve_right fun ⟨_, once, _⟩ => ?_
      exact absurd once (by decide +kernel)
    · exact settled.2 clear undisturbed (.of_list (by decide +kernel))
        (sampleControlled 0x32 11).dropLast 11 rfl .flowStatus (by decide +kernel)

/-- The time for the answer ends a request of which only the first frame is sent. When its
transmission fails, there is a second event. -/
theorem answer_time_is_over_while_sending :
    sampleWriting.answer (sampleDesk.calls sampleBinding) = .ok () ∧
      samplePending.unread = [] ∧
      (samplePending.stack.receiving samplePending.client.connection).isIdle = true ∧
      (∀ moment ∈ samplePending.history sampleSilence, moment.Undisturbed) ∧
      (∃ closing ∈ samplePending.history sampleSilence,
        closing.Fires 50 .answer ∧ closing.transmits = true) ∧
      (samplePending.calls sampleSilence).toldSince samplePending.stack.outside.signals.length =
        [.failed .transmitTimeout] ∧
      (samplePending.history sampleSilence).flatMap (·.pushed) =
        [.failed .receiveTimeout, .failed .transmitTimeout] := by
  refine ⟨rfl, by decide +kernel, by decide +kernel, by decide +kernel, ?_, by decide +kernel,
    by decide +kernel⟩
  obtain ⟨closing, here, fires, sending⟩ := sampleSilence_expires
  have early : samplePending.history sampleSilence =
      samplePending.history (sampleSilence.take 2) ++ _ :=
    Desk.history_append _ (sampleSilence.take 2) (sampleSilence.drop 2)
  exact ⟨closing, early ▸ List.mem_append_left _ (List.mem_of_getElem? here), fires, sending⟩

end DiagBus
