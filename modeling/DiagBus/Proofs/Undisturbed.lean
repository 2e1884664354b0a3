import DiagBus.Proofs.Freshness
import DiagBus.Proofs.Reassembly
import DiagBus.Proofs.SendingSteps

namespace DiagBus

variable {ω : Type}

/-- The receiving flow of a connection. A connection that is not open has none that is busy. -/
def Stack.receiving (stack : Stack ω) (handle : Handle) : Flow :=
  (stack.connections.get? handle).elim {} (·.input)

/-- Whether a frame reaches a connection that is, or is part of, a message of the peer. -/
def Step.brings (step : Step ω) (handle : Handle) : Bool :=
  match step with
  | .arrive _ other pdu => other = handle ∧ pdu.direction = .input
  | _ => false

/-- Whether a signal is of this connection. -/
def Signal.concerns (signal : Signal) (handle : Handle) : Bool :=
  signal.isFrom handle .input || signal.isFrom handle .output

/-- In this step nothing reaches a connection but flow control, nothing is to be sent on it, and what
its listener is told is of this connection. -/
structure Moment.Undisturbed (moment : Moment ω) (handle : Handle) (listener : Listener) : Prop where
  unaddressed : moment.step.brings handle = false
  unasked : moment.step.submits handle = false
  own : ∀ signal ∈ moment.news, signal.delivery? listener ≠ none → signal.concerns handle = true

instance (moment : Moment ω) (handle : Handle) (listener : Listener) :
    Decidable (moment.Undisturbed handle listener) :=
  decidable_of_iff (moment.step.brings handle = false ∧ moment.step.submits handle = false ∧
      ∀ signal ∈ moment.news, signal.delivery? listener ≠ none → signal.concerns handle = true)
    ⟨fun ⟨unaddressed, unasked, own⟩ => ⟨unaddressed, unasked, own⟩,
      fun ⟨unaddressed, unasked, own⟩ => ⟨unaddressed, unasked, own⟩⟩

/-- What becomes of a transmission while its connection is undisturbed, and what its listener is told
of it: that it has failed, or nothing. -/
inductive Stack.Conveys (before : Stack ω) (handle : Handle) (after : Stack ω) :
    List Delivery → Prop
  | silently (still : (before.sending handle).isIdle = true → (after.sending handle).isIdle = true) :
      Conveys before handle after []
  | fails (fault : Fault) (busy : (before.sending handle).isIdle = false)
      (idle : (after.sending handle).isIdle = true) : Conveys before handle after [.failed fault]

section

variable {before after : Stack ω} {moment : Moment ω} {handle : Handle} {listener : Listener}
  {connection : Connection}

/-- No transmission fails twice. -/
theorem Stack.Conveys.trans {between : Stack ω} {first second : List Delivery}
    (early : before.Conveys handle between first) (late : between.Conveys handle after second) :
    before.Conveys handle after (first ++ second) := by
  cases early with
  | silently still =>
    cases late with
    | silently onward => exact .silently fun idle => onward (still idle)
    | fails fault busy idle =>
      refine .fails fault (Bool.eq_false_iff.mpr fun rests => ?_) idle
      rw [still rests] at busy
      cases busy
  | fails fault busy idle =>
    cases late with
    | silently onward => exact .fails fault busy (onward idle)
    | fails _ again _ =>
      rw [idle] at again
      cases again

theorem Stack.receiving_of_live {stack : Stack ω}
    (live : stack.connections.get? handle = some connection) :
    stack.receiving handle = connection.input := by
  unfold receiving
  rw [live]
  rfl

theorem Stack.receiving_of_dead {stack : Stack ω} (dead : stack.connections.get? handle = none) :
    stack.receiving handle = {} := by
  unfold receiving
  rw [dead]
  rfl

theorem Signal.delivery?_of_isRaw {signal : Signal} (raw : signal.isRaw = true)
    (listener : Listener) : signal.delivery? listener = none := by
  unfold Signal.isRaw at raw
  split at raw <;> first | rfl | cases raw

/-- What can come from a flow of one connection is of no other. -/
theorem Signal.eq_of_concerns {signal : Signal} {other : Handle} {direction : Direction}
    (concerns : signal.concerns handle = true) (own : signal.isFrom other direction = true)
    (told : signal.delivery? listener ≠ none) : other = handle := by
  unfold Signal.concerns at concerns
  cases signal with
  | received name found message =>
    simp only [isFrom, isOf, decide_eq_true_eq, Bool.or_eq_true] at concerns own
    rcases concerns with ⟨same, _⟩ | ⟨same, _⟩ <;> exact own.1.symm.trans same
  | failed name found fault =>
    simp only [isFrom, decide_eq_true_eq, Bool.or_self] at concerns own
    exact own.symm.trans concerns
  | _ => exact absurd rfl told

/-- A flow that failed tells the listener of its connection, if that is the one. -/
theorem Connection.failure_deliveries (connection : Connection) (scope : Scope ω) (fault : Fault)
    (listener : Listener) :
    (connection.failure scope fault).filterMap (·.delivery? listener) = [] ∨
      (connection.failure scope fault).filterMap (·.delivery? listener) = [.failed fault] := by
  unfold Connection.failure told
  cases connection.onFailed with
  | none => exact Or.inl rfl
  | some name =>
    by_cases same : name = listener
    · exact Or.inr (by simp [Signal.delivery?, same])
    · exact Or.inl (by simp [Signal.delivery?, same])

/-- Whatever a listener is told in a step comes of a plan that a connection carries out. -/
theorem Stack.Turns.deliveries {step : Step ω} (turns : before.Turns step after)
    (listener : Listener) :
    ∃ news, after.outside.signals = before.outside.signals ++ news ∧
      (news.filterMap (·.delivery? listener) = [] ∨
        ∃ name connection now direction plan, before.connections.get? name = some connection ∧
          before.Plans name connection step now direction plan ∧
          before.Carried name connection direction plan after news) := by
  cases turns with
  | apart apart _ =>
    obtain ⟨news, told, raw⟩ := apart.outside
    refine ⟨news, told, Or.inl (List.filterMap_eq_nil_iff.mpr fun signal member => ?_)⟩
    exact Signal.delivery?_of_isRaw (raw signal member) listener
  | acted plans acts =>
    obtain ⟨news, told, carried⟩ := acts.carries_out
    exact ⟨news, told, Or.inr ⟨_, _, _, _, _, acts.live, plans, carried⟩⟩
  | _ => exact ⟨[], (List.append_nil _).symm, Or.inl rfl⟩

/-- A sending flow that goes on tells nothing, unless its transfer ends; what it tells then, if it is
not that all was sent, is that it failed. -/
theorem Connection.Sends.conveys {scope : Scope ω} {address : Address} {message : List UInt8}
    {emitted : List Frame} {plan : Plan} {news : List Signal}
    (sends : connection.Sends scope address message emitted plan)
    (carried : before.Carried handle connection .output plan after news)
    (live : before.connections.get? handle = some connection)
    (busy : connection.output.isIdle = false) (listener : Listener) :
    before.Conveys handle after (news.filterMap (·.delivery? listener)) := by
  have silently {news : List Signal} (quiet : news.filterMap (·.delivery? listener) = []) :
      before.Conveys handle after (news.filterMap (·.delivery? listener)) := by
    rw [quiet]
    refine .silently fun idle => ?_
    rw [Stack.sending_of_live live, busy] at idle
    cases idle
  have ends {noted : Bool} {fault : Fault} (attempt : List Signal)
      (replaced : before.Replaced handle connection .output {} noted after)
      (quiet : attempt.filterMap (·.delivery? listener) = []) : before.Conveys handle after
        ((attempt ++ connection.failure scope fault).filterMap (·.delivery? listener)) := by
    rw [List.filterMap_append, quiet, List.nil_append]
    rcases connection.failure_deliveries scope fault listener with nothing | once
    · exact silently nothing
    · rw [once]
      refine .fails fault (by rw [Stack.sending_of_live live, busy]) ?_
      rw [replaced.sending live]
      rfl
  cases sends with
  | stay =>
    cases carried with
    | stay _ _ _ => exact silently rfl
  | wait _ =>
    cases carried with
    | wait _ => exact silently rfl
  | hand _ _ =>
    cases carried with
    | handed _ => exact silently rfl
    | refused fault replaced attempted _ =>
      refine ends _ replaced ?_
      rcases attempted with rfl | ⟨reason, rfl⟩ <;> rfl
  | fail fault _ =>
    cases carried with
    | rest replaced => exact ends [] replaced rfl
  | finish _ _ =>
    cases carried with
    | rest _ =>
      refine silently ?_
      unfold Connection.sent told
      cases connection.onSent <;> rfl

namespace Moment

/-- A receiving flow that nothing reaches has nothing to do. -/
theorem Undisturbed.input_stays (undisturbed : moment.Undisturbed handle listener)
    (sound : moment.before.Sound) (live : moment.before.connections.get? handle = some connection)
    (idle : (moment.before.receiving handle).isIdle = true) {now : Tick} {plan : Plan}
    (plans : moment.before.Plans handle connection moment.step now .input plan) :
    plan = .stay [] := by
  rw [Stack.receiving_of_live live] at idle
  have reaches {pdu : Pdu} (given : moment.step = .arrive now handle pdu)
      (part : pdu.direction = .input) : False := by
    have nothing := undisturbed.unaddressed
    rw [given] at nothing
    simp [Step.brings, part] at nothing
  rcases plans.input_stays rfl ((sound.flows handle connection live).idle .input idle) with
    stays | ⟨message, given, _⟩ | ⟨length, data, given, _⟩
  · exact stays
  · exact (reaches given rfl).elim
  · exact (reaches given rfl).elim

theorem Undisturbed.receiving (undisturbed : moment.Undisturbed handle listener)
    (sound : moment.before.Sound) (timely : moment.step.Timely moment.before)
    (idle : (moment.before.receiving handle).isIdle = true) :
    (moment.after.receiving handle).isIdle = true := by
  rcases moment.flow_cases sound timely handle .input with
    passes | ⟨connection, now, plan, live, plans, carried⟩
  · cases found : moment.after.connections.get? handle with
    | none =>
      rw [Stack.receiving_of_dead found]
      rfl
    | some other =>
      rw [Stack.receiving_of_live found]
      rcases passes.leaves other found with ⟨_, rfl⟩ | ⟨earlier, live, same, _⟩
      · rfl
      · rw [show other.input = earlier.input from same, ← Stack.receiving_of_live live]
        exact idle
  · rw [undisturbed.input_stays sound live idle plans] at carried
    have same : moment.after.connections = moment.before.connections := carried.of_stay.2
    rw [Stack.receiving, same]
    exact idle

/-- A sending flow that takes no message stays idle. -/
theorem Undisturbed.sending (undisturbed : moment.Undisturbed handle listener)
    (sound : moment.before.Sound) (timely : moment.step.Timely moment.before)
    (idle : (moment.before.sending handle).isIdle = true) :
    (moment.after.sending handle).isIdle = true := by
  have only (message : List UInt8) : ¬moment.Accepts handle message := by
    rintro ⟨now, given, _⟩
    have nothing := undisturbed.unasked
    rw [given] at nothing
    simp [Step.submits] at nothing
  have rests := moment.rests sound timely only fun connection live => by
    rw [Stack.sending_of_live live] at idle
    exact (sound.flows handle connection live).idle .output idle
  cases found : moment.after.connections.get? handle with
  | none =>
    rw [Stack.sending_of_dead found]
    rfl
  | some connection =>
    rw [Stack.sending_of_live found, rests connection found]
    rfl

/-- What an undisturbed connection tells is that its transmission failed. -/
theorem Undisturbed.conveys (undisturbed : moment.Undisturbed handle listener)
    (sound : moment.before.Sound) (timely : moment.step.Timely moment.before)
    (idle : (moment.before.receiving handle).isIdle = true) :
    moment.before.Conveys handle moment.after
      (moment.news.filterMap (·.delivery? listener)) := by
  obtain ⟨news, told, cases⟩ := (sound.turns timely).deliveries listener
  have news_eq : moment.news = news := Moment.news_eq told
  rw [news_eq]
  have silently (quiet : news.filterMap (·.delivery? listener) = []) :
      moment.before.Conveys handle moment.after (news.filterMap (·.delivery? listener)) := by
    rw [quiet]
    exact .silently (undisturbed.sending sound timely)
  rcases cases with quiet | ⟨name, connection, now, direction, plan, live, plans, carried⟩
  · exact silently quiet
  by_cases own : name = handle
  · subst own
    cases direction with
    | input =>
      rw [undisturbed.input_stays sound live idle plans] at carried
      exact silently (by rw [carried.of_stay.1]; rfl)
    | output =>
      rcases (sound.flows name connection live).output with
        free | ⟨address, message, emitted, bound, underway⟩
      · rcases plans.output_stays rfl free with stays | ⟨message, given⟩
        · rw [stays] at carried
          exact silently (by rw [carried.of_stay.1]; rfl)
        · have nothing := undisturbed.unasked
          rw [given] at nothing
          simp [Step.submits] at nothing
      · exact (plans.sends rfl bound underway).conveys carried live underway.not_idle listener
  · refine silently (List.filterMap_eq_nil_iff.mpr fun signal member => ?_)
    by_contra told
    refine own (Signal.eq_of_concerns ?_ (carried.speaks plans.speaks signal member) told)
    exact undisturbed.own signal (news_eq ▸ member) told

end Moment

/-- So it is in any run. -/
theorem Stack.Orderly.conveys {stack : Stack ω} {steps : List (Step ω)}
    (orderly : stack.Orderly steps)
    (undisturbed : ∀ moment ∈ stack.moments steps, moment.Undisturbed handle listener)
    (idle : (stack.receiving handle).isIdle = true) :
    ((stack.through steps).receiving handle).isIdle = true ∧
      ∃ news, (stack.through steps).outside.signals = stack.outside.signals ++ news ∧
        stack.Conveys handle (stack.through steps) (news.filterMap (·.delivery? listener)) := by
  refine @Stack.Orderly.induct _ _ _ orderly (fun _ after =>
    (after.receiving handle).isIdle = true ∧
      ∃ news, after.outside.signals = stack.outside.signals ++ news ∧
        stack.Conveys handle after (news.filterMap (·.delivery? listener))) []
    ⟨idle, [], (List.append_nil _).symm, .silently id⟩ ?_
  rintro past moment member sound timely ⟨idle, news, told, conveys⟩
  have calm := undisturbed moment member
  have onward := calm.conveys sound timely idle
  obtain ⟨more, grown, _⟩ := (sound.turns timely).deliveries listener
  rw [Moment.news_eq grown] at onward
  refine ⟨calm.receiving sound timely idle, news ++ more, ?_, ?_⟩
  · rw [← List.append_assoc, ← told]
    exact grown
  · rw [List.filterMap_append]
    exact conveys.trans onward

theorem Stack.Orderly.rests {stack : Stack ω} {steps : List (Step ω)}
    (orderly : stack.Orderly steps)
    (undisturbed : ∀ moment ∈ stack.moments steps, moment.Undisturbed handle listener)
    (idle : (stack.sending handle).isIdle = true) :
    ((stack.through steps).sending handle).isIdle = true :=
  @Stack.Orderly.induct _ _ _ orderly (fun _ after => (after.sending handle).isIdle = true) [] idle
    fun _ moment member sound timely idle => (undisturbed moment member).sending sound timely idle

end

namespace DeskMoment

/-- Whether the client makes a request in this step while none is outstanding, or tries to. -/
def isRequest (moment : DeskMoment ω) : Bool :=
  !moment.before.client.isBusy && match moment.step with
    | .deed deed => deed.asks?.isSome
    | .expire now => (moment.before.client.timers.popDue now).any fun (timer, _) =>
        timer = .session && moment.before.client.settings.keepSession
    | _ => false

/-- What happens in the stack when the program around calls it. -/
def within (moment : DeskMoment ω) : List (Moment ω) :=
  match moment.step with
  | .deed (.call made) => moment.before.stack.history [made]
  | _ => []

/-- Whether the client's connection is about to send a message. -/
def transmits (moment : DeskMoment ω) : Bool :=
  !(moment.before.stack.sending moment.before.client.connection).isIdle

/-- The client makes no further request, and nothing but flow control reaches its connection. -/
structure Undisturbed (moment : DeskMoment ω) : Prop where
  alone : moment.isRequest = false
  within : ∀ inner ∈ moment.within,
    inner.Undisturbed moment.before.client.connection moment.before.listener

instance (moment : DeskMoment ω) : Decidable moment.Undisturbed :=
  decidable_of_iff (moment.isRequest = false ∧ ∀ inner ∈ moment.within,
      inner.Undisturbed moment.before.client.connection moment.before.listener)
    ⟨fun ⟨alone, within⟩ => ⟨alone, within⟩, fun ⟨alone, within⟩ => ⟨alone, within⟩⟩

variable {moment : DeskMoment ω}

/-- A timer that fires is due. -/
theorem Fires.reached {now : Tick} {timer : ClientTimer} (fires : moment.Fires now timer)
    (timed : moment.before.client.Timed) :
    ∃ deadline, moment.before.client.due timer = some deadline ∧ now.before deadline = false := by
  obtain ⟨timers, popped⟩ := fires.popped
  obtain ⟨_, _, due, _⟩ := timed.single.popDue popped
  exact due

end DeskMoment

/-- A client does not make a request while another one is outstanding. -/
theorem Deed.run_of_busy {deed : Deed ω} {desk : Desk ω} (busy : desk.client.isBusy = true)
    (asks : deed.asks? ≠ none) : deed.run desk = desk := by
  have working : desk.client.state ≠ .idle := of_decide_eq_true busy
  cases deed with
  | request now made => simp only [run, Client.request_eq, if_neg working, Desk.adopt]
  | requestBytes now message =>
    simp only [run, Client.requestBytes, busy, if_true, Desk.adopt]
    split <;> rfl
  | startSession now address session =>
    simp only [run, Client.startSession, busy, if_true, Desk.adopt]
  | _ => exact absurd rfl asks

/-- Of all that a program does with a client, only requests and calls of the stack reach the stack. -/
theorem Deed.run_plain {deed : Deed ω} (plain : deed.asks? = none)
    (within : ∀ made, deed ≠ .call made) (desk : Desk ω) :
    (deed.run desk).stack = desk.stack ∧ (deed.run desk).heard = desk.heard ∧
      (deed.run desk).listener = desk.listener := by
  cases deed with
  | call made => exact absurd rfl (within made)
  | request _ _ => cases plain
  | requestBytes _ _ => cases plain
  | startSession _ _ _ => cases plain
  | _ => exact ⟨rfl, rfl, rfl⟩

/-- Where a request stands that the stack took after `count` signals, and that has to be answered by
the deadline; these events came of it. -/
inductive Desk.Stands (count : Nat) (deadline : Tick) (desk : Desk ω) : List ClientEvent → Prop
  /-- It is being sent. -/
  | underway (busy : (desk.stack.sending desk.client.connection).isIdle = false)
      (told : desk.toldSince count = []) (read : desk.unread = [])
      (due : desk.client.due .answer = some deadline) : Stands count deadline desk []
  /-- Its transmission failed. -/
  | broken {fault : Fault} (idle : (desk.stack.sending desk.client.connection).isIdle = true)
      (told : desk.toldSince count = [.failed fault]) (unread : desk.unread = [.failed fault]) :
      Stands count deadline desk []
  /-- The client has learned of that. -/
  | ended {fault : Fault} (idle : (desk.stack.sending desk.client.connection).isIdle = true)
      (told : desk.toldSince count = [.failed fault]) (read : desk.unread = [])
      (rests : desk.client.state = .idle) : Stands count deadline desk [.failed fault]
  /-- It was sent, or its connection was closed. -/
  | sent {events : List ClientEvent}
      (idle : (desk.stack.sending desk.client.connection).isIdle = true)
      (told : desk.toldSince count = []) (read : desk.unread = []) :
      Stands count deadline desk events

namespace Desk

variable {desk after : Desk ω} {count : Nat} {deadline : Tick} {events : List ClientEvent}

theorem toldSince_of_same (listener : after.listener = desk.listener)
    (stack : after.stack = desk.stack) (count : Nat) :
    after.toldSince count = desk.toldSince count := by
  unfold toldSince
  rw [listener, stack]

/-- A step that leaves the stack, the news and the request alone. -/
theorem Stands.of_same (stands : desk.Stands count deadline events)
    (listener : after.listener = desk.listener) (stack : after.stack = desk.stack)
    (connection : after.client.connection = desk.client.connection)
    (unread : after.unread = desk.unread)
    (due : after.client.due .answer = desk.client.due .answer)
    (state : after.client.state = desk.client.state) : after.Stands count deadline events := by
  have told := toldSince_of_same listener stack count
  cases stands with
  | underway busy nothing read limit =>
    exact .underway (by rwa [stack, connection]) (told.trans nothing) (unread.trans read)
      (due.trans limit)
  | broken idle failed left =>
    exact .broken (by rwa [stack, connection]) (told.trans failed) (unread.trans left)
  | ended idle failed read rests =>
    exact .ended (by rwa [stack, connection]) (told.trans failed) (unread.trans read)
      (state.trans rests)
  | sent idle nothing read =>
    exact .sent (by rwa [stack, connection]) (told.trans nothing) (unread.trans read)

/-- What the stack tells while the program around calls it. -/
theorem Stands.conveys {stack : Stack ω} {news : List Signal}
    (stands : desk.Stands count deadline events)
    (grown : stack.outside.signals = desk.stack.outside.signals ++ news)
    (known : count ≤ desk.stack.outside.signals.length)
    (heard : desk.heard ≤ desk.stack.outside.signals.length)
    (conveys : desk.stack.Conveys desk.client.connection stack
      (news.filterMap (·.delivery? desk.listener))) :
    Stands count deadline { desk with stack } events := by
  have since (start : Nat) (bound : start ≤ desk.stack.outside.signals.length) :
      Desk.toldSince { desk with stack } start =
        desk.toldSince start ++ news.filterMap (·.delivery? desk.listener) := by
    have told := @toldSince_grown ω desk { desk with stack } news rfl grown start
    rwa [Nat.sub_eq_zero_of_le bound, List.drop_zero] at told
  have told := since count known
  have unread : Desk.unread { desk with stack } =
      desk.unread ++ news.filterMap (·.delivery? desk.listener) := by
    unfold Desk.unread
    rw [List.append_assoc]
    exact congrArg (desk.client.mailbox ++ ·) (since desk.heard heard)
  generalize news.filterMap (·.delivery? desk.listener) = more at conveys told unread
  cases conveys with
  | silently still =>
    rw [List.append_nil] at told unread
    cases stands with
    | underway busy nothing read due =>
      cases idle : (stack.sending desk.client.connection).isIdle with
      | false => exact .underway idle (told.trans nothing) (unread.trans read) due
      | true => exact .sent idle (told.trans nothing) (unread.trans read)
    | broken idle failed left => exact .broken (still idle) (told.trans failed) (unread.trans left)
    | ended idle failed read rests =>
      exact .ended (still idle) (told.trans failed) (unread.trans read) rests
    | sent idle nothing read => exact .sent (still idle) (told.trans nothing) (unread.trans read)
  | fails fault busy idle =>
    cases stands with
    | underway _ nothing read _ =>
      rw [nothing] at told
      rw [read] at unread
      exact .broken idle told unread
    | broken rests _ _ => rw [rests] at busy; cases busy
    | ended rests _ _ _ => rw [rests] at busy; cases busy
    | sent rests _ _ => rw [rests] at busy; cases busy

theorem news_of_heard (heard : desk.heard = desk.stack.outside.signals.length) :
    desk.news = [] := by
  unfold news
  rw [heard, List.drop_length]
  rfl

/-- There is room in the mailbox for one piece of news. -/
theorem unread_deliver_of_few (few : desk.unread.length ≤ 1) : desk.deliver.unread = desk.unread := by
  have nothing : desk.deliver.news = [] := news_of_heard rfl
  have room : 1 ≤ desk.client.capacity := le_max_right _ _
  unfold Desk.unread at few ⊢
  rw [nothing, List.append_nil]
  unfold deliver
  rw [List.length_append] at few
  rcases news : desk.news with _ | ⟨delivery, rest⟩
  · exact (List.append_nil _).symm
  · rw [news, List.length_cons] at few
    obtain rfl : rest = [] := List.length_eq_zero_iff.mp (by omega)
    have empty : desk.client.mailbox.length = 0 := by omega
    simp only [List.foldl_cons, List.foldl_nil, Client.deliver]
    rw [if_pos (by omega)]

/-- A failure is either unread, or there is one event of it. -/
theorem Stands.failed (stands : desk.Stands count deadline events) {fault : Fault}
    (failed : .failed fault ∈ desk.toldSince count) :
    desk.unread = [.failed fault] ∧ events = [] ∨
      desk.unread = [] ∧ events = [.failed fault] ∧ desk.client.isBusy = false := by
  cases stands with
  | underway _ told _ _ =>
    rw [told] at failed
    cases failed
  | sent _ told _ =>
    rw [told] at failed
    cases failed
  | broken _ told unread =>
    rw [told] at failed
    cases List.mem_singleton.mp failed
    exact Or.inl ⟨unread, rfl⟩
  | ended _ told read rests =>
    rw [told] at failed
    cases List.mem_singleton.mp failed
    exact Or.inr ⟨read, rfl, by simp [Client.isBusy, rests]⟩

theorem Stands.few (stands : desk.Stands count deadline events) : desk.unread.length ≤ 1 := by
  cases stands with
  | underway _ _ read _ => simp [read]
  | broken _ _ unread => simp [unread]
  | ended _ _ read _ => simp [read]
  | sent _ _ read => simp [read]

end Desk

/-- What a run keeps in which the client makes no request and nothing but flow control reaches its
connection. -/
structure Desk.Endures (count : Nat) (deadline : Tick) (events : List ClientEvent) (desk : Desk ω) :
    Prop where
  orderly : desk.Orderly
  known : count ≤ desk.stack.outside.signals.length
  heard : desk.heard ≤ desk.stack.outside.signals.length
  receiving : (desk.stack.receiving desk.client.connection).isIdle = true
  stands : desk.Stands count deadline events

/-- In an undisturbed step no timer fires while news is unread, and the time for the answer is not
over while the request is being sent. -/
structure DeskMoment.Calm (moment : DeskMoment ω) (deadline : Tick) : Prop where
  undisturbed : moment.Undisturbed
  read : ∀ now, moment.step = .expire now → moment.before.unread = []
  early : ∀ now, moment.step = .expire now → moment.transmits = true → now.before deadline = true

namespace DeskMoment

variable {moment : DeskMoment ω} {count : Nat} {deadline : Tick} {events : List ClientEvent}

/-- The program around calls the stack. -/
theorem Undisturbed.calls (undisturbed : moment.Undisturbed)
    (endures : moment.before.Endures count deadline events) {made : Call ω}
    (step : moment.step = .deed (.call made)) :
    moment.after.Endures count deadline (events ++ moment.pushed) := by
  obtain ⟨orderly, known, heard, receiving, stands⟩ := endures
  have smooth := Stack.steps_smooth [made] orderly.informed.sound orderly.informed.quiet
  have calm := undisturbed.within
  unfold DeskMoment.within at calm
  rw [step] at calm
  obtain ⟨idle, news, grown, conveys⟩ := smooth.orderly.conveys calm receiving
  rw [← Stack.calls_eq, show moment.before.stack.calls [made] = made.run moment.before.stack
    from rfl] at idle grown conveys
  have after : moment.after = { moment.before with stack := made.run moment.before.stack } := by
    rw [DeskMoment.after, step]
    rfl
  have orderly' := DeskMoment.orderly orderly
  rw [pushed_eq, step, show (DeskStep.deed (.call made)).event? moment.before = none from rfl,
    Option.toList_none, List.append_nil]
  rw [after] at orderly' ⊢
  have longer : moment.before.stack.outside.signals.length ≤
      (made.run moment.before.stack).outside.signals.length := by
    rw [grown, List.length_append]
    exact Nat.le_add_right _ _
  exact ⟨orderly', known.trans longer, heard.trans longer, idle,
    stands.conveys grown known heard conveys⟩

/-- A step that leaves the stack, the news and the request alone. -/
theorem endures_of_same (endures : moment.before.Endures count deadline events)
    (stack : moment.after.stack = moment.before.stack)
    (heard : moment.after.heard ≤ moment.before.stack.outside.signals.length)
    (unread : moment.after.unread = moment.before.unread)
    (due : moment.after.client.due .answer = moment.before.client.due .answer)
    (state : moment.after.client.state = moment.before.client.state)
    (event : moment.step.event? moment.before = none) :
    moment.after.Endures count deadline (events ++ moment.pushed) := by
  obtain ⟨orderly, known, _, receiving, stands⟩ := endures
  have connection := (DeskMoment.keeps orderly).2
  have listener : moment.after.listener = moment.before.listener :=
    (moment.step.moves moment.before).1
  rw [pushed_eq, event, Option.toList_none, List.append_nil]
  exact ⟨DeskMoment.orderly orderly, by rwa [stack], by rwa [stack], by rwa [stack, connection],
    stands.of_same listener stack connection unread due state⟩

theorem endures_of_nothing (endures : moment.before.Endures count deadline events)
    (same : moment.after = moment.before) (event : moment.step.event? moment.before = none) :
    moment.after.Endures count deadline (events ++ moment.pushed) := by
  refine endures_of_same endures ?_ ?_ ?_ ?_ ?_ event
  · rw [same]
  · rw [same]
    exact endures.heard
  · rw [same]
  · rw [same]
  · rw [same]

/-- Undisturbed, a client that is asked for a request has one outstanding. -/
theorem Undisturbed.busy (undisturbed : moment.Undisturbed) {deed : Deed ω}
    (step : moment.step = .deed deed) (asks : deed.asks? ≠ none) :
    moment.before.client.isBusy = true := by
  have nothing := undisturbed.alone
  simp only [isRequest, step, Option.isSome_iff_ne_none.mpr asks, Bool.and_true,
    Bool.not_eq_false'] at nothing
  exact nothing

/-- A request is not made while the one that is considered is outstanding. -/
theorem Undisturbed.deed (undisturbed : moment.Undisturbed)
    (endures : moment.before.Endures count deadline events) {deed : Deed ω}
    (step : moment.step = .deed deed) :
    moment.after.Endures count deadline (events ++ moment.pushed) := by
  by_cases alone : deed.asks? = none
  case neg =>
    refine endures_of_nothing endures ?_ (by rw [step]; rfl)
    rw [DeskMoment.after, step]
    exact Deed.run_of_busy (undisturbed.busy step alone) alone
  by_cases calls : ∃ made, deed = .call made
  · obtain ⟨made, rfl⟩ := calls
    exact undisturbed.calls endures step
  obtain ⟨before, _⟩ := moment
  cases step
  obtain ⟨_, _, _, _, situation⟩ := deed.plain_cases before alone
  obtain ⟨stack, heard, listener⟩ :=
    Deed.run_plain alone (fun made same => calls ⟨made, same⟩) before
  refine endures_of_same endures stack (heard.le.trans endures.heard) ?_ ?_ ?_ rfl
  · show (deed.run before).client.mailbox ++ (deed.run before).news = before.unread
    rw [deed.mailbox_run, Desk.news, heard, stack, listener]
    rfl
  · exact congrFun (congrArg Situation.due situation) .answer
  · exact congrArg Situation.state situation

theorem deliver_endures (endures : moment.before.Endures count deadline events)
    (step : moment.step = .deliver) :
    moment.after.Endures count deadline (events ++ moment.pushed) := by
  obtain ⟨before, _⟩ := moment
  cases step
  obtain ⟨_, situation, _⟩ := before.deliver_same
  exact endures_of_same endures rfl (Nat.le_refl _)
    (Desk.unread_deliver_of_few endures.stands.few)
    (congrFun (congrArg Situation.due situation) .answer) (congrArg Situation.state situation) rfl

/-- The client learns of the failure when it looks at the news. -/
theorem take_endures (endures : moment.before.Endures count deadline events) {now : Tick}
    (step : moment.step = .take now) :
    moment.after.Endures count deadline (events ++ moment.pushed) := by
  obtain ⟨before, _⟩ := moment
  cases step
  cases mailbox : before.client.mailbox with
  | nil =>
    have same : DeskMoment.after ⟨before, .take now⟩ = before := by
      simp only [DeskMoment.after, DeskStep.run, mailbox]
    refine endures_of_nothing endures same ?_
    simp only [DeskStep.event?, mailbox, List.head?_nil, Option.bind_none]
  | cons first rest =>
    obtain ⟨orderly, known, heard, receiving, stands⟩ := endures
    have unread := Desk.unread_take mailbox now
    have left {delivery : Delivery} {others : List Delivery}
        (waits : before.unread = delivery :: others) : first = delivery ∧
          ((DeskStep.take now).run before).unread = others := by
      rw [unread] at waits
      exact List.cons.inj waits
    have nothing (read : before.unread = []) : False := by
      rw [unread] at read
      cases read
    cases stands with
    | underway _ _ read _ => exact (nothing read).elim
    | ended _ _ read _ => exact (nothing read).elim
    | sent _ _ read => exact (nothing read).elim
    | @broken fault idle told waits =>
      obtain ⟨rfl, read⟩ := left waits
      have connection := (@DeskMoment.keeps ω ⟨before, .take now⟩ orderly).2
      have orderly' := @DeskMoment.orderly ω ⟨before, .take now⟩ orderly
      have pushed : DeskMoment.pushed ⟨before, .take now⟩ = [.failed fault] := by
        rw [pushed_eq]
        simp only [DeskStep.event?, mailbox, List.head?_cons, Option.bind_some, Delivery.event?,
          Option.toList_some]
      let client : Client := { before.client with mailbox := rest }
      have after : DeskMoment.after ⟨before, .take now⟩ =
          { before with client := client.finish.push (.failed fault) } := by
        simp only [DeskMoment.after, DeskStep.run, mailbox]
        rfl
      have rests := congrArg Situation.state (client.finish.push_situation (.failed fault)).1
      rw [show (DeskStep.take now).run before = _ from after] at read
      rw [pushed, List.nil_append]
      rw [after] at connection orderly' ⊢
      refine ⟨orderly', known, heard, ?_, .ended ?_ told read rests⟩
      · rwa [connection]
      · rwa [connection]

/-- A timer that fires and has the client make no request leaves the stack and the news alone. -/
theorem Fires.leaves {now : Tick} {timer : ClientTimer} (fires : moment.Fires now timer)
    (alone : moment.isRequest = false) :
    moment.after.stack = moment.before.stack ∧ moment.after.heard = moment.before.heard ∧
      moment.after.unread = moment.before.unread := by
  obtain ⟨before, _⟩ := moment
  obtain ⟨rfl, timers, due⟩ := fires
  have due : before.client.timers.popDue now = some (timer, timers) := due
  let client : Client := { before.client with timers }
  have after : DeskMoment.after ⟨before, .expire now⟩ =
      before.adopt (client.expire now timer before.stack) := by
    simp only [DeskMoment.after, DeskStep.run, due]
    rfl
  have stack : (client.expire now timer before.stack).2 = before.stack := by
    by_cases kind : timer = .session
    · subst kind
      rw [Client.expire_session]
      split
      · rename_i keeps
        have busy : client.state ≠ .idle := by
          intro rests
          simp [isRequest, due, show before.client.settings.keepSession = true from keeps,
            show before.client.state = .idle from rests, Client.isBusy] at alone
        rw [Client.request_eq, if_neg busy]
      · rfl
    · rw [client.expire_answer now kind]
  have mailbox := client.mailbox_expire now timer before.stack
  rw [after]
  refine ⟨stack, rfl, ?_⟩
  show (client.expire now timer before.stack).1.mailbox ++ Desk.news (before.adopt _) = _
  rw [mailbox]
  unfold Desk.news Desk.adopt
  rw [stack]
  rfl

/-- Undisturbed, the stack moves only when it is called. -/
theorem Undisturbed.stack_eq (undisturbed : moment.Undisturbed)
    (within : ∀ made, moment.step ≠ .deed (.call made)) :
    moment.after.stack = moment.before.stack := by
  cases step : moment.step with
  | deed deed =>
    have plain (made : Call ω) : deed ≠ .call made := fun same => within made (same ▸ step)
    rw [DeskMoment.after, step]
    by_cases alone : deed.asks? = none
    · exact (Deed.run_plain alone plain moment.before).1
    · rw [show (DeskStep.deed deed).run moment.before = deed.run moment.before from rfl,
        Deed.run_of_busy (undisturbed.busy step alone) alone]
  | deliver =>
    rw [DeskMoment.after, step]
    rfl
  | take now =>
    simp only [DeskMoment.after, step, DeskStep.run]
    split <;> rfl
  | expire now =>
    cases due : moment.before.client.timers.popDue now with
    | none => simp only [DeskMoment.after, step, DeskStep.run, due]
    | some popped => exact (Fires.leaves ⟨step, popped.2, due⟩ undisturbed.alone).1

/-- Undisturbed, a connection that has nothing to send gets nothing to send. -/
theorem Undisturbed.rests (undisturbed : moment.Undisturbed) (orderly : moment.before.Orderly)
    (rests : moment.transmits = false) :
    (moment.after.stack.sending moment.after.client.connection).isIdle = true := by
  have idle : (moment.before.stack.sending moment.before.client.connection).isIdle = true := by
    simpa [transmits] using rests
  rw [(DeskMoment.keeps orderly).2]
  by_cases calls : ∃ made, moment.step = .deed (.call made)
  · obtain ⟨made, step⟩ := calls
    have smooth := Stack.steps_smooth [made] orderly.informed.sound orderly.informed.quiet
    have calm := undisturbed.within
    unfold DeskMoment.within at calm
    rw [step] at calm
    have after : moment.after.stack = moment.before.stack.calls [made] := by
      rw [DeskMoment.after, step]
      rfl
    rw [after, Stack.calls_eq]
    exact smooth.orderly.rests calm idle
  · rw [undisturbed.stack_eq fun made step => calls ⟨made, step⟩]
    exact idle

/-- Undisturbed, a session that ends, or is not kept alive, changes nothing about the request. -/
theorem Fires.lapses {now : Tick} (fires : moment.Fires now .session)
    (timed : moment.before.client.Timed) (alone : moment.isRequest = false) :
    moment.after.client.due .answer = moment.before.client.due .answer ∧
      moment.after.client.state = moment.before.client.state := by
  have due {situation : Situation} (same : moment.after.client.situation = situation) :
      moment.after.client.due .answer = situation.due .answer :=
    congrFun (congrArg Situation.due same) .answer
  rcases (fires.session_cases timed).2 with
    ⟨_, situation⟩ | ⟨keeps, rests, _⟩ | ⟨_, _, situation⟩
  · refine ⟨(due situation).trans ?_, congrArg Situation.state situation⟩
    simp [Situation.lapse, Client.situation]
  · obtain ⟨timers, popped⟩ := fires.popped
    simp [isRequest, fires.step, popped, keeps.keep, rests, Client.isBusy] at alone
  · refine ⟨(due situation).trans ?_, congrArg Situation.state situation⟩
    simp [Client.situation]

/-- While the answer is awaited in time, or nothing is awaited, no timer fires but the session's. -/
theorem Calm.fires_session (calm : moment.Calm deadline) (orderly : moment.before.Orderly)
    (awaits : moment.transmits = true ∧ moment.before.client.due .answer = some deadline ∨
      moment.before.client.state = .idle) {now : Tick} {timer : ClientTimer}
    (fires : moment.Fires now timer) : timer = .session := by
  obtain ⟨limit, pending, reached⟩ := fires.reached orderly.timed
  have paced := orderly.paced
  unfold Situation.Paced at paced
  rw [show moment.before.client.situation.state = moment.before.client.state from rfl,
    show moment.before.client.situation.due = moment.before.client.due from rfl] at paced
  by_contra kind
  rcases awaits with ⟨sending, due⟩ | idle
  · cases timer with
    | session => exact kind rfl
    | answer =>
      rw [due] at pending
      cases pending
      rw [calm.early now fires.step sending] at reached
      cases reached
    | delayedAnswer =>
      cases state : moment.before.client.state <;> simp_all
  · rw [idle] at paced
    cases timer with
    | session => exact kind rfl
    | answer => rw [paced.1] at pending; cases pending
    | delayedAnswer => rw [paced.2] at pending; cases pending

theorem Fires.endures {now : Tick} (fires : moment.Fires now .session)
    (alone : moment.isRequest = false) (endures : moment.before.Endures count deadline events) :
    moment.after.Endures count deadline (events ++ moment.pushed) := by
  obtain ⟨stack, heard, unread⟩ := fires.leaves alone
  obtain ⟨due, state⟩ := fires.lapses endures.orderly.timed alone
  refine endures_of_same endures stack (heard.le.trans endures.heard) unread due state ?_
  obtain ⟨step, timers, popped⟩ := fires
  rw [step]
  simp only [DeskStep.event?, popped, Option.bind_some]
  rfl

theorem Calm.expire (calm : moment.Calm deadline)
    (endures : moment.before.Endures count deadline events) {now : Tick}
    (step : moment.step = .expire now) :
    moment.after.Endures count deadline (events ++ moment.pushed) := by
  have alone := calm.undisturbed.alone
  cases due : moment.before.client.timers.popDue now with
  | none =>
    have same : moment.after = moment.before := by
      simp only [DeskMoment.after, step, DeskStep.run, due]
    refine endures_of_nothing endures same ?_
    simp only [step, DeskStep.event?, due, Option.bind_none]
  | some popped =>
    obtain ⟨timer, timers⟩ := popped
    have fires : moment.Fires now timer := ⟨step, timers, due⟩
    have session (awaits : moment.transmits = true ∧
        moment.before.client.due .answer = some deadline ∨ moment.before.client.state = .idle) :
        moment.after.Endures count deadline (events ++ moment.pushed) := by
      have kind := calm.fires_session endures.orderly awaits fires
      subst kind
      exact fires.endures alone endures
    have whole := endures
    obtain ⟨orderly, known, heard, receiving, stands⟩ := whole
    cases stands with
    | underway busy told read limit => exact session (Or.inl ⟨by simp [transmits, busy], limit⟩)
    | broken idle told waits =>
      rw [calm.read now step] at waits
      cases waits
    | ended idle told read rests => exact session (Or.inr rests)
    | sent idle told read =>
      obtain ⟨stack, heard', unread⟩ := fires.leaves alone
      have connection := (DeskMoment.keeps orderly).2
      have listener := (moment.step.moves moment.before).1
      refine ⟨DeskMoment.orderly orderly, by rwa [stack], by rwa [stack, heard'],
        by rwa [stack, connection], .sent ?_ ?_ (unread.trans read)⟩
      · rwa [stack, connection]
      · exact (Desk.toldSince_of_same listener stack count).trans told

/-- What each step keeps. -/
theorem Calm.endures (calm : moment.Calm deadline)
    (endures : moment.before.Endures count deadline events) :
    moment.after.Endures count deadline (events ++ moment.pushed) := by
  cases step : moment.step with
  | deed deed => exact calm.undisturbed.deed endures step
  | deliver => exact deliver_endures endures step
  | take now => exact take_endures endures step
  | expire now => exact calm.expire endures step

end DeskMoment

namespace Desk

variable {desk : Desk ω} {count : Nat} {deadline : Tick}

/-- Undisturbed, a connection that is sending has been sending from the start. -/
theorem Orderly.transmitting (orderly : desk.Orderly) {steps : List (DeskStep ω)}
    {period rest : List (DeskMoment ω)} {closing : DeskMoment ω}
    (whole : desk.moments steps = period ++ closing :: rest)
    (undisturbed : ∀ moment ∈ period, moment.Undisturbed) (sending : closing.transmits = true) :
    ∀ moment ∈ period, moment.transmits = true := by
  let holds (past : List (DeskMoment ω)) (after : Desk ω) : Prop := after.Orderly ∧
    ((∀ moment ∈ past, moment.Undisturbed) →
      (after.stack.sending after.client.connection).isIdle = false →
        ∀ moment ∈ past, moment.transmits = true)
  have onward (past : List (DeskMoment ω)) (moment : DeskMoment ω)
      (before : holds past moment.before) : holds (past ++ [moment]) moment.after := by
    obtain ⟨orderly, sent⟩ := before
    refine ⟨DeskMoment.orderly orderly, fun undisturbed busy => ?_⟩
    obtain ⟨earlier, here⟩ := List.forall_mem_append.mp undisturbed
    have transmits : moment.transmits = true := by
      by_contra idle
      have rests := (here moment List.mem_cons_self).rests orderly (Bool.eq_false_iff.mpr idle)
      rw [busy] at rests
      cases rests
    exact List.forall_mem_append.mpr ⟨sent earlier (by simpa [DeskMoment.transmits] using transmits),
      List.forall_mem_singleton.mpr transmits⟩
  have base : holds [] desk := ⟨orderly, fun _ _ _ member => absurd member List.not_mem_nil⟩
  obtain ⟨_, sent⟩ : holds period closing.before :=
    (Desk.reach_from base onward).2 period closing rest whole
  exact sent undisturbed (by simpa [DeskMoment.transmits] using sending)

/-- What a whole run keeps. -/
theorem Endures.run (endures : desk.Endures count deadline []) (steps : List (DeskStep ω)) :
    ((∀ moment ∈ desk.moments steps, moment.Calm deadline) →
      (desk.through steps).Endures count deadline ((desk.moments steps).flatMap (·.pushed))) ∧
    ∀ period closing rest, desk.moments steps = period ++ closing :: rest →
      (∀ moment ∈ period, moment.Calm deadline) →
        closing.before.Endures count deadline (period.flatMap (·.pushed)) := by
  refine @Desk.reach_from ω desk steps (fun past after =>
    (∀ moment ∈ past, moment.Calm deadline) →
      after.Endures count deadline (past.flatMap (·.pushed))) [] (fun _ => endures) ?_
  intro past moment before calm
  have endures := before fun other member => calm other (List.mem_append_left _ member)
  rw [List.flatMap_append, List.flatMap_singleton]
  exact (calm moment (List.mem_append_right _ List.mem_cons_self)).endures endures

end Desk

end DiagBus
