import DiagBus.Proofs.Deadlines
import DiagBus.Proofs.Histories

namespace DiagBus

variable {ω : Type}

/-- A client, its stack, and how many signals of the stack the client was told of. -/
structure Desk (ω : Type) where
  /-- The name under which the client listens. -/
  listener : Listener
  client : Client
  stack : Stack ω
  heard : Nat

/-- What the program around may do between two looks at the news. -/
inductive Deed (ω : Type)
  /-- It calls the stack. -/
  | call (call : Call ω)
  | request (now : Tick) (request : Request)
  | requestBytes (now : Tick) (message : List UInt8)
  | startSession (now : Tick) (address : Address) (session : UInt8)
  | nextEvent
  | setLevel (level : UInt8)
  | setAnswer (delay : Tick)
  | setDelayedAnswer (delay : Tick)

inductive DeskStep (ω : Type)
  | deed (deed : Deed ω)
  /-- The client is told what the stack has for it. -/
  | deliver
  /-- The client looks at the oldest piece of news. -/
  | take (now : Tick)
  /-- The client's first timer fires if it is due. -/
  | expire (now : Tick)

inductive DeskCall (ω : Type)
  | deed (deed : Deed ω)
  /-- The client looks at all news and has the timers that are due fire. -/
  | process (now : Tick)

namespace Desk

/-- The desk after the client, or the client and its stack, changed. -/
def adopt (desk : Desk ω) (state : Client × Stack ω) : Desk ω :=
  { desk with client := state.1, stack := state.2 }

/-- What the stack has for the client. -/
def news (desk : Desk ω) : List Delivery :=
  (desk.stack.outside.signals.drop desk.heard).filterMap (·.delivery? desk.listener)

def deliver (desk : Desk ω) : Desk ω :=
  { desk with
    client := desk.news.foldl (·.deliver ·) desk.client
    heard := desk.stack.outside.signals.length }

/-- A client is made for a stack. It was told of nothing yet. -/
def attach (settings : ClientSettings) (listener : Listener) (stack : Stack ω) :
    Except Fault (Desk ω) :=
  (Client.attach settings listener stack).map fun (client, stack) =>
    { listener, client, stack, heard := stack.outside.signals.length }

end Desk

def Deed.run : Deed ω → Desk ω → Desk ω
  | .call made, desk => { desk with stack := made.run desk.stack }
  | .request now made, desk => desk.adopt (desk.client.request now made desk.stack).2
  | .requestBytes now message, desk =>
    desk.adopt (desk.client.requestBytes now message desk.stack).2
  | .startSession now address session, desk =>
    desk.adopt (desk.client.startSession now address session desk.stack).2
  | .nextEvent, desk => { desk with client := desk.client.nextEvent.2 }
  | .setLevel level, desk => { desk with client := { desk.client with level } }
  | .setAnswer answer, desk => { desk with client := { desk.client with answer } }
  | .setDelayedAnswer delayedAnswer, desk =>
    { desk with client := { desk.client with delayedAnswer } }

def DeskStep.run : DeskStep ω → Desk ω → Desk ω
  | .deed done, desk => done.run desk
  | .deliver, desk => desk.deliver
  | .take now, desk =>
    match desk.client.mailbox with
    | [] => desk
    | delivery :: mailbox =>
      { desk with client := { desk.client with mailbox }.take now delivery }
  | .expire now, desk =>
    match desk.client.timers.popDue now with
    | none => desk
    | some (timer, timers) =>
      desk.adopt ({ desk.client with timers }.expire now timer desk.stack)

/-- Whatever reached the stack's listeners during a call, the client is told before the next one. -/
def DeskCall.run : DeskCall ω → Desk ω → Desk ω
  | .deed done, desk => (done.run desk).deliver
  | .process now, desk => (desk.adopt (desk.client.process now desk.stack)).deliver

namespace Desk

/-- The desk after these steps. -/
def through (desk : Desk ω) (steps : List (DeskStep ω)) : Desk ω :=
  steps.foldl (fun desk step => step.run desk) desk

/-- The firing of the timers that are due, at most `fuel` of them. -/
def expiries (now : Tick) : (fuel : Nat) → Desk ω → List (DeskStep ω)
  | 0, _ => []
  | fuel + 1, desk =>
    match desk.client.timers.popDue now with
    | none => []
    | some _ => .expire now :: expiries now fuel ((DeskStep.expire now).run desk)

/-- The client looks at everything in its mailbox. -/
def reading (desk : Desk ω) (now : Tick) : List (DeskStep ω) :=
  List.replicate desk.client.mailbox.length (.take now)

theorem through_append (desk : Desk ω) (first second : List (DeskStep ω)) :
    desk.through (first ++ second) = (desk.through first).through second := by
  simp only [through, List.foldl_append]

end Desk

/-- The steps that a call consists of. -/
def DeskCall.steps : DeskCall ω → Desk ω → List (DeskStep ω)
  | .deed done, _ => [.deed done, .deliver]
  | .process now, desk =>
    desk.reading now ++ Desk.expiries now Stack.patience (desk.through (desk.reading now)) ++
      [.deliver]

namespace Client

variable (client : Client) (now : Tick) (mailbox : List Delivery)

theorem push_mailbox (event : ClientEvent) :
    { client with mailbox }.push event = { client.push event with mailbox } := by
  unfold push
  split
  · rename_i room
    exact (if_pos room).symm ▸ rfl
  · rename_i full
    exact (if_neg full).symm ▸ rfl

theorem changeSession_mailbox (record : List UInt8) :
    { client with mailbox }.changeSession now record =
      { client.changeSession now record with mailbox } := by
  unfold changeSession
  cases record with
  | nil => rfl
  | cons session timing =>
    simp only [arm_eq]
    split <;> split <;> rfl

theorem hear_mailbox (message : List UInt8) :
    { client with mailbox }.hear now message = { client.hear now message with mailbox } := by
  unfold hear
  simp only []
  cases client.state.service? with
  | none => rfl
  | some service =>
    simp only []
    cases rejection? service message with
    | some code =>
      simp only [rejected]
      split
      · simp only [arm_eq]
        rfl
      · exact push_mailbox client.finish mailbox _
    | none =>
      cases grant? service message with
      | none => rfl
      | some record =>
        simp only [granted]
        split
        · rw [changeSession_mailbox]
          exact push_mailbox (client.changeSession now record).finish mailbox _
        · exact push_mailbox client.finish mailbox _

/-- What is still in the mailbox makes no difference to a piece of news. -/
theorem take_mailbox (delivery : Delivery) :
    { client with mailbox }.take now delivery = { client.take now delivery with mailbox } := by
  cases delivery with
  | received message => exact client.hear_mailbox now mailbox message
  | failed fault => exact push_mailbox client.finish mailbox _

end Client

namespace Desk

theorem reading_eq (desk : Desk ω) (now : Tick) :
    desk.through (desk.reading now) = { desk with client := desk.client.openMailbox now } := by
  unfold reading Client.openMailbox
  generalize count : desk.client.mailbox = mailbox
  induction mailbox generalizing desk with
  | nil =>
    obtain ⟨listener, client, stack, heard⟩ := desk
    rw [show client = { client with mailbox := [] } from count ▸ rfl]
    rfl
  | cons delivery rest ih =>
    have step : (DeskStep.take now).run desk =
        { desk with client := { desk.client with mailbox := rest }.take now delivery } := by
      simp only [DeskStep.run, count]
    have later := ih ((DeskStep.take now).run desk) (by rw [step, Client.take_mailbox])
    show ((DeskStep.take now).run desk).through _ = _
    rw [later, step]
    simp only [List.foldl_cons, ← Client.take_mailbox]

theorem expiries_eq (now : Tick) (fuel : Nat) (desk : Desk ω) :
    desk.through (expiries now fuel desk) =
      desk.adopt (Client.checkTimersWithin now fuel (desk.client, desk.stack)) := by
  induction fuel generalizing desk with
  | zero => rfl
  | succ fuel ih =>
    unfold expiries Client.checkTimersWithin
    cases due : desk.client.timers.popDue now with
    | none => rfl
    | some popped =>
      simp only []
      refine (ih _).trans ?_
      simp only [DeskStep.run, due]
      rfl

end Desk

/-- Every call does what its steps do. -/
theorem DeskCall.run_eq (call : DeskCall ω) (desk : Desk ω) :
    call.run desk = desk.through (call.steps desk) := by
  cases call with
  | deed deed => rfl
  | process now =>
    rw [DeskCall.steps, Desk.through_append, Desk.through_append, Desk.expiries_eq,
      Desk.reading_eq]
    rfl

/-- A step and the desk that takes it. -/
structure DeskMoment (ω : Type) where
  before : Desk ω
  step : DeskStep ω

def DeskMoment.after (moment : DeskMoment ω) : Desk ω :=
  moment.step.run moment.before

namespace Desk

/-- The steps with the desks that take them. -/
def moments (desk : Desk ω) : List (DeskStep ω) → List (DeskMoment ω)
  | [] => []
  | step :: rest => ⟨desk, step⟩ :: (step.run desk).moments rest

/-- The desk after these calls. -/
def calls (desk : Desk ω) (calls : List (DeskCall ω)) : Desk ω :=
  calls.foldl (fun desk call => call.run desk) desk

/-- All steps of these calls. -/
def steps (desk : Desk ω) : List (DeskCall ω) → List (DeskStep ω)
  | [] => []
  | call :: rest => call.steps desk ++ (call.run desk).steps rest

/-- Everything that happens in these calls, in order. -/
def history (desk : Desk ω) (calls : List (DeskCall ω)) : List (DeskMoment ω) :=
  desk.moments (desk.steps calls)

theorem calls_eq (desk : Desk ω) (calls : List (DeskCall ω)) :
    desk.calls calls = desk.through (desk.steps calls) := by
  induction calls generalizing desk with
  | nil => rfl
  | cons call rest ih =>
    rw [steps, through_append, ← DeskCall.run_eq, ← ih]
    rfl

theorem moments_append (desk : Desk ω) (first second : List (DeskStep ω)) :
    desk.moments (first ++ second) = desk.moments first ++ (desk.through first).moments second := by
  induction first generalizing desk with
  | nil => rfl
  | cons step rest ih => exact congrArg (⟨desk, step⟩ :: ·) (ih (step.run desk))

theorem step_mem {desk : Desk ω} {steps : List (DeskStep ω)} {moment : DeskMoment ω}
    (member : moment ∈ desk.moments steps) : moment.step ∈ steps := by
  induction steps generalizing desk with
  | nil => cases member
  | cons step rest ih =>
    rcases List.mem_cons.mp member with rfl | later
    · exact List.mem_cons_self
    · exact List.mem_cons_of_mem _ (ih later)

theorem history_cons (desk : Desk ω) (call : DeskCall ω) (rest : List (DeskCall ω)) :
    desk.history (call :: rest) =
      desk.moments (call.steps desk) ++ (call.run desk).history rest := by
  rw [history, steps, moments_append, ← DeskCall.run_eq]
  rfl

theorem history_append (desk : Desk ω) (first second : List (DeskCall ω)) :
    desk.history (first ++ second) = desk.history first ++ (desk.calls first).history second := by
  induction first generalizing desk with
  | nil => rfl
  | cons call rest ih =>
    rw [List.cons_append, history_cons, history_cons, ih, List.append_assoc]
    rfl

/-- After a call the client has been told of everything. -/
theorem calls_told {desk : Desk ω} (heard : desk.heard = desk.stack.outside.signals.length)
    (calls : List (DeskCall ω)) :
    (desk.calls calls).heard = (desk.calls calls).stack.outside.signals.length := by
  induction calls generalizing desk with
  | nil => exact heard
  | cons call rest ih => exact ih (by cases call <;> rfl)

theorem reach_from {desk : Desk ω} {steps : List (DeskStep ω)}
    {holds : List (DeskMoment ω) → Desk ω → Prop} {start : List (DeskMoment ω)}
    (base : holds start desk)
    (onward : ∀ past, ∀ moment : DeskMoment ω, holds past moment.before →
      holds (past ++ [moment]) moment.after) :
    holds (start ++ desk.moments steps) (desk.through steps) ∧
      ∀ past moment rest, desk.moments steps = past ++ moment :: rest →
        holds (start ++ past) moment.before := by
  induction steps generalizing desk start with
  | nil =>
    refine ⟨by rw [moments, List.append_nil]; exact base, fun past moment rest whole => ?_⟩
    exact absurd whole.symm (by simp [moments])
  | cons step rest ih =>
    obtain ⟨final, during⟩ := ih (onward start ⟨desk, step⟩ base)
    simp only [List.append_assoc, List.singleton_append] at final during
    refine ⟨final, fun past moment later whole => ?_⟩
    cases past with
    | nil =>
      obtain ⟨rfl, _⟩ := List.cons.inj whole
      rw [List.append_nil]
      exact base
    | cons first past =>
      obtain ⟨rfl, onward⟩ := List.cons.inj whole
      exact during past moment later onward

/-- What each step keeps, given all that happened before it, holds after every run and before every
moment of it. -/
theorem reach {desk : Desk ω} {calls : List (DeskCall ω)}
    {holds : List (DeskMoment ω) → Desk ω → Prop} (base : holds [] desk)
    (onward : ∀ past, ∀ moment : DeskMoment ω, holds past moment.before →
      holds (past ++ [moment]) moment.after) :
    holds (desk.history calls) (desk.calls calls) ∧
      ∀ past moment rest, desk.history calls = past ++ moment :: rest →
        holds past moment.before := by
  rw [calls_eq]
  exact reach_from base onward

end Desk

end DiagBus
