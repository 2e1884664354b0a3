import DiagBus.Proofs.Abreast
import DiagBus.Proofs.Refusals
import DiagBus.Proofs.Requests

namespace DiagBus

variable {ω : Type}

/-- What a stack is after a message could not be sent. No frame of it was tried, and then the stack is
what it was; or the interface refused the first one, and then this was told and is all that has
happened. -/
inductive Stack.Declines (before : Stack ω) (handle : Handle) (message : List UInt8) :
    Fault → Stack ω → Prop
  | hindered {fault : Fault} (reason : fault ∈ hinderingFaults) :
      Declines before handle message fault before
  | refused {connection : Connection} {address : Address} {interface : Interface ω} {frame : Frame}
      {reason : Refusal} {world : ω}
      (live : before.connections.get? handle = some connection)
      (bound : connection.address = some address)
      (found : before.registry.get? address.interface = some interface)
      (first : ((address.encoder before.settings).segmentation message).head? = some frame)
      (answer : interface.output frame before.outside.world = (.error reason, world)) :
      Declines before handle message .interface { before with outside := {
        world
        signals := before.outside.signals ++
          [.refused (.flow handle .output) address.interface frame reason] } }

/-- A stack after a connection was given an address. -/
def Stack.readdressed (stack : Stack ω) (handle : Handle) (connection : Connection)
    (address : Address) : Stack ω :=
  { stack with
    connections := stack.connections.set handle { connection with address := some address } }

/-- The stack that has to send the message of a request: the one that there was; or, if a session is
to be started on a connection at rest, the one with this connection at its new address. -/
inductive Deed.Readies (deed : Deed ω) (before : Desk ω) : Stack ω → Prop
  | same : Readies deed before before.stack
  | readdressed {now : Tick} {address : Address} {session : UInt8} {connection : Connection}
      (starts : deed = .startSession now address session)
      (live : before.stack.connections.get? before.client.connection = some connection)
      (idle : ∀ direction, (connection.flow direction).isIdle = true) :
      Readies deed before
        (before.stack.readdressed before.client.connection connection address)

section

variable {settings : Settings} {world : ω} {fresh : Stack ω} {earlier : List (Call ω)}
  {options : ClientSettings} {listener : Listener} {desk : Desk ω}

/-- A client's stack is one that calls lead to. -/
theorem Desk.calls_stack (made : Stack.new settings world = .ok fresh)
    (attached : Desk.attach options listener (fresh.calls earlier) = .ok desk)
    (calls : List (DeskCall ω)) :
    ∃ whole : List (Call ω), (desk.calls calls).stack = fresh.calls whole := by
  obtain ⟨_, _, moved⟩ := Desk.attach_eq (Stack.calls_sound made earlier).1 attached
  have append (first second : List (Call ω)) :
      (fresh.calls first).calls second = fresh.calls (first ++ second) :=
    (List.foldl_append ..).symm
  refine (@Desk.reach ω desk calls (fun _ desk => ∃ whole, desk.stack = fresh.calls whole)
    ⟨_, moved.trans (append ..)⟩ ?_).1
  rintro past moment ⟨whole, same⟩
  obtain ⟨_, more, moved⟩ := moment.step.moves moment.before
  exact ⟨whole ++ more, moved.trans (by rw [same, append])⟩

/-- Between two calls the client has been told of everything. -/
theorem Desk.calls_heard (attached : Desk.attach options listener (fresh.calls earlier) = .ok desk)
    (calls : List (DeskCall ω)) :
    (desk.calls calls).heard = (desk.calls calls).stack.outside.signals.length := by
  refine Desk.calls_told ?_ calls
  unfold Desk.attach at attached
  cases made : Client.attach options listener (fresh.calls earlier) with
  | error fault =>
    rw [made] at attached
    cases attached
  | ok found =>
    rw [made] at attached
    cases attached
    rfl

end

section

variable {stack : Stack ω} {client : Client} {now : Tick} {handle : Handle} {message : List UInt8}
  {expectsAnswer : Bool} {fault : Fault}

theorem Stack.Kept.declines (kept : stack.Kept) (quiet : stack.confirmations = [])
    (failed : (stack.send now handle message).1 = .error fault) :
    stack.Declines handle message fault (stack.send now handle message).2 := by
  obtain ⟨past, overseen⟩ := kept.overseen
  rcases sending : stack.send now handle message with ⟨result, after⟩
  rw [sending] at failed
  cases failed
  rcases Stack.send_declines kept.sound quiet overseen sending with
    ⟨rfl, rfl⟩ | ⟨connection, x, live, declines, rfl⟩
  · exact .hindered (by simp [hinderingFaults])
  · cases declines with
    | hindered reason _ => exact .hindered reason
    | refused bound found first answer => exact .refused live bound found first answer

/-- The client sends a message before it changes anything. -/
theorem Client.send_declines (kept : stack.Kept) (quiet : stack.confirmations = [])
    (failed : (client.send now message expectsAnswer stack).1 = .error fault) :
    (client.send now message expectsAnswer stack).2.1 = client ∧
      stack.Declines client.connection message fault
        (client.send now message expectsAnswer stack).2.2 := by
  have declines (failed : (stack.send now client.connection message).1 = .error fault) :=
    kept.declines quiet failed
  rw [Client.send_eq] at failed ⊢
  rcases sending : stack.send now client.connection message with ⟨refusal | _, after⟩
  · rw [sending] at failed declines
    exact ⟨rfl, declines failed⟩
  · rw [sending] at failed
    cases failed

theorem Client.request_declines (kept : stack.Kept) (quiet : stack.confirmations = [])
    {request : Request} (failed : (client.request now request stack).1 = .error fault) :
    (client.request now request stack).2.1 = client ∧
      stack.Declines client.connection request.bytes fault
        (client.request now request stack).2.2 := by
  rw [Client.request_eq] at failed ⊢
  split
  · rename_i idle
    rw [if_pos idle] at failed
    exact Client.send_declines kept quiet failed
  · rename_i busy
    rw [if_neg busy] at failed
    cases failed
    exact ⟨rfl, .hindered (by simp [hinderingFaults])⟩

/-- What it takes to give a connection an address, and what comes of it. -/
theorem Stack.bind_cases (stack : Stack ω) (handle : Handle) (address : Address) :
    (∃ fault ∈ hinderingFaults, stack.bind handle address = .error fault) ∨
      ∃ connection, stack.connections.get? handle = some connection ∧
        (∀ direction, (connection.flow direction).isIdle = true) ∧
        stack.bind handle address = .ok (stack.readdressed handle connection address) := by
  unfold bind
  cases live : stack.connections.get? handle with
  | none => exact Or.inl ⟨.argument, by simp [hinderingFaults], rfl⟩
  | some connection =>
    simp only []
    split
    · exact Or.inl ⟨.inProgress, by simp [hinderingFaults], rfl⟩
    · rename_i busy
      split
      · exact Or.inl ⟨.argument, by simp [hinderingFaults], rfl⟩
      · simp only [Bool.or_eq_true, Bool.not_eq_true', not_or, Bool.not_eq_false] at busy
        refine Or.inr ⟨connection, rfl, ?_, ?_⟩
        · intro direction
          cases direction
          · exact busy.1
          · exact busy.2
        · simp only [updateConnection, live]
          rfl

/-- A deed that does not start its request changes nothing about the client. -/
theorem Deed.declines {desk : Desk ω} (kept : desk.stack.Kept)
    (quiet : desk.stack.confirmations = []) {deed : Deed ω}
    (asks : deed.asks? = some (now, message, expectsAnswer))
    (failed : deed.answer desk = .error fault) :
    (deed.run desk).client = desk.client ∧ ∃ ready, deed.Readies desk ready ∧
      ready.Declines desk.client.connection message fault (deed.run desk).stack := by
  cases deed with
  | request _ made =>
    cases asks
    obtain ⟨same, declines⟩ := Client.request_declines kept quiet failed
    exact ⟨same, _, .same, declines⟩
  | requestBytes _ bytes =>
    cases asks
    simp only [Deed.answer, Deed.run, Desk.adopt, Client.requestBytes] at failed ⊢
    split
    · rename_i empty
      rw [if_pos empty] at failed
      cases failed
      exact ⟨rfl, _, .same, .hindered (by simp [hinderingFaults])⟩
    · rename_i filled
      rw [if_neg filled] at failed
      split
      · rename_i busy
        rw [if_pos busy] at failed
        cases failed
        exact ⟨rfl, _, .same, .hindered (by simp [hinderingFaults])⟩
      · rename_i idle
        rw [if_neg idle] at failed
        obtain ⟨same, declines⟩ := Client.send_declines kept quiet failed
        exact ⟨same, _, .same, declines⟩
  | startSession _ address session =>
    cases asks
    simp only [Deed.answer, Deed.run, Desk.adopt, Client.startSession] at failed ⊢
    split
    · rename_i busy
      rw [if_pos busy] at failed
      cases failed
      exact ⟨rfl, _, .same, .hindered (by simp [hinderingFaults])⟩
    · rename_i idle
      rw [if_neg idle] at failed
      rcases desk.stack.bind_cases desk.client.connection address with
        ⟨reason, listed, refused⟩ | ⟨connection, live, rests, bound⟩
      · rw [refused] at failed ⊢
        cases failed
        exact ⟨rfl, _, .same, .hindered listed⟩
      · rw [bound] at failed ⊢
        have after := kept.step (.bind desk.client.connection address) quiet
        simp only [Step.run, bound] at after
        obtain ⟨same, declines⟩ := Client.request_declines after (by exact quiet) failed
        exact ⟨same, _, .readdressed rfl live rests, declines⟩
  | _ => cases asks

/-- A message that was declined tells a client nothing. -/
theorem Stack.Declines.silent {after : Stack ω} (declines : stack.Declines handle message fault after)
    (listener : Listener) : (after.outside.signals.drop stack.outside.signals.length).filterMap
      (·.delivery? listener) = [] := by
  cases declines with
  | hindered _ => rw [List.drop_length]; rfl
  | refused _ _ _ _ _ => rw [List.drop_left]; rfl

end

/-- A request that cannot be started, in any run of a client and its stack, leaves the client exactly
as it was, with its timers, its mailbox and its events. Its stack is the one that there was, unless
the client was to start a session: then its own connection may have got the new address. Apart from
that the interface may have refused the first frame. Flows, memory and alarms are what they were. -/
theorem failed_requests_leave_no_trace {settings : Settings} {world : ω} {fresh : Stack ω}
    {earlier : List (Call ω)} {options : ClientSettings} {listener : Listener} {desk : Desk ω}
    (made : Stack.new settings world = .ok fresh)
    (attached : Desk.attach options listener (fresh.calls earlier) = .ok desk)
    (calls : List (DeskCall ω)) {deed : Deed ω} {now : Tick} {message : List UInt8}
    {expectsAnswer : Bool} (asks : deed.asks? = some (now, message, expectsAnswer)) {fault : Fault}
    (failed : deed.answer (desk.calls calls) = .error fault) :
    let before := desk.calls calls
    let after := (DeskCall.deed deed).run before
    after.client = before.client ∧ ∃ ready, deed.Readies before ready ∧
      ready.Declines before.client.connection message fault after.stack := by
  intro before after
  obtain ⟨whole, reached⟩ := Desk.calls_stack made attached calls
  obtain ⟨sound, quiet⟩ := Stack.calls_sound made whole
  have kept : (fresh.calls whole).Kept := ⟨sound, _, Stack.calls_overseen made whole⟩
  rw [← reached] at kept quiet
  obtain ⟨same, ready, readies, declines⟩ := Deed.declines kept quiet asks failed
  have told : ready.outside = before.stack.outside := by cases readies <;> rfl
  have silent := declines.silent before.listener
  rw [told, ← Desk.calls_heard attached calls] at silent
  have unheard : (deed.run before).news = [] := by
    have listens : (deed.run before).listener = before.listener :=
      ((DeskStep.deed deed).moves before).1
    have heard : (deed.run before).heard = before.heard := by
      cases deed <;> rfl
    unfold Desk.news
    rw [listens, heard]
    exact silent
  refine ⟨?_, ready, readies, declines⟩
  show ((deed.run before).news.foldl (·.deliver ·) (deed.run before).client) = _
  rw [unheard]
  exact same

/-- The client's interface is replaced by one that takes no frame. -/
def sampleObstruction : List (DeskCall Unit) :=
  [.deed (.call (.removeInterface sampleAddress.interface)),
    .deed (.call (.addInterface .blocked))]

/-- The request of a session is refused. Its connection has got its address. -/
theorem sample_failed_request_leaves_no_trace :
    let before := sampleDesk.calls sampleObstruction
    let after := (DeskCall.deed (.startSession 5 sampleAddress 3)).run before
    (Deed.startSession 5 sampleAddress 3).answer before = .error .interface ∧
      (before.stack.connections.get? sampleHandle).bind (·.address) = none ∧
      (after.stack.connections.get? sampleHandle).bind (·.address) = some sampleAddress ∧
      after.client = before.client ∧ ∃ ready,
        (Deed.startSession 5 sampleAddress 3).Readies before ready ∧
          ready.Declines sampleHandle [0x10, 3] .interface after.stack := by
  have made : Stack.new {} () = .ok sampleStack := rfl
  have attached : Desk.attach {} (.client 0) (sampleStack.calls [.addInterface .obliging]) =
      .ok sampleDesk := rfl
  have failed : (Deed.startSession 5 sampleAddress 3).answer
      (sampleDesk.calls sampleObstruction) = .error .interface := rfl
  exact ⟨failed, by decide +kernel, by decide +kernel,
    failed_requests_leave_no_trace made attached sampleObstruction rfl failed⟩

end DiagBus
