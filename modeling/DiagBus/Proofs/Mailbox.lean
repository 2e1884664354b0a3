import DiagBus.Proofs.ClientTurns
import DiagBus.Proofs.Moments

namespace DiagBus

variable {ω : Type}

namespace Client

variable {client : Client}

/-- Looking at a piece of news leaves the rest of the mailbox alone. -/
theorem mailbox_take (client : Client) (now : Tick) (delivery : Delivery) :
    (client.take now delivery).mailbox = client.mailbox := by
  show (Client.take { client with mailbox := client.mailbox } now delivery).mailbox = _
  rw [take_mailbox]

theorem mailbox_asked (client : Client) (now : Tick) (message : List UInt8)
    (expectsAnswer : Bool) : (client.asked now message expectsAnswer).mailbox = client.mailbox := by
  have prolonged (other : Client) : (other.prolong now).mailbox = other.mailbox := by
    unfold prolong
    split
    · rfl
    · rw [arm_eq]
  unfold asked
  rw [prolonged]
  split
  · split
    · rw [arm_eq]
    · rfl
  · rfl

theorem mailbox_push (client : Client) (event : ClientEvent) :
    (client.push event).mailbox = client.mailbox := by
  unfold push
  split <;> rfl

theorem mailbox_expire (client : Client) (now : Tick) (timer : ClientTimer) (stack : Stack ω) :
    (client.expire now timer stack).1.mailbox = client.mailbox := by
  by_cases kind : timer = .session
  · subst kind
    rw [expire_session]
    split
    · rcases client.request_cases now (.testerPresent client.settings.keepAlive) stack with
        ⟨_, _, same⟩ | ⟨_, _, sent⟩
      · rw [same]
      · rw [sent, mailbox_asked]
    · rfl
  · rw [expire_answer client now kind, mailbox_push]

theorem mem_mailbox_deliver {delivery other : Delivery}
    (member : other ∈ (client.deliver delivery).mailbox) :
    other ∈ client.mailbox ∨ other = delivery := by
  unfold deliver at member
  split at member
  · simpa using member
  · exact Or.inl member

end Client

theorem Deed.mailbox_run (deed : Deed ω) (desk : Desk ω) :
    (deed.run desk).client.mailbox = desk.client.mailbox := by
  cases asks : deed.asks? with
  | none =>
    cases deed with
    | request _ made => cases asks
    | requestBytes _ bytes => cases asks
    | startSession _ address session => cases asks
    | nextEvent =>
      simp only [Deed.run, Client.nextEvent]
      cases desk.client.events <;> rfl
    | _ => rfl
  | some asked =>
    obtain ⟨now, message, expectsAnswer⟩ := asked
    rcases Deed.asks_cases asks with ⟨_, _, same⟩ | ⟨_, _, _, sent⟩
    · rw [same]
    · rw [sent, Client.mailbox_asked]

/-- News comes into the mailbox only as the stack told it. -/
theorem DeskStep.mem_mailbox {step : DeskStep ω} {desk : Desk ω} {delivery : Delivery}
    (member : delivery ∈ (step.run desk).client.mailbox) :
    delivery ∈ desk.client.mailbox ∨ step = .deliver ∧ delivery ∈ desk.news := by
  cases step with
  | deed deed => exact Or.inl ((deed.mailbox_run desk) ▸ member)
  | deliver =>
    have fold (news : List Delivery) (client : Client)
        (member : delivery ∈ (news.foldl (·.deliver ·) client).mailbox) :
        delivery ∈ client.mailbox ∨ delivery ∈ news := by
      induction news generalizing client with
      | nil => exact Or.inl member
      | cons first rest ih =>
        rcases ih _ member with before | later
        · rcases Client.mem_mailbox_deliver before with waiting | rfl
          · exact Or.inl waiting
          · exact Or.inr List.mem_cons_self
        · exact Or.inr (List.mem_cons_of_mem _ later)
    exact (fold desk.news desk.client member).imp_right fun told => ⟨rfl, told⟩
  | take now =>
    simp only [DeskStep.run] at member
    cases mailbox : desk.client.mailbox with
    | nil =>
      simp only [mailbox] at member
      exact Or.inl (mailbox ▸ member)
    | cons first rest =>
      simp only [mailbox, Client.mailbox_take] at member
      exact Or.inl (List.mem_cons_of_mem _ member)
  | expire now =>
    simp only [DeskStep.run] at member
    cases due : desk.client.timers.popDue now with
    | none =>
      simp only [due] at member
      exact Or.inl member
    | some popped =>
      simp only [due, Desk.adopt, Client.mailbox_expire] at member
      exact Or.inl member

/-- A client moves its stack by calls alone. -/
theorem DeskStep.moves (step : DeskStep ω) (desk : Desk ω) :
    (step.run desk).listener = desk.listener ∧
      ∃ calls : List (Call ω), (step.run desk).stack = desk.stack.calls calls := by
  have sends (client : Client) (now : Tick) (message : List UInt8) (expectsAnswer : Bool)
      (stack : Stack ω) : ∃ calls : List (Call ω),
        (client.send now message expectsAnswer stack).2.2 = stack.calls calls := by
    refine ⟨[.send now client.connection message], ?_⟩
    show _ = (stack.send now client.connection message).2
    rw [Client.send_eq]
    rcases stack.send now client.connection message with ⟨fault | _, after⟩ <;> rfl
  have requests (client : Client) (now : Tick) (request : Request) (stack : Stack ω) :
      ∃ calls : List (Call ω), (client.request now request stack).2.2 = stack.calls calls := by
    rw [Client.request_eq]
    split
    · exact sends _ _ _ _ _
    · exact ⟨[], rfl⟩
  cases step with
  | deed deed =>
    cases deed with
    | call made => exact ⟨rfl, [made], rfl⟩
    | request now made => exact ⟨rfl, requests _ _ _ _⟩
    | requestBytes now message =>
      refine ⟨rfl, ?_⟩
      simp only [DeskStep.run, Deed.run, Desk.adopt, Client.requestBytes]
      split
      · exact ⟨[], rfl⟩
      · split
        · exact ⟨[], rfl⟩
        · exact sends _ _ _ _ _
    | startSession now address session =>
      refine ⟨rfl, ?_⟩
      simp only [DeskStep.run, Deed.run, Desk.adopt, Client.startSession]
      split
      · exact ⟨[], rfl⟩
      · cases bound : desk.stack.bind desk.client.connection address with
        | error fault => exact ⟨[], rfl⟩
        | ok stack =>
          obtain ⟨calls, moved⟩ := requests desk.client now (.session session) stack
          refine ⟨.bind desk.client.connection address :: calls, moved.trans ?_⟩
          have first : (Call.bind desk.client.connection address).run desk.stack = stack := by
            rw [Call.run, bound]
            rfl
          simp only [Stack.calls, List.foldl_cons, first]
    | _ => exact ⟨rfl, [], rfl⟩
  | deliver => exact ⟨rfl, [], rfl⟩
  | take now =>
    simp only [DeskStep.run]
    cases desk.client.mailbox with
    | nil => exact ⟨rfl, [], rfl⟩
    | cons delivery rest => exact ⟨rfl, [], rfl⟩
  | expire now =>
    simp only [DeskStep.run]
    cases desk.client.timers.popDue now with
    | none => exact ⟨rfl, [], rfl⟩
    | some popped =>
      obtain ⟨timer, timers⟩ := popped
      refine ⟨rfl, ?_⟩
      simp only [Desk.adopt]
      by_cases kind : timer = .session
      · subst kind
        rw [Client.expire_session]
        split
        · exact requests _ _ _ _
        · exact ⟨[], rfl⟩
      · rw [Client.expire_answer _ _ kind]
        exact ⟨[], rfl⟩

/-- A stack takes nothing back that it told. -/
theorem Stack.Orderly.signals {stack : Stack ω} {steps : List (Step ω)}
    (orderly : stack.Orderly steps) :
    stack.outside.signals <+: (stack.through steps).outside.signals := by
  refine @Stack.Orderly.induct _ _ _ orderly
    (fun _ after => stack.outside.signals <+: after.outside.signals) [] List.prefix_rfl ?_
  intro past moment _ sound timely told
  obtain ⟨news, more, _⟩ := (sound.turns timely).flow_cases sound ⟨0, 0⟩ .output
  refine told.trans ⟨news, more.symm⟩

theorem Stack.calls_signals {stack : Stack ω} (sound : stack.Sound)
    (quiet : stack.confirmations = []) (calls : List (Call ω)) :
    stack.outside.signals <+: (stack.calls calls).outside.signals := by
  rw [Stack.calls_eq]
  exact (Stack.steps_smooth calls sound quiet).orderly.signals

/-- What holds of a client's stack and its mailbox: the stack is sound, and told everything that is
in the mailbox. -/
structure Desk.Informed (desk : Desk ω) : Prop where
  sound : desk.stack.Sound
  quiet : desk.stack.confirmations = []
  told : ∀ delivery ∈ desk.client.mailbox,
    ∃ signal ∈ desk.stack.outside.signals, signal.delivery? desk.listener = some delivery

theorem Desk.Informed.step {desk : Desk ω} (informed : desk.Informed) (step : DeskStep ω) :
    (step.run desk).Informed := by
  obtain ⟨listener, calls, moved⟩ := step.moves desk
  have smooth := Stack.steps_smooth calls informed.sound informed.quiet
  have told := Stack.calls_signals informed.sound informed.quiet calls
  rw [← moved] at told
  rw [Stack.calls_eq] at moved
  refine ⟨moved ▸ smooth.sound, moved ▸ smooth.quiet, fun delivery member => ?_⟩
  rw [listener]
  rcases DeskStep.mem_mailbox member with before | ⟨_, news⟩
  · obtain ⟨signal, known, own⟩ := informed.told delivery before
    exact ⟨signal, told.subset known, own⟩
  · obtain ⟨signal, known, own⟩ := List.mem_filterMap.mp news
    exact ⟨signal, told.subset (List.mem_of_mem_drop known), own⟩

theorem Signal.delivery?_received {signal : Signal} {listener : Listener} {message : List UInt8}
    (own : signal.delivery? listener = some (.received message)) :
    ∃ connection, signal = .received listener connection message := by
  unfold Signal.delivery? at own
  split at own
  · split at own
    · rename_i told connection found same
      cases own
      exact ⟨connection, by rw [same]⟩
    · cases own
  · split at own <;> cases own
  · cases own

end DiagBus
