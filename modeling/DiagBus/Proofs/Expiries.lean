import DiagBus.Proofs.Sessions
import DiagBus.Proofs.TimerRuns

namespace DiagBus

variable {ω : Type}

/-- What the loop makes of a client and its stack, with the timers that fire in it: it has the first
timer fire, and goes on for as long as the first timer is due. -/
inductive Client.Fires (now : Tick) : List ClientTimer → Client × Stack ω → Client × Stack ω → Prop
  | done {client : Client} {stack : Stack ω} (later : client.timers.popDue now = none) :
      Fires now [] (client, stack) (client, stack)
  | next {client : Client} {stack : Stack ω} {after : Client × Stack ω} {timer : ClientTimer}
      {timers : TimerQueue ClientTimer} {fired : List ClientTimer}
      (due : client.timers.popDue now = some (timer, timers))
      (onward : Fires now fired ({ client with timers }.expire now timer stack) after) :
      Fires now (timer :: fired) (client, stack) after

/-- A session that is kept alive lasts for some time, and for no more than half of the clock. The clock
stands still in a call; if it does not, the time that a call takes is to be added to the session's. -/
def ClientSettings.Lasting (settings : ClientSettings) : Prop :=
  settings.keepSession = true → 0 < settings.session.toNat ∧ settings.session.toNat ≤ 2 ^ 31

/-- The stack was asked to send the request that keeps a session alive, and nothing else. -/
def Client.KeepsAlive (client : Client) (now : Tick) (before after : Stack ω) : Prop :=
  client.settings.keepSession = true ∧
    after = (before.send now client.connection
      (Request.testerPresent client.settings.keepAlive).bytes).2

namespace Situation

/-- Whether a timer is due. -/
def isDue (situation : Situation) (now : Tick) (timer : ClientTimer) : Bool :=
  (situation.due timer).any fun deadline => !now.before deadline

/-- How many timers fire at most, those included that are started by then. -/
def toll (situation : Situation) (now : Tick) : Nat :=
  2 * (situation.isDue now .session).toNat + (situation.isDue now .answer).toNat +
    (situation.isDue now .delayedAnswer).toNat

variable {situation : Situation} {now : Tick}

theorem isDue_stop (situation : Situation) (now : Tick) (timer other : ClientTimer) :
    (situation.stop timer).isDue now other =
      if other = timer then false else situation.isDue now other := by
  simp only [isDue, due_stop]
  split <;> rfl

theorem prolong_settings (situation : Situation) (now : Tick) :
    (situation.prolong now).settings = situation.settings := by
  unfold prolong
  split <;> rfl

theorem ask_settings (situation : Situation) (now : Tick) (service : UInt8) (expectsAnswer : Bool) :
    (situation.ask now service expectsAnswer).settings = situation.settings := by
  unfold ask
  rw [prolong_settings]
  cases expectsAnswer <;> rfl

/-- A request that is sent prolongs the session. -/
theorem isDue_ask (situation : Situation) (now : Tick) (service : UInt8) (expectsAnswer : Bool) :
    (situation.ask now service expectsAnswer).isDue now .session =
      if situation.session = defaultSession then situation.isDue now .session
      else !now.before (now.after situation.settings.session) := by
  unfold isDue
  rw [due_ask]
  split <;> rfl

/-- The timer for an answer that is delayed has nothing to do with a request that is sent. -/
theorem isDue_ask_delayed (situation : Situation) (now : Tick) (service : UInt8)
    (expectsAnswer : Bool) :
    (situation.ask now service expectsAnswer).isDue now .delayedAnswer =
      situation.isDue now .delayedAnswer := by
  unfold ask isDue
  rw [prolong_due _ _ (by decide)]
  cases expectsAnswer with
  | false => rfl
  | true => simp

/-- Of the timers that watch for an answer at most one is pending. -/
theorem Paced.toll_le (paced : situation.Paced) (now : Tick) : situation.toll now ≤ 3 := by
  have once (timer : ClientTimer) := Bool.toNat_le (situation.isDue now timer)
  have session := once .session
  have answer := once .answer
  have delayedAnswer := once .delayedAnswer
  unfold Paced at paced
  have none {timer : ClientTimer} (absent : situation.due timer = none) :
      (situation.isDue now timer).toNat = 0 := by
    unfold isDue
    rw [absent]
    rfl
  unfold toll
  cases state : situation.state <;> simp only [state] at paced
  · have absent := none paced.1
    omega
  · have absent := none paced.2
    omega
  · have absent := none paced.1
    omega

/-- The client is at rest, and keeps alive a session that is over as soon as it begins, by a request
that the server is not to answer. -/
structure Hurries (situation : Situation) (now : Tick) : Prop where
  paced : situation.Paced
  idle : situation.state = .idle
  other : situation.session ≠ defaultSession
  keep : situation.settings.keepSession = true
  silent : (Request.testerPresent situation.settings.keepAlive).expectsAnswer = false
  spent : now.before (now.after situation.settings.session) = false
  reached : situation.isDue now .session = true

theorem Hurries.ask (hurries : situation.Hurries now) (service : UInt8) :
    ((situation.stop .session).ask now service false).Hurries now := by
  have settings : ((situation.stop .session).ask now service false).settings =
      situation.settings := ask_settings ..
  have session : ((situation.stop .session).ask now service false).session =
      situation.session := session_ask ..
  have state : ((situation.stop .session).ask now service false).state = situation.state :=
    DeskMoment.asked_state ..
  refine ⟨hurries.paced.stop_session.ask hurries.idle now service false, state.trans hurries.idle,
    session ▸ hurries.other, settings ▸ hurries.keep, settings ▸ hurries.silent,
    settings ▸ hurries.spent, ?_⟩
  rw [isDue_ask, show (situation.stop .session).session = situation.session from rfl,
    if_neg hurries.other, show (situation.stop .session).settings = situation.settings from rfl,
    hurries.spent]
  rfl

end Situation

/-- A lasting session is not over when it begins. -/
theorem ClientSettings.Lasting.before_after {settings : ClientSettings} (lasting : settings.Lasting)
    (keeps : settings.keepSession = true) (now : Tick) :
    now.before (now.after settings.session) = true := by
  obtain ⟨some, half⟩ := lasting keeps
  unfold Tick.before Tick.after
  rw [decide_eq_true_eq, gt_iff_lt, UInt32.lt_iff_toNat_lt, UInt32.toNat_sub, UInt32.toNat_add]
  have limit : (0x7FFFFFFF : UInt32).toNat = 0x7FFFFFFF := rfl
  have range := now.toNat_lt
  have span := settings.session.toNat_lt
  omega

namespace Client

variable {client : Client} {stack : Stack ω} {now : Tick} {timer : ClientTimer}
  {timers : TimerQueue ClientTimer}

theorem Timed.isDue (timed : client.Timed) (due : client.timers.popDue now = some (timer, timers)) :
    client.situation.isDue now timer = true := by
  obtain ⟨_, _, ⟨deadline, pending, reached⟩, _⟩ := timed.single.popDue due
  unfold Situation.isDue
  rw [show client.situation.due timer = some deadline from pending]
  simp [reached]

/-- The stack after the timer of a session fired. -/
theorem expire_session_stack (client : Client) (now : Tick) (stack : Stack ω) :
    (client.expire now .session stack).2 = stack ∨
      client.KeepsAlive now stack (client.expire now .session stack).2 := by
  rw [expire_session]
  cases keep : client.settings.keepSession with
  | false => exact Or.inl rfl
  | true =>
    rw [if_pos rfl, request_eq]
    split
    · refine Or.inr ⟨keep, ?_⟩
      rw [send_eq]
      rcases stack.send now client.connection _ with ⟨fault | _, after⟩ <;> rfl
    · exact Or.inl rfl

/-- A timer that watches for an answer fires: that leaves one timer less, and the stack alone. -/
theorem Timed.fires_answer (timed : client.Timed) (stack : Stack ω)
    (due : client.timers.popDue now = some (timer, timers)) (kind : timer ≠ .session) :
    ∃ next, { client with timers }.expire now timer stack = (next, stack) ∧ next.Timed ∧
      next.settings = client.settings ∧ next.connection = client.connection ∧
      next.situation.isDue now .session = client.situation.isDue now .session ∧
      next.situation.toll now < client.situation.toll now := by
  obtain ⟨timed', stopped⟩ := timed.popped due
  obtain ⟨put, state⟩ := timed'.put .idle
  obtain ⟨pushed, same⟩ :=
    Client.push_situation { client with timers, state := .idle } (.failed .receiveTimeout)
  have reached := timed.isDue due
  have situation := pushed.trans state
  rw [stopped] at situation
  refine ⟨_, expire_answer _ now kind stack, same.mpr put, ?_, ?_, ?_, ?_⟩
  · exact congrArg Situation.settings situation
  · unfold Client.push
    split <;> rfl
  · rw [situation]
    exact (client.situation.isDue_stop now timer .session).trans (if_neg kind.symm)
  · rw [situation]
    have gone (other : ClientTimer) : Situation.isDue
        { client.situation.stop timer with state := .idle } now other =
          if other = timer then false else client.situation.isDue now other :=
      client.situation.isDue_stop now timer other
    unfold Situation.toll
    rw [gone, gone, gone]
    cases timer with
    | session => exact absurd rfl kind
    | answer => simp [reached]
    | delayedAnswer => simp [reached]

/-- The timer of a lasting session fires. It is not due any more, and if the client has started the
one that watches for an answer, this makes up for it. -/
theorem Timed.fires_session (timed : client.Timed) (lasting : client.settings.Lasting)
    (stack : Stack ω) (due : client.timers.popDue now = some (.session, timers)) :
    let next := { client with timers }.expire now .session stack
    next.1.Timed ∧ next.1.settings = client.settings ∧
      next.1.situation.isDue now .session = false ∧
      next.1.situation.toll now < client.situation.toll now := by
  intro next
  have reached := timed.isDue due
  let moment : DeskMoment ω := ⟨⟨.client 0, client, stack, 0⟩, .expire now⟩
  have after : moment.after.client = next.1 := by
    simp only [moment, DeskMoment.after, DeskStep.run, due, Desk.adopt]
    rfl
  have stopped (other : ClientTimer) := client.situation.isDue_stop now .session other
  have fires : moment.Fires now .session := ⟨rfl, timers, due⟩
  obtain ⟨timed', cases⟩ := fires.session_cases timed
  rw [after] at timed' cases
  refine ⟨timed', ?_⟩
  have asks {situation : Situation} (same : situation.settings = client.settings)
      (gone : situation.isDue now .session = false)
      (delayed : situation.isDue now .delayedAnswer = client.situation.isDue now .delayedAnswer) :
      situation.settings = client.settings ∧ situation.isDue now .session = false ∧
        situation.toll now < client.situation.toll now := by
    have once := Bool.toNat_le (situation.isDue now .answer)
    refine ⟨same, gone, ?_⟩
    unfold Situation.toll
    rw [gone, delayed, reached]
    simp only [Bool.toNat_false, Bool.toNat_true]
    omega
  have gone : (client.situation.stop .session).isDue now .session = false := by simp [stopped]
  have rests : (client.situation.stop .session).isDue now .delayedAnswer =
      client.situation.isDue now .delayedAnswer := by simp [stopped]
  show next.1.situation.settings = client.settings ∧ _
  rcases cases with ⟨_, same⟩ | ⟨keeps, _, same⟩ | ⟨_, _, same⟩
  · rw [same]
    exact asks rfl gone rests
  · rw [same]
    refine asks (Situation.ask_settings ..) ?_ ((Situation.isDue_ask_delayed ..).trans rests)
    rw [Situation.isDue_ask]
    split
    · exact gone
    · have begins := lasting.before_after keeps.keep now
      rw [show (client.situation.stop .session).settings = client.settings from rfl, begins]
      rfl
  · rw [same]
    exact asks rfl gone rests

/-- With fuel for all timers that can fire the loop runs to its end. -/
theorem Timed.fires {fuel : Nat} (timed : client.Timed) (lasting : client.settings.Lasting)
    (stack : Stack ω) (enough : client.situation.toll now ≤ fuel) :
    ∃ fired, Fires now fired (client, stack) (checkTimersWithin now fuel (client, stack)) ∧
      fired.length ≤ client.situation.toll now ∧
      fired.count .session ≤ (client.situation.isDue now .session).toNat ∧
      ((checkTimersWithin now fuel (client, stack)).2 = stack ∨
        client.situation.isDue now .session = true ∧
          client.KeepsAlive now stack (checkTimersWithin now fuel (client, stack)).2) := by
  -- Each timer that fires takes at least one from the toll, and one from the fuel.
  induction fuel generalizing client stack with
  | zero =>
    cases due : client.timers.popDue now with
    | none => exact ⟨[], .done due, Nat.zero_le _, Nat.zero_le _, Or.inl rfl⟩
    | some popped =>
      obtain ⟨timer, timers⟩ := popped
      by_cases kind : timer = .session
      · subst kind
        obtain ⟨_, _, _, fewer⟩ := timed.fires_session lasting stack due
        omega
      · obtain ⟨_, _, _, _, _, _, fewer⟩ := timed.fires_answer stack due kind
        omega
  | succ fuel ih =>
    unfold checkTimersWithin
    cases due : client.timers.popDue now with
    | none => exact ⟨[], .done due, Nat.zero_le _, Nat.zero_le _, Or.inl rfl⟩
    | some popped =>
      obtain ⟨timer, timers⟩ := popped
      simp only []
      by_cases kind : timer = .session
      · subst kind
        have reached := timed.isDue due
        have moved := expire_session_stack { client with timers } now stack
        obtain ⟨timed', same, gone, fewer⟩ := timed.fires_session lasting stack due
        rcases fires_eq : ({ client with timers } : Client).expire now .session stack
          with ⟨next, stack'⟩
        rw [fires_eq] at moved timed' same gone fewer
        obtain ⟨fired, fires, few, none, rest⟩ :=
          ih timed' (same ▸ lasting) stack' (by omega)
        rw [gone] at none rest
        have still := rest.resolve_right (fun due => Bool.noConfusion due.1)
        refine ⟨.session :: fired, .next due (fires_eq ▸ fires), ?_, ?_, ?_⟩
        · rw [List.length_cons]
          omega
        · rw [List.count_cons_self, reached]
          exact Nat.succ_le_succ none
        · rw [still]
          exact moved.imp_right fun keeps => ⟨reached, keeps⟩
      · obtain ⟨next, fires_eq, timed', settings, connection, session, fewer⟩ :=
          timed.fires_answer stack due kind
        obtain ⟨fired, fires, few, once, rest⟩ :=
          ih timed' (settings ▸ lasting) stack (by omega)
        rw [session] at once rest
        rw [fires_eq]
        refine ⟨timer :: fired, .next due (fires_eq ▸ fires), ?_, ?_, ?_⟩
        · rw [List.length_cons]
          omega
        · rwa [List.count_cons_of_ne kind]
        · refine rest.imp_right fun kept => ⟨kept.1, ?_⟩
          have keeps := kept.2
          unfold KeepsAlive at keeps ⊢
          rwa [settings, connection] at keeps

/-- A timer that is due fires if no other one is pending. -/
theorem Timed.pops (timed : client.Timed) (reached : client.situation.isDue now timer = true)
    (alone : ∀ other, other ≠ timer → client.due other = none) :
    ∃ timers, client.timers.popDue now = some (timer, timers) := by
  have single := timed.single
  have kind (other : ClientTimer) (pending : client.due other ≠ none) : other = timer :=
    Decidable.byContradiction fun different => pending (alone other different)
  cases popped : client.timers.popDue now with
  | some found =>
    obtain ⟨other, timers⟩ := found
    obtain ⟨_, _, ⟨deadline, pending, _⟩, _⟩ := single.popDue popped
    have same := kind other (by rw [Client.due, pending]; exact Option.some_ne_none _)
    exact ⟨timers, by rw [same]⟩
  | none =>
    obtain ⟨deadline, pending, passed⟩ := (Option.any_eq_true ..).mp reached
    have member := single.deadline?_eq_some.mp pending
    cases queue : client.timers.pending with
    | nil =>
      rw [queue] at member
      exact absurd member List.not_mem_nil
    | cons first rest =>
      obtain ⟨other, limit⟩ := first
      have ahead := TimerQueue.popDue_none single.linked popped (other, limit) (by rw [queue]; rfl)
      have limited : client.due other = some limit :=
        single.deadline?_eq_some.mpr (queue ▸ List.mem_cons_self)
      have same := kind other (by rw [limited]; exact Option.some_ne_none _)
      rw [same] at limited
      obtain rfl := Option.some.inj (limited.symm.trans pending)
      rw [ahead] at passed
      cases passed

/-- No timer but that of the session fires, and when the stack takes the request for that, the client
is where it was. -/
theorem Timed.hurries {after : Stack ω} (timed : client.Timed)
    (hurries : client.situation.Hurries now)
    (due : client.timers.popDue now = some (timer, timers))
    (sent : stack.send now client.connection
      (Request.testerPresent client.settings.keepAlive).bytes = (.ok (), after)) :
    ∃ next, { client with timers }.expire now timer stack = (next, after) ∧ next.Timed ∧
      next.situation.Hurries now ∧ next.settings = client.settings ∧
      next.connection = client.connection := by
  have kind : timer = .session := by
    obtain ⟨_, _, ⟨deadline, pending, _⟩, _⟩ := timed.single.popDue due
    have some : client.due timer ≠ none := by
      rw [Client.due, pending]
      exact Option.some_ne_none _
    have paced := hurries.paced
    unfold Situation.Paced at paced
    rw [hurries.idle] at paced
    cases timer with
    | session => rfl
    | answer => exact absurd paced.1 some
    | delayedAnswer => exact absurd paced.2 some
  subst kind
  obtain ⟨timed', stopped⟩ := timed.popped due
  obtain ⟨timed'', asked⟩ := timed'.ask now Service.testerPresent.toByte
    (Request.testerPresent client.settings.keepAlive).parameters false
  rw [stopped] at asked
  let popped : Client := { client with timers }
  have keep : popped.settings.keepSession = true := hurries.keep
  have idle : popped.state = .idle := hurries.idle
  have silent : (Request.testerPresent popped.settings.keepAlive).expectsAnswer = false :=
    hurries.silent
  have sent : stack.send now popped.connection
      (Request.testerPresent popped.settings.keepAlive).bytes = (.ok (), after) := sent
  have fired : popped.expire now .session stack = (popped.prolong now, after) := by
    rw [expire_session, if_pos keep, request_eq, if_pos idle, send_eq, sent, silent]
    rfl
  refine ⟨_, fired, timed'', asked ▸ hurries.ask _, ?_, ?_⟩
  · exact (congrArg Situation.settings asked).trans (Situation.ask_settings ..)
  · unfold Client.prolong
    rw [arm_eq]
    split <;> rfl

/-- The loop goes on for as long as the stack takes the request. -/
theorem Timed.not_fires {fired : List ClientTimer} {after : Client × Stack ω} (timed : client.Timed)
    (hurries : client.situation.Hurries now) (holds : Stack ω → Prop) (start : holds stack)
    (takes : ∀ before, holds before → ∃ after, before.send now client.connection
      (Request.testerPresent client.settings.keepAlive).bytes = (.ok (), after) ∧ holds after) :
    ¬Fires now fired (client, stack) after := by
  intro fires
  generalize before : (client, stack) = state at fires
  induction fires generalizing client stack with
  | done later =>
    obtain ⟨rfl, rfl⟩ := Prod.mk.inj before
    have paced := hurries.paced
    unfold Situation.Paced at paced
    rw [hurries.idle] at paced
    obtain ⟨timers, due⟩ := timed.pops hurries.reached fun other kind => by
      cases other with
      | session => exact absurd rfl kind
      | answer => exact paced.1
      | delayedAnswer => exact paced.2
    rw [due] at later
    cases later
  | next due _ ih =>
    obtain ⟨rfl, rfl⟩ := Prod.mk.inj before
    obtain ⟨after, sent, still⟩ := takes stack start
    obtain ⟨next, fired, timed', hurries', settings, connection⟩ := timed.hurries hurries due sent
    exact ih timed' hurries' still (by rwa [settings, connection]) fired.symm

/-- When the loop has ended the first timer is not due. -/
theorem Fires.exhausts {fired : List ClientTimer} {before after : Client × Stack ω}
    (fires : Fires now fired before after) : after.1.timers.popDue now = none := by
  induction fires with
  | done later => exact later
  | next _ _ ih => exact ih

end Client

theorem Desk.Orderly.through {desk : Desk ω} (orderly : desk.Orderly) (steps : List (DeskStep ω)) :
    (desk.through steps).Orderly ∧ (desk.through steps).client.settings = desk.client.settings :=
  (@Desk.reach_from ω desk steps
    (fun _ after => after.Orderly ∧ after.client.settings = desk.client.settings) []
    ⟨orderly, rfl⟩ fun _ _ kept =>
      ⟨DeskMoment.orderly kept.1, (DeskMoment.keeps kept.1).1.trans kept.2⟩).1

/-- The client has looked at its mailbox. -/
theorem Desk.Orderly.read {desk : Desk ω} (orderly : desk.Orderly) (now : Tick) :
    Desk.Orderly { desk with client := desk.client.openMailbox now } ∧
      (desk.client.openMailbox now).settings = desk.client.settings := by
  have read := orderly.through (desk.reading now)
  rw [Desk.reading_eq] at read
  exact read

/-- The loop that has the timers of a client fire ends, whatever happened before, and it asks the
server to keep the session at most once. A session that is kept alive has to last for that. -/
theorem expiring_timers_are_exhausted {settings : Settings} {world : ω} {fresh : Stack ω}
    {earlier : List (Call ω)} {options : ClientSettings} {listener : Listener} {desk : Desk ω}
    (made : Stack.new settings world = .ok fresh)
    (attached : Desk.attach options listener (fresh.calls earlier) = .ok desk)
    (lasting : options.Lasting) (calls : List (DeskCall ω)) (now : Tick) :
    let before := desk.calls calls
    let reader := before.client.openMailbox now
    let after := before.client.process now before.stack
    ∃ fired, Client.Fires now fired (reader, before.stack) after ∧
      after.1.timers.popDue now = none ∧ fired.length ≤ 3 ∧ fired.count .session ≤ 1 ∧
      (after.2 = before.stack ∨ reader.KeepsAlive now before.stack after.2) := by
  intro before reader after
  obtain ⟨sound, quiet⟩ := Stack.calls_sound made earlier
  obtain ⟨_, client, _⟩ := Desk.attach_eq sound attached
  have run := (Desk.attach_orderly sound quiet attached).through (desk.steps calls)
  rw [← Desk.calls_eq] at run
  obtain ⟨orderly, settings⟩ := run.1.read now
  have settings : reader.settings = options := by
    rw [settings, run.2, client]
  have few := orderly.paced.toll_le now
  obtain ⟨fired, fires, length, once, stack⟩ :=
    orderly.timed.fires (settings ▸ lasting) before.stack
      (few.trans (show 3 ≤ Stack.patience by decide))
  exact ⟨fired, fires, fires.exhausts, length.trans few, once.trans (Bool.toNat_le _),
    stack.imp_right And.right⟩

/-- The session that is kept alive is over after 100 ms. -/
theorem sample_expiring_timers_are_exhausted :
    Stack.new {} () = .ok sampleStack ∧
      Desk.attach { session := 100, keepSession := true } (.client 0)
        (sampleStack.calls [.addInterface .obliging]) = .ok sampleKeeper ∧
      ({ session := 100, keepSession := true } : ClientSettings).Lasting ∧
      let before := sampleKeeper.calls (sampleNeglect.take 3)
      let reader := before.client.openMailbox 100
      let after := before.client.process 100 before.stack
      before.stack.outside.signals.length < after.2.outside.signals.length ∧
        ∃ fired, Client.Fires 100 fired (reader, before.stack) after ∧
          after.1.timers.popDue 100 = none ∧ fired.length ≤ 3 ∧ fired.count .session ≤ 1 ∧
          (after.2 = before.stack ∨ reader.KeepsAlive 100 before.stack after.2) := by
  have lasting : ({ session := 100, keepSession := true } : ClientSettings).Lasting :=
    fun _ => by decide
  have made : Stack.new {} () = .ok sampleStack := rfl
  have attached : Desk.attach { session := 100, keepSession := true } (.client 0)
      (sampleStack.calls [.addInterface .obliging]) = .ok sampleKeeper := rfl
  exact ⟨made, attached, lasting, by decide +kernel,
    expiring_timers_are_exhausted made attached lasting (sampleNeglect.take 3) 100⟩

/-- A stack that has told these signals. -/
def Stack.telling (stack : Stack ω) (signals : List Signal) : Stack ω :=
  { stack with outside := { stack.outside with signals } }

/-- The client is to keep its sessions alive, but gives them no time. -/
def sampleRestless : Desk Unit :=
  { sampleDesk with client := { sampleDesk.client with
      settings := { session := 0, keepSession := true } } }

/-- The server has entered a session; the client is about to learn of it. -/
def sampleEntry : Desk Unit :=
  sampleRestless.calls (sampleNeglect.take 2)

/-- The stack of the client: its connection is bound and at rest. -/
def sampleBound : Stack Unit :=
  { sampleStack with
    registry := ⟨[some .obliging, none]⟩
    connections := {
      slots := [
        { value := some {
            address := some sampleAddress
            onReceived := some (.client 0)
            onFailed := some (.client 0) } },
        {}]
      used := 1 } }

theorem sampleEntry_stack :
    sampleEntry.stack = sampleBound.telling sampleEntry.stack.outside.signals := rfl

/-- The stack takes the request, and is what it was but for what it tells. -/
theorem sampleBound_send (signals : List Signal) : ∃ more,
    (sampleBound.telling signals).send 0 sampleHandle [0x3E, 0x80] =
      (.ok (), sampleBound.telling more) :=
  ⟨_, rfl⟩

/-- The loop does not end: the session is over each time that it was kept alive. -/
theorem session_without_time_is_kept_forever :
    Stack.new {} () = .ok sampleStack ∧
      Desk.attach { session := 0, keepSession := true } (.client 0)
        (sampleStack.calls [.addInterface .obliging]) = .ok sampleRestless ∧
      ¬∃ fired after,
        Client.Fires 0 fired (sampleEntry.client.openMailbox 0, sampleEntry.stack) after := by
  have made : Stack.new {} () = .ok sampleStack := rfl
  have attached : Desk.attach { session := 0, keepSession := true } (.client 0)
      (sampleStack.calls [.addInterface .obliging]) = .ok sampleRestless := rfl
  refine ⟨made, attached, fun ⟨fired, after, fires⟩ => ?_⟩
  obtain ⟨orderly, _⟩ := (Desk.calls_orderly made attached (sampleNeglect.take 2)).1.read 0
  have hurries : (sampleEntry.client.openMailbox 0).situation.Hurries 0 :=
    ⟨orderly.paced, by decide +kernel, by decide +kernel, by decide +kernel, by decide +kernel,
      by decide +kernel, by decide +kernel⟩
  refine orderly.timed.not_fires hurries (∃ signals, · = sampleBound.telling signals)
    ⟨_, sampleEntry_stack⟩ ?_ fires
  rintro before ⟨signals, rfl⟩
  obtain ⟨more, sent⟩ := sampleBound_send signals
  exact ⟨_, sent, more, rfl⟩

end DiagBus
