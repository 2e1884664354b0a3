import DiagBus.Proofs.Requests

namespace DiagBus

variable {ω : Type}

namespace Desk

/-- What the stack told the client behind its first `count` signals. -/
def toldSince (desk : Desk ω) (count : Nat) : List Delivery :=
  (desk.stack.outside.signals.drop count).filterMap (·.delivery? desk.listener)

/-- What the stack told the client and the client did not look at yet, in the order in which it will
look at it. -/
def unread (desk : Desk ω) : List Delivery :=
  desk.client.mailbox ++ desk.news

end Desk

namespace DeskMoment

/-- The piece of news that the client looks at. -/
def looked? (moment : DeskMoment ω) : Option Delivery :=
  match moment.step with
  | .take _ => moment.before.client.mailbox.head?
  | _ => none

/-- The step does something to the request that is outstanding or to the timers that watch for its
answer, or it pushes an event. -/
def Touches (moment : DeskMoment ω) : Prop :=
  moment.pushed ≠ [] ∨ moment.after.client.state ≠ moment.before.client.state ∨
    ∃ timer, timer ≠ .session ∧
      moment.after.client.due timer ≠ moment.before.client.due timer

/-- What a step can do to the request to this service, which the stack took after `count` signals. Of
what was told since, the client has looked at `read`. -/
structure SettlesFresh (moment : DeskMoment ω) (service : UInt8) (count : Nat)
    (read : List Delivery) : Prop where
  outstanding : moment.before.client.state.service? = some service
  /-- With each look the client comes to another piece of news that the stack told since. -/
  fresh : ∀ now delivery, moment.Takes now delivery →
    (read ++ [delivery]).Sublist (moment.before.toldSince count)
  settles : moment.Touches → (∃ now delivery, moment.Takes now delivery) ∨
    ∃ now timer, timer ≠ .session ∧ moment.Fires now timer

end DeskMoment

/-- What the client looks at in these steps, in order. -/
def lookedAt (moments : List (DeskMoment ω)) : List Delivery :=
  moments.filterMap (·.looked?)

theorem lookedAt_concat (moments : List (DeskMoment ω)) (moment : DeskMoment ω) :
    lookedAt (moments ++ [moment]) = lookedAt moments ++ moment.looked?.toList := by
  unfold lookedAt
  rw [List.filterMap_append]
  cases looked : moment.looked? <;> simp [looked]

/-- All that the client looked at in these steps and did not read yet, but the first `owed` pieces of
it, the stack told behind its first `count` signals. -/
structure Desk.Owes (count owed : Nat) (past : List (DeskMoment ω)) (desk : Desk ω) : Prop where
  known : count ≤ desk.stack.outside.signals.length
  fresh : ((lookedAt past ++ desk.unread).drop owed).Sublist (desk.toldSince count)

/-- A client that is told news keeps their order; what finds the mailbox full is lost. -/
theorem Client.deliver_sublist (client : Client) (news : List Delivery) :
    (news.foldl (·.deliver ·) client).mailbox.Sublist (client.mailbox ++ news) := by
  induction news generalizing client with
  | nil => simp
  | cons delivery rest ih =>
    have first : (client.deliver delivery).mailbox.Sublist (client.mailbox ++ [delivery]) := by
      unfold deliver
      split
      · exact List.Sublist.refl _
      · exact List.sublist_append_left _ _
    have later := (ih (client.deliver delivery)).trans (first.append_right rest)
    rwa [List.append_assoc] at later

namespace Desk

variable {desk : Desk ω}

/-- What the stack tells later comes behind what it told before. -/
theorem toldSince_grown {after : Desk ω} {more : List Signal}
    (listener : after.listener = desk.listener)
    (grown : after.stack.outside.signals = desk.stack.outside.signals ++ more) (count : Nat) :
    after.toldSince count = desk.toldSince count ++
      (more.drop (count - desk.stack.outside.signals.length)).filterMap
        (·.delivery? desk.listener) := by
  unfold toldSince
  rw [listener, grown, List.drop_append, List.filterMap_append]

/-- As long as the client neither looks at news nor is told any, what is unread only grows. -/
theorem unread_grown {after : Desk ω} {more : List Signal}
    (listener : after.listener = desk.listener)
    (mailbox : after.client.mailbox = desk.client.mailbox) (heard : after.heard = desk.heard)
    (grown : after.stack.outside.signals = desk.stack.outside.signals ++ more) :
    after.unread.Sublist (desk.unread ++ more.filterMap (·.delivery? desk.listener)) := by
  have news := toldSince_grown listener grown desk.heard
  rw [← heard] at news
  rw [unread, mailbox, show after.news = _ from news, heard, unread, List.append_assoc]
  exact (List.Sublist.refl _).append
    ((List.Sublist.refl _).append ((List.drop_sublist _ more).filterMap _))

/-- Telling the client its news leaves their order alone. -/
theorem unread_deliver (desk : Desk ω) : desk.deliver.unread.Sublist desk.unread := by
  have nothing : desk.deliver.news = [] := by
    unfold news deliver
    rw [List.drop_length]
    rfl
  rw [unread, nothing, List.append_nil]
  exact Client.deliver_sublist desk.client desk.news

/-- The client looks at the first piece of news. -/
theorem unread_take {first : Delivery} {mailbox : List Delivery}
    (oldest : desk.client.mailbox = first :: mailbox) (now : Tick) :
    desk.unread = first :: ((DeskStep.take now).run desk).unread := by
  simp only [unread, DeskStep.run, oldest, Client.mailbox_take, List.cons_append]
  rfl

end Desk

namespace DeskMoment

variable {moment : DeskMoment ω}

/-- What the client looks at in a step is the first piece of what it did not read, and what is unread
after the step was so before or is told in it. -/
theorem unread_after (informed : moment.before.Informed) :
    ∃ more, moment.after.stack.outside.signals = moment.before.stack.outside.signals ++ more ∧
      (moment.looked?.toList ++ moment.after.unread).Sublist
        (moment.before.unread ++ more.filterMap (·.delivery? moment.before.listener)) := by
  obtain ⟨desk, step⟩ := moment
  obtain ⟨listener, calls, moved⟩ := step.moves desk
  obtain ⟨more, grown⟩ := Stack.calls_signals informed.sound informed.quiet calls
  rw [← moved] at grown
  cases step with
  | deed deed =>
    have heard : (deed.run desk).heard = desk.heard := by cases deed <;> rfl
    exact ⟨more, grown.symm, Desk.unread_grown listener (deed.mailbox_run desk) heard grown.symm⟩
  | deliver =>
    refine ⟨[], (List.append_nil _).symm, ?_⟩
    rw [List.filterMap_nil, List.append_nil]
    exact desk.unread_deliver
  | take now =>
    refine ⟨[], ?_, ?_⟩
    · rw [List.append_nil]
      simp only [DeskMoment.after, DeskStep.run]
      split <;> rfl
    · rw [List.filterMap_nil, List.append_nil]
      cases mailbox : desk.client.mailbox with
      | nil => simp [looked?, DeskMoment.after, DeskStep.run, mailbox]
      | cons first rest =>
        rw [Desk.unread_take mailbox now, looked?]
        simp only [mailbox]
        exact List.Sublist.refl _
  | expire now =>
    have kept : ((DeskStep.expire now).run desk).client.mailbox = desk.client.mailbox ∧
        ((DeskStep.expire now).run desk).heard = desk.heard := by
      simp only [DeskStep.run]
      cases desk.client.timers.popDue now with
      | none => exact ⟨rfl, rfl⟩
      | some popped => exact ⟨Client.mailbox_expire _ _ _ _, rfl⟩
    exact ⟨more, grown.symm, Desk.unread_grown listener kept.1 kept.2 grown.symm⟩

theorem owes {past : List (DeskMoment ω)} {count owed : Nat} (informed : moment.before.Informed)
    (owes : moment.before.Owes count owed past) :
    moment.after.Owes count owed (past ++ [moment]) := by
  obtain ⟨more, grown, unread⟩ := unread_after informed
  have listener : moment.after.listener = moment.before.listener :=
    (moment.step.moves moment.before).1
  have told := Desk.toldSince_grown listener grown count
  rw [Nat.sub_eq_zero_of_le owes.known, List.drop_zero] at told
  refine ⟨?_, ?_⟩
  · rw [grown, List.length_append]
    exact owes.known.trans (Nat.le_add_right _ _)
  · have onward := ((List.Sublist.refl (lookedAt past)).append unread).drop owed
    rw [← List.append_assoc, ← List.append_assoc, ← lookedAt_concat] at onward
    rw [told]
    refine onward.trans ?_
    rw [List.drop_append]
    exact owes.fresh.append (List.drop_sublist _ _)

/-- A step that leaves the request, its timers and the events alone does not touch the request; the
session does not matter. -/
theorem untouched (event : moment.step.event? moment.before = none)
    (state : moment.after.client.situation.state = moment.before.client.situation.state)
    (due : ∀ timer, timer ≠ .session →
      moment.after.client.situation.due timer = moment.before.client.situation.due timer) :
    ¬moment.Touches := by
  rintro (pushed | changed | ⟨timer, kind, changed⟩)
  · exact pushed (by rw [pushed_eq, event]; rfl)
  · exact changed state
  · exact changed (due timer kind)

/-- Only what the client looks at and the timers that watch for an answer touch a request that is
outstanding. -/
theorem Touches.cause (touches : moment.Touches) (timed : moment.before.client.Timed)
    (busy : moment.before.client.state ≠ .idle) :
    (∃ now delivery, moment.Takes now delivery) ∨
      ∃ now timer, timer ≠ .session ∧ moment.Fires now timer := by
  obtain ⟨_, course⟩ := DeskMoment.course timed
  cases course with
  | rests same event =>
    exact absurd touches (untouched event (by rw [same]) fun _ _ => by rw [same])
  | adjusted level answer delayedAnswer situation event =>
    exact absurd touches (untouched event (by rw [situation]) fun _ _ => by rw [situation])
  | asked _ idle _ _ => exact absurd idle busy
  | announced takes _ _ _ => exact Or.inl ⟨_, _, takes⟩
  | rejected takes _ _ _ _ => exact Or.inl ⟨_, _, takes⟩
  | granted takes _ _ _ => exact Or.inl ⟨_, _, takes⟩
  | broken takes _ _ => exact Or.inl ⟨_, _, takes⟩
  | unanswered fires kind _ _ => exact Or.inr ⟨_, _, kind, fires⟩
  | lapsed _ _ situation event =>
    refine absurd touches (untouched event (by rw [situation]; rfl) fun _ kind => ?_)
    rw [situation]
    exact Function.update_of_ne kind _ _
  | kept _ idle _ _ => exact absurd idle busy
  | dropped _ situation event =>
    refine absurd touches (untouched event (by rw [situation]; rfl) fun _ kind => ?_)
    rw [situation]
    exact Function.update_of_ne kind _ _

/-- A request that the stack took is outstanding, unless the client keeps its session alive without
an answer. -/
theorem Starts.outstanding {service : UInt8} (starts : moment.Starts service)
    (timed : moment.before.client.Timed) (busy : moment.after.client.state ≠ .idle) :
    moment.after.client.state.service? = some service := by
  obtain ⟨now, parameters, ⟨deed, step, asks, ok⟩⟩ | ⟨rfl, now, keeps⟩ := starts
  · rcases Deed.asks_cases asks with ⟨fault, refused, _⟩ | ⟨_, _, _, sent⟩
    · rw [ok] at refused
      cases refused
    · have after : moment.after.client =
          moment.before.client.asked now (service :: parameters) true := by
        rw [DeskMoment.after, step]
        exact sent
      have situation := (timed.ask now service parameters true).2
      rw [← after] at situation
      rw [state_of situation (asked_state now service true)]
      rfl
  · obtain ⟨_, ⟨keep, _⟩ | ⟨_, idle, situation⟩ | ⟨fault, refused, _⟩⟩ :=
      keeps.fires.session_cases timed
    · rw [keeps.keep] at keep
      cases keep
    · have state := state_of situation (asked_state now Service.testerPresent.toByte _)
      split at state
      · rw [state]
        rfl
      · exact absurd (state.trans idle) busy
    · have answer := keeps.answer
      rw [refused.answer] at answer
      cases answer

theorem Starts.looked? {service : UInt8} (starts : moment.Starts service) :
    moment.looked? = none := by
  obtain ⟨now, parameters, ⟨deed, step, _⟩⟩ | ⟨_, now, keeps⟩ := starts
  · rw [DeskMoment.looked?, step]
  · rw [DeskMoment.looked?, keeps.fires.step]

/-- A client that has a request outstanding before and after a step has the same one. -/
theorem SettlesOnce.same {service : UInt8} (settles : moment.SettlesOnce)
    (outstanding : moment.before.client.state.service? = some service)
    (busy : moment.after.client.state ≠ .idle) :
    moment.after.client.state.service? = some service := by
  obtain ⟨other, running⟩ : ∃ other, moment.after.client.state.service? = some other := by
    cases state : moment.after.client.state with
    | idle => exact absurd state busy
    | waiting other => exact ⟨other, rfl⟩
    | delayed other => exact ⟨other, rfl⟩
  rcases settles.outstanding other running with before | ⟨idle, _⟩
  · rw [running, ← before, outstanding]
  · rw [idle] at outstanding
    cases outstanding

end DeskMoment

/-- What follows a step in a run is the run from there. -/
theorem Desk.moments_after {desk : Desk ω} {steps : List (DeskStep ω)}
    {past later : List (DeskMoment ω)} {moment : DeskMoment ω}
    (whole : desk.moments steps = past ++ moment :: later) :
    ∃ rest, moment.after.moments rest = later := by
  induction past generalizing desk steps with
  | nil =>
    cases steps with
    | nil => cases whole
    | cons step rest =>
      obtain ⟨rfl, later⟩ := List.cons.inj whole
      exact ⟨rest, later⟩
  | cons first past ih =>
    cases steps with
    | nil => cases whole
    | cons step rest => exact ih (List.cons.inj whole).2

/-- What holds after these steps, if at first a request to this service was outstanding, which the
stack took after `count` signals, and `owed` pieces of news were not read. -/
structure Desk.Attends (service : UInt8) (count owed : Nat) (past : List (DeskMoment ω))
    (desk : Desk ω) : Prop where
  orderly : desk.Orderly
  owes : desk.Owes count owed past
  /-- It is the same request as long as the client is busy. -/
  same : (∀ moment ∈ past, moment.before.client.isBusy = true) → desk.client.isBusy = true →
    desk.client.state.service? = some service

theorem DeskMoment.attends {moment : DeskMoment ω} {past : List (DeskMoment ω)} {service : UInt8}
    {count owed : Nat} (attends : moment.before.Attends service count owed past) :
    moment.after.Attends service count owed (past ++ [moment]) := by
  obtain ⟨orderly, owes, same⟩ := attends
  refine ⟨DeskMoment.orderly orderly, DeskMoment.owes orderly.informed owes, fun busy after => ?_⟩
  have outstanding := same (fun other member => busy other (List.mem_append_left _ member))
    (busy moment (List.mem_append_right _ List.mem_cons_self))
  have settles := DeskMoment.settles orderly.timed orderly.informed orderly.room
  exact settles.same outstanding (of_decide_eq_true after)

/-- The step that starts a request. -/
theorem DeskMoment.Starts.attends {moment : DeskMoment ω} {service : UInt8}
    (starts : moment.Starts service) (orderly : moment.before.Orderly) :
    moment.after.Attends service moment.before.stack.outside.signals.length
      moment.before.unread.length [] := by
  have owes : moment.before.Owes moment.before.stack.outside.signals.length
      moment.before.unread.length [] := by
    refine ⟨Nat.le_refl _, ?_⟩
    rw [lookedAt, List.filterMap_nil, List.nil_append, List.drop_length]
    exact List.nil_sublist _
  refine ⟨DeskMoment.orderly orderly, ?_,
    fun _ busy => starts.outstanding orderly.timed (of_decide_eq_true busy)⟩
  have onward := DeskMoment.owes orderly.informed owes
  refine ⟨onward.known, ?_⟩
  have fresh := onward.fresh
  rw [lookedAt_concat, starts.looked?] at fresh
  exact fresh

/-- Once the client has looked at all news that it had not read when the stack took a request, that
request is settled by what the stack told since, or because no answer came in time. -/
theorem requests_are_settled_by_fresh_news {settings : Settings} {world : ω} {fresh : Stack ω}
    {earlier : List (Call ω)} {options : ClientSettings} {listener : Listener} {desk : Desk ω}
    (made : Stack.new settings world = .ok fresh)
    (attached : Desk.attach options listener (fresh.calls earlier) = .ok desk)
    {calls : List (DeskCall ω)} {past period rest : List (DeskMoment ω)}
    {opening closing : DeskMoment ω} {service : UInt8}
    (whole : desk.history calls = past ++ opening :: (period ++ closing :: rest))
    (starts : opening.Starts service)
    (busy : ∀ moment ∈ period ++ [closing], moment.before.client.isBusy = true)
    (read : opening.before.unread.length ≤ (lookedAt period).length) :
    closing.SettlesFresh service opening.before.stack.outside.signals.length
      ((lookedAt period).drop opening.before.unread.length) := by
  have orderly := (Desk.calls_orderly made attached calls).2 opening (by rw [whole]; simp)
  obtain ⟨steps, later⟩ := Desk.moments_after whole
  obtain ⟨_, during⟩ := @Desk.reach_from ω opening.after steps
    (Desk.Attends service opening.before.stack.outside.signals.length opening.before.unread.length)
    [] (starts.attends orderly) fun _ _ => DeskMoment.attends
  obtain ⟨orderly, owes, same⟩ := during period closing rest later
  rw [List.nil_append] at owes same
  have working := busy closing (List.mem_append_right _ List.mem_cons_self)
  refine ⟨?_, fun now delivery takes => ?_, fun touches => ?_⟩
  · exact same (fun moment member => busy moment (List.mem_append_left _ member)) working
  · have news := owes.fresh
    rw [List.drop_append_of_le_length read] at news
    refine ((List.Sublist.refl _).append ?_).trans news
    exact List.singleton_sublist.mpr (List.mem_append_left _ (List.mem_of_mem_head? takes.oldest))
  · exact touches.cause orderly.timed (of_decide_eq_true working)

/-- Two steps of a run, and what lies between them. -/
theorem Desk.history_two (desk : Desk ω) (calls : List (DeskCall ω)) {first second : Nat}
    (order : first < second) (inside : second < (desk.history calls).length) :
    desk.history calls = (desk.history calls).take first ++ (desk.history calls)[first] ::
      (((desk.history calls).drop (first + 1)).take (second - (first + 1)) ++
        (desk.history calls)[second] :: (desk.history calls).drop (second + 1)) := by
  have between : (desk.history calls).drop second =
      ((desk.history calls).drop (first + 1)).drop (second - (first + 1)) := by
    rw [List.drop_drop, Nat.add_sub_cancel' order]
  rw [← List.drop_eq_getElem_cons inside, between, List.take_append_drop,
    ← List.drop_eq_getElem_cons, List.take_append_drop]

/-- A client gives up on the session that it requested. Then the server's answer comes, and the
client makes another request. -/
def sampleImpatience (request : Request) : List (DeskCall Unit) :=
  [.deed (.startSession 0 sampleAddress 3), .process 50,
    .deed (.call (.input 60 ⟨0⟩ (sampleAnswer [0x50, 3, 0, 50, 1, 244]))),
    .deed (.request 70 request), .process 71]

/-- The other request is a reset. It is answered after the client looked at the late answer. -/
def sampleReset : List (DeskCall Unit) :=
  sampleImpatience (.reset 1) ++
    [.deed (.call (.input 80 ⟨0⟩ (sampleAnswer [0x51, 1]))), .process 81]

theorem sample_requests_are_settled_by_fresh_news :
    Stack.new {} () = .ok sampleStack ∧
      Desk.attach {} (.client 0) (sampleStack.calls [.addInterface .obliging]) = .ok sampleDesk ∧
      ∃ past opening period closing rest,
        sampleDesk.history sampleReset = past ++ opening :: (period ++ closing :: rest) ∧
        opening.Starts 0x11 ∧
        (∀ moment ∈ period ++ [closing], moment.before.client.isBusy = true) ∧
        opening.before.unread.length = 1 ∧ (lookedAt period).length = 1 ∧
        closing.pushed = [.positive 0x11 [1]] ∧
        closing.SettlesFresh 0x11 opening.before.stack.outside.signals.length
          ((lookedAt period).drop opening.before.unread.length) := by
  have made : Stack.new {} () = .ok sampleStack := rfl
  have attached : Desk.attach {} (.client 0) (sampleStack.calls [.addInterface .obliging]) =
      .ok sampleDesk := rfl
  have inside : 12 < (sampleDesk.history sampleReset).length := by decide +kernel
  obtain ⟨accepted, busy, unread, looked, pushed⟩ :
      (Deed.request 70 (.reset 1)).answer (sampleDesk.history sampleReset)[6].before = .ok () ∧
      (∀ moment ∈ ((sampleDesk.history sampleReset).drop 7).take 5 ++
        [(sampleDesk.history sampleReset)[12]], moment.before.client.isBusy = true) ∧
      (sampleDesk.history sampleReset)[6].before.unread.length = 1 ∧
      (lookedAt (((sampleDesk.history sampleReset).drop 7).take 5)).length = 1 ∧
      (sampleDesk.history sampleReset)[12].pushed = [.positive 0x11 [1]] := by
    decide +kernel +revert
  have step : (sampleDesk.history sampleReset)[6].step = .deed (.request 70 (.reset 1)) := by cbv
  have starts : (sampleDesk.history sampleReset)[6].Starts 0x11 :=
    Or.inl ⟨70, [1], _, step, rfl, accepted⟩
  have whole := sampleDesk.history_two sampleReset (show 6 < 12 by decide) inside
  have settles := requests_are_settled_by_fresh_news made attached whole starts busy
    (unread.trans looked.symm).le
  exact ⟨made, attached, _, _, _, _, _, whole, starts, busy, unread, looked, pushed, settles⟩

/-- The other request is for the session once more. -/
def sampleRepeated : List (DeskCall Unit) :=
  sampleImpatience (.session 3)

/-- The late answer, which waited when the request was made, settles it, and nobody told the client
anything since. -/
theorem late_answer_settles_newer_request :
    Stack.new {} () = .ok sampleStack ∧
      Desk.attach {} (.client 0) (sampleStack.calls [.addInterface .obliging]) = .ok sampleDesk ∧
      ∃ past opening period closing rest,
        sampleDesk.history sampleRepeated = past ++ opening :: (period ++ closing :: rest) ∧
        opening.Starts 0x10 ∧
        (∀ moment ∈ period ++ [closing], moment.before.client.isBusy = true) ∧
        opening.before.unread = [.received [0x50, 3, 0, 50, 1, 244]] ∧
        closing.Takes 71 (.received [0x50, 3, 0, 50, 1, 244]) ∧
        closing.before.toldSince opening.before.stack.outside.signals.length = [] ∧
        closing.pushed = [.positive 0x10 [3, 0, 50, 1, 244]] ∧ closing.Ends 0x10 := by
  have inside : 8 < (sampleDesk.history sampleRepeated).length := by decide +kernel
  obtain ⟨accepted, busy, unread, oldest, nothing, pushed, outstanding, idle⟩ :
      (Deed.request 70 (.session 3)).answer (sampleDesk.history sampleRepeated)[6].before = .ok () ∧
      (∀ moment ∈ ((sampleDesk.history sampleRepeated).drop 7).take 1 ++
        [(sampleDesk.history sampleRepeated)[8]], moment.before.client.isBusy = true) ∧
      (sampleDesk.history sampleRepeated)[6].before.unread =
        [.received [0x50, 3, 0, 50, 1, 244]] ∧
      (sampleDesk.history sampleRepeated)[8].before.client.mailbox.head? =
        some (.received [0x50, 3, 0, 50, 1, 244]) ∧
      (sampleDesk.history sampleRepeated)[8].before.toldSince
        (sampleDesk.history sampleRepeated)[6].before.stack.outside.signals.length = [] ∧
      (sampleDesk.history sampleRepeated)[8].pushed = [.positive 0x10 [3, 0, 50, 1, 244]] ∧
      (sampleDesk.history sampleRepeated)[8].before.client.state.service? = some 0x10 ∧
      (sampleDesk.history sampleRepeated)[8].after.client.state = .idle := by
    decide +kernel +revert
  have opens : (sampleDesk.history sampleRepeated)[6].step = .deed (.request 70 (.session 3)) := by
    cbv
  have closes : (sampleDesk.history sampleRepeated)[8].step = .take 71 := by cbv
  have whole := sampleDesk.history_two sampleRepeated (show 6 < 8 by decide) inside
  exact ⟨rfl, rfl, _, _, _, _, _, whole, Or.inl ⟨70, [3], _, opens, rfl, accepted⟩, busy, unread,
    ⟨closes, oldest⟩, nothing, pushed, outstanding, idle⟩

end DiagBus
