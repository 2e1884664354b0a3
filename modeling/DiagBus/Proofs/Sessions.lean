import DiagBus.Proofs.Requests

namespace DiagBus

variable {ω : Type}

namespace DeskMoment

variable {moment : DeskMoment ω}

/-- What a step does to the session and its timer. -/
inductive Watch (moment : DeskMoment ω) : Prop
  | stays (session : moment.after.client.session = moment.before.client.session)
      (due : moment.after.client.due .session = moment.before.client.due .session) : Watch moment
  /-- A session other than the default one is entered or used, and its timer starts afresh. -/
  | renewed (session : moment.after.client.session ≠ defaultSession)
      (due : moment.after.client.due .session ≠ none) : Watch moment
  | ended (session : moment.after.client.session = defaultSession)
      (due : moment.after.client.due .session = none) : Watch moment
  /-- The session should be kept alive, but the request for that is refused. -/
  | dropped {now : Tick} {fault : Fault} (keeps : moment.KeepsAlive now (.error fault))
      (session : moment.after.client.session = moment.before.client.session)
      (due : moment.after.client.due .session = none) : Watch moment

theorem session_of {situation : Situation} (same : moment.after.client.situation = situation) :
    moment.after.client.session = situation.session ∧
      moment.after.client.due .session = situation.due .session :=
  ⟨congrArg Situation.session same, congrFun (congrArg Situation.due same) .session⟩

end DeskMoment

namespace Situation

variable (situation : Situation)

theorem session_finish : situation.finish.session = situation.session := rfl

theorem due_finish : situation.finish.due .session = situation.due .session := by
  simp [finish]

theorem session_ask (now : Tick) (service : UInt8) (expectsAnswer : Bool) :
    (situation.ask now service expectsAnswer).session = situation.session := by
  unfold ask prolong
  cases expectsAnswer <;> simp only [Bool.false_eq_true, if_false, if_true] <;> split <;> rfl

/-- Whoever makes a request in a session prolongs it; the default one has no end. -/
theorem due_ask (now : Tick) (service : UInt8) (expectsAnswer : Bool) :
    (situation.ask now service expectsAnswer).due .session =
      if situation.session = defaultSession then situation.due .session
      else some (now.after situation.settings.session) := by
  have same : ∀ other : Situation, (other.prolong now).due .session =
      if other.session = defaultSession then other.due .session
      else some (now.after other.settings.session) := by
    intro other
    unfold prolong
    split
    · rfl
    · simp
  unfold ask
  rw [same]
  cases expectsAnswer with
  | false => rfl
  | true => rfl

/-- A session that the server states is entered with its timer, the default one without. -/
theorem enter_cases (now : Tick) (record : List UInt8) :
    situation.enter now record = situation ∨
      (situation.enter now record).session = defaultSession ∧
        (situation.enter now record).due .session = none ∨
      (situation.enter now record).session ≠ defaultSession ∧
        (situation.enter now record).due .session =
          some (now.after situation.settings.session) := by
  cases record with
  | nil => exact Or.inl rfl
  | cons session timing =>
    right
    unfold enter
    simp only []
    split
    · rename_i default
      exact Or.inl ⟨default, by simp⟩
    · rename_i other
      exact Or.inr ⟨other, by simp⟩

end Situation

namespace DeskMoment

variable {moment : DeskMoment ω}

theorem Course.watch (course : moment.Course)
    (watched : moment.before.client.due .session ≠ none →
      moment.before.client.session ≠ defaultSession) (timed : moment.before.client.Timed) :
    moment.Watch := by
  cases course with
  | rests same _ =>
    obtain ⟨session, due⟩ := session_of same
    exact .stays session due
  | adjusted level answer delayedAnswer situation _ =>
    obtain ⟨session, due⟩ := session_of situation
    exact .stays session due
  | @asked now service _ expectsAnswer _ _ situation _ =>
    obtain ⟨session, due⟩ := session_of situation
    rw [Situation.session_ask] at session
    rw [Situation.due_ask] at due
    by_cases default : moment.before.client.situation.session = defaultSession
    · rw [if_pos default] at due
      exact .stays session due
    · rw [if_neg default] at due
      refine .renewed (session.trans_ne default) ?_
      rw [due]
      exact Option.some_ne_none _
  | announced _ _ situation _ =>
    obtain ⟨session, due⟩ := session_of situation
    exact .stays session (due.trans (by simp [Situation.postpone]; rfl))
  | rejected _ _ _ situation _ =>
    obtain ⟨session, due⟩ := session_of situation
    exact .stays session (due.trans (Situation.due_finish _))
  | @granted now service record _ _ situation _ =>
    obtain ⟨session, due⟩ := session_of situation
    rw [Situation.due_finish] at due
    rw [Situation.session_finish] at session
    split at session
    · rename_i control
      rw [if_pos control] at due
      rcases moment.before.client.situation.enter_cases now record with
        same | ⟨default, none⟩ | ⟨other, some⟩
      · rw [same] at session due
        exact .stays session due
      · exact .ended (session.trans default) (due.trans none)
      · refine .renewed (session.trans_ne other) ?_
        rw [due, some]
        exact Option.some_ne_none _
    · rename_i other
      rw [if_neg other] at due
      exact .stays session due
  | broken _ situation _ =>
    obtain ⟨session, due⟩ := session_of situation
    exact .stays session (due.trans (Situation.due_finish _))
  | @unanswered now timer _ kind situation _ =>
    obtain ⟨session, due⟩ := session_of situation
    refine .stays session (due.trans ?_)
    rw [Situation.due_stop, if_neg (Ne.symm kind)]
    rfl
  | lapsed _ _ situation _ =>
    obtain ⟨session, due⟩ := session_of situation
    refine .ended session (due.trans ?_)
    exact Situation.due_stop moment.before.client.situation .session .session
  | @kept now keeps _ situation _ =>
    obtain ⟨session, due⟩ := session_of situation
    rw [Situation.session_ask] at session
    rw [Situation.due_ask] at due
    have other := watched (keeps.fires.pending timed)
    rw [if_neg (by exact other)] at due
    refine .renewed (session.trans_ne other) ?_
    rw [due]
    exact Option.some_ne_none _
  | dropped keeps situation _ =>
    obtain ⟨session, due⟩ := session_of situation
    refine .dropped keeps session (due.trans ?_)
    exact Situation.due_stop _ _ _

/-- The client does not get to keep its session alive. -/
def Neglects (moment : DeskMoment ω) : Prop :=
  ∃ now fault, moment.KeepsAlive now (.error fault)

/-- What becomes of a session whose time is over. -/
inductive EndsSession (moment : DeskMoment ω) (now : Tick) : Prop
  /-- The client falls back to the default session. -/
  | falls (keep : moment.before.client.settings.keepSession = false)
      (session : moment.after.client.session = defaultSession)
      (level : moment.after.client.level = 0) (due : moment.after.client.due .session = none) :
      EndsSession moment now
  /-- The server is asked to keep the session, and its time starts afresh. -/
  | keeps (keeps : moment.KeepsAlive now (.ok ()))
      (session : moment.after.client.session = moment.before.client.session)
      (due : moment.after.client.due .session =
        some (now.after moment.before.client.settings.session)) : EndsSession moment now
  /-- Neither of the two: the request to keep the session is refused. -/
  | neglects {fault : Fault} (keeps : moment.KeepsAlive now (.error fault))
      (session : moment.after.client.session = moment.before.client.session)
      (due : moment.after.client.due .session = none) : EndsSession moment now

theorem Fires.ends (timed : moment.before.client.Timed)
    (watched : moment.before.client.due .session ≠ none →
      moment.before.client.session ≠ defaultSession) {now : Tick}
    (fires : moment.Fires now .session) : moment.EndsSession now := by
  have other := watched (fires.pending timed)
  obtain ⟨_, ⟨keep, situation⟩ | ⟨keeps, _, situation⟩ | ⟨fault, keeps, situation⟩⟩ :=
    fires.session_cases timed
  · obtain ⟨session, due⟩ := session_of situation
    refine .falls keep session (congrArg Situation.level situation) (due.trans ?_)
    exact Situation.due_stop moment.before.client.situation .session .session
  · obtain ⟨session, due⟩ := session_of situation
    rw [Situation.session_ask] at session
    rw [Situation.due_ask, if_neg (by exact other)] at due
    exact .keeps keeps session due
  · obtain ⟨session, due⟩ := session_of situation
    refine .neglects keeps session (due.trans ?_)
    exact Situation.due_stop _ _ _

end DeskMoment

/-- The client did not get to keep its session alive, and its session's timer was not started
since. -/
def Abandoned (past : List (DeskMoment ω)) : Prop :=
  ∃ early moment late, past = early ++ moment :: late ∧ moment.Neglects ∧
    ∀ later ∈ late, later.after.client.due .session = none

theorem Abandoned.concat {past : List (DeskMoment ω)} (abandoned : Abandoned past)
    {moment : DeskMoment ω} (due : moment.after.client.due .session = none) :
    Abandoned (past ++ [moment]) := by
  obtain ⟨early, first, late, rfl, neglects, still⟩ := abandoned
  refine ⟨early, first, late ++ [moment], by simp, neglects, fun later member => ?_⟩
  rcases List.mem_append.mp member with before | last
  · exact still later before
  · rw [List.mem_singleton.mp last]
    exact due

/-- What holds of a client's session, given all that happened. -/
structure Desk.Watched (past : List (DeskMoment ω)) (desk : Desk ω) : Prop where
  orderly : desk.Orderly
  other : desk.client.due .session ≠ none → desk.client.session ≠ defaultSession
  watched : desk.client.session ≠ defaultSession →
    desk.client.due .session ≠ none ∨ Abandoned past

theorem Desk.Watched.step {past : List (DeskMoment ω)} {moment : DeskMoment ω}
    (watched : moment.before.Watched past) : moment.after.Watched (past ++ [moment]) := by
  obtain ⟨orderly, other, pending⟩ := watched
  obtain ⟨_, course⟩ := DeskMoment.course orderly.timed
  suffices held : (moment.after.client.due .session ≠ none →
      moment.after.client.session ≠ defaultSession) ∧
      (moment.after.client.session ≠ defaultSession →
        moment.after.client.due .session ≠ none ∨ Abandoned (past ++ [moment])) from
    ⟨DeskMoment.orderly orderly, held.1, held.2⟩
  cases course.watch other orderly.timed with
  | stays session due =>
    rw [session, due]
    refine ⟨other, fun active => ?_⟩
    by_cases armed : moment.before.client.due .session = none
    · exact Or.inr (((pending active).resolve_left (not_not.mpr armed)).concat (due.trans armed))
    · exact Or.inl armed
  | renewed session due => exact ⟨fun _ => session, fun _ => Or.inl due⟩
  | ended session due => exact ⟨fun armed => absurd due armed, fun active => absurd session active⟩
  | dropped keeps session due =>
    refine ⟨fun armed => absurd due armed, fun _ => Or.inr ?_⟩
    exact ⟨past, moment, [], rfl, ⟨_, _, keeps⟩, by simp⟩

/-- A new client is in the default session. -/
theorem Desk.attach_watched {settings : ClientSettings} {listener : Listener} {stack : Stack ω}
    {desk : Desk ω} (sound : stack.Sound) (quiet : stack.confirmations = [])
    (attached : Desk.attach settings listener stack = .ok desk) : desk.Watched [] := by
  obtain ⟨connection, client, _⟩ := Desk.attach_eq sound attached
  have default : desk.client.session = defaultSession := by rw [client]
  refine ⟨Desk.attach_orderly sound quiet attached, fun armed => ?_, fun active => ?_⟩
  · exact absurd ((Desk.attach_timed sound attached).2 .session) armed
  · exact absurd default active

/-- How the session of a client and its timer go together, given all that happened. -/
structure Client.Supervised (client : Client) (past : List (DeskMoment ω)) : Prop where
  once : client.timers.events.count .session ≤ 1
  other : client.timers.events.count .session = 1 → client.session ≠ defaultSession
  /-- Only a session that the client did not get to keep alive has no timer. -/
  watched : client.session ≠ defaultSession →
    client.timers.events.count .session = 1 ∨ Abandoned past
  iff : (∀ moment ∈ past, ¬moment.Neglects) →
    (client.session ≠ defaultSession ↔ client.timers.events.count .session = 1)

theorem Desk.Watched.supervised {past : List (DeskMoment ω)} {desk : Desk ω}
    (watched : desk.Watched past) : desk.client.Supervised past := by
  obtain ⟨orderly, other, pending⟩ := watched
  have once := List.nodup_iff_count_le_one.mp orderly.timed.single.once .session
  have armed : desk.client.due .session ≠ none ↔
      desk.client.timers.events.count .session = 1 := by
    rw [Client.due, ne_eq, TimerQueue.deadline?_eq_none, not_not, ← List.count_pos_iff]
    omega
  rw [armed] at other pending
  refine ⟨once, other, pending, fun kept => ⟨fun active => ?_, other⟩⟩
  refine (pending active).resolve_right ?_
  rintro ⟨early, moment, late, rfl, neglects, _⟩
  exact kept moment (by simp) neglects

/-- A session other than the default one has a timer, which is the only one of its kind, unless the
client did not get to keep the session alive; then the session stays without an end. When the time
of a session is over the client falls back to the default session or, if it is to keep the session
and gets to ask the server for that, starts the time afresh. -/
theorem sessions_are_supervised {settings : Settings} {world : ω} {fresh : Stack ω}
    {earlier : List (Call ω)} {options : ClientSettings} {listener : Listener} {desk : Desk ω}
    (made : Stack.new settings world = .ok fresh)
    (attached : Desk.attach options listener (fresh.calls earlier) = .ok desk)
    (calls : List (DeskCall ω)) :
    (desk.calls calls).client.Supervised (desk.history calls) ∧
      ∀ past moment rest, desk.history calls = past ++ moment :: rest →
        moment.before.client.Supervised past ∧
          ∀ now, moment.Fires now .session → moment.EndsSession now := by
  obtain ⟨sound, quiet⟩ := Stack.calls_sound made earlier
  obtain ⟨final, during⟩ : (desk.calls calls).Watched (desk.history calls) ∧
      ∀ past moment rest, desk.history calls = past ++ moment :: rest →
        moment.before.Watched past :=
    Desk.reach (Desk.attach_watched sound quiet attached) fun _ _ => Desk.Watched.step
  refine ⟨final.supervised, fun past moment rest whole => ?_⟩
  have before := during past moment rest whole
  exact ⟨before.supervised, fun now fires => fires.ends before.orderly.timed before.other⟩

/-- The client is to keep its sessions alive, each time after 100 ms. -/
def sampleKeeper : Desk Unit :=
  { sampleDesk with client := { sampleDesk.client with
      settings := { session := 100, keepSession := true } } }

/-- A session is entered; then a request is made whose answer the server delays beyond the time of
the session. -/
def sampleNeglect : List (DeskCall Unit) :=
  [.deed (.startSession 0 sampleAddress 3),
    .deed (.call (.input 0 ⟨0⟩ (sampleAnswer [0x50, 3]))), .process 0,
    .deed (.request 0 (.reset 1)),
    .deed (.call (.input 0 ⟨0⟩ (sampleAnswer [0x7F, 0x11, 0x78]))), .process 0, .process 100,
    .deed (.call (.input 100 ⟨0⟩ (sampleAnswer [0x51, 1]))), .process 1000000]

/-- The session is watched until its time is over. -/
theorem sample_sessions_are_supervised :
    Stack.new {} () = .ok sampleStack ∧
      Desk.attach { session := 100, keepSession := true } (.client 0)
        (sampleStack.calls [.addInterface .obliging]) = .ok sampleKeeper ∧
      (sampleKeeper.calls (sampleNeglect.take 6)).client.Supervised
        (sampleKeeper.history (sampleNeglect.take 6)) ∧
      (sampleKeeper.calls (sampleNeglect.take 6)).client.session = 3 ∧
      (sampleKeeper.calls (sampleNeglect.take 6)).client.timers.events.count .session = 1 := by
  have made : Stack.new {} () = .ok sampleStack := rfl
  have attached : Desk.attach { session := 100, keepSession := true } (.client 0)
      (sampleStack.calls [.addInterface .obliging]) = .ok sampleKeeper := rfl
  obtain ⟨final, _⟩ := sessions_are_supervised made attached (sampleNeglect.take 6)
  exact ⟨made, attached, final, by decide +kernel, by decide +kernel⟩

/-- A session without an end: the server was not asked to keep it, and the client did not fall back
to the default one either. -/
theorem session_outlives_its_time :
    Stack.new {} () = .ok sampleStack ∧
      Desk.attach { session := 100, keepSession := true } (.client 0)
        (sampleStack.calls [.addInterface .obliging]) = .ok sampleKeeper ∧
      ¬((sampleKeeper.calls sampleNeglect).client.session ≠ defaultSession ↔
        (sampleKeeper.calls sampleNeglect).client.timers.events.count .session = 1) := by
  have session : (sampleKeeper.calls sampleNeglect).client.session = 3 := by decide +kernel
  have timers : (sampleKeeper.calls sampleNeglect).client.timers.events = [] := by decide +kernel
  refine ⟨rfl, rfl, ?_⟩
  rw [session, timers]
  decide

end DiagBus
