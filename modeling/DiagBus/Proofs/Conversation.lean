import DiagBus.Proofs.Line
import DiagBus.Proofs.Watching

namespace DiagBus

inductive Side
  | left
  | right
  deriving DecidableEq

def Side.other : Side → Side
  | .left => .right
  | .right => .left

/-- What can happen at the ends of the line. -/
inductive Act
  /-- A terminal is asked to send its message. -/
  | send (side : Side) (now : Tick)
  /-- A terminal polls its port and handles the alarms that are due. -/
  | process (side : Side) (now : Tick)
  /-- The line takes the first frame that is to go out at this end, and it comes in at the other. -/
  | carry (side : Side)

/-- The stacks at both ends of the line. -/
abbrev Ends := Side → Stack Port

/-- What is called at one end when something happens. -/
def Act.calls (terminals : Side → Terminal) (ends : Ends) (act : Act) (side : Side) :
    List (Call Port) :=
  match act with
  | .send one now =>
    if side = one then [.send now Terminal.handle (terminals side).message] else []
  | .process one now => if side = one then [.process now] else []
  | .carry one =>
    match (ends one).outside.world.outbox with
    | [] => []
    | frame :: rest =>
      if side = one then [.world fun port => { port with outbox := rest }]
      else [.world fun port => { port with inbox := port.inbox ++ [frame] }]

def Act.run (terminals : Side → Terminal) (act : Act) (ends : Ends) : Ends :=
  fun side => (ends side).calls (act.calls terminals ends side)

/-- Both ends after all this has happened. -/
def Ends.after (terminals : Side → Terminal) (ends : Ends) (acts : List Act) : Ends :=
  acts.foldl (fun ends act => act.run terminals ends) ends

/-- Whether a terminal is asked to send. -/
def Act.sends (side : Side) : Act → Bool
  | .send one _ => one = side
  | _ => false

/-- No alarm goes off that ends a transfer. -/
def Act.Punctual (ends : Ends) : Act → Prop
  | .process side now => ∀ moment ∈ (ends side).history [.process now], moment.timesOut = false
  | _ => True

/-- All the time no alarm goes off that ends a transfer. -/
def Ends.Punctual (terminals : Side → Terminal) (ends : Ends) : List Act → Prop
  | [] => True
  | act :: rest => act.Punctual ends ∧ Ends.Punctual terminals (act.run terminals ends) rest

/-- The calls that put a terminal into operation. -/
def Terminal.opening (terminal : Terminal) : List (Call Port) :=
  [.addInterface (Port.interface terminal.capable), .openConnection,
    .bind Terminal.handle terminal.address,
    .listen Terminal.handle (some terminal.onReceived) (some terminal.onSent) (some terminal.onFailed)]

/-- The connection of a terminal that has not sent or received anything. -/
def Terminal.idle (terminal : Terminal) : Connection where
  address := some terminal.address
  onReceived := some terminal.onReceived
  onSent := some terminal.onSent
  onFailed := some terminal.onFailed

theorem Registry.add_first {ω : Type} (capacity : Nat) (interface : Interface ω) :
    (Registry.ofCapacity (capacity + 1)).add interface = .ok (⟨0⟩,
      { places := some interface :: List.replicate capacity none }) := by
  simp [Registry.add, Registry.ofCapacity, List.replicate_succ, List.findIdx?_cons]

theorem Registry.indexes_first {ω : Type} (capacity : Nat) (interface : Interface ω) :
    Registry.indexes { places := some interface :: List.replicate capacity none } = [⟨0⟩] := by
  have others : ((List.replicate capacity (none : Option (Interface ω))).zipIdx 1).filterMap
      (fun entry : Option (Interface ω) × Nat => if h : entry.2 < 255 then
        if entry.1.isSome then some (InterfaceIndex.mk ⟨entry.2, h⟩) else none
      else none) = [] := by
    refine List.filterMap_eq_nil_iff.mpr fun entry member => ?_
    have empty : entry.1 = none := List.eq_of_mem_replicate (List.fst_mem_of_mem_zipIdx member)
    rw [empty]
    simp
  unfold Registry.indexes
  rw [List.zipIdx_cons, List.filterMap_cons]
  simp only [Nat.zero_add]
  rw [others]
  rfl

/-- A table whose first slot alone is in use. -/
def Slots.onlyFirst {α : Type} (capacity : Nat) (value : α) : Slots α where
  slots := { value := some value } :: List.replicate capacity {}
  used := 1

theorem Slots.insert_first {α : Type} (capacity : Nat) (value : α) :
    (Slots.ofCapacity (capacity + 1)).insert value =
      some (⟨0, 0⟩, .onlyFirst capacity value) := by
  simp [Slots.insert, Slots.ofCapacity, Slots.onlyFirst, List.replicate_succ, List.findIdx?_cons,
    handleAt]

theorem Stack.new_interfaces {ω : Type} {settings : Settings} {world : ω} {stack : Stack ω}
    (run : Stack.new settings world = .ok stack) : 0 < settings.interfaces := by
  unfold Stack.new Settings.validate at run
  split at run
  · cases run
  · rename_i some
    omega

/-- The stack of a terminal at which nothing has happened yet. -/
def Terminal.atRest (terminal : Terminal) (registry : Registry Port) (connections : Slots Connection) :
    Stack Port where
  settings := terminal.settings
  registry
  connections
  memory := { capacity := terminal.settings.memory }
  alarms := .ofCapacity terminal.settings.timers
  raw := .ofCapacity terminal.settings.subscriptions
  outside := { world := {} }

theorem Terminal.calls_opening {terminal : Terminal} {fresh : Stack Port}
    (made : Stack.new terminal.settings {} = .ok fresh)
    (flexible : terminal.flexible = true → terminal.capable = true) :
    ∃ places slots, slots < 0xFFFF ∧ fresh.calls terminal.opening = terminal.atRest
      { places := some (Port.interface terminal.capable) :: List.replicate places none }
      (.onlyFirst slots terminal.idle) := by
  have interfaces := Stack.new_interfaces made
  obtain ⟨connections, numbered, _, rfl⟩ := Stack.new_eq made
  obtain ⟨places, same⟩ : ∃ places, terminal.settings.interfaces = places + 1 :=
    ⟨terminal.settings.interfaces - 1, by omega⟩
  obtain ⟨slots, same_slots⟩ : ∃ slots, terminal.settings.connections = slots + 1 :=
    ⟨terminal.settings.connections - 1, by omega⟩
  let registry : Registry Port :=
    { places := some (Port.interface terminal.capable) :: List.replicate places none }
  have added : (Call.addInterface (Port.interface terminal.capable)).run
      (terminal.atRest (.ofCapacity terminal.settings.interfaces)
        (.ofCapacity terminal.settings.connections)) =
      terminal.atRest registry (.ofCapacity terminal.settings.connections) := by
    simp only [Call.run, Stack.addInterface, Terminal.atRest, same, Registry.add_first]
    rfl
  have opened : Call.openConnection.run
      (terminal.atRest registry (.ofCapacity terminal.settings.connections)) =
      terminal.atRest registry (.onlyFirst slots {}) := by
    simp only [Call.run, Stack.openConnection, Terminal.atRest, same_slots, Slots.insert_first]
    rfl
  have bound : (Call.bind Terminal.handle terminal.address).run
      (terminal.atRest registry (.onlyFirst slots {})) =
      terminal.atRest registry (.onlyFirst slots { address := some terminal.address }) := by
    have able : (terminal.flexible && true && !terminal.capable) = false := by
      cases asked : terminal.flexible with
      | false => rfl
      | true => simp [flexible asked]
    have begun : (terminal.atRest registry (.onlyFirst slots {})).bind Terminal.handle terminal.address =
        if (terminal.flexible && true && !terminal.capable) = true then .error .argument
        else .ok (terminal.atRest registry (.onlyFirst slots { address := some terminal.address })) := rfl
    show Stack.orStay _ (Stack.bind _ _ _) = _
    rw [begun, able]
    rfl
  have listened : (Call.listen Terminal.handle (some terminal.onReceived) (some terminal.onSent)
      (some terminal.onFailed)).run
        (terminal.atRest registry (.onlyFirst slots { address := some terminal.address })) =
      terminal.atRest registry (.onlyFirst slots terminal.idle) := by
    rfl
  refine ⟨places, slots, by omega, ?_⟩
  show (Call.listen Terminal.handle (some terminal.onReceived) (some terminal.onSent)
    (some terminal.onFailed)).run ((Call.bind Terminal.handle terminal.address).run
      (Call.openConnection.run ((Call.addInterface (Port.interface terminal.capable)).run
        (terminal.atRest (.ofCapacity terminal.settings.interfaces)
          (.ofCapacity terminal.settings.connections))))) = _
  rw [added, opened, bound, listened]

/-- A terminal that was put into operation has one connection, which is at rest. -/
theorem Terminal.opens {terminal : Terminal} {fresh : Stack Port}
    (made : Stack.new terminal.settings {} = .ok fresh)
    (flexible : terminal.flexible = true → terminal.capable = true) :
    terminal.Runs (fresh.calls terminal.opening) terminal.idle ∧
      (fresh.calls terminal.opening).outside = { world := {} } := by
  have smooth := Stack.new_smooth made terminal.opening
  have sound := smooth.sound
  have quiet := smooth.quiet
  rw [← Stack.calls_eq] at sound quiet
  obtain ⟨places, slots, numbered, explicit⟩ := Terminal.calls_opening made flexible
  rw [explicit] at sound quiet ⊢
  refine ⟨⟨sound, rfl, rfl, Registry.indexes_first _ _, rfl, rfl, ?_, rfl, rfl, rfl, rfl, rfl, rfl, ?_⟩,
    rfl⟩
  · intro handle found here
    have insertion := Slots.insert_first slots terminal.idle
    have table : (Slots.ofCapacity (slots + 1) : Slots Connection).WellFormed :=
      Slots.ofCapacity_wellFormed (by omega)
    have place := Slots.get?_insert table insertion handle
    by_contra other
    have apart : ¬handle = ⟨0, 0⟩ := other
    rw [if_neg apart, Slots.get?_ofCapacity] at place
    exact absurd (place.symm.trans here) (by simp)
  · intro direction unconfirmed
    cases direction <;> cases unconfirmed

/-- Both terminals run, nothing is left noted, and the message of each is where it should be. -/
structure Joined (terminals : Side → Terminal) (asked : Side → Bool) (ends : Ends) : Prop where
  line : ∀ side, ∃ near far, Line (terminals side) (terminals side.other) (asked side)
    (asked side.other) (ends side) (ends side.other) near far
  quiet : ∀ side, (ends side).confirmations = []

section

variable {terminals : Side → Terminal} {asked : Side → Bool} {ends : Ends}

theorem Side.eq_or_other (side any : Side) : any = side ∨ any = side.other := by
  cases side <;> cases any <;> simp [Side.other]

theorem Side.other_ne (side : Side) : side.other ≠ side := by
  cases side <;> simp [Side.other]

@[simp] theorem Side.other_other (side : Side) : side.other.other = side := by
  cases side <;> rfl

/-- What is known at one end of the line is known at both. -/
theorem Joined.of_side (side : Side)
    (line : ∃ near far, Line (terminals side) (terminals side.other) (asked side)
      (asked side.other) (ends side) (ends side.other) near far)
    (quiet : (ends side).confirmations = []) (peerQuiet : (ends side.other).confirmations = []) :
    Joined terminals asked ends := by
  obtain ⟨near, far, line⟩ := line
  refine ⟨fun any => ?_, fun any => ?_⟩
  · rcases side.eq_or_other any with rfl | rfl
    · exact ⟨near, far, line⟩
    · have swapped := line.swap
      exact ⟨far, near, by rw [Side.other_other]; exact swapped⟩
  · rcases side.eq_or_other any with rfl | rfl
    · exact quiet
    · exact peerQuiet

theorem Act.run_other {act : Act} {side : Side} (none : act.calls terminals ends side = []) :
    act.run terminals ends side = ends side := by
  unfold Act.run
  rw [none]
  rfl

theorem Act.run_call {act : Act} {side : Side} {call : Call Port}
    (one : act.calls terminals ends side = [call]) :
    act.run terminals ends side = call.run (ends side) := by
  unfold Act.run
  rw [one]
  rfl

theorem Act.carry_nil {side : Side} (outbox : (ends side).outside.world.outbox = []) :
    (Act.carry side).run terminals ends = ends := by
  refine funext fun any => Act.run_other ?_
  simp only [Act.calls, outbox]

theorem Act.carry_cons (terminals : Side → Terminal) {side : Side} {frame : Frame}
    {rest : List Frame} (outbox : (ends side).outside.world.outbox = frame :: rest) :
    (Act.carry side).run terminals ends side =
        (Call.world fun port : Port => { port with outbox := rest }).run (ends side) ∧
      (Act.carry side).run terminals ends side.other =
        (Call.world fun port : Port => { port with inbox := port.inbox ++ [frame] }).run
          (ends side.other) := by
  refine ⟨Act.run_call ?_, Act.run_call ?_⟩
  · simp only [Act.calls, outbox, if_true]
  · simp only [Act.calls, outbox, if_neg side.other_ne]

/-- Whatever happens, the messages stay on their way. -/
theorem Joined.act (joined : Joined terminals asked ends)
    (faces : ∀ side, (terminals side).Faces (terminals side.other)) (act : Act)
    (once : ∀ side, act.sends side = true → asked side = false) (punctual : act.Punctual ends) :
    Joined terminals (fun side => asked side || act.sends side) (act.run terminals ends) := by
  have facing (side : Side) : (terminals side.other).Faces (terminals side) := by
    have back := faces side.other
    rw [Side.other_other] at back
    exact back
  cases act with
  | send side now =>
    obtain ⟨near, far, line⟩ := joined.line side
    have own : (Act.send side now).run terminals ends side = _ := Act.run_call (if_pos rfl)
    have other : (Act.send side now).run terminals ends side.other = ends side.other :=
      Act.run_other (if_neg side.other_ne)
    have first : asked side = false := once side (decide_eq_true rfl)
    have now_asked : (asked side || (Act.send side now).sends side) = true := by
      simp [Act.sends]
    have still : (asked side.other || (Act.send side now).sends side.other) = asked side.other := by
      simp [Act.sends, side.other_ne.symm]
    rw [first] at line
    obtain ⟨⟨changed, sent⟩, quiet⟩ := line.send (faces side) (facing side) (joined.quiet side)
      (joined.quiet side.other) now
    refine Joined.of_side side ⟨changed, far, ?_⟩ ?_ ?_
    · rw [own, other, now_asked, still]
      exact sent
    · rw [own]
      exact quiet
    · rw [other]
      exact joined.quiet side.other
  | process side now =>
    obtain ⟨near, far, line⟩ := joined.line side
    have own : (Act.process side now).run terminals ends side = _ := Act.run_call (if_pos rfl)
    have other : (Act.process side now).run terminals ends side.other = ends side.other :=
      Act.run_other (if_neg side.other_ne)
    obtain ⟨⟨changed, handled⟩, quiet⟩ := line.process (faces side) (facing side)
      (joined.quiet side) (joined.quiet side.other) punctual
    refine Joined.of_side side ⟨changed, far, ?_⟩ ?_ ?_
    · rw [own, other]
      simp only [Act.sends, Bool.or_false]
      exact handled
    · rw [own]
      exact quiet
    · rw [other]
      exact joined.quiet side.other
  | carry side =>
    obtain ⟨near, far, line⟩ := joined.line side
    simp only [Act.sends, Bool.or_false]
    cases outbox : (ends side).outside.world.outbox with
    | nil =>
      rw [Act.carry_nil outbox]
      exact joined
    | cons frame rest =>
      obtain ⟨own, other⟩ := Act.carry_cons terminals outbox
      refine Joined.of_side side ⟨near, far, ?_⟩ ?_ ?_
      · rw [own, other]
        exact line.carry (joined.quiet side) (joined.quiet side.other) outbox
      · rw [own]
        exact joined.quiet side
      · rw [other]
        exact joined.quiet side.other

theorem Joined.after (joined : Joined terminals asked ends)
    (faces : ∀ side, (terminals side).Faces (terminals side.other)) (acts : List Act)
    (once : ∀ side, (asked side).toNat + acts.countP (Act.sends side) ≤ 1)
    (punctual : ends.Punctual terminals acts) :
    Joined terminals (fun side => asked side || acts.any (Act.sends side))
      (ends.after terminals acts) := by
  induction acts generalizing asked ends with
  | nil =>
    simp only [List.any_nil, Bool.or_false]
    exact joined
  | cons act rest ih =>
    obtain ⟨first, later⟩ := punctual
    have fresh (side : Side) (sends : act.sends side = true) : asked side = false := by
      have count := once side
      rw [List.countP_cons_of_pos sends] at count
      cases earlier : asked side with
      | false => rfl
      | true =>
        rw [earlier] at count
        simp at count
    have next := joined.act faces act fresh first
    have remaining (side : Side) :
        (asked side || act.sends side).toNat + rest.countP (Act.sends side) ≤ 1 := by
      have count := once side
      cases sends : act.sends side with
      | false =>
        rw [List.countP_cons_of_neg (by simp [sends])] at count
        rw [Bool.or_false]
        exact count
      | true =>
        rw [List.countP_cons_of_pos sends] at count
        rw [Bool.or_true]
        simp only [Bool.toNat_true]
        omega
    have all := ih next remaining later
    simp only [List.any_cons, ← Bool.or_assoc]
    exact all

/-- Whatever happens, each stack has only been called. -/
theorem Ends.after_calls (ends : Ends) (terminals : Side → Terminal) (acts : List Act) (side : Side) :
    ∃ calls, ends.after terminals acts side = (ends side).calls calls := by
  induction acts generalizing ends with
  | nil => exact ⟨[], rfl⟩
  | cons act rest ih =>
    obtain ⟨calls, same⟩ := ih (act.run terminals ends)
    refine ⟨act.calls terminals ends side ++ calls, ?_⟩
    unfold Stack.calls
    rw [List.foldl_append]
    exact same

/-- With nothing on the line and no sender in the middle of a block, all that was sent has come in. -/
theorem Joined.arrives (joined : Joined terminals asked ends)
    (empty : ∀ side, wire (ends side) (ends side.other) = [])
    (moving : ∀ side connection, (ends side).connections.get? Terminal.handle = some connection →
      connection.output.unconfirmed = false → connection.output.phase ≠ .consecutiveOut)
    (side : Side) : ∃ near, (terminals side).Runs (ends side) near ∧
      near.output = {} ∧ near.input = {} ∧
      (ends side).sentNews = (if asked side then [(terminals side).sentNews] else []) ∧
      (ends side).receivedNews =
        if asked side.other then [(terminals side).receivedNews (terminals side.other)] else [] := by
  obtain ⟨near, far, line⟩ := joined.line side
  have away := empty side
  have home := empty side.other
  rw [Side.other_other] at home
  have confirmed := (line.quiet_flows (joined.quiet side)).1
  have peerConfirmed := (line.swap.quiet_flows (joined.quiet side.other)).1
  have nearMoving := moving side near line.runs.live confirmed
  have farMoving := moving side.other far line.peerRuns.live peerConfirmed
  obtain ⟨output, _, told, _⟩ :=
    line.forth.ends (congrArg units away) (congrArg invitations home) nearMoving
  obtain ⟨_, input, _, got⟩ :=
    line.back.ends (congrArg units home) (congrArg invitations away) farMoving
  exact ⟨near, line.runs, output, input, told, got⟩

end

/-- Both terminals in operation, before anything has happened. -/
def Ends.opened (terminals : Side → Terminal) (fresh : Ends) : Ends :=
  fun side => (fresh side).calls (terminals side).opening

theorem Ends.opened_joined {terminals : Side → Terminal} {fresh : Ends}
    (made : ∀ side, Stack.new (terminals side).settings {} = .ok (fresh side))
    (faces : ∀ side, (terminals side).Faces (terminals side.other)) :
    Joined terminals (fun _ => false) (.opened terminals fresh) := by
  have opens (side : Side) := Terminal.opens (made side) (faces side).flexible
  have outside (side : Side) : (Ends.opened terminals fresh side).outside = { world := {} } :=
    (opens side).2
  have silent (side : Side) : (Ends.opened terminals fresh side).failures = [] := by
    unfold Stack.failures
    rw [outside]
    rfl
  refine ⟨fun side => ⟨_, _, (opens side).1, (opens side.other).1, silent side, silent side.other,
    ?_, ?_⟩, fun side => ?_⟩
  · unfold wire Stack.sentNews Stack.receivedNews
    rw [outside, outside]
    exact .fresh
  · unfold wire Stack.sentNews Stack.receivedNews
    rw [outside, outside]
    exact .fresh
  · have quiet := (Stack.new_smooth (made side) (terminals side).opening).quiet
    rw [← Stack.calls_eq] at quiet
    exact quiet

/-- Two terminals that face each other are put into operation, and each is asked at most once to
send its message, whenever and in whatever order frames are carried, ports are polled and alarms
are handled. As long as no alarm ends a transfer, nothing fails, and each terminal is told of its
peer's message and of nothing else. Whenever the line is empty and no sender pauses, each message
that was to be sent has arrived just once, its sender has been told so, and both terminals are at
rest, with all memory and all timers free. -/
theorem messages_are_exchanged {terminals : Side → Terminal} {fresh : Ends}
    (made : ∀ side, Stack.new (terminals side).settings {} = .ok (fresh side))
    (enough : ∀ side,
      2 * (terminals side).settings.connections ≤ (terminals side).settings.timers)
    (faces : ∀ side, (terminals side).Faces (terminals side.other)) (acts : List Act)
    (once : ∀ side, acts.countP (Act.sends side) ≤ 1)
    (punctual : (Ends.opened terminals fresh).Punctual terminals acts) :
    (∀ side, ((Ends.opened terminals fresh).after terminals acts side).failures = [] ∧
      (((Ends.opened terminals fresh).after terminals acts side).receivedNews = [] ∨
        ((Ends.opened terminals fresh).after terminals acts side).receivedNews =
          [(terminals side).receivedNews (terminals side.other)])) ∧
    ((∀ side, wire ((Ends.opened terminals fresh).after terminals acts side)
        ((Ends.opened terminals fresh).after terminals acts side.other) = []) →
      (∀ side, ∀ entry ∈ ((Ends.opened terminals fresh).after terminals acts side).alarms.pending,
        entry.1 ≠ .separation Terminal.handle) →
      ∀ side, ((Ends.opened terminals fresh).after terminals acts side).sentNews =
          (if acts.any (Act.sends side) then [(terminals side).sentNews] else []) ∧
        ((Ends.opened terminals fresh).after terminals acts side).receivedNews =
          (if acts.any (Act.sends side.other) then
            [(terminals side).receivedNews (terminals side.other)] else []) ∧
        ((Ends.opened terminals fresh).after terminals acts side).phases Terminal.handle =
          .ok (.idle, .idle) ∧
        ((Ends.opened terminals fresh).after terminals acts side).memory.used = 0 ∧
        ((Ends.opened terminals fresh).after terminals acts side).alarms.pending = []) := by
  have start := Ends.opened_joined made faces
  have joined := start.after faces acts (fun side => by simpa using once side) punctual
  simp only [Bool.false_or] at joined
  generalize reached : (Ends.opened terminals fresh).after terminals acts = ends at joined ⊢
  have watched (side : Side) : ∃ past, (ends side).Watched past := by
    obtain ⟨calls, same⟩ :=
      (Ends.opened terminals fresh).after_calls terminals acts side
    have all := (Stack.calls_watched (made side) (enough side)
      ((terminals side).opening ++ calls)).2
    unfold Stack.calls at all
    rw [List.foldl_append] at all
    rw [← reached, same]
    exact ⟨_, all⟩
  refine ⟨fun side => ?_, fun empty unpaused side => ?_⟩
  · obtain ⟨near, far, line⟩ := joined.line side
    exact ⟨line.silent, line.back.news.2⟩
  · have moving (side : Side) (connection : Connection)
        (live : (ends side).connections.get? Terminal.handle = some connection)
        (confirmed : connection.output.unconfirmed = false) :
        connection.output.phase ≠ .consecutiveOut := by
      intro phase
      obtain ⟨_, watched⟩ := watched side
      obtain ⟨deadline, pending⟩ := watched.pauses (joined.quiet side) live confirmed phase
      exact unpaused side _ pending rfl
    obtain ⟨near, runs, output, input, told, got⟩ := joined.arrives empty moving side
    refine ⟨told, got, ?_, ?_, ?_⟩
    · unfold Stack.phases
      rw [runs.live]
      simp only [output, input]
    · rw [runs.used, output, input]
      rfl
    · obtain ⟨_, watched⟩ := watched side
      refine watched.pending_nil fun handle connection live direction => ?_
      obtain rfl := runs.only handle connection live
      rw [runs.live] at live
      cases live
      cases direction with
      | output =>
        show near.output.isIdle = true
        rw [output]
        rfl
      | input =>
        show near.input.isIdle = true
        rw [input]
        rfl

/-- Two terminals that face each other: the message of the left one takes two frames. -/
def sampleTerminals : Side → Terminal
  | .left => {
      settings := {}
      transmits := .standard 0x7E0
      receives := .standard 0x7E8
      flexible := false
      capable := false
      onReceived := .application 0
      onSent := .application 1
      onFailed := .application 2
      message := [1, 2, 3, 4, 5, 6, 7, 8] }
  | .right => {
      settings := { blockSize := 1, padding := 0xCC }
      transmits := .standard 0x7E8
      receives := .standard 0x7E0
      flexible := false
      capable := false
      onReceived := .application 0
      onSent := .application 1
      onFailed := .application 2
      message := [9] }

/-- The stacks of both before anything has happened. -/
def sampleFresh (side : Side) : Stack Port where
  settings := (sampleTerminals side).settings
  registry := .ofCapacity 2
  connections := .ofCapacity 2
  memory := { capacity := 4096 }
  alarms := .ofCapacity 10
  raw := .ofCapacity 2
  outside := { world := {} }

/-- Both terminals send, and every frame is carried and taken in. -/
def sampleActs : List Act :=
  [.send .left 0, .carry .left, .process .right 1, .send .right 2, .carry .right, .process .left 3,
    .carry .left, .carry .right, .process .right 4, .process .left 5]

/-- The left terminal has got the byte of the right one, and the right one both frames of the left
one, put together. -/
theorem sample_messages_are_exchanged :
    (∀ side, sampleActs.countP (Act.sends side) ≤ 1) ∧
      (Ends.opened sampleTerminals sampleFresh).Punctual sampleTerminals sampleActs ∧
      ((Ends.opened sampleTerminals sampleFresh).after sampleTerminals sampleActs .left).receivedNews =
        [.received (.application 0) Terminal.handle [9]] ∧
      ((Ends.opened sampleTerminals sampleFresh).after sampleTerminals sampleActs .right).receivedNews =
        [.received (.application 0) Terminal.handle [1, 2, 3, 4, 5, 6, 7, 8]] := by
  have made (side : Side) :
      Stack.new (sampleTerminals side).settings {} = .ok (sampleFresh side) := by
    cases side <;> rfl
  have enough (side : Side) : 2 * (sampleTerminals side).settings.connections ≤
      (sampleTerminals side).settings.timers := by
    cases side <;> decide
  have faces (side : Side) : (sampleTerminals side).Faces (sampleTerminals side.other) := by
    cases side <;> exact ⟨⟨by decide, by decide⟩, by decide, by decide, by decide⟩
  have once (side : Side) : sampleActs.countP (Act.sends side) ≤ 1 := by
    cases side <;> decide
  have punctual : (Ends.opened sampleTerminals sampleFresh).Punctual sampleTerminals sampleActs := by
    refine ⟨trivial, trivial, ?_, trivial, trivial, ?_, trivial, trivial, ?_, ?_, trivial⟩ <;>
      exact List.forall_iff_forall_mem.mp (by decide +kernel)
  have empty (side : Side) :
      wire ((Ends.opened sampleTerminals sampleFresh).after sampleTerminals sampleActs side)
        ((Ends.opened sampleTerminals sampleFresh).after sampleTerminals sampleActs side.other) = [] := by
    cases side <;> rfl
  have unpaused (side : Side) : ∀ entry ∈
      ((Ends.opened sampleTerminals sampleFresh).after sampleTerminals sampleActs side).alarms.pending,
        entry.1 ≠ .separation Terminal.handle := by
    cases side <;> decide +kernel
  have arrived := (messages_are_exchanged made enough faces sampleActs once punctual).2 empty unpaused
  exact ⟨once, punctual, (arrived .left).2.1, (arrived .right).2.1⟩

end DiagBus
