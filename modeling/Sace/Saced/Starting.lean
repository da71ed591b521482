import Sace.Event.Single

/-! Of the three requests that SaceEvent can make of the service executor, START, STOP and
INFO, a run of the daemon only ever sees the first. -/
namespace Sace

def SaceEvent.Has (e : SaceEvent) (cmd : SaceCommand) : Prop :=
  ∃ service ∈ e.services, service.cmd = cmd

def Effect.Asked (e : SaceEvent) (own : SaceCommand → Prop) : Effect → Prop
  | .post (.message msg) => msg.msgWriter.piped = true →
      ∃ cmd, own cmd ∧ msg = e.eventMsg (serviceCommand cmd)
  | .post .stopMsg => False
  | _ => True

namespace SaceEvent

def Owns (e : SaceEvent) (saceCmd : SaceCommand) (env : EventEnv) (cmd : SaceCommand) : Prop :=
  e.Has cmd ∨ cmd = saceCmd ∧ e.StartsAtOnce saceCmd env

section
variable {e : SaceEvent} {own : SaceCommand → Prop}

theorem startEvent_asked (known : ∀ cmd, e.Has cmd → own cmd) (id : Nat) :
    Traced.Every (Effect.Asked e own) (e.startEvent id) := by
  rw [startEvent, Traced.every_bind]
  refine ⟨service_every e id, fun service found => ?_⟩
  have held : e.Has service.cmd := ⟨service, List.mem_of_getElem? (service_ok.mp found), rfl⟩
  rw [Traced.every_bind, cloneServiceCommand, Traced.every_bind]
  refine ⟨⟨memcpy_every trivial, fun _ _ => Traced.every_pure _⟩, fun msgCmd cloned => ?_⟩
  obtain ⟨_, _, done⟩ := Traced.bind_ok.mp cloned
  cases done
  exact ((Traced.every_emit _).mpr fun _ => ⟨_, known _ held, rfl⟩).then_pure _

theorem has_polled {properties : Str → Str} {id : Nat} {service : EventService}
    (held : e.services[id]? = some service) {cmd : SaceCommand}
    (has : (e.polled properties id service).Has cmd) : e.Has cmd := by
  obtain ⟨after, member, same⟩ := has
  rcases List.mem_or_eq_of_mem_set member with old | rfl
  · exact ⟨after, old, same⟩
  · exact ⟨service, List.mem_of_getElem? held, same⟩

theorem pollEvent_asked (known : ∀ cmd, e.Has cmd → own cmd) (properties : Str → Str) (id : Nat) :
    Traced.Every (Effect.Asked e own) (e.pollEvent properties id) := by
  cases held : e.services[id]? with
  | none =>
    rw [pollEvent_dangling held]
    exact Traced.every_fault _
  | some service =>
    rw [pollEvent_held held]
    split
    · exact startEvent_asked (e := e.polled properties id service)
        (fun cmd has => known cmd (has_polled held has)) id
    · exact Traced.every_pure _

theorem handleResult_asked (known : ∀ cmd, e.Has cmd → own cmd) {result : SaceResult}
    (plain : result.resultType ≠ .label) :
    Traced.Every (Effect.Asked e own) (e.handleResult result) := by
  rcases handleResult_plain (e := e) plain with passed | ⟨_, id, again⟩
  · rw [passed]
    exact passResult_every fun _ => trivial
  · rw [again]
    exact startEvent_asked known id

/-- With nothing running a DEL has nothing to stop, and an INFO is not forwarded. -/
theorem request_silent {P : Effect → Prop} (silent : e.runningEvents = ∅) {saceCmd : SaceCommand}
    {writer : SaceWriter} {env : EventEnv} (copy : ∀ size capacity, P (.copy size capacity))
    (start : e.StartsAtOnce saceCmd env →
      P (.post (.message (e.eventMsg (serviceCommand saceCmd))))) :
    Traced.Every P (e.request saceCmd writer env) := by
  have idle : saceCmd.name ∉ e.runningEvents := by simp [silent]
  unfold request
  split
  · by_cases there : saceCmd.name ∈ e.events
    · have none : e.deletePosts saceCmd = [] := if_neg fun both => idle both.2
      rw [delEvent_some there, none, Traced.every_bind]
      exact ⟨memcpy_every (copy _ _), fun _ _ =>
        Traced.every_bind.mpr ⟨by simp, fun _ _ => Traced.every_pure _⟩⟩
    · rw [delEvent_none there]
      exact (memcpy_every (copy _ _)).then_pure _
  split
  · rename_i kind
    exact addEvent_every copy kind start
  split
  · rw [infoEvent_refused fun _ => idle]
    exact Traced.every_pure _
  · exact Traced.every_pure _

theorem excuteNormal_asked (silent : e.runningEvents = ∅) (msg : SaceReaderMessage)
    (env : EventEnv) :
    Traced.Every (Effect.Asked e (e.Owns msg.msgCmd env)) (e.excuteNormal msg env) := by
  rw [excuteNormal_eq, Traced.every_bind]
  exact ⟨request_silent silent (fun _ _ => trivial) fun now _ => ⟨_, .inr ⟨rfl, now⟩, rfl⟩,
    fun out _ => finish_every (fun _ _ => trivial) (fun _ => trivial) out⟩

theorem onUninit_silent (silent : e.runningEvents = ∅) : e.onUninit = pure e := by
  have none : e.runningEvents.toList = [] := by simp [silent]
  rw [onUninit, none, stopAll]

/-- Whoever asks is told that it has failed. -/
theorem info_refused (silent : e.runningEvents = ∅) {msg : SaceReaderMessage} {env : EventEnv}
    (kind : msg.msgCmd.eventType = .info) :
    e.excuteNormal msg env = (do
      Traced.emit (.sendResult msg.msgWriter
        { initialResult msg.msgCmd with resultStatus := .fail })
      return e) := by
  have idle : msg.msgCmd.name ∉ e.runningEvents := by simp [silent]
  have refused : e.request msg.msgCmd msg.msgWriter env = pure (e, .err .fail) := by
    rw [request, if_neg (by rw [kind]; decide), if_neg (by rw [kind]; decide), if_pos kind,
      infoEvent_refused fun _ => idle]
  rw [excuteNormal_eq, refused, Traced.pure_then]
  rfl

theorem started_added {t : SaceEvent} {msg : SaceReaderMessage} {env : EventEnv}
    (now : e.StartsAtOnce msg.msgCmd env) (done : (e.excuteNormal msg env).result = .ok t) :
    ∃ triggers, t = e.added msg.msgCmd triggers true := by
  obtain ⟨kind, free, triggers, given, fires⟩ := now
  have some : triggers ≠ [] := by
    rintro rfl
    cases fires
  obtain ⟨outcome, requested⟩ := excuteNormal_request done
  rw [request, if_neg (by rw [kind]; decide), if_pos kind, addEvent_some free given some,
    if_pos fires, Traced.bind_ok] at requested
  obtain ⟨_, _, requested⟩ := requested
  cases requested
  exact ⟨_, rfl⟩

/-- What is started at once has become a Service. -/
theorem started_has {t : SaceEvent} {msg : SaceReaderMessage} {env : EventEnv}
    (now : e.StartsAtOnce msg.msgCmd env) (done : (e.excuteNormal msg env).result = .ok t) :
    t.Has msg.msgCmd := by
  obtain ⟨triggers, rfl⟩ := started_added now done
  exact ⟨_, List.mem_append_right _ (List.mem_singleton.mpr rfl), rfl⟩

theorem Has.moved {t : SaceEvent} {pipe : List Notice} {cmd : SaceCommand} (has : e.Has cmd)
    (moved : e.Moved pipe t) : t.Has cmd := by
  obtain ⟨service, member, same⟩ := has
  obtain ⟨id, held⟩ := List.mem_iff_getElem?.mp member
  obtain ⟨after, held', kept⟩ := moved.service held
  exact ⟨after, List.mem_of_getElem? held', kept.trans same⟩

end
end SaceEvent

namespace Saced

/-- The commands whose services a step can start: those that SaceEvent has and that of an ADD
that it executes. -/
def Owns (d : Saced) (input : Input) (cmd : SaceCommand) : Prop :=
  d.server.event.Has cmd ∨ ∃ answers msg, input = .take .event answers ∧
    d.next .event = some (.message msg) ∧ d.server.mExit .event = false ∧ cmd = msg.msgCmd ∧
    d.server.event.StartsAtOnce msg.msgCmd answers.eventEnv

/-- SaceEvent is idle, and what it has in the queues are STARTs of its Services. -/
structure Starting (d : Saced) : Prop where
  unheard : Unheard d
  idle : d.server.event.Idle
  restart : d.restart = ∅
  clients : ∀ climsg ∈ d.mClients, climsg.writer.piped = false
  writer : d.server.event.eventWriter.piped = true
  stops : .stopMsg ∉ d.queue
  asks : ∀ msg, .message msg ∈ d.queue → msg.msgWriter.piped = true →
    ∃ cmd, d.server.event.Has cmd ∧ msg = d.server.event.eventMsg (serviceCommand cmd)

theorem client_mem {d : Saced} {slot : Nat} {climsg : SaceSocketReader.ClientSocket}
    (taken : d.client slot = some climsg) : climsg ∈ d.mClients :=
  List.mem_of_getElem? (Option.filter_eq_some_iff.mp taken).1

theorem prepare_clients {d : Saced} (clients : ∀ climsg ∈ d.mClients, climsg.writer.piped = false)
    (input : Input) : ∀ climsg ∈ (d.prepare input).mClients, climsg.writer.piped = false := by
  cases input with
  | accept fd client full =>
    intro climsg member
    simp only [prepare, accept] at member
    split at member
    · rcases List.mem_or_eq_of_mem_set member with old | rfl
      · exact clients climsg old
      · rfl
    · exact clients climsg member
  | hangup slot =>
    intro climsg member
    simp only [prepare, close] at member
    split at member
    · exact clients climsg member
    · rename_i before taken
      rcases List.mem_or_eq_of_mem_set member with old | rfl
      · exact clients climsg old
      · exact clients before (client_mem taken)
  | take kind answers =>
    simp only [prepare]
    split <;> exact clients
  | _ => exact clients

theorem take_asked {d : Saced} {kind : SaceMessageHandlerType} {answers : Answers}
    {posted : Posted} (idle : d.server.event.Idle) (found : d.next kind = some posted) :
    Traced.Every (Effect.Asked d.server.event (d.Owns (.take kind answers)))
      (d.server.serve (d.server.message posted) answers) := by
  obtain ⟨there, handler⟩ := next_mem found
  unfold Server.serve
  split
  · exact Traced.every_pure _
  rename_i going
  split
  · rw [Traced.every_bind]
    refine ⟨SaceServiceExcutor.request_every (fun _ _ => trivial) (fun _ _ => trivial)
      fun _ _ => trivial, fun out requested => ?_⟩
    exact ((Traced.every_emit _).mpr trivial).then_pure _
  · rename_i other
    cases known : (d.server.message posted).msgHandler with
    | service => exact absurd known other
    | event =>
      rw [known] at handler going
      subst handler
      rw [Server.excute, known]
      refine Traced.Every.then_pure (fun effect member => ?_) _
      have asked := SaceEvent.excuteNormal_asked idle.running (d.server.message posted)
        answers.eventEnv effect member
      cases posted with
      | stopMsg => cases known
      | message msg =>
        cases effect with
        | post message =>
          cases message with
          | message sent =>
            intro piped
            obtain ⟨cmd, has | ⟨rfl, now⟩, same⟩ := asked piped
            · exact ⟨cmd, .inl has, same⟩
            · exact ⟨_, .inr ⟨_, msg, rfl, found, by simpa using going, rfl, now⟩, same⟩
          | stopMsg => exact asked
        | _ => trivial
    | normal =>
      exact Server.excute_every (.inl known) (fun _ _ => trivial) (fun _ _ => trivial)
        fun _ _ => trivial
    | unkown =>
      exact Server.excute_every (.inr known) (fun _ _ => trivial) (fun _ _ => trivial)
        fun _ _ => trivial

theorem turn_asked {d : Saced} (starting : Starting d) (input : Input) :
    Traced.Every (Effect.Asked d.server.event (d.Owns input)) (d.turn input) := by
  have known (cmd : SaceCommand) (has : d.server.event.Has cmd) : d.Owns input cmd := .inl has
  have turned := d.turned input
  generalize d.turn input = x at turned
  cases turned with
  | same | idle | snapshot | uninitNormal => exact Traced.every_pure _
  | @command _ climsg saceCmd taken =>
    have outer := starting.clients climsg (client_mem taken)
    apply Traced.Every.then_pure
    unfold SaceSocketReader.handleSocketMsg
    split
    · exact (Traced.every_emit _).mpr fun piped => by cases outer.symm.trans piped
    · exact (Traced.every_emit _).mpr trivial
  | @hangup _ climsg taken =>
    have outer := starting.clients climsg (client_mem taken)
    exact ((Traced.every_emit _).mpr fun piped => by cases outer.symm.trans piped).then_pure _
  | transaction authority =>
    exact ((Traced.every_emit _).mpr fun piped => by cases piped).then_pure _
  | take found => exact take_asked starting.idle found
  | monitor => exact (SaceServiceExcutor.monitor_every (fun _ _ => trivial) _ _).then_pure _
  | trigger found => exact (SaceEvent.pollEvent_asked known _ _).then_pure _
  | restartEvent found listed => simp [starting.restart] at listed
  | @read _ notice head =>
    apply Traced.Every.then_pure
    cases notice with
    | result result =>
      exact SaceEvent.handleResult_asked known
        (starting.unheard.pipe result (List.mem_of_head? head))
    | response response => exact SaceEvent.handleResponse_every fun _ => trivial
  | @uninitService wait =>
    exact (SaceServiceExcutor.onUninit_every (fun _ _ => trivial) (fun _ _ => trivial) _
      wait).then_pure _
  | destroyService =>
    exact (SaceServiceExcutor.destroy_every (fun _ _ => trivial) (fun _ _ => trivial) _).then_pure _
  | uninitEvent =>
    rw [SaceEvent.onUninit_silent starting.idle.running]
    exact (Traced.every_pure _).then_pure _

theorem Owns.kept {d : Saced} {server : Server} {input : Input} {cmd : SaceCommand}
    (owns : d.Owns input cmd) (provided : d.Provided input)
    (done : (d.turn input).result = .ok server) : server.event.Has cmd := by
  rcases owns with has | ⟨answers, msg, rfl, found, going, rfl, now⟩
  · exact has.moved (turn_moved provided done).2
  · have handler : msg.msgHandler = .event := (next_mem found).2
    simp only [turn, found, Server.message, Server.serve, handler, going, Bool.false_eq_true,
      if_false, Server.excute, Traced.bind_ok] at done
    obtain ⟨event, ran, done⟩ := done
    cases done
    exact SaceEvent.started_has now ran

theorem Starting.step {d t : Saced} {input : Input} (starting : Starting d)
    (provided : d.Provided input) (moved : d.step input = some t) : Starting t := by
  have unheard := starting.unheard.step provided moved
  obtain ⟨server, ran, rfl⟩ := step_eq_some.mp moved
  have event := (turn_moved provided ran).2
  have writer : server.event.eventWriter = d.server.event.eventWriter := event.writer
  have asked := turn_asked starting input
  constructor
  · exact unheard
  · exact starting.idle.moved event starting.unheard.pipe
  · cases input with
    | snapshot => exact starting.idle.failed
    | take kind answers =>
      simp only [deliver, prepare]
      split <;> exact starting.restart
    | hangup slot =>
      simp only [deliver, prepare, close]
      split <;> exact starting.restart
    | _ => exact starting.restart
  · exact prepare_clients starting.clients input
  · exact (congrArg SaceWriter.piped writer).trans starting.writer
  · intro member
    rcases List.mem_append.mp member with old | new
    · exact starting.stops (prepare_queue _ old)
    · exact asked _ (mem_posted.mp new)
  · intro msg member piped
    have asks : ∃ cmd, server.event.Has cmd ∧
        msg = d.server.event.eventMsg (serviceCommand cmd) := by
      rcases List.mem_append.mp member with old | new
      · obtain ⟨cmd, has, same⟩ := starting.asks msg (prepare_queue _ old) piped
        exact ⟨cmd, has.moved event, same⟩
      · obtain ⟨cmd, owns, same⟩ := asked _ (mem_posted.mp new) piped
        exact ⟨cmd, owns.kept provided ran, same⟩
    obtain ⟨cmd, has, same⟩ := asks
    refine ⟨cmd, has, same.trans ?_⟩
    simp only [SaceEvent.eventMsg, writer, deliver]

theorem start_starting {event : SaceEvent} (loaded : event.Loaded) : Starting (start event) where
  unheard := ⟨fun _ member => (nomatch member), loaded.running⟩
  idle := ⟨loaded.running, loaded.writers, loaded.failed⟩
  restart := rfl
  clients climsg member := by rw [List.eq_of_mem_replicate member]; rfl
  writer := by
    obtain ⟨fd, pipe⟩ := loaded.pipe
    simp only [start, SaceWriter.piped, pipe]
  stops member := nomatch member
  asks _ member := nomatch member

def machine : PipeMachine Saced Input where
  step := step
  pipe d := d.pipe
  withPipe d pipe := { d with pipe }
  selects _ := true
  reads
    | .read _ => true
    | _ => false
  read := .read 0

theorem Starting.repiped {d : Saced} {pipe : List Notice} (starting : Starting d)
    (labels : ∀ result, .result result ∈ pipe → result.resultType ≠ .label) :
    Starting { d with pipe } :=
  ⟨⟨labels, starting.unheard.running⟩, starting.idle, starting.restart, starting.clients,
    starting.writer, starting.stops, starting.asks⟩

theorem starting_keeps (F : ParcelFormat) : Bytewise.Keeps F machine Provided Starting where
  moves _ _ _ starting provided moved := starting.step provided moved
  reads _ := trivial
  same _ starting := starting
  onWire d notice rest starting := by
    refine starting.repiped fun result member => ?_
    rcases List.mem_cons.mp member with head | later
    · cases notice with
      | result r =>
        cases head
        exact starting.unheard.pipe r List.mem_cons_self
      | response => cases head
    · exact starting.unheard.pipe result (List.mem_cons_of_mem _ later)
  lost d notice rest k starting := by
    have fewer : (notice :: rest.drop k).Sublist (notice :: rest) :=
      (List.drop_sublist k rest).cons_cons notice
    exact starting.repiped fun result member => starting.unheard.pipe result (fewer.subset member)

/-- As long as each read of the event pipe begins with a whole message, SaceEvent is idle at all
times: of all that it ever has in the queues each message is the START of one of its Services, no
event is on the list of those to restart, and it refuses every INFO. Its stop message is posted by
nothing, not by its end either. -/
theorem reached_only_starts (F : ParcelFormat) {event : SaceEvent} (loaded : event.Loaded)
    {w : Bytewise Saced} (reached : Runs.Reached (Bytewise.step F machine)
      (Bytewise.Allowed F machine Provided) { base := start event } w) :
    .stopMsg ∉ w.base.queue ∧
    (∀ msg, .message msg ∈ w.base.queue → msg.msgWriter.piped = true →
      ∃ service ∈ w.base.server.event.services,
        msg = w.base.server.event.eventMsg (serviceCommand service.cmd)) ∧
    w.base.restart = ∅ ∧
    (∀ (msg : SaceReaderMessage) (env : EventEnv), msg.msgCmd.eventType = .info →
      w.base.server.event.excuteNormal msg env = do
        Traced.emit (.sendResult msg.msgWriter
          { initialResult msg.msgCmd with resultStatus := .fail })
        return w.base.server.event) ∧
    w.base.server.event.onUninit = pure w.base.server.event := by
  have starting := (starting_keeps F).reached (start_starting loaded) reached
  refine ⟨starting.stops, fun msg member piped => ?_, starting.restart,
    fun msg env kind => SaceEvent.info_refused starting.idle.running kind,
    SaceEvent.onUninit_silent starting.idle.running⟩
  obtain ⟨_, ⟨service, held, rfl⟩, same⟩ := starting.asks msg member piped
  exact ⟨service, held, same⟩

def noFork : Answers := { Answers.quiet with start := { Answers.quiet.start with fork := -1 } }

def bootFails : List Input :=
  [.transaction 1 ⟨1000, 200⟩ bootCommand, .take .event .quiet, .take .service noFork]

def bootAgain : List (Bytewise.Input Input) :=
  bootFails.map .other ++ [.read (Threads.bootRefused.encode Android.parcel).length]

theorem boot_only_starts : ∃ w : Bytewise Saced,
    Runs.run (Bytewise.step Android.parcel machine) { base := start .bare } bootAgain = some w ∧
    w.base.queue = [.message bootStart] ∧ ∃ service ∈ w.base.server.event.services,
      bootStart = w.base.server.event.eventMsg (serviceCommand service.cmd) := by
  have queue : (Runs.run (Bytewise.step Android.parcel machine) { base := start .bare }
      bootAgain).map (·.base.queue) = some [.message bootStart] := by decide +kernel
  have refused : (Runs.run (Bytewise.step Android.parcel machine) { base := start .bare }
      (bootFails.map .other)).map (fun w => (w.base.pipe, w.bytes)) =
        some ([Threads.bootRefused], Threads.bootRefused.encode Android.parcel) := by
    decide +kernel
  obtain ⟨w, ran, queue⟩ := Option.map_eq_some_iff.mp queue
  have admitted : Runs.Admitted (Bytewise.step Android.parcel machine)
      (Bytewise.Allowed Android.parcel machine Provided) { base := start .bare } bootAgain := by
    refine Runs.Admitted.append (Bytewise.admitted_others ?_) fun v before => ?_
    · exact (by decide +kernel : Runs.Admitted step Provided (start .bare) bootFails)
    · rw [before, Option.map_some, Option.some.injEq, Prod.mk.injEq] at refused
      obtain ⟨pipe, bytes⟩ := refused
      have whole : v.bytes = v.base.pipe.flatMap (Notice.encode Android.parcel) := by
        rw [pipe, bytes, List.flatMap_cons, List.flatMap_nil, List.append_nil]
      exact ⟨⟨whole, Threads.bootRefused, [], pipe, Threads.bootRefused_valid, Nat.le_refl _⟩,
        fun _ _ => trivial⟩
  have only := reached_only_starts Android.parcel SaceEvent.bare_loaded
    (Runs.run_reached admitted ran)
  exact ⟨w, ran, queue, only.2.1 _ (queue ▸ List.mem_singleton.mpr rfl) rfl⟩

end Saced
end Sace
