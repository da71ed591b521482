import Sace.Saced.Queue
import Sace.Saced.Starting

/-! The daemon's steps taken apart: a call of SaceEvent that is one step of the daemon is a run
of its thread, section after section. -/
namespace Sace

namespace MonitorPlace

/-- How many sections a call of the monitor thread still has at most. -/
def left : MonitorPlace → Nat
  | .free => 0
  | .post _ | .pass _ | .finish _ => 1
  | .start _ | .label _ | .restart _ => 2

theorem left_le (place : MonitorPlace) : place.left ≤ 2 := by
  cases place <;> simp [left]

theorem free_of_left {place : MonitorPlace} (none : place.left = 0) : place = .free := by
  cases place with
  | free => rfl
  | start | post | label | pass | restart | finish => cases none

end MonitorPlace

namespace ExcutorPlace

def left : ExcutorPlace → Nat
  | .free => 0
  | .infoPost _ | .reply .. | .err .. => 1
  | .stop .. | .insert .. | .info _ => 2
  | .erase .. | .post .. | .running _ => 3
  | .start .. => 4

theorem left_le (place : ExcutorPlace) : place.left ≤ 4 := by
  cases place <;> simp [left]

theorem free_of_left {place : ExcutorPlace} (none : place.left = 0) : place = .free := by
  cases place with
  | free => rfl
  | erase | stop | start | post | insert | running | info | infoPost | reply | err => cases none

end ExcutorPlace

namespace SaceEvent

theorem monitorSection_left {e t : SaceEvent} {place next : MonitorPlace}
    (done : (e.monitorSection place).result = .ok (t, next)) : next.left ≤ place.left - 1 := by
  cases place with
  | free =>
    cases done
    exact Nat.le_refl _
  | start id =>
    obtain ⟨_, _, done⟩ := Traced.bind_ok.mp done
    cases done
    exact Nat.le_refl _
  | label result =>
    cases done
    exact Nat.le_refl _
  | restart response =>
    obtain ⟨⟨_, restarted⟩, _, done⟩ := Traced.bind_ok.mp done
    cases done
    cases restarted with
    | true => exact Nat.zero_le _
    | false => exact Nat.le_refl _
  | post | pass | finish =>
    obtain ⟨_, _, done⟩ := Traced.bind_ok.mp done
    cases done
    exact Nat.le_refl _

theorem excutorSection_left {e t : SaceEvent} {place next : ExcutorPlace}
    (done : (e.excutorSection place).result = .ok (t, next)) : next.left ≤ place.left - 1 := by
  cases place with
  | free | insert | info =>
    cases done
    exact Nat.le_refl _
  | erase msg env =>
    cases done
    show (ExcutorPlace.left (if _ then _ else _)) ≤ 2
    split <;> simp [ExcutorPlace.left]
  | stop msg env =>
    obtain ⟨-, -, rfl⟩ := stopSection_ok done
    exact Nat.le_refl _
  | start | post | infoPost | err =>
    obtain ⟨_, _, done⟩ := Traced.bind_ok.mp done
    cases done
    exact Nat.le_refl _
  | reply msg env status =>
    obtain ⟨_, _, done⟩ := Traced.bind_ok.mp done
    obtain ⟨_, _, done⟩ := Traced.bind_ok.mp done
    cases done
    exact Nat.le_refl _
  | running msg =>
    simp only [excutorSection] at done
    split at done
    · cases done
      exact Nat.le_succ 1
    · obtain ⟨_, _, done⟩ := Traced.bind_ok.mp done
      cases done
      exact Nat.le_refl _

end SaceEvent

namespace Threads

/-- What a thread leaves of `s` with a call that comes to `e` and does `trace`, when both are at
an end. -/
structure Called (s : Threads) (e : SaceEvent) (trace : List Effect) (t : Threads) : Prop where
  event : t.event = e
  monitor : t.monitor = .free
  excutor : t.excutor = .free
  service : t.service = s.service
  cmds : t.cmds = s.cmds
  restart : t.restart = s.restart
  queue : t.queue = s.queue ++ posted trace
  pipe : t.pipe = s.pipe

def Reaches : Threads → Threads → Prop := Runs.Reached step fun _ input => Provided input

variable {r s t u : Threads} {e : SaceEvent} {n : Nat}

theorem Reaches.next (input : Input) (reaches : t.Reaches u) (able : Provided input)
    (moved : s.step input = some t) : s.Reaches u :=
  Runs.Reached.trans (.next .start able moved) reaches

theorem Called.ended (monitor : s.monitor = .free) (excutor : s.excutor = .free) :
    s.Called s.event [] s :=
  ⟨rfl, monitor, excutor, rfl, rfl, rfl, (List.append_nil _).symm, rfl⟩

theorem Called.after {trace rest : List Effect} (called : t.Called e rest u)
    (service : t.service = s.service) (cmds : t.cmds = s.cmds) (restart : t.restart = s.restart)
    (queue : t.queue = s.queue ++ posted trace) (pipe : t.pipe = s.pipe) :
    s.Called e (trace ++ rest) u where
  event := called.event
  monitor := called.monitor
  excutor := called.excutor
  service := called.service.trans service
  cmds := called.cmds.trans cmds
  restart := called.restart.trans restart
  queue := by rw [called.queue, queue, posted_append, List.append_assoc]
  pipe := called.pipe.trans pipe

/-- The sections that the monitor thread still has in a call, one after the other. -/
theorem monitor_run (excutor : s.excutor = .free) (left : s.monitor.left ≤ n)
    (done : (SaceEvent.monitorAlone n s.event s.monitor).result = .ok e) :
    ∃ t, s.Reaches t ∧ s.Called e (SaceEvent.monitorAlone n s.event s.monitor).trace t := by
  induction n generalizing s with
  | zero =>
    cases done
    exact ⟨s, .start, .ended (MonitorPlace.free_of_left (Nat.le_zero.mp left)) excutor⟩
  | succ n ih =>
    obtain ⟨⟨u, next⟩, section_, rest⟩ := Traced.bind_ok.mp done
    have fewer := SaceEvent.monitorSection_left section_
    let after : Threads :=
      { s.deliver u (s.event.monitorSection s.monitor).trace with monitor := next }
    have first : s.step .monitor = some after :=
      monitorTurn_eq_some.mpr ⟨u, next, section_, rfl⟩
    have shorter : after.monitor.left ≤ n := by
      show next.left ≤ n
      omega
    obtain ⟨t, reaches, called⟩ := ih (s := after) excutor shorter rest
    rw [SaceEvent.monitorAlone, Traced.bind_of_ok section_]
    exact ⟨t, reaches.next .monitor trivial first, called.after rfl rfl rfl rfl rfl⟩

theorem excutor_run (monitor : s.monitor = .free) (left : s.excutor.left ≤ n)
    (done : (SaceEvent.excutorAlone n s.event s.excutor).result = .ok e) :
    ∃ t, s.Reaches t ∧ s.Called e (SaceEvent.excutorAlone n s.event s.excutor).trace t := by
  induction n generalizing s with
  | zero =>
    cases done
    exact ⟨s, .start, .ended monitor (ExcutorPlace.free_of_left (Nat.le_zero.mp left))⟩
  | succ n ih =>
    obtain ⟨⟨u, next⟩, section_, rest⟩ := Traced.bind_ok.mp done
    have fewer := SaceEvent.excutorSection_left section_
    obtain ⟨deleted, stopped, leaves⟩ := leave_eq s s.excutor
    let after : Threads :=
      { ({ s with deleted, stopped } : Threads).deliver u
        (s.event.excutorSection s.excutor).trace with excutor := next }
    have first : s.step .excutor = some after := by
      simp only [step, leaves]
      exact excutorTurn_eq_some.mpr ⟨u, next, section_, rfl⟩
    have shorter : after.excutor.left ≤ n := by
      show next.left ≤ n
      omega
    obtain ⟨t, reaches, called⟩ := ih (s := after) monitor shorter rest
    rw [SaceEvent.excutorAlone, Traced.bind_of_ok section_]
    exact ⟨t, reaches.next .excutor trivial first, called.after rfl rfl rfl rfl rfl⟩

/-- A whole call of the monitor thread, from the turn with which it enters it. -/
theorem monitor_call (input : Input) {turn : Exec (SaceEvent × MonitorPlace)}
    (able : Provided input) (excutor : r.excutor = .free)
    (enters : s.step input = r.monitorTurn turn) (done : (do
      let out ← turn
      SaceEvent.monitorAlone 2 out.1 out.2).result = .ok e) :
    ∃ t, s.Reaches t ∧ r.Called e (do
      let out ← turn
      SaceEvent.monitorAlone 2 out.1 out.2).trace t := by
  obtain ⟨⟨u, place⟩, entered, rest⟩ := Traced.bind_ok.mp done
  let after : Threads := { r.deliver u turn.trace with monitor := place }
  have first : s.step input = some after :=
    enters.trans (monitorTurn_eq_some.mpr ⟨u, place, entered, rfl⟩)
  obtain ⟨t, reaches, called⟩ := monitor_run (s := after) excutor (MonitorPlace.left_le place) rest
  rw [Traced.bind_of_ok entered]
  exact ⟨t, reaches.next input able first, called.after rfl rfl rfl rfl rfl⟩

theorem excutor_call {msg : SaceReaderMessage} {env : EventEnv} (monitor : s.monitor = .free)
    (excutor : s.excutor = .free) (done : (s.event.excuteNormal msg env).result = .ok e) :
    ∃ t, s.Reaches t ∧ s.Called e (s.event.excuteNormal msg env).trace t := by
  rw [SaceEvent.excuteNormal_sections] at done ⊢
  obtain ⟨⟨u, place⟩, entered, rest⟩ := Traced.bind_ok.mp done
  let taken : Threads := { s.deliver u (s.event.takeRequest msg env).trace with excutor := place }
  obtain ⟨deleted, enters⟩ := enter_eq taken
  let after : Threads := { taken with deleted }
  have first : s.step (.take msg env) = some after := by
    have turn : s.excutorTurn (s.event.takeRequest msg env) = some taken :=
      excutorTurn_eq_some.mpr ⟨u, place, entered, rfl⟩
    simp only [step, excutor, turn, Option.map_some, enters, after]
  obtain ⟨t, reaches, called⟩ := excutor_run (s := after) monitor (ExcutorPlace.left_le place) rest
  rw [Traced.bind_of_ok entered]
  exact ⟨t, reaches.next (.take msg env) trivial first, called.after rfl rfl rfl rfl rfl⟩

end Threads

/-! ### What goes into the event pipe -/

/-- An effect that leaves nothing in the event pipe, and only posts what `P` holds of. -/
def Effect.Unpiped (P : Posted → Prop) : Effect → Prop
  | .post message => P message
  | .sendResult writer _ | .sendResponse writer _ => writer.piped = false
  | _ => True

theorem piped_nil {P : Posted → Prop} {A : Type} {x : Exec A}
    (none : Traced.Every (Effect.Unpiped P) x) : piped x.trace = [] := by
  apply List.filterMap_eq_nil_iff.mpr
  intro effect member
  have none := none effect member
  cases effect with
  | sendResult writer result =>
    obtain ⟨channel, id⟩ := writer
    cases channel with
    | pipe fd => cases none
    | _ => rfl
  | sendResponse writer response =>
    obtain ⟨channel, id⟩ := writer
    cases channel with
    | pipe fd => cases none
    | _ => rfl
  | _ => rfl

theorem posted_unpiped {P : Posted → Prop} {A : Type} {x : Exec A}
    (every : Traced.Every (Effect.Unpiped P) x) : ∀ message ∈ posted x.trace, P message :=
  fun _ member => every _ (mem_posted.mp member)

namespace SaceEvent
variable {e : SaceEvent}

/-- As long as nobody waits for an event, nothing is passed on. -/
theorem handleNotice_unpiped (idle : e.Idle) {notice : Notice}
    (plain : ∀ result, notice = .result result → result.resultType ≠ .label) :
    Traced.Every (Effect.Unpiped fun message => message.msgHandler = .service)
      (e.handleNotice notice) := by
  cases notice with
  | result result =>
    rcases handleResult_plain (e := e) (plain result rfl) with passed | ⟨_, id, again⟩
    · rw [handleNotice, passed, passResult, idle.writers, Traced.every_bind]
      exact ⟨by simp, fun _ _ => Traced.every_pure _⟩
    · rw [handleNotice, again]
      exact startEvent_every (fun _ _ => trivial) (fun _ => rfl) id
  | response response =>
    have absent : e.runningEvents[response.name]? ≠ some response.label := by simp [idle.running]
    rw [handleNotice, handleResponse, if_pos absent, passResponse, idle.writers, Traced.every_bind]
    exact ⟨by simp, fun _ _ => Traced.every_pure _⟩

theorem excuteNormal_unpiped {msg : SaceReaderMessage} (asker : msg.msgWriter.piped = false)
    (env : EventEnv) :
    Traced.Every (Effect.Unpiped fun message => message.msgHandler = .service)
      (e.excuteNormal msg env) := by
  refine excuteNormal_every (fun _ _ => trivial) (fun message among => ?_) fun _ => asker
  cases among with
  | stop | info | start => rfl

end SaceEvent

namespace Saced

/-- The state of the daemon between two steps, seen by SaceEvent's threads. -/
structure Seen (d : Saced) (s : Threads) : Prop where
  event : s.event = d.server.event
  service : s.service = d.server.service
  cmds : s.cmds = d.cmds
  restart : s.restart = d.restart
  monitor : s.monitor = .free
  excutor : s.excutor = .free
  queue : s.queue = d.queueOf .service
  pipe : s.pipe = d.pipe

structure Working (d : Saced) : Prop where
  service : d.server.mExit .service = false
  event : d.server.mExit .event = false

def Works : Input → Prop
  | .uninitService _ | .uninitEvent => False
  | _ => True

instance : (input : Input) → Decidable (Works input)
  | .uninitService _ | .uninitEvent => .isFalse id
  | .accept .. | .command .. | .hangup _ | .transaction .. | .take .. | .monitor _ | .snapshot
  | .trigger .. | .restartEvent _ | .read _ | .destroyService | .uninitNormal => .isTrue trivial

variable {d t : Saced} {s : Threads}

theorem queueOf_deliver (d : Saced) (server : Server) (trace : List Effect)
    (kind : SaceMessageHandlerType) : (d.deliver server trace).queueOf kind =
      d.queueOf kind ++ (posted trace).filter fun message => message.msgHandler = kind := by
  simp only [queueOf, Server.message_handler, deliver, List.filter_append]

/-- A call of one of SaceEvent's threads. -/
theorem Seen.called {event : SaceEvent} {x : Exec SaceEvent} {u : Threads}
    (seen : d.Seen s) (called : s.Called event x.trace u)
    (inner : Traced.Every (Effect.Unpiped fun message => message.msgHandler = .service) x) :
    (d.deliver { d.server with event } x.trace).Seen u where
  event := called.event
  service := called.service.trans seen.service
  cmds := called.cmds.trans seen.cmds
  restart := called.restart.trans seen.restart
  monitor := called.monitor
  excutor := called.excutor
  queue := by
    have all := List.filter_eq_self.mpr fun message member =>
      decide_eq_true (posted_unpiped inner message member)
    rw [called.queue, queueOf_deliver, all, seen.queue]
  pipe := by rw [called.pipe, seen.pipe, deliver, piped_nil inner, List.append_nil]

/-- A step of which neither SaceEvent's threads nor the service executor see anything. -/
theorem Seen.unseen (seen : d.Seen s) (event : t.server.event = d.server.event)
    (service : t.server.service = d.server.service) (cmds : t.cmds = d.cmds)
    (restart : t.restart = d.restart) (queue : t.queueOf .service = d.queueOf .service)
    (pipe : t.pipe = d.pipe) : t.Seen s :=
  ⟨seen.event.trans event.symm, seen.service.trans service.symm, seen.cmds.trans cmds.symm,
    seen.restart.trans restart.symm, seen.monitor, seen.excutor, seen.queue.trans queue.symm,
    seen.pipe.trans pipe.symm⟩

theorem Seen.quiet (seen : d.Seen s) : (d.deliver d.server []).Seen s :=
  seen.unseen rfl rfl rfl rfl ((queueOf_deliver ..).trans (List.append_nil _)) (List.append_nil _)

/-- A reader posts what has come from a client. -/
theorem Seen.posts {msg : SaceReaderMessage} (seen : d.Seen s)
    (outer : msg.msgWriter.piped = false) :
    ∃ u, s.Reaches u ∧ (d.deliver d.server [.post (.message msg)]).Seen u := by
  have queue := queueOf_deliver d d.server [.post (.message msg)] .service
  by_cases mine : msg.msgHandler = .service
  · have own : [Posted.message msg].filter (fun message => message.msgHandler = .service) =
        [.message msg] := by simp [Posted.msgHandler, mine]
    rw [show posted [.post (.message msg)] = [.message msg] from rfl, own, ← seen.queue] at queue
    refine ⟨{ s with queue := s.queue ++ [.message msg] }, ?_, ?_⟩
    · exact Threads.Reaches.next (.client msg) .start outer rfl
    · exact ⟨seen.event, seen.service, seen.cmds, seen.restart, seen.monitor, seen.excutor,
        queue.symm, seen.pipe.trans (List.append_nil _).symm⟩
  · have other : [Posted.message msg].filter (fun message => message.msgHandler = .service) =
        [] := by simp [Posted.msgHandler, mine]
    rw [show posted [.post (.message msg)] = [.message msg] from rfl, other,
      List.append_nil] at queue
    exact ⟨s, .start, seen.unseen rfl rfl rfl rfl queue (List.append_nil _)⟩

theorem handleSocketMsg_seen {climsg : SaceSocketReader.ClientSocket} (seen : d.Seen s)
    (outer : climsg.writer.piped = false) (saceCmd : SaceCommand) :
    ∃ u, s.Reaches u ∧
      (d.deliver d.server (SaceSocketReader.handleSocketMsg climsg saceCmd).trace).Seen u := by
  unfold SaceSocketReader.handleSocketMsg
  split
  · exact seen.posts outer
  · have quiet : Traced.Every (Effect.Unpiped fun _ => False)
        (Traced.emit (.sendResult climsg.writer resultBySecure) : Exec Unit) :=
      (Traced.every_emit _).mpr outer
    refine ⟨s, .start, seen.unseen rfl rfl rfl rfl ?_ ?_⟩
    · rw [queueOf_deliver]
      exact List.append_nil _
    · show d.pipe ++ piped _ = d.pipe
      rw [piped_nil quiet, List.append_nil]

theorem Seen.message (seen : d.Seen s) (message : Posted) :
    s.message message = d.server.message message := by
  cases message with
  | message msg => rfl
  | stopMsg => exact congrArg SaceEvent.mStopMsg seen.event

/-- What an executor other than the service executor takes is not in the queue of that one. -/
theorem Seen.prepare (seen : d.Seen s) {kind : SaceMessageHandlerType} (other : kind ≠ .service)
    (answers : Answers) : (d.prepare (.take kind answers)).Seen s := by
  simp only [Saced.prepare]
  split
  · exact seen
  · rename_i message found
    refine seen.unseen rfl rfl rfl rfl ?_ rfl
    have apart : ¬ (d.server.message message).msgHandler = .service := by
      rwa [(next_mem found).2]
    simp only [queueOf]
    rw [← List.erase_filter, List.erase_of_not_mem]
    simp [apart]

theorem serve_service {server t : Server} {msg : SaceReaderMessage} {answers : Answers}
    (handler : msg.msgHandler = .service) (going : server.mExit .service = false)
    (ran : (server.serve msg answers).result = .ok t) : ∃ service result,
      (server.service.request msg answers.env answers.start).result = .ok (service, result) ∧
      t = { server with service } ∧ (server.serve msg answers).trace =
        (server.service.request msg answers.env answers.start).trace ++
          [.sendResult msg.msgWriter result] := by
  have turn : server.serve msg answers = (do
      let out ← server.service.request msg answers.env answers.start
      Traced.emit (.sendResult msg.msgWriter out.2)
      return { server with service := out.1 }) := by
    rw [Server.serve, handler, going]
    rfl
  rw [turn] at ran ⊢
  obtain ⟨⟨service, result⟩, requested, done⟩ := Traced.bind_ok.mp ran
  cases done
  rw [Traced.bind_of_ok requested]
  exact ⟨service, result, requested, rfl, rfl⟩

theorem Seen.take_service {message : Posted} {answers : Answers} {server : Server}
    (seen : d.Seen s) (working : d.Working) (found : d.next .service = some message)
    (ran : (d.server.serve (d.server.message message) answers).result = .ok server) :
    ∃ u, s.Reaches u ∧ ((d.prepare (.take .service answers)).deliver server
      (d.server.serve (d.server.message message) answers).trace).Seen u := by
  obtain ⟨service, result, requested, rfl, trace⟩ :=
    serve_service (next_mem found).2 working.service ran
  have pops : s.queue = message :: (d.prepare (.take .service answers)).queueOf .service :=
    seen.queue.trans (take_pops found answers)
  have first : s.step (.serve answers.env answers.start) = some { s with
      service
      queue := (d.prepare (.take .service answers)).queueOf .service
      pipe := s.pipe ++
        piped (d.server.serve (d.server.message message) answers).trace } := by
    have served := Traced.value_eq_some.mpr requested
    simp only [Threads.step, pops, seen.message, seen.service, served, Option.map_some, trace]
  have quiet : posted (d.server.service.request (d.server.message message) answers.env
      answers.start).trace = [] :=
    posted_nil (SaceServiceExcutor.request_every (fun _ _ _ no => by cases no)
      (fun _ _ _ no => by cases no) fun _ _ _ no => by cases no)
  have silent : posted (d.server.serve (d.server.message message) answers).trace = [] := by
    rw [trace, posted_append, quiet, List.nil_append]
    rfl
  obtain ⟨cmds, restart, pipe⟩ : (d.prepare (.take .service answers)).cmds = d.cmds ∧
      (d.prepare (.take .service answers)).restart = d.restart ∧
      (d.prepare (.take .service answers)).pipe = d.pipe := by
    simp only [Saced.prepare, found, and_self]
  refine ⟨_, .next (.serve answers.env answers.start) .start trivial first, ?_⟩
  constructor
  · exact seen.event
  · rfl
  · exact seen.cmds.trans cmds.symm
  · exact seen.restart.trans restart.symm
  · exact seen.monitor
  · exact seen.excutor
  · rw [queueOf_deliver, silent, List.filter_nil, List.append_nil]
  · rw [seen.pipe, ← pipe]
    rfl

/-- Only the service executor gets requests of SaceEvent. -/
theorem asker_unpiped (starting : Starting d) {kind : SaceMessageHandlerType} {message : Posted}
    (found : d.next kind = some message) (other : kind ≠ .service) :
    (d.server.message message).msgWriter.piped = false := by
  obtain ⟨there, handler⟩ := next_mem found
  cases message with
  | stopMsg => exact absurd there starting.stops
  | message msg =>
    by_contra piped
    obtain ⟨cmd, -, same⟩ := starting.asks msg there (Bool.of_not_eq_false piped)
    rw [same] at handler
    exact other handler.symm

theorem Seen.take_event {message : Posted} {answers : Answers} {server : Server} (seen : d.Seen s)
    (starting : Starting d) (working : d.Working) (found : d.next .event = some message)
    (ran : (d.server.serve (d.server.message message) answers).result = .ok server) :
    ∃ u, s.Reaches u ∧ ((d.prepare (.take .event answers)).deliver server
      (d.server.serve (d.server.message message) answers).trace).Seen u := by
  have other : SaceMessageHandlerType.event ≠ .service := by decide
  have asker := asker_unpiped starting found other
  have before := seen.prepare other answers
  have prepared : d.prepare (.take .event answers) = { d with queue := d.queue.erase message } := by
    simp only [Saced.prepare, found]
  have turn : d.server.serve (d.server.message message) answers = (do
      let event ← d.server.event.excuteNormal (d.server.message message) answers.eventEnv
      return { d.server with event }) := by
    rw [Server.serve, (next_mem found).2, working.event, Server.excute, (next_mem found).2]
    rfl
  rw [turn] at ran ⊢
  obtain ⟨event, done, ended⟩ := Traced.bind_ok.mp ran
  cases ended
  rw [← seen.event] at done
  obtain ⟨u, reaches, called⟩ := Threads.excutor_call seen.monitor seen.excutor done
  rw [seen.event] at called
  rw [prepared] at before ⊢
  refine ⟨u, reaches, ?_⟩
  rw [Traced.bind_pure_eq]
  exact before.called called (SaceEvent.excuteNormal_unpiped asker _)

theorem Seen.take_other {kind : SaceMessageHandlerType} {message : Posted} {answers : Answers}
    {server : Server} (seen : d.Seen s) (starting : Starting d)
    (outside : kind = .normal ∨ kind = .unkown) (found : d.next kind = some message)
    (ran : (d.server.serve (d.server.message message) answers).result = .ok server) :
    ((d.prepare (.take kind answers)).deliver server
      (d.server.serve (d.server.message message) answers).trace).Seen s := by
  have other : kind ≠ .service := by rcases outside with rfl | rfl <;> decide
  have asker := asker_unpiped starting found other
  have before := seen.prepare other answers
  have handler := (next_mem found).2
  have quiet : Traced.Every (Effect.Unpiped fun _ => False)
      (d.server.serve (d.server.message message) answers) := by
    unfold Server.serve
    split
    · exact Traced.every_pure _
    split
    · exact absurd (handler.symm.trans ‹_›) other
    · exact Server.excute_every (handler ▸ outside) (fun _ _ => trivial) (fun _ _ => trivial)
        fun _ _ => asker
  have kept : server.event = d.server.event ∧ server.service = d.server.service := by
    unfold Server.serve at ran
    split at ran
    · cases ran
      exact ⟨rfl, rfl⟩
    split at ran
    · exact absurd (handler.symm.trans ‹_›) other
    · unfold Server.excute at ran
      rcases outside with rfl | rfl
      · rw [handler, Traced.bind_ok] at ran
        obtain ⟨_, _, ran⟩ := ran
        cases ran
        exact ⟨rfl, rfl⟩
      · rw [handler] at ran
        cases ran
        exact ⟨rfl, rfl⟩
  have none : posted (d.server.serve (d.server.message message) answers).trace = [] :=
    List.eq_nil_iff_forall_not_mem.mpr (posted_unpiped quiet)
  rw [show d.prepare (.take kind answers) = { d with queue := d.queue.erase message } by
    simp only [Saced.prepare, found]] at before ⊢
  refine before.unseen kept.1 kept.2 rfl rfl ?_ ?_
  · rw [queueOf_deliver, none, List.filter_nil, List.append_nil]
  · rw [deliver, piped_nil quiet, List.append_nil]

theorem Seen.take {kind : SaceMessageHandlerType} {answers : Answers} (seen : d.Seen s)
    (starting : Starting d) (working : d.Working)
    (moved : d.step (.take kind answers) = some t) : ∃ u, s.Reaches u ∧ t.Seen u := by
  obtain ⟨server, ran, rfl⟩ := step_eq_some.mp moved
  cases found : d.next kind with
  | none =>
    simp only [turn, found, Saced.prepare] at ran ⊢
    cases ran
    exact ⟨s, .start, seen.quiet⟩
  | some message =>
    simp only [turn, found] at ran ⊢
    cases kind with
    | service => exact seen.take_service working found ran
    | event => exact seen.take_event starting working found ran
    | normal => exact ⟨s, .start, seen.take_other starting (.inl rfl) found ran⟩
    | unkown => exact ⟨s, .start, seen.take_other starting (.inr rfl) found ran⟩

theorem Seen.monitor_pass {wait : Nat → WaitAnswer} (seen : d.Seen s) (working : d.Working)
    (moved : d.step (.monitor wait) = some t) : ∃ u, s.Reaches u ∧ t.Seen u := by
  obtain ⟨server, ran, rfl⟩ := step_eq_some.mp moved
  simp only [turn, working.service, Bool.false_eq_true, if_false] at ran ⊢
  obtain ⟨service, passed, ended⟩ := Traced.bind_ok.mp ran
  cases ended
  have silent : posted (d.server.service.monitorServiceStatus wait).trace = [] :=
    posted_nil (SaceServiceExcutor.monitor_every (fun _ _ _ no => by cases no) _ wait)
  have first : s.step (.monitorService wait) = some { s with
      service
      pipe := s.pipe ++ piped (d.server.service.monitorServiceStatus wait).trace } := by
    simp only [Threads.step, seen.service, Traced.value_eq_some.mpr passed, Option.map_some]
  rw [Traced.bind_pure_eq]
  refine ⟨_, .next (.monitorService wait) .start trivial first, ?_⟩
  constructor
  · exact seen.event
  · rfl
  · exact seen.cmds
  · exact seen.restart
  · exact seen.monitor
  · exact seen.excutor
  · rw [queueOf_deliver, silent, List.filter_nil, List.append_nil]
    exact seen.queue
  · rw [seen.pipe]
    rfl

theorem Seen.trigger {name : Str} {properties : Str → Str} (seen : d.Seen s)
    (moved : d.step (.trigger name properties) = some t) : ∃ u, s.Reaches u ∧ t.Seen u := by
  obtain ⟨server, ran, rfl⟩ := step_eq_some.mp moved
  cases found : d.cmds[name]? with
  | none =>
    simp only [turn, found] at ran ⊢
    cases ran
    exact ⟨s, .start, seen.quiet⟩
  | some id =>
    simp only [turn, found] at ran ⊢
    obtain ⟨event, polled, ended⟩ := Traced.bind_ok.mp ran
    cases ended
    have inner := SaceEvent.pollEvent_every (e := d.server.event)
      (P := Effect.Unpiped fun message => message.msgHandler = .service) (fun _ _ => trivial)
      (fun _ => rfl) properties id
    rw [Traced.bind_pure_eq]
    rw [SaceEvent.pollEvent_sections, ← seen.event] at polled
    have enters : s.step (.trigger name properties) =
        s.monitorTurn (s.event.takeTrigger properties id) := by
      simp only [Threads.step, seen.monitor, seen.cmds, found]
    obtain ⟨u, reaches, called⟩ := Threads.monitor_call (.trigger name properties) trivial
      seen.excutor enters polled
    rw [seen.event, ← SaceEvent.pollEvent_sections] at called
    exact ⟨u, reaches, seen.called called inner⟩

theorem Seen.read {more : Nat} (seen : d.Seen s) (starting : Starting d)
    (moved : d.step (.read more) = some t) : ∃ u, s.Reaches u ∧ t.Seen u := by
  obtain ⟨server, ran, rfl⟩ := step_eq_some.mp moved
  cases pipe : d.pipe with
  | nil =>
    simp only [turn, pipe, List.head?_nil] at ran ⊢
    cases ran
    refine ⟨s, .start, seen.unseen rfl rfl rfl rfl
      ((queueOf_deliver ..).trans (List.append_nil _)) ?_⟩
    show d.pipe.drop (more + 1) ++ [] = d.pipe
    rw [pipe, List.drop_nil, List.append_nil]
  | cons notice rest =>
    simp only [turn, pipe, List.head?_cons] at ran ⊢
    obtain ⟨event, handled, ended⟩ := Traced.bind_ok.mp ran
    cases ended
    have plain (result : SaceResult) (head : notice = .result result) :
        result.resultType ≠ .label := by
      apply starting.unheard.pipe result
      rw [pipe, head]
      exact List.mem_cons_self
    have inner := SaceEvent.handleNotice_unpiped starting.idle plain
    rw [Traced.bind_pure_eq]
    rw [SaceEvent.handleNotice_sections, ← seen.event] at handled
    have enters : s.step (.read more) =
        { s with pipe := rest.drop more }.monitorTurn (s.event.takeNotice notice) := by
      simp only [Threads.step, seen.monitor, seen.pipe, pipe]
    obtain ⟨u, reaches, called⟩ := Threads.monitor_call (.read more) trivial
      (r := { s with pipe := rest.drop more }) seen.excutor enters handled
    have same : s.event.handleNotice notice = d.server.event.handleNotice notice := by
      rw [seen.event]
    rw [← SaceEvent.handleNotice_sections, same] at called
    have before : (d.prepare (.read more)).Seen { s with pipe := rest.drop more } :=
      ⟨seen.event, seen.service, seen.cmds, seen.restart, seen.monitor, seen.excutor, seen.queue,
        by simp [Saced.prepare, pipe]⟩
    exact ⟨u, reaches, before.called called inner⟩

theorem Seen.hangup {slot : Nat} (seen : d.Seen s) (starting : Starting d)
    (moved : d.step (.hangup slot) = some t) : ∃ u, s.Reaches u ∧ t.Seen u := by
  obtain ⟨server, ran, rfl⟩ := step_eq_some.mp moved
  cases taken : d.client slot with
  | none =>
    simp only [turn, taken, Saced.prepare, close] at ran ⊢
    cases ran
    exact ⟨s, .start, seen.quiet⟩
  | some climsg =>
    simp only [turn, taken, Saced.prepare, close] at ran ⊢
    cases ran
    have closed : ({ d with
        conns := d.conns.erase climsg.fd
        mClients := d.mClients.set slot { climsg with fd := -1 } } : Saced).Seen s :=
      seen.unseen rfl rfl rfl rfl rfl rfl
    exact closed.posts (starting.clients climsg (client_mem taken))

/-- What the daemon does in one step, SaceEvent's threads, the service executor and the clients
can do one after the other. -/
theorem Seen.command {slot : Nat} {saceCmd : SaceCommand} (seen : d.Seen s)
    (starting : Starting d) (moved : d.step (.command slot saceCmd) = some t) :
    ∃ u, s.Reaches u ∧ t.Seen u := by
  obtain ⟨server, ran, rfl⟩ := step_eq_some.mp moved
  cases taken : d.client slot with
  | none =>
    simp only [turn, taken] at ran ⊢
    cases ran
    exact ⟨s, .start, seen.quiet⟩
  | some climsg =>
    simp only [turn, taken] at ran ⊢
    obtain ⟨_, _, ended⟩ := Traced.bind_ok.mp ran
    cases ended
    rw [Traced.bind_pure_eq]
    exact handleSocketMsg_seen seen (starting.clients climsg (client_mem taken)) saceCmd

theorem Seen.snapshot (seen : d.Seen s) (moved : d.step .snapshot = some t) :
    ∃ u, s.Reaches u ∧ t.Seen u := by
  cases moved
  have first : s.step .snapshot = some { s with
      cmds := s.event.events
      restart := s.event.failedEvents
      event := { s.event with failedEvents := ∅ } } := by
    simp only [Threads.step, seen.monitor]
  refine ⟨_, .next .snapshot .start trivial first, ?_⟩
  constructor
  · exact congrArg (fun e : SaceEvent => { e with failedEvents := ∅ }) seen.event
  · exact seen.service
  · exact congrArg SaceEvent.events seen.event
  · exact congrArg SaceEvent.failedEvents seen.event
  · exact seen.monitor
  · exact seen.excutor
  · exact seen.queue.trans ((queueOf_deliver ..).trans (List.append_nil _)).symm
  · exact seen.pipe.trans (List.append_nil _).symm

theorem Seen.step {input : Input} (seen : d.Seen s) (starting : Starting d) (working : d.Working)
    (works : Works input) (moved : d.step input = some t) : ∃ u, s.Reaches u ∧ t.Seen u := by
  cases input with
  | take kind answers => exact seen.take starting working moved
  | monitor wait => exact seen.monitor_pass working moved
  | trigger name properties => exact seen.trigger moved
  | read more => exact seen.read starting moved
  | hangup slot => exact seen.hangup starting moved
  | command slot saceCmd => exact seen.command starting moved
  | transaction id client saceCmd =>
    obtain ⟨server, ran, rfl⟩ := step_eq_some.mp moved
    simp only [turn] at ran ⊢
    split
    · rename_i authority
      rw [if_pos authority] at ran
      cases ran
      exact seen.posts rfl
    · rename_i refused
      rw [if_neg refused] at ran
      cases ran
      exact ⟨s, .start, seen.quiet⟩
  | snapshot => exact seen.snapshot moved
  | restartEvent name =>
    obtain ⟨server, ran, rfl⟩ := step_eq_some.mp moved
    have none : d.turn (.restartEvent name) = pure d.server := by
      simp only [turn, starting.restart, Std.ExtTreeSet.not_mem_empty, if_false]
      split <;> rfl
    rw [none] at ran ⊢
    cases ran
    exact ⟨s, .start, seen.quiet⟩
  | accept fd client full =>
    cases moved
    exact ⟨s, .start, seen.unseen rfl rfl rfl rfl ((queueOf_deliver ..).trans (List.append_nil _))
      (List.append_nil _)⟩
  | destroyService =>
    obtain ⟨server, ran, rfl⟩ := step_eq_some.mp moved
    simp only [turn, working.service, Bool.false_eq_true, if_false] at ran ⊢
    cases ran
    exact ⟨s, .start, seen.quiet⟩
  | uninitNormal =>
    cases moved
    exact ⟨s, .start, seen.unseen rfl rfl rfl rfl ((queueOf_deliver ..).trans (List.append_nil _))
      (List.append_nil _)⟩
  | uninitService | uninitEvent => exact works.elim

theorem serve_exits {server t : Server} {msg : SaceReaderMessage} {answers : Answers}
    (ran : (server.serve msg answers).result = .ok t) : t.mExit = server.mExit := by
  unfold Server.serve at ran
  split at ran
  · cases ran
    rfl
  split at ran
  · obtain ⟨_, _, ran⟩ := Traced.bind_ok.mp ran
    cases ran
    rfl
  · unfold Server.excute at ran
    split at ran
    · cases ran
      rfl
    all_goals
      obtain ⟨_, _, ran⟩ := Traced.bind_ok.mp ran
      cases ran
      rfl

/-- Nothing else tells the two to stop. -/
theorem Working.step {input : Input} (working : d.Working) (works : Works input)
    (moved : d.step input = some t) : t.Working := by
  obtain ⟨server, ran, rfl⟩ := step_eq_some.mp moved
  have turned := d.turned input
  generalize d.turn input = x at turned ran
  cases turned with
  | same | idle | snapshot | uninitNormal =>
    cases ran
    exact ⟨working.service, working.event⟩
  | take found =>
    have exits := serve_exits ran
    exact ⟨exits ▸ working.service, exits ▸ working.event⟩
  | uninitService | uninitEvent => exact works.elim
  | command | hangup | transaction | monitor | trigger | restartEvent | read | destroyService =>
    obtain ⟨_, _, ran⟩ := Traced.bind_ok.mp ran
    cases ran
    exact ⟨working.service, working.event⟩

/-- Whatever the daemon reaches before the shutdown of the service executor and of SaceEvent, the
clients, the service executor and SaceEvent's threads reach section by section. -/
theorem reached_sections {event : SaceEvent} (loaded : event.Loaded)
    (reached : Runs.Reached step (fun d input => d.Provided input ∧ Works input) (start event) d) :
    ∃ s, Runs.Reached Threads.step (fun _ input => Threads.Provided input) { event } s ∧
      d.Seen s := by
  let related (d : Saced) (s : Threads) : Prop := Starting d ∧ d.Working ∧ d.Seen s
  have initial : related (start event) { event } :=
    ⟨start_starting loaded, ⟨rfl, rfl⟩, ⟨rfl, rfl, rfl, rfl, rfl, rfl, rfl, rfl⟩⟩
  have run : ∃ s, Runs.Reached Threads.step (fun _ input => Threads.Provided input) { event } s ∧
      related d s := by
    apply reached.matched initial
    rintro d input t s ⟨starting, working, seen⟩ ⟨provided, works⟩ moved
    obtain ⟨u, reaches, after⟩ := seen.step starting working works moved
    exact ⟨u, reaches, starting.step provided moved, working.step works moved, after⟩
  obtain ⟨s, run, -, -, seen⟩ := run
  exact ⟨s, run, seen⟩

/-- The ADD of a boot event starts it, the START fails, and the monitor thread starts it again. -/
def bootTwice : List Input :=
  [.transaction 1 ⟨1000, 200⟩ bootCommand, .take .event .quiet, .take .service noFork, .snapshot,
    .read 0, .take .service noFork, .monitor fun _ => .running]

theorem bootTwice_sections : ∃ d s, Runs.run step (start .bare) bootTwice = some d ∧
    Runs.Reached Threads.step (fun _ input => Threads.Provided input) { event := .bare } s ∧
    d.Seen s ∧ s.pipe = [Threads.bootRefused] := by
  have pipe : (Runs.run step (start .bare) bootTwice).map (·.pipe) =
      some [Threads.bootRefused] := by decide +kernel
  obtain ⟨d, ran, pipe⟩ := Option.map_eq_some_iff.mp pipe
  have admitted : Runs.Admitted step (fun d input => d.Provided input ∧ Works input)
      (start .bare) bootTwice := by decide +kernel
  obtain ⟨s, reached, seen⟩ := reached_sections SaceEvent.bare_loaded
    (Runs.run_reached admitted ran)
  exact ⟨d, s, ran, reached, seen, seen.pipe.trans pipe⟩

end Saced
end Sace
