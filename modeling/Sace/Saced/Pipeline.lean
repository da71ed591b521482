import Sace.Saced.Dispatcher

/-! The daemon with its dispatcher: what the turns post goes through the looper and the dispatch
thread to the executors' queues. To everybody outside it is the daemon with the one queue. -/
namespace Sace

open SaceCommandDispatcher (messagesFor mExcutor Routed)

/-- The daemon, whose own queue stays empty, and the dispatcher that has its messages. -/
structure Pipelined where
  daemon : Saced
  dispatcher : SaceCommandDispatcher

namespace Pipelined

/-- `turn` is excuteCommand for the message that the executor's thread has popped. -/
inductive Input where
  | daemon (input : Saced.Input)
  | dispatch (step : SaceCommandDispatcher.Step)
  | turn (kind : SaceMessageHandlerType) (answers : Answers)

/-- What the threads of the readers and of SaceEvent do, and the passes of the service executor;
taking messages and the shutdown are not among it. -/
def outside : Saced.Input → Bool
  | .take _ _ | .uninitService _ | .destroyService | .uninitEvent | .uninitNormal => false
  | _ => true

def inside (p : Pipelined) : SaceCommandDispatcher.Step → Bool
  | .poll _ | .handle => true
  | .thread kind .excuted => (p.dispatcher.excutor kind).place = .excuting none
  | .thread _ _ => true
  | .post _ | .stop | .main => false

def deliver (p : Pipelined) (before : Saced) (server : Server) (trace : List Effect) : Pipelined :=
  { daemon := { before.deliver server trace with queue := [] }
    dispatcher := { p.dispatcher with
      mLooper := p.dispatcher.mLooper ++ posted trace
      posted := p.dispatcher.posted ++ posted trace } }

def step (p : Pipelined) : Input → Option Pipelined
  | .daemon input =>
    if outside input then
      (p.daemon.turn input).value.map fun server =>
        p.deliver (p.daemon.prepare input) server (p.daemon.turn input).trace
    else none
  | .dispatch step =>
    if p.inside step then (p.dispatcher.step step).map fun dispatcher => { p with dispatcher }
    else none
  | .turn kind answers =>
    if kind ∈ mExcutor then
      match (p.dispatcher.excutor kind).place with
      | .excuting (some msg) =>
        let turn := p.daemon.server.serve (p.daemon.server.message msg) answers
        turn.value.bind fun server =>
          (p.dispatcher.step (.thread kind .excuted)).map fun dispatcher =>
            { p with dispatcher }.deliver p.daemon server turn.trace
      | _ => none
    else none

def Provided (p : Pipelined) : Input → Prop
  | .daemon input => p.daemon.Provided input
  | .dispatch _ => True
  | .turn _ answers => answers.start.address ∉ p.daemon.server.service.heap

instance (p : Pipelined) : (input : Input) → Decidable (p.Provided input)
  | .daemon input => inferInstanceAs (Decidable (p.daemon.Provided input))
  | .dispatch _ => .isTrue trivial
  | .turn _ answers =>
    inferInstanceAs (Decidable (answers.start.address ∉ p.daemon.server.service.heap))

def start (event : SaceEvent) (mExit : Bool) : Pipelined :=
  { daemon := Saced.start event, dispatcher := SaceCommandDispatcher.start mExit }

def finished (excutor : SaceExcutor) : List Posted :=
  match excutor.place with
  | .excuting (some _) => excutor.excuted.dropLast
  | _ => excutor.excuted

/-- The messages on their way to an executor, from the one in excuteCommand to the last one in
the looper. -/
def pending (p : Pipelined) (kind : SaceMessageHandlerType) : List Posted :=
  let excutor := p.dispatcher.excutor kind
  (match excutor.place with
    | .excuting (some msg) => [msg]
    | _ => []) ++ excutor.mCmdQueue ++ p.dispatcher.hand kind ++
    messagesFor kind p.dispatcher.mLooper

/-- The message in excuteCommand is the last one that was popped. -/
def Current (excutor : SaceExcutor) : Prop :=
  ∀ msg, excutor.place = .excuting (some msg) → excutor.excuted = finished excutor ++ [msg]

/-- The daemon with the one queue has the same parts and, for each executor, the messages that
have not been executed to the end. -/
structure Stands (p : Pipelined) (d : Saced) : Prop where
  routed : Routed p.dispatcher
  running : ∀ kind, (p.dispatcher.excutor kind).mExit = false
  current : ∀ kind, Current (p.dispatcher.excutor kind)
  same : { d with queue := [] } = p.daemon
  queue : ∀ kind ∈ mExcutor, finished (p.dispatcher.excutor kind) ++ messagesFor kind d.queue =
    messagesFor kind p.dispatcher.posted

/-! ### Steps inside the dispatcher -/

/-- What the rest of the daemon does not see: an executor's messages are not executed to the end
by a step that does not come back from excuteCommand. -/
theorem excutor_inside {outTime : Int} {s t : SaceExcutor} {a : SaceExcutor.Step}
    (moved : s.step outTime a = some t) (inner : a = .excuted → s.place = .excuting none)
    (stays : a ≠ .exit) (current : Current s) :
    finished t = finished s ∧ Current t ∧ t.mExit = s.mExit := by
  cases a with
  | enter | push | post | exitPost =>
    simp only [SaceExcutor.step] at moved
    split at moved
    all_goals cases moved
    all_goals exact ⟨rfl, current, rfl⟩
  | exit => exact absurd rfl stays
  | token | timedOut | timeoutDone | interrupted =>
    simp only [SaceExcutor.step, Option.ite_none_right_eq_some] at moved
    obtain ⟨place, moved⟩ := moved
    cases moved
    simp [finished, Current, place]
  | test =>
    simp only [SaceExcutor.step, Option.ite_none_right_eq_some] at moved
    obtain ⟨place, moved⟩ := moved
    cases moved
    cases s.mExit <;> simp [finished, Current, place]
  | pop =>
    simp only [SaceExcutor.step, Option.ite_none_right_eq_some] at moved
    obtain ⟨place, moved⟩ := moved
    split at moved <;> cases moved <;> simp [finished, Current, place]
  | excuted =>
    simp only [SaceExcutor.step, inner rfl] at moved
    cases moved
    simp [finished, Current, inner rfl]

section Steps
variable {p : Pipelined} {d e : SaceCommandDispatcher}

theorem dispatch_inside {a : SaceCommandDispatcher.Step} (inner : p.inside a = true)
    (moved : p.dispatcher.step a = some e) (kind : SaceMessageHandlerType)
    (current : Current (p.dispatcher.excutor kind)) :
    finished (e.excutor kind) = finished (p.dispatcher.excutor kind) ∧
      Current (e.excutor kind) ∧ (e.excutor kind).mExit = (p.dispatcher.excutor kind).mExit := by
  rcases SaceCommandDispatcher.excutor_step moved kind with same | ⟨step, stepped, own, told⟩
  · rw [same]
    exact ⟨rfl, current, rfl⟩
  · refine excutor_inside stepped ?_ ?_ current
    · rintro rfl
      cases own rfl
      simpa [inside] using inner
    · rintro rfl
      cases (told rfl).1
      cases inner

theorem dispatch_posted {a : SaceCommandDispatcher.Step} (inner : p.inside a = true)
    (moved : p.dispatcher.step a = some e) : e.posted = p.dispatcher.posted := by
  cases SaceCommandDispatcher.step_moved moved with
  | posted => cases inner
  | taken | idle | left | passed | offered | begun | awaited | exits => rfl
  | entered _ _ _ acted | pushed _ acted | sent _ acted | ran _ acted | told _ acted
  | woken _ acted => exact (SaceCommandDispatcher.move_frame acted).2.2.1

theorem Stands.dispatched {s : Saced} (stands : Stands p s) {a : SaceCommandDispatcher.Step}
    (inner : p.inside a = true) (moved : p.dispatcher.step a = some e) :
    Stands { p with dispatcher := e } s where
  routed := stands.routed.step moved
  running kind := by
    obtain ⟨_, _, exit⟩ := dispatch_inside inner moved kind (stands.current kind)
    exact exit.trans (stands.running kind)
  current kind := (dispatch_inside inner moved kind (stands.current kind)).2.1
  same := stands.same
  queue kind known := by
    rw [(dispatch_inside inner moved kind (stands.current kind)).1, dispatch_posted inner moved]
    exact stands.queue kind known

/-! ### Turns -/

/-- A turn that the one daemon takes as well: its posts go to the queue of the one and to the
looper of the other. -/
theorem Stands.delivered {s before after : Saced} (stands : Stands p s) {server : Server}
    {trace : List Effect} (same : { before with queue := [] } = { after with queue := [] })
    (queue : before.queue = s.queue) :
    Stands (p.deliver after server trace) (before.deliver server trace) where
  routed := stands.routed.posts _
  running := stands.running
  current := stands.current
  same := by
    simp only [deliver, Saced.deliver, Saced.mk.injEq] at same ⊢
    simp [same]
  queue kind known := by
    simp only [deliver, Saced.deliver, SaceCommandDispatcher.messagesFor_append, queue,
      ← List.append_assoc]
    exact congrArg (· ++ _) (stands.queue kind known)

theorem outside_turn {input : Saced.Input} (outer : outside input = true) (s : Saced)
    (queue : List Posted) : { s with queue }.turn input = s.turn input ∧
      { s with queue }.prepare input = { s.prepare input with queue } ∧
      (s.prepare input).queue = s.queue ∧
      ({ s with queue }.Provided input ↔ s.Provided input) := by
  cases input with
  | take => cases outer
  | uninitService => cases outer
  | destroyService => cases outer
  | uninitEvent => cases outer
  | uninitNormal => cases outer
  | hangup slot =>
    simp only [Saced.turn, Saced.prepare, Saced.close, Saced.client, Saced.Provided]
    split <;> simp_all
  | _ => exact ⟨rfl, rfl, rfl, Iff.rfl⟩

theorem Stands.outer {s : Saced} (stands : Stands p s) {input : Saced.Input}
    (outer : outside input = true) (provided : p.daemon.Provided input) {q : Pipelined}
    (moved : p.step (.daemon input) = some q) :
    ∃ t, s.Provided input ∧ s.step input = some t ∧ Stands q t := by
  obtain ⟨turn, prepare, queue, able⟩ := outside_turn outer s []
  rw [stands.same] at turn prepare able
  simp only [step, outer, if_true, turn, prepare] at moved
  obtain ⟨server, value, rfl⟩ := Option.map_eq_some_iff.mp moved
  exact ⟨_, able.mp provided, Option.map_eq_some_iff.mpr ⟨server, value, rfl⟩,
    stands.delivered rfl queue⟩

theorem excuted_after {kind : SaceMessageHandlerType} {msg : Posted}
    (place : (p.dispatcher.excutor kind).place = .excuting (some msg))
    (moved : p.dispatcher.move kind .excuted p.dispatcher.place = some e) :
    e.posted = p.dispatcher.posted ∧
    finished (e.excutor kind) = (p.dispatcher.excutor kind).excuted ∧ Current (e.excutor kind) ∧
    (e.excutor kind).mExit = (p.dispatcher.excutor kind).mExit ∧
    ∀ other, other ≠ kind → e.excutor other = p.dispatcher.excutor other := by
  obtain ⟨excutor, came, rfl⟩ := Option.map_eq_some_iff.mp moved
  simp only [SaceExcutor.step, place] at came
  cases came
  simp +contextual [finished, Current]

/-- The executor's thread comes back from excuteCommand. -/
theorem Stands.turned {s : Saced} (stands : Stands p s) {kind : SaceMessageHandlerType}
    {answers : Answers} (fresh : answers.start.address ∉ p.daemon.server.service.heap)
    {q : Pipelined} (moved : p.step (.turn kind answers) = some q) :
    ∃ t, s.Provided (.take kind answers) ∧ s.step (.take kind answers) = some t ∧ Stands q t := by
  simp only [step, Option.ite_none_right_eq_some] at moved
  obtain ⟨known, moved⟩ := moved
  split at moved
  case h_2 => cases moved
  rename_i msg place
  obtain ⟨server, served, moved⟩ := Option.bind_eq_some_iff.mp moved
  obtain ⟨e, stepped, rfl⟩ := Option.map_eq_some_iff.mp moved
  have lane := stands.routed.lanes kind known
  have current := stands.current kind msg place
  have whole := stands.queue kind known
  -- the message is the first one that the one daemon has for this executor
  obtain ⟨rest, first⟩ : ∃ rest, messagesFor kind s.queue = msg :: rest := by
    have fifo := lane.counted.fifo
    obtain ⟨later, part⟩ := lane.part
    rw [← part, ← fifo, current, List.append_assoc, List.append_assoc] at whole
    exact ⟨_, (List.append_cancel_left whole).trans rfl⟩
  have next : s.next kind = some msg := by
    rw [Saced.next, ← List.head?_filter]
    simp only [Server.message_handler]
    rw [show (s.queue.filter fun posted => posted.msgHandler = kind) = msg :: rest from first]
    rfl
  have own : msg.msgHandler = kind := by
    have there : msg ∈ messagesFor kind s.queue := first ▸ List.mem_cons_self
    simpa [messagesFor] using (List.mem_filter.mp there).2
  have server_same : s.server = p.daemon.server := by rw [← stands.same]
  have empty : { p.daemon with queue := [] } = p.daemon := by rw [← stands.same]
  have turn : s.turn (.take kind answers) =
      p.daemon.server.serve (p.daemon.server.message msg) answers := by
    simp only [Saced.turn, next, server_same]
  have prepared : s.prepare (.take kind answers) = { s with queue := s.queue.erase msg } := by
    simp only [Saced.prepare, next]
  have left (other : SaceMessageHandlerType) : messagesFor other (s.queue.erase msg) =
      (messagesFor other s.queue).erase msg := List.erase_filter.symm
  have moved : p.dispatcher.move kind .excuted p.dispatcher.place = some e := by
    simpa [SaceCommandDispatcher.step, SaceCommandDispatcher.ofThread] using stepped
  have routed := stands.routed.step stepped
  obtain ⟨posted, finished_, current_, exit, others⟩ := excuted_after place moved
  have after : Stands { p with dispatcher := e } { s with queue := s.queue.erase msg } := by
    refine ⟨routed, fun other => ?_, fun other => ?_, stands.same, fun other there => ?_⟩
    · by_cases same : other = kind
      · exact same ▸ exit.trans (stands.running kind)
      · exact others other same ▸ stands.running other
    · by_cases same : other = kind
      · exact same ▸ current_
      · exact others other same ▸ stands.current other
    · rw [left, posted]
      by_cases same : other = kind
      · subst same
        rw [← whole, first, List.erase_cons_head, finished_, current, List.append_assoc]
        rfl
      · have out : msg ∉ messagesFor other s.queue := by
          simp [messagesFor, own, Ne.symm same]
        rw [List.erase_of_not_mem out, others other same]
        exact stands.queue other there
  refine ⟨_, by rwa [Saced.Provided, server_same], Option.map_eq_some_iff.mpr
    ⟨server, turn ▸ served, rfl⟩, ?_⟩
  rw [turn, prepared]
  exact after.delivered (stands.same.trans empty.symm) rfl

theorem start_stands (event : SaceEvent) (mExit : Bool) :
    Stands (start event mExit) (Saced.start event) :=
  ⟨SaceCommandDispatcher.routed_start mExit, fun _ => rfl, fun _ _ => nofun, rfl, fun _ _ => rfl⟩

/-- What is on its way to an executor is what the one daemon has in its queue for it. -/
theorem Stands.pending {s : Saced} (stands : Stands p s) {kind : SaceMessageHandlerType}
    (known : kind ∈ mExcutor) : s.queueOf kind = p.pending kind := by
  have lane := stands.routed.lanes kind known
  have whole := lane.whole (.inl (stands.running kind))
  have own : s.queueOf kind = messagesFor kind s.queue := by
    simp only [Saced.queueOf, Server.message_handler, messagesFor]
  rw [own]
  have queue := stands.queue kind known
  rw [← whole, ← lane.counted.fifo] at queue
  have current := stands.current kind
  unfold Pipelined.pending
  dsimp only
  split
  · rename_i msg place
    rw [current msg place] at queue
    simpa [List.append_assoc] using queue
  · rename_i other
    have all : finished (p.dispatcher.excutor kind) = (p.dispatcher.excutor kind).excuted := by
      unfold finished
      split
      · rename_i msg place
        exact absurd place (other msg)
      · rfl
    rw [all] at queue
    simpa [List.append_assoc] using queue

/-- In every run before the shutdown the looper, the dispatch thread and the executors' queues,
semaphores and threads do what the one queue does: whatever the daemon reaches with them, it
reaches without, the same in all its other parts and with the same messages left for each
executor. -/
theorem reached_one_queue {event : SaceEvent} {mExit : Bool}
    (reached : Runs.Reached step Provided (start event mExit) p) :
    ∃ s, Runs.Reached Saced.step Saced.Provided (Saced.start event) s ∧
      { s with queue := [] } = p.daemon ∧ ∀ kind ∈ mExcutor, s.queueOf kind = p.pending kind := by
  have matched :
      ∃ s, Runs.Reached Saced.step Saced.Provided (Saced.start event) s ∧ Stands p s := by
    refine reached.matched (start_stands event mExit) fun p input q s stands allowed moved => ?_
    cases input with
    | daemon input =>
      by_cases outer : outside input = true
      · obtain ⟨t, provided, stepped, after⟩ := stands.outer outer allowed moved
        exact ⟨t, Runs.Reached.start.next provided stepped, after⟩
      · simp [step, outer] at moved
    | dispatch a =>
      simp only [step, Option.ite_none_right_eq_some] at moved
      obtain ⟨inner, moved⟩ := moved
      obtain ⟨e, stepped, rfl⟩ := Option.map_eq_some_iff.mp moved
      exact ⟨s, .start, stands.dispatched inner stepped⟩
    | turn kind answers =>
      obtain ⟨t, provided, stepped, after⟩ := stands.turned allowed moved
      exact ⟨t, Runs.Reached.start.next provided stepped, after⟩
  obtain ⟨s, other, stands⟩ := matched
  exact ⟨s, other, stands.same, fun kind known => stands.pending known⟩

end Steps

def asked : List Input :=
  [.daemon (.transaction 1 ⟨1000, 200⟩
      { type := .service, sequence := 7, name := str "svc"
        subType := SaceServiceCommandType.stop.byte }),
    .dispatch (.poll .callback), .dispatch .handle, .dispatch .handle, .dispatch .handle,
    .dispatch (.thread .service .token), .dispatch (.thread .service .test),
    .dispatch (.thread .service .pop), .turn .service .quiet]

theorem asked_one_queue : ∃ p s, Runs.run step (start .bare false) asked = some p ∧
    (p.dispatcher.excutor .service).excuted.length = 1 ∧
    Runs.Reached Saced.step Saced.Provided (Saced.start .bare) s ∧
    { s with queue := [] } = p.daemon ∧ ∀ kind ∈ mExcutor, s.queueOf kind = p.pending kind := by
  have last : (Runs.run step (start .bare false) asked).map
      (fun p => (p.dispatcher.excutor .service).excuted.length) = some 1 := by rfl
  obtain ⟨p, ran, excuted⟩ := Option.map_eq_some_iff.mp last
  have admitted : Runs.Admitted step Provided (start .bare false) asked := by decide
  obtain ⟨s, other, same, queues⟩ := reached_one_queue (Runs.run_reached admitted ran)
  exact ⟨p, s, ran, excuted, other, same, queues⟩

end Pipelined
end Sace
