import Sace.Saced
import Sace.Server.Steps

/-! What one step of the daemon does to the service executor and to SaceEvent. -/
namespace Sace

inductive SaceServiceExcutor.Moved (s : SaceServiceExcutor) : SaceServiceExcutor → Prop
  | same : Moved s s
  | request {t : SaceServiceExcutor} {msg : SaceReaderMessage} {env : ParseEnv}
      {answers : StartAnswers} {result : SaceResult} (fresh : answers.address ∉ s.heap)
      (done : (s.request msg env answers).result = .ok (t, result)) : Moved s t
  | monitor {t : SaceServiceExcutor} {wait : Nat → WaitAnswer}
      (done : (s.monitorServiceStatus wait).result = .ok t) : Moved s t
  | destroy {t : SaceServiceExcutor} (done : s.destroy.result = .ok t) : Moved s t

inductive SaceEvent.Moved (e : SaceEvent) (pipe : List Notice) : SaceEvent → Prop
  | same : Moved e pipe e
  | request {t : SaceEvent} {msg : SaceReaderMessage} {env : EventEnv}
      (done : (e.excuteNormal msg env).result = .ok t) : Moved e pipe t
  | snapshot : Moved e pipe { e with failedEvents := ∅ }
  | poll {t : SaceEvent} {properties : Str → Str} {id : Nat}
      (done : (e.pollEvent properties id).result = .ok t) : Moved e pipe t
  | start {t : SaceEvent} {id : Nat} (done : (e.startEvent id).result = .ok t) : Moved e pipe t
  | notice {t : SaceEvent} {notice : Notice} (read : notice ∈ pipe)
      (done : (e.handleNotice notice).result = .ok t) : Moved e pipe t
  | uninit {t : SaceEvent} (done : e.onUninit.result = .ok t) : Moved e pipe t

theorem Server.serve_moved {server t : Server} {msg : SaceReaderMessage} {answers : Answers}
    (fresh : answers.start.address ∉ server.service.heap) (pipe : List Notice)
    (done : (server.serve msg answers).result = .ok t) :
    server.service.Moved t.service ∧ server.event.Moved pipe t.event := by
  unfold serve at done
  split at done
  · cases done
    exact ⟨.same, .same⟩
  split at done
  · simp only [Traced.bind_ok, Traced.emit_then, Prod.exists] at done
    obtain ⟨service, result, requested, done⟩ := done
    cases done
    exact ⟨.request fresh requested, .same⟩
  · rename_i other
    unfold excute at done
    split at done
    · cases done
      exact ⟨.same, .same⟩
    · simp only [Traced.bind_ok] at done
      obtain ⟨normal, _, done⟩ := done
      cases done
      exact ⟨.same, .same⟩
    · rename_i kind
      exact absurd kind other
    · simp only [Traced.bind_ok] at done
      obtain ⟨event, turn, done⟩ := done
      cases done
      exact ⟨.same, .request turn⟩

namespace Saced

theorem step_eq_some {d t : Saced} {input : Input} : d.step input = some t ↔
    ∃ server, (d.turn input).result = .ok server ∧
      (d.prepare input).deliver server (d.turn input).trace = t := by
  simp only [step, Option.map_eq_some_iff, Traced.value_eq_some]

theorem uninit_monitors {s t : SaceServiceExcutor} {wait : Nat → WaitAnswer}
    (done : (s.onUninit wait).result = .ok t) : s.Moved t := by
  rw [SaceServiceExcutor.onUninit, Traced.bind_ok] at done
  obtain ⟨_, _, passed⟩ := done
  exact .monitor passed

inductive Turned (d : Saced) : Input → Exec Server → Prop
  | same {input : Input} (other : ∀ kind answers, input ≠ .take kind answers) :
      Turned d input (pure d.server)
  | idle {kind : SaceMessageHandlerType} {answers : Answers} (none : d.next kind = none) :
      Turned d (.take kind answers) (pure d.server)
  | take {kind : SaceMessageHandlerType} {answers : Answers} {posted : Posted}
      (found : d.next kind = some posted) :
      Turned d (.take kind answers) (d.server.serve (d.server.message posted) answers)
  | command {slot : Nat} {climsg : SaceSocketReader.ClientSocket} {saceCmd : SaceCommand}
      (taken : d.client slot = some climsg) :
      Turned d (.command slot saceCmd) (do
        SaceSocketReader.handleSocketMsg climsg saceCmd
        return d.server)
  | hangup {slot : Nat} {climsg : SaceSocketReader.ClientSocket}
      (taken : d.client slot = some climsg) :
      Turned d (.hangup slot) (do
        SaceSocketReader.handleSocketClose { climsg with fd := -1 }
        return d.server)
  | transaction {id : Nat} {client : SaceClientIdentifier} {saceCmd : SaceCommand}
      (authority : securedByUidPid client.uid client.pid = true) :
      Turned d (.transaction id client saceCmd) (do
        Traced.emit (.post (.message
          { msgHandler := typeCmdToMsg saceCmd.type
            msgCmd := saceCmd
            msgWriter := ⟨.binder id, client.pid⟩
            msgClient := client }))
        return d.server)
  | monitor {wait : Nat → WaitAnswer} :
      Turned d (.monitor wait) (do
        return { d.server with service := ← d.server.service.monitorServiceStatus wait })
  | snapshot :
      Turned d .snapshot
        (pure { d.server with event := { d.server.event with failedEvents := ∅ } })
  | trigger {name : Str} {properties : Str → Str} {id : Nat} (found : d.cmds[name]? = some id) :
      Turned d (.trigger name properties) (do
        return { d.server with event := ← d.server.event.pollEvent properties id })
  | restartEvent {name : Str} {id : Nat} (found : d.cmds[name]? = some id)
      (listed : name ∈ d.restart) :
      Turned d (.restartEvent name) (do
        return { d.server with event := ← d.server.event.startEvent id })
  | read {more : Nat} {notice : Notice} (head : d.pipe.head? = some notice) :
      Turned d (.read more) (do
        return { d.server with event := ← d.server.event.handleNotice notice })
  | uninitService {wait : Nat → WaitAnswer} :
      Turned d (.uninitService wait) (do
        return { d.server.stop .service with service := ← d.server.service.onUninit wait })
  | destroyService :
      Turned d .destroyService (do
        return { d.server with service := ← d.server.service.destroy })
  | uninitEvent :
      Turned d .uninitEvent (do
        return { d.server.stop .event with event := ← d.server.event.onUninit })
  | uninitNormal : Turned d .uninitNormal (pure (d.server.stop .normal))

theorem turned (d : Saced) (input : Input) : d.Turned input (d.turn input) := by
  cases input with
  | accept fd client full => exact .same fun _ _ no => by cases no
  | command slot saceCmd =>
    simp only [turn]
    split
    · exact .same fun _ _ no => by cases no
    · exact .command ‹_›
  | hangup slot =>
    simp only [turn]
    split
    · exact .same fun _ _ no => by cases no
    · exact .hangup ‹_›
  | transaction id client saceCmd =>
    simp only [turn]
    split
    · exact .transaction ‹_›
    · exact .same fun _ _ no => by cases no
  | take kind answers =>
    simp only [turn]
    split
    · exact .idle ‹_›
    · exact .take ‹_›
  | monitor wait =>
    simp only [turn]
    split
    · exact .same fun _ _ no => by cases no
    · exact .monitor
  | snapshot => exact .snapshot
  | trigger name properties =>
    simp only [turn]
    split
    · exact .same fun _ _ no => by cases no
    · exact .trigger ‹_›
  | restartEvent name =>
    simp only [turn]
    split
    · exact .same fun _ _ no => by cases no
    split
    · exact .restartEvent ‹_› ‹_›
    · exact .same fun _ _ no => by cases no
  | read more =>
    simp only [turn]
    split
    · exact .same fun _ _ no => by cases no
    · exact .read ‹_›
  | uninitService wait => exact .uninitService
  | destroyService =>
    simp only [turn]
    split
    · exact .destroyService
    · exact .same fun _ _ no => by cases no
  | uninitEvent => exact .uninitEvent
  | uninitNormal => exact .uninitNormal

theorem turn_moved {d : Saced} {server : Server} {input : Input} (provided : d.Provided input)
    (moved : (d.turn input).result = .ok server) :
    d.server.service.Moved server.service ∧ d.server.event.Moved d.pipe server.event := by
  have turned := d.turned input
  generalize d.turn input = x at turned moved
  cases turned with
  | same | idle | uninitNormal =>
    cases moved
    exact ⟨.same, .same⟩
  | snapshot =>
    cases moved
    exact ⟨.same, .snapshot⟩
  | take found => exact Server.serve_moved provided _ moved
  | command | hangup | transaction =>
    obtain ⟨_, _, moved⟩ := Traced.bind_ok.mp moved
    cases moved
    exact ⟨.same, .same⟩
  | monitor =>
    obtain ⟨service, done, moved⟩ := Traced.bind_ok.mp moved
    cases moved
    exact ⟨.monitor done, .same⟩
  | trigger found =>
    obtain ⟨event, done, moved⟩ := Traced.bind_ok.mp moved
    cases moved
    exact ⟨.same, .poll done⟩
  | restartEvent found listed =>
    obtain ⟨event, done, moved⟩ := Traced.bind_ok.mp moved
    cases moved
    exact ⟨.same, .start done⟩
  | read head =>
    obtain ⟨event, done, moved⟩ := Traced.bind_ok.mp moved
    cases moved
    exact ⟨.same, .notice (List.mem_of_head? head) done⟩
  | uninitService =>
    obtain ⟨service, done, moved⟩ := Traced.bind_ok.mp moved
    cases moved
    exact ⟨uninit_monitors done, .same⟩
  | destroyService =>
    obtain ⟨service, done, moved⟩ := Traced.bind_ok.mp moved
    cases moved
    exact ⟨.destroy done, .same⟩
  | uninitEvent =>
    obtain ⟨event, done, moved⟩ := Traced.bind_ok.mp moved
    cases moved
    exact ⟨.same, .uninit done⟩

/-! ### The effects of a step -/

/-- The messages that a step can post: of a client's command or its disconnection, of a Binder
transaction, and of SaceEvent. -/
inductive MayPost (d : Saced) : Posted → Prop
  | command {slot : Nat} {climsg : SaceSocketReader.ClientSocket} (saceCmd : SaceCommand)
      (taken : d.client slot = some climsg) :
      MayPost d (.message (Server.commandMsg climsg saceCmd))
  | close (climsg : SaceSocketReader.ClientSocket) :
      MayPost d (.message
        { msgHandler := .normal
          msgCmd := SaceSocketReader.closeCommand climsg.client
          msgWriter := climsg.writer
          msgClient := climsg.client })
  | transaction (id : Nat) (client : SaceClientIdentifier) (saceCmd : SaceCommand) :
      MayPost d (.message
        { msgHandler := typeCmdToMsg saceCmd.type
          msgCmd := saceCmd
          msgWriter := ⟨.binder id, client.pid⟩
          msgClient := client })
  | event (msgCmd : SaceCommand) : MayPost d (.message (d.server.event.eventMsg msgCmd))
  | stop : MayPost d .stopMsg

end Saced

section Effects
variable {P : Effect → Prop} (kill : ∀ pid signal, P (.kill pid signal))
variable (spawn : ∀ pid params, P (.spawn pid params))
variable (copy : ∀ size capacity, P (.copy size capacity))

include kill spawn copy in
theorem Server.serve_every {server : Server} {msg : SaceReaderMessage} {answers : Answers}
    (send : ∀ result, result.Answers msg.msgCmd → P (.sendResult msg.msgWriter result))
    (event : ∀ msgCmd, P (.post (.message (server.event.eventMsg msgCmd))))
    (stop : P (.post .stopMsg)) : Traced.Every P (server.serve msg answers) := by
  have none : SaceResultType.none ≠ .label := by decide
  unfold serve
  split
  · exact Traced.every_pure _
  split
  · rw [Traced.every_bind]
    refine ⟨SaceServiceExcutor.request_every kill spawn fun _ _ => copy _ _,
      fun out requested => ?_⟩
    rw [Traced.every_bind, Traced.every_emit]
    exact ⟨send _ (SaceServiceExcutor.request_answers requested).1,
      fun _ _ => Traced.every_pure _⟩
  · rename_i other
    cases kind : msg.msgHandler with
    | service => exact absurd kind other
    | event =>
      rw [excute, kind, Traced.every_bind]
      refine ⟨SaceEvent.excuteNormal_every copy (fun message among => ?_) fun _ =>
          send _ ⟨rfl, none⟩,
        fun _ _ => Traced.every_pure _⟩
      cases among with
      | stop => exact stop
      | info =>
        rw [SaceEvent.eventMsg_addWriters]
        exact event _
      | start now => exact event _
    | normal => exact excute_every (.inl kind) kill spawn send
    | unkown => exact excute_every (.inr kind) kill spawn send

namespace Saced
variable {d : Saced} (respond : ∀ wr response, P (.sendResponse wr response))
variable (post : ∀ message, d.MayPost message → P (.post message))
variable (send : ∀ wr result, (result.resultType = .label → .result result ∈ d.pipe) →
  P (.sendResult wr result))
include kill spawn copy respond post send

/-- What a step can lead to. A result of the type LABEL can only come out of the pipe. -/
theorem turn_every (input : Input) : Traced.Every P (d.turn input) := by
  have none : SaceResultType.none ≠ .label := by decide
  have turned := d.turned input
  generalize d.turn input = x at turned
  cases turned with
  | same | idle | snapshot | uninitNormal => exact Traced.every_pure _
  | take found =>
    exact Server.serve_every kill spawn copy
      (fun _ plain => send _ _ fun label => absurd label plain.2) (fun _ => post _ (.event _))
      (post _ .stop)
  | @command _ _ saceCmd taken =>
    apply Traced.Every.then_pure
    unfold SaceSocketReader.handleSocketMsg
    split
    · exact (Traced.every_emit _).mpr (post _ (.command saceCmd taken))
    · exact (Traced.every_emit _).mpr (send _ _ fun label => absurd label none)
  | hangup taken => exact ((Traced.every_emit _).mpr (post _ (.close _))).then_pure _
  | transaction authority =>
    exact ((Traced.every_emit _).mpr (post _ (.transaction ..))).then_pure _
  | monitor => exact (SaceServiceExcutor.monitor_every respond _ _).then_pure _
  | trigger found =>
    exact (SaceEvent.pollEvent_every copy (fun _ => post _ (.event _)) _ _).then_pure _
  | restartEvent found listed =>
    exact (SaceEvent.startEvent_every copy (fun _ => post _ (.event _)) _).then_pure _
  | @read _ notice head =>
    apply Traced.Every.then_pure
    cases notice with
    | result result =>
      exact SaceEvent.handleResult_every copy (fun _ => post _ (.event _))
        fun wr => send wr result fun _ => List.mem_of_head? head
    | response response => exact SaceEvent.handleResponse_every fun wr => respond wr response
  | @uninitService wait => exact (SaceServiceExcutor.onUninit_every kill respond _ wait).then_pure _
  | destroyService => exact (SaceServiceExcutor.destroy_every kill respond _).then_pure _
  | uninitEvent => exact (SaceEvent.stopAll_every (post _ .stop) _ _).then_pure _

end Saced
end Effects

namespace Saced

theorem prepare_pipe {d : Saced} {input : Input} :
    ∀ notice ∈ (d.prepare input).pipe, notice ∈ d.pipe := by
  cases input with
  | take kind answers =>
    simp only [prepare]
    split <;> exact fun _ member => member
  | hangup slot =>
    simp only [prepare, close]
    split <;> exact fun _ member => member
  | read more => exact fun _ member => List.mem_of_mem_drop member
  | _ => exact fun _ member => member

theorem next_mem {d : Saced} {kind : SaceMessageHandlerType} {posted : Posted}
    (found : d.next kind = some posted) :
    posted ∈ d.queue ∧ (d.server.message posted).msgHandler = kind :=
  ⟨List.mem_of_find?_eq_some found, by simpa using List.find?_some found⟩

theorem prepare_queue {d : Saced} {input : Input} :
    ∀ posted ∈ (d.prepare input).queue, posted ∈ d.queue := by
  cases input with
  | take kind answers =>
    simp only [prepare]
    split
    · intro _ member
      exact member
    · intro _ member
      exact List.mem_of_mem_erase member
  | hangup slot =>
    simp only [prepare, close]
    split <;> exact fun _ member => member
  | _ => exact fun _ member => member

end Saced
end Sace
