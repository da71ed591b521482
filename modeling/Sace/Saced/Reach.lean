import Sace.Saced.Steps
import Sace.Service.Reach

/-! What holds in every state that the daemon reaches: the entries of the service executor
own their objects, and every event has a Service with event parameters. -/
namespace Sace

namespace SaceServiceExcutor

theorem Owned.moved {s t : SaceServiceExcutor} (owned : Owned s) (moved : s.Moved t) :
    Owned t := by
  cases moved with
  | same => exact owned
  | request fresh done => exact owned.change (fun _ => fresh) (request_change done)
  | monitor done => exact owned.monitored done
  | destroy done =>
    obtain ⟨killed, _, emptied⟩ := Traced.bind_ok.mp done
    cases emptied
    exact ⟨fun l p found => by simp at found, fun n p found => by simp at found⟩

end SaceServiceExcutor

namespace SaceEvent

/-- Every event has a Service, and its command has event parameters. -/
def Stored (e : SaceEvent) : Prop :=
  ∀ (n : Str) (id : Nat), e.events[n]? = some id → ∃ service params,
    e.services[id]? = some service ∧ service.cmd.commandParams = some (.event params)

def Each (P : Str → SaceCommand → Prop) (e : SaceEvent) : Prop :=
  ∀ (n : Str) (id : Nat), e.events[n]? = some id → ∃ service,
    e.services[id]? = some service ∧ P n service.cmd

theorem stored_iff {e : SaceEvent} :
    e.Stored ↔ e.Each fun _ cmd => ∃ params, cmd.commandParams = some (.event params) := by
  constructor
  · intro stored n id found
    obtain ⟨service, params, held, given⟩ := stored n id found
    exact ⟨service, held, params, given⟩
  · intro each n id found
    obtain ⟨service, held, params, given⟩ := each n id found
    exact ⟨service, params, held, given⟩

structure SameEvents (e t : SaceEvent) : Prop where
  events : t.events = e.events
  cmds : t.services.map EventService.cmd = e.services.map EventService.cmd
  writer : t.eventWriter = e.eventWriter

theorem SameEvents.refl (e : SaceEvent) : SameEvents e e := ⟨rfl, rfl, rfl⟩

theorem SameEvents.trans {e t u : SaceEvent} (first : SameEvents e t) (second : SameEvents t u) :
    SameEvents e u := ⟨second.events.trans first.events, second.cmds.trans first.cmds,
  second.writer.trans first.writer⟩

theorem SameEvents.service {e t : SaceEvent} (same : SameEvents e t) {id : Nat}
    {service : EventService} (held : e.services[id]? = some service) :
    ∃ after, t.services[id]? = some after ∧ after.cmd = service.cmd := by
  have there : (t.services.map EventService.cmd)[id]? = some service.cmd := by
    rw [same.cmds, List.getElem?_map, held, Option.map_some]
  rw [List.getElem?_map, Option.map_eq_some_iff] at there
  exact there

theorem Each.same {P : Str → SaceCommand → Prop} {e t : SaceEvent} (each : Each P e)
    (same : SameEvents e t) : Each P t := by
  intro n id found
  rw [same.events] at found
  obtain ⟨service, held, given⟩ := each n id found
  obtain ⟨after, held', eq⟩ := same.service held
  exact ⟨after, held', eq ▸ given⟩

theorem addWriters_same (e : SaceEvent) (name : Str) (wr : SaceWriter) :
    SameEvents e (e.addWriters name wr) := by
  obtain ⟨writers, eq⟩ := addWriters_eq e name wr
  rw [eq]
  exact ⟨rfl, rfl, rfl⟩

theorem service_ok {e : SaceEvent} {id : Nat} {service : EventService} :
    (e.service id).result = .ok service ↔ e.services[id]? = some service := by
  unfold SaceEvent.service
  split
  · rename_i found
    simp [found]
  · rename_i missing
    simp [missing]

theorem startEvent_eq {e t : SaceEvent} {id : Nat} (done : (e.startEvent id).result = .ok t) :
    ∃ service, e.services[id]? = some service ∧
      t = { e with startingEvents := e.startingEvents.insert service.cmd.name } := by
  simp only [startEvent, Traced.bind_ok] at done
  obtain ⟨service, found, _, _, _, _, done⟩ := done
  cases done
  exact ⟨service, service_ok.mp found, rfl⟩

theorem startEvent_same {e t : SaceEvent} {id : Nat} (done : (e.startEvent id).result = .ok t) :
    SameEvents e t := by
  obtain ⟨service, _, rfl⟩ := startEvent_eq done
  exact ⟨rfl, rfl, rfl⟩

theorem pollTriggers_same {e t : SaceEvent} {properties : Str → Str} {id : Nat} {fired : Bool}
    (done : (e.pollTriggers properties id).result = .ok (fired, t)) : SameEvents e t := by
  simp only [pollTriggers, Traced.bind_ok] at done
  obtain ⟨service, found, done⟩ := done
  cases done
  refine ⟨rfl, List.ext_getElem? fun i => ?_, rfl⟩
  by_cases here : id = i
  · subst here
    have held := service_ok.mp found
    obtain ⟨inside, at_⟩ := List.getElem?_eq_some_iff.mp held
    simp [inside, at_]
  · simp [here]

def polled (e : SaceEvent) (properties : Str → Str) (id : Nat) (service : EventService) :
    SaceEvent :=
  let triggers := (triggeredAny properties service.triggers).2
  { e with services := e.services.set id { service with triggers } }

theorem polled_self {e : SaceEvent} {id : Nat} {service : EventService}
    (held : e.services[id]? = some service) (properties : Str → Str) :
    (e.polled properties id service).services[id]? =
      some { service with triggers := (triggeredAny properties service.triggers).2 } := by
  obtain ⟨inside, -⟩ := List.getElem?_eq_some_iff.mp held
  exact List.getElem?_set_self inside

theorem pollTriggers_held {e : SaceEvent} {id : Nat} {service : EventService}
    (held : e.services[id]? = some service) (properties : Str → Str) :
    e.pollTriggers properties id =
      pure ((triggeredAny properties service.triggers).1, e.polled properties id service) := by
  simp only [pollTriggers, SaceEvent.service, held, Traced.pure_then]
  rfl

theorem pollEvent_held {e : SaceEvent} {id : Nat} {service : EventService}
    (held : e.services[id]? = some service) (properties : Str → Str) :
    e.pollEvent properties id =
      if (triggeredAny properties service.triggers).1 then
        (e.polled properties id service).startEvent id
      else pure (e.polled properties id service) := by
  rw [pollEvent, pollTriggers_held held, Traced.pure_then]

theorem pollEvent_dangling {e : SaceEvent} {id : Nat} (none : e.services[id]? = none)
    (properties : Str → Str) : e.pollEvent properties id = Traced.fault .useAfterFree := by
  simp only [pollEvent, pollTriggers, SaceEvent.service, none, Traced.fault_then]

/-- A completed poll starts the event or stores what it has left of the triggers. -/
theorem pollEvent_ok {e t : SaceEvent} {properties : Str → Str} {id : Nat}
    (done : (e.pollEvent properties id).result = .ok t) :
    ∃ service, e.services[id]? = some service ∧
      (((e.polled properties id service).startEvent id).result = .ok t ∨
        t = e.polled properties id service) := by
  obtain ⟨⟨fired, left⟩, triggers, -⟩ := Traced.bind_ok.mp done
  obtain ⟨service, found, -⟩ := Traced.bind_ok.mp triggers
  have held := service_ok.mp found
  refine ⟨service, held, ?_⟩
  rw [pollEvent_held held] at done
  split at done
  · exact .inl done
  · cases done
    exact .inr rfl

theorem pollEvent_same {e t : SaceEvent} {properties : Str → Str} {id : Nat}
    (done : (e.pollEvent properties id).result = .ok t) : SameEvents e t := by
  obtain ⟨service, held, ended⟩ := pollEvent_ok done
  have polls : (e.pollTriggers properties id).result =
      .ok ((triggeredAny properties service.triggers).1, e.polled properties id service) := by
    rw [pollTriggers_held held]
    rfl
  have same := pollTriggers_same polls
  rcases ended with started | rfl
  · exact same.trans (startEvent_same started)
  · exact same

theorem passResult_ok {e t : SaceEvent} {result : SaceResult}
    (done : (e.passResult result).result = .ok t) : t = e := by
  simp only [passResult, Traced.bind_ok] at done
  obtain ⟨_, _, done⟩ := done
  cases done
  rfl

theorem passResponse_same {e t : SaceEvent} {response : SaceStatusResponse}
    (done : (e.passResponse response).result = .ok t) : SameEvents e t := by
  simp only [passResponse, Traced.bind_ok] at done
  obtain ⟨_, _, done⟩ := done
  cases done
  exact ⟨rfl, rfl, rfl⟩

theorem handleResponse_same {e t : SaceEvent} {response : SaceStatusResponse}
    (done : (e.handleResponse response).result = .ok t) : SameEvents e t := by
  unfold handleResponse at done
  split at done
  · exact passResponse_same done
  split at done
  · simp only [Traced.bind_ok, Prod.exists] at done
    obtain ⟨u, restarted, asked, done⟩ := done
    have kept : SameEvents e u := by
      unfold restartEvent at asked
      split at asked
      · cases asked
        exact .refl e
      · simp only [Traced.bind_ok] at asked
        obtain ⟨_, _, asked⟩ := asked
        split at asked <;> cases asked <;> exact ⟨rfl, rfl, rfl⟩
    split at done
    · cases done
      exact kept
    · exact kept.trans (passResponse_same done)
  · exact passResponse_same done

theorem handleResult_same {e t : SaceEvent} {result : SaceResult}
    (done : (e.handleResult result).result = .ok t) : SameEvents e t := by
  unfold handleResult at done
  split at done
  · exact passResult_ok done ▸ .refl e
  split at done
  · split at done
    · exact startEvent_same done
    · exact passResult_ok done ▸ .refl e
  split at done
  · simp only [Traced.bind_ok] at done
    obtain ⟨_, _, done⟩ := done
    rw [passResult_ok done]
    exact ⟨rfl, rfl, rfl⟩
  · exact passResult_ok done ▸ .refl e

theorem handleNotice_same {e t : SaceEvent} {notice : Notice}
    (done : (e.handleNotice notice).result = .ok t) : SameEvents e t := by
  cases notice with
  | result result => exact handleResult_same done
  | response response => exact handleResponse_same done

theorem stopAll_same {e t : SaceEvent} {sves : List (Str × UInt64)}
    (done : (stopAll sves e).result = .ok t) :
    SameEvents e t ∧ t.runningEvents = e.runningEvents ∧ t.startingEvents = e.startingEvents := by
  induction sves generalizing e with
  | nil =>
    cases done
    exact ⟨.refl _, rfl, rfl⟩
  | cons sve rest ih =>
    simp only [stopAll, stopEvent, Traced.bind_ok] at done
    obtain ⟨_, ⟨_, _, stopped⟩, done⟩ := done
    cases stopped
    obtain ⟨same, running, starting⟩ := ih done
    exact ⟨⟨same.events, same.cmds, same.writer⟩, running, starting⟩

theorem excuteNormal_request {e t : SaceEvent} {msg : SaceReaderMessage} {env : EventEnv}
    (done : (e.excuteNormal msg env).result = .ok t) :
    ∃ outcome, (e.request msg.msgCmd msg.msgWriter env).result = .ok (t, outcome) := by
  simp only [excuteNormal, Traced.bind_ok, Prod.exists] at done
  obtain ⟨u, outcome, requested, done⟩ := done
  have same : u = t := by
    cases outcome with
    | done status =>
      simp only [Traced.bind_ok] at done
      obtain ⟨_, _, _, _, done⟩ := done
      cases done
      rfl
    | err status =>
      simp only [Traced.bind_ok] at done
      obtain ⟨_, _, done⟩ := done
      cases done
      rfl
    | forwarded =>
      cases done
      rfl
  exact ⟨outcome, same ▸ requested⟩

theorem excuteNormal_change {e t : SaceEvent} {msg : SaceReaderMessage} {env : EventEnv}
    (done : (e.excuteNormal msg env).result = .ok t) : Change e msg.msgCmd msg.msgWriter t := by
  obtain ⟨_, requested⟩ := excuteNormal_request done
  exact request_change requested

theorem eventTriggers_event {params : Option ParamsObject} {triggers : List Trigger}
    (parsed : eventTriggers params = pure triggers) (given : triggers ≠ []) :
    ∃ eventParams, params = some (.event eventParams) := by
  have result := congrArg Traced.result parsed
  match params with
  | none =>
    cases result
    exact absurd rfl given
  | some (.command base) => cases result
  | some (.event eventParams) => exact ⟨eventParams, rfl⟩

theorem deleted_same (e : SaceEvent) (saceCmd : SaceCommand) (writer : SaceWriter) :
    SameEvents { e with events := e.events.erase saceCmd.name } (e.deleted saceCmd writer) := by
  unfold deleted
  dsimp only
  split
  · exact ⟨(addWriters_same _ _ _).events, (addWriters_same _ _ _).cmds,
      (addWriters_same _ _ _).writer⟩
  · exact ⟨rfl, rfl, rfl⟩

theorem Each.change {P : Str → SaceCommand → Prop} {e t : SaceEvent} {saceCmd : SaceCommand}
    {writer : SaceWriter} (each : Each P e) (change : Change e saceCmd writer t)
    (new : ∀ params, saceCmd.commandParams = some (.event params) → P saceCmd.name saceCmd) :
    Each P t := by
  cases change with
  | same => exact each
  | deleted there =>
    have shrunk : Each P { e with events := e.events.erase saceCmd.name } :=
      fun n id found => each n id ((Table.erase_some ..).mp found).2
    exact shrunk.same (deleted_same e saceCmd writer)
  | added started free parsed given =>
    intro n id found
    have absent : e.events[saceCmd.name]? = none := Std.ExtTreeMap.getElem?_eq_none free
    rcases (Table.insertIfNew_some absent n e.services.length id).mp found with ⟨rfl, rfl⟩ | old
    · obtain ⟨params, eq⟩ := eventTriggers_event parsed given
      exact ⟨_, List.getElem?_concat_length, new params eq⟩
    · obtain ⟨service, held, eq⟩ := each n id old
      obtain ⟨inside, at_⟩ := List.getElem?_eq_some_iff.mp held
      exact ⟨service, by simp [SaceEvent.added, List.getElem?_append_left, inside, at_], eq⟩
  | asked => exact each.same (addWriters_same e _ _)

theorem Each.moved {P : Str → SaceCommand → Prop} {e t : SaceEvent} {pipe : List Notice}
    (each : Each P e) (moved : e.Moved pipe t)
    (new : ∀ (saceCmd : SaceCommand) params, saceCmd.commandParams = some (.event params) →
      P saceCmd.name saceCmd) : Each P t := by
  cases moved with
  | same => exact each
  | request done => exact each.change (excuteNormal_change done) (new _)
  | snapshot => exact each
  | poll done => exact each.same (pollEvent_same done)
  | start done => exact each.same (startEvent_same done)
  | notice read done => exact each.same (handleNotice_same done)
  | uninit done => exact each.same (stopAll_same done).1

theorem Stored.change {e t : SaceEvent} {saceCmd : SaceCommand} {writer : SaceWriter}
    (stored : Stored e) (change : Change e saceCmd writer t) : Stored t :=
  stored_iff.mpr ((stored_iff.mp stored).change change fun params given => ⟨params, given⟩)

theorem Stored.moved {e t : SaceEvent} {pipe : List Notice} (stored : Stored e)
    (moved : e.Moved pipe t) : Stored t :=
  stored_iff.mpr ((stored_iff.mp stored).moved moved fun _ params given => ⟨params, given⟩)

theorem Moved.writer {e t : SaceEvent} {pipe : List Notice} (moved : e.Moved pipe t) :
    t.eventWriter = e.eventWriter := by
  cases moved with
  | same => rfl
  | request done =>
    cases excuteNormal_change done with
    | same => rfl
    | deleted there => exact (deleted_same _ _ _).writer
    | added started free parsed given => rfl
    | asked => exact (addWriters_same _ _ _).writer
  | snapshot => rfl
  | poll done => exact (pollEvent_same done).writer
  | start done => exact (startEvent_same done).writer
  | notice read done => exact (handleNotice_same done).writer
  | uninit done => exact (stopAll_same done).1.writer

end SaceEvent

namespace Saced

/-- In every reached state the entries of the service executor own their objects, and every
event has a Service with event parameters. -/
theorem reached_sound {event : SaceEvent} (loaded : event.Loaded) {d : Saced}
    (reached : Runs.Reached step Provided (start event) d) :
    d.server.service.Owned ∧ d.server.event.Stored := by
  let sound (d : Saced) : Prop := d.server.service.Owned ∧ d.server.event.Stored
  have initial : sound (start event) := ⟨.empty, loaded.events⟩
  apply reached.invariant initial
  intro s input t held provided moved
  obtain ⟨server, ran, rfl⟩ := step_eq_some.mp moved
  obtain ⟨service, event⟩ := turn_moved provided ran
  exact ⟨held.1.moved service, held.2.moved event⟩

end Saced
end Sace
