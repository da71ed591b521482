import Sace.Event.Excutor

/-! What the requests to SaceEvent come to, branch by branch. -/
namespace Sace.SaceEvent

/-- add_writers changes the writers alone. -/
theorem addWriters_eq (e : SaceEvent) (name : Str) (wr : SaceWriter) :
    ∃ writers, e.addWriters name wr = { e with writers } := by
  unfold addWriters
  split
  · exact ⟨_, rfl⟩
  · split
    · exact ⟨e.writers, rfl⟩
    · exact ⟨_, rfl⟩

def added (e : SaceEvent) (saceCmd : SaceCommand) (triggers : List Trigger) (started : Bool) :
    SaceEvent :=
  { e with
    services := e.services ++ [⟨triggers, saceCmd⟩]
    events := e.events.insertIfNew saceCmd.name e.services.length
    startingEvents :=
      if started then e.startingEvents.insert saceCmd.name else e.startingEvents }

theorem addEvent_taken {e : SaceEvent} {saceCmd : SaceCommand} (taken : saceCmd.name ∈ e.events)
    (env : EventEnv) : e.addEvent saceCmd env = pure (e, .err .exists_) := by
  simp only [addEvent, taken, if_true]

theorem addEvent_none {e : SaceEvent} {saceCmd : SaceCommand} (free : saceCmd.name ∉ e.events)
    (given : eventTriggers saceCmd.commandParams = pure []) (env : EventEnv) :
    e.addEvent saceCmd env = pure (e, .err .fail) := by
  simp only [addEvent, free, if_false, given, Traced.pure_then, if_true]

theorem addEvent_some {e : SaceEvent} {saceCmd : SaceCommand} {triggers : List Trigger}
    (free : saceCmd.name ∉ e.events)
    (given : eventTriggers saceCmd.commandParams = pure triggers) (some : triggers ≠ [])
    (env : EventEnv) :
    e.addEvent saceCmd env =
      if (triggeredAny env.properties triggers).1 then do
        memcpy saceCmd.extraLen.toNat EXTRA_BUFER_LEN
        Traced.emit (.post (.message (e.eventMsg (serviceCommand saceCmd))))
        return (e.added saceCmd (triggeredAny env.properties triggers).2 true, .done .ok)
      else return (e.added saceCmd (triggeredAny env.properties triggers).2 false, .done .ok) := by
  simp only [addEvent, free, if_false, given, Traced.pure_then, some, pollTriggers, service,
    List.getElem?_concat_length]
  split
  · simp only [startEvent, service, cloneServiceCommand]
    by_cases fits : saceCmd.extraLen.toNat ≤ EXTRA_BUFER_LEN
    · simp [memcpy_of_le fits, Traced.bind_def, added, eventMsg]
    · simp [memcpy_of_lt (Nat.lt_of_not_le fits), Traced.bind_def]
  · simp [added]

theorem eventTriggers_cases (params : Option ParamsObject) :
    (∃ triggers, eventTriggers params = pure triggers) ∨
      eventTriggers params = Traced.fault .outOfBounds := by
  match params with
  | none => exact .inl ⟨[], rfl⟩
  | some (.command _) => exact .inr rfl
  | some (.event params) =>
    cases parsed : parseEventParams params with
    | none => exact .inr (by simp only [eventTriggers, parsed])
    | some triggers => exact .inl ⟨triggers, by simp only [eventTriggers, parsed]⟩

theorem addEvent_fault {e : SaceEvent} {saceCmd : SaceCommand} (free : saceCmd.name ∉ e.events)
    (bad : eventTriggers saceCmd.commandParams = Traced.fault .outOfBounds) (env : EventEnv) :
    e.addEvent saceCmd env = Traced.fault .outOfBounds := by
  simp only [addEvent, free, if_false, bad, Traced.fault_then]

def deleted (e : SaceEvent) (saceCmd : SaceCommand) (writer : SaceWriter) : SaceEvent :=
  let e := { e with events := e.events.erase saceCmd.name }
  match stopFlag saceCmd, e.runningEvents[saceCmd.name]? with
  | true, some label =>
    ({ e with
      stopLabel := label
      stopSequence := if saceCmd.sequence ≠ 0 then saceCmd.sequence else e.stopSequence }
    : SaceEvent).addWriters saceCmd.name writer
  | _, _ => e

def deletePosts (e : SaceEvent) (saceCmd : SaceCommand) : List Effect :=
  if stopFlag saceCmd ∧ saceCmd.name ∈ e.runningEvents then [.post .stopMsg] else []

theorem delEvent_some {e : SaceEvent} {saceCmd : SaceCommand} (there : saceCmd.name ∈ e.events)
    (writer : SaceWriter) :
    e.delEvent saceCmd writer = (do
      memcpy saceCmd.extraLen.toNat 1
      Traced.emitAll (e.deletePosts saceCmd)
      return (e.deleted saceCmd writer, .done .ok)) := by
  unfold delEvent deleted deletePosts
  congr 1
  funext _
  simp only [there, not_true_eq_false, if_false]
  cases stopFlag saceCmd with
  | false => simp [Traced.bind_def, pure]
  | true =>
    cases running : e.runningEvents[saceCmd.name]? with
    | none =>
      have : saceCmd.name ∉ e.runningEvents := by
        intro there
        obtain ⟨label, found⟩ := Table.some_of_mem there
        cases running.symm.trans found
      simp [this]
      rfl
    | some label =>
      have : saceCmd.name ∈ e.runningEvents :=
        Table.mem_of_some running
      simp only [this, and_self, if_true, stopEvent, Traced.emit_then, Traced.pure_trace,
        Traced.pure_result, Traced.emitAll_then]
      rfl

theorem delEvent_none {e : SaceEvent} {saceCmd : SaceCommand} (absent : saceCmd.name ∉ e.events)
    (writer : SaceWriter) : e.delEvent saceCmd writer = (do
      memcpy saceCmd.extraLen.toNat 1
      return (e, .err .fail)) := by
  simp only [delEvent, absent, not_false_eq_true, if_true]

def infoCommand (saceCmd : SaceCommand) : SaceCommand :=
  { serviceCommand saceCmd with subType := SaceServiceCommandType.info.byte }

theorem infoEvent_running {e : SaceEvent} {saceCmd : SaceCommand}
    (byName : saceCmd.command = SERVICE_GET_BY_NAME)
    (running : saceCmd.name ∈ e.runningEvents) (writer : SaceWriter) :
    e.infoEvent saceCmd writer = (do
      memcpy saceCmd.extraLen.toNat EXTRA_BUFER_LEN
      Traced.emit (.post (.message
        ((e.addWriters saceCmd.name writer).eventMsg (infoCommand saceCmd))))
      return (e.addWriters saceCmd.name writer, .forwarded)) := by
  simp only [infoEvent, byName, ne_eq, not_true_eq_false, if_false, running, cloneServiceCommand]
  by_cases fits : saceCmd.extraLen.toNat ≤ EXTRA_BUFER_LEN
  · simp [memcpy_of_le fits, Traced.bind_def]
    rfl
  · simp [memcpy_of_lt (Nat.lt_of_not_le fits), Traced.bind_def]

theorem infoEvent_refused {e : SaceEvent} {saceCmd : SaceCommand}
    (refused : saceCmd.command = SERVICE_GET_BY_NAME → saceCmd.name ∉ e.runningEvents)
    (writer : SaceWriter) : e.infoEvent saceCmd writer = pure (e, .err .fail) := by
  unfold infoEvent
  split
  · rfl
  · rename_i byName
    rw [if_pos (refused (not_not.mp byName))]

theorem mem_eventList {e : SaceEvent} {event : EventService} :
    event ∈ e.eventList ↔
      ∃ (n : Str) (id : Nat), e.events[n]? = some id ∧ e.services[id]? = some event := by
  constructor
  · intro member
    obtain ⟨⟨n, id⟩, listed, held⟩ := List.mem_filterMap.mp member
    exact ⟨n, id, Std.ExtTreeMap.mem_toList_iff_getElem?_eq_some.mp listed, held⟩
  · rintro ⟨n, id, found, held⟩
    exact List.mem_filterMap.mpr
      ⟨(n, id), Std.ExtTreeMap.mem_toList_iff_getElem?_eq_some.mpr found, held⟩

theorem eventList_cmds (e : SaceEvent) :
    e.eventList.map EventService.cmd = e.events.toList.filterMap fun entry =>
      (e.services.map EventService.cmd)[entry.2]? := by
  unfold eventList
  rw [List.map_filterMap]
  simp only [List.getElem?_map]

theorem added_cmds (e : SaceEvent) (saceCmd : SaceCommand) (ts us : List Trigger) (b c : Bool) :
    (e.added saceCmd ts b).eventList.map EventService.cmd =
      (e.added saceCmd us c).eventList.map EventService.cmd := by
  rw [eventList_cmds, eventList_cmds]
  simp only [added, List.map_append, List.map_cons, List.map_nil]

inductive Change (e : SaceEvent) (saceCmd : SaceCommand) (writer : SaceWriter) : SaceEvent → Prop
  | same : Change e saceCmd writer e
  | deleted (there : saceCmd.name ∈ e.events) : Change e saceCmd writer (e.deleted saceCmd writer)
  | added {given triggers : List Trigger} (started : Bool) (free : saceCmd.name ∉ e.events)
      (parsed : eventTriggers saceCmd.commandParams = pure given) (some : given ≠ []) :
      Change e saceCmd writer (e.added saceCmd triggers started)
  | asked : Change e saceCmd writer (e.addWriters saceCmd.name writer)

section
variable {e t : SaceEvent} {saceCmd : SaceCommand} {writer : SaceWriter} {env : EventEnv}
variable {outcome : Outcome}

theorem delEvent_change (done : (e.delEvent saceCmd writer).result = .ok (t, outcome)) :
    saceCmd.name ∉ e.events ∧ t = e ∧ outcome = .err .fail ∨
      saceCmd.name ∈ e.events ∧ t = e.deleted saceCmd writer ∧ outcome = .done .ok := by
  by_cases there : saceCmd.name ∈ e.events
  · rw [delEvent_some there, Traced.bind_ok] at done
    obtain ⟨_, _, done⟩ := done
    cases done
    exact .inr ⟨there, rfl, rfl⟩
  · rw [delEvent_none there, Traced.bind_ok] at done
    obtain ⟨_, _, done⟩ := done
    cases done
    exact .inl ⟨there, rfl, rfl⟩

theorem addEvent_change (done : (e.addEvent saceCmd env).result = .ok (t, outcome)) :
    t = e ∨ ∃ (given triggers : List Trigger) (started : Bool), saceCmd.name ∉ e.events ∧
      eventTriggers saceCmd.commandParams = pure given ∧ given ≠ [] ∧
      t = e.added saceCmd triggers started := by
  by_cases taken : saceCmd.name ∈ e.events
  · rw [addEvent_taken taken] at done
    cases done
    exact .inl rfl
  rcases eventTriggers_cases saceCmd.commandParams with ⟨triggers, given⟩ | bad
  · by_cases empty : triggers = []
    · subst empty
      rw [addEvent_none taken given] at done
      cases done
      exact .inl rfl
    · rw [addEvent_some taken given empty] at done
      split at done
      · rw [Traced.bind_ok] at done
        obtain ⟨_, _, done⟩ := done
        cases done
        exact .inr ⟨_, _, true, taken, given, empty, rfl⟩
      · cases done
        exact .inr ⟨_, _, false, taken, given, empty, rfl⟩
  · rw [addEvent_fault taken bad] at done
    cases done

theorem infoEvent_change (done : (e.infoEvent saceCmd writer).result = .ok (t, outcome)) :
    t = e ∧ outcome = .err .fail ∨ saceCmd.name ∈ e.runningEvents ∧
      t = e.addWriters saceCmd.name writer ∧ outcome = .forwarded := by
  by_cases running : saceCmd.command = SERVICE_GET_BY_NAME ∧ saceCmd.name ∈ e.runningEvents
  · rw [infoEvent_running running.1 running.2, Traced.bind_ok] at done
    obtain ⟨_, _, done⟩ := done
    cases done
    exact .inr ⟨running.2, rfl, rfl⟩
  · rw [infoEvent_refused (not_and.mp running)] at done
    cases done
    exact .inl ⟨rfl, rfl⟩

theorem request_change (done : (e.request saceCmd writer env).result = .ok (t, outcome)) :
    Change e saceCmd writer t := by
  unfold request at done
  split at done
  · rcases delEvent_change done with ⟨_, rfl, _⟩ | ⟨there, rfl, _⟩
    · exact .same
    · exact .deleted there
  split at done
  · rcases addEvent_change done with rfl | ⟨given, triggers, started, free, parsed, some_, rfl⟩
    · exact .same
    · exact .added started free parsed some_
  split at done
  · rcases infoEvent_change done with ⟨rfl, _⟩ | ⟨_, rfl, _⟩
    · exact .same
    · exact .asked
  · cases done
    exact .same

end

/-! ### What is posted -/

def firesAtOnce (saceCmd : SaceCommand) (env : EventEnv) : Prop :=
  ∃ triggers, eventTriggers saceCmd.commandParams = pure triggers ∧
    (triggeredAny env.properties triggers).1

def StartsAtOnce (e : SaceEvent) (saceCmd : SaceCommand) (env : EventEnv) : Prop :=
  saceCmd.eventType = .add ∧ saceCmd.name ∉ e.events ∧ firesAtOnce saceCmd env

inductive Posts (e : SaceEvent) (saceCmd : SaceCommand) (writer : SaceWriter) (env : EventEnv) :
    Posted → Prop
  | stop : Posts e saceCmd writer env .stopMsg
  | info : Posts e saceCmd writer env
      (.message ((e.addWriters saceCmd.name writer).eventMsg (infoCommand saceCmd)))
  | start (now : e.StartsAtOnce saceCmd env) :
      Posts e saceCmd writer env (.message (e.eventMsg (serviceCommand saceCmd)))

section Effects
variable {e : SaceEvent} {saceCmd : SaceCommand} {writer : SaceWriter} {env : EventEnv}
variable {P : Effect → Prop} (copy : ∀ size capacity, P (.copy size capacity))
include copy

theorem delEvent_every (stop : P (.post .stopMsg)) :
    Traced.Every P (e.delEvent saceCmd writer) := by
  by_cases there : saceCmd.name ∈ e.events
  · rw [delEvent_some there, Traced.every_bind]
    refine ⟨memcpy_every (copy _ _), fun _ _ => ?_⟩
    rw [Traced.every_bind, Traced.every_emitAll]
    refine ⟨fun effect member => ?_, fun _ _ => Traced.every_pure _⟩
    unfold deletePosts at member
    split at member
    · cases List.mem_singleton.mp member
      exact stop
    · cases member
  · rw [delEvent_none there]
    exact (memcpy_every (copy _ _)).then_pure _

theorem addEvent_every (kind : saceCmd.eventType = .add)
    (start : e.StartsAtOnce saceCmd env →
      P (.post (.message (e.eventMsg (serviceCommand saceCmd))))) :
    Traced.Every P (e.addEvent saceCmd env) := by
  by_cases taken : saceCmd.name ∈ e.events
  · rw [addEvent_taken taken]
    exact Traced.every_pure _
  rcases eventTriggers_cases saceCmd.commandParams with ⟨triggers, given⟩ | bad
  · by_cases empty : triggers = []
    · subst empty
      rw [addEvent_none taken given]
      exact Traced.every_pure _
    · rw [addEvent_some taken given empty]
      split
      · rename_i fires
        rw [Traced.every_bind]
        refine ⟨memcpy_every (copy _ _), fun _ _ => ?_⟩
        rw [Traced.every_bind, Traced.every_emit]
        exact ⟨start ⟨kind, taken, triggers, given, fires⟩, fun _ _ => Traced.every_pure _⟩
      · exact Traced.every_pure _
  · rw [addEvent_fault taken bad]
    exact Traced.every_fault _

theorem infoEvent_every (info : P (.post (.message
      ((e.addWriters saceCmd.name writer).eventMsg (infoCommand saceCmd))))) :
    Traced.Every P (e.infoEvent saceCmd writer) := by
  by_cases running : saceCmd.command = SERVICE_GET_BY_NAME ∧ saceCmd.name ∈ e.runningEvents
  · rw [infoEvent_running running.1 running.2, Traced.every_bind]
    refine ⟨memcpy_every (copy _ _), fun _ _ => ?_⟩
    rw [Traced.every_bind, Traced.every_emit]
    exact ⟨info, fun _ _ => Traced.every_pure _⟩
  · rw [infoEvent_refused (not_and.mp running)]
    exact Traced.every_pure _

theorem request_every (post : ∀ message, Posts e saceCmd writer env message → P (.post message)) :
    Traced.Every P (e.request saceCmd writer env) := by
  unfold request
  split
  · exact delEvent_every copy (post _ .stop)
  split
  · rename_i kind
    exact addEvent_every copy kind fun now => post _ (.start now)
  split
  · exact infoEvent_every copy (post _ .info)
  · exact Traced.every_pure _

end Effects

section
variable {e : SaceEvent} {saceCmd : SaceCommand} {writer : SaceWriter} {env : EventEnv}

theorem start_posted (now : e.StartsAtOnce saceCmd env)
    (fits : saceCmd.extraLen.toNat ≤ EXTRA_BUFER_LEN) :
    .post (.message (e.eventMsg (serviceCommand saceCmd))) ∈
      (e.request saceCmd writer env).trace := by
  obtain ⟨kind, free, triggers, given, fires⟩ := now
  have some : triggers ≠ [] := by
    rintro rfl
    cases fires
  have branch : e.request saceCmd writer env = e.addEvent saceCmd env := by
    simp [request, kind, SaceEventType.add, SaceEventType.del]
  rw [branch, addEvent_some free given some, if_pos fires, memcpy_of_le fits,
    Traced.bind_of_ok rfl]
  simp

end

theorem writeEvents_every {P : Effect → Prop} (copy : ∀ size capacity, P (.copy size capacity))
    (events : List EventService) : Traced.Every P (writeEvents events) := by
  induction events with
  | nil => exact Traced.every_pure _
  | cons event rest ih =>
    unfold writeEvents
    split
    · exact Traced.every_fault _
    · rw [Traced.every_bind]
      refine ⟨memcpy_every (copy _ _), fun _ _ => ?_⟩
      rw [Traced.every_bind]
      refine ⟨memcpy_every (copy _ _), fun _ _ => ?_⟩
      split
      · exact ih
      · exact Traced.every_fault _

theorem writeIniFile_every {P : Effect → Prop} (copy : ∀ size capacity, P (.copy size capacity))
    (e : SaceEvent) (env : EventEnv) : Traced.Every P (e.writeIniFile env) := by
  unfold writeIniFile
  split
  · exact writeEvents_every copy _
  · exact Traced.every_pure _

def finish (msg : SaceReaderMessage) (env : EventEnv) : SaceEvent × Outcome → Exec SaceEvent
  | (e, .done status) => do
    e.writeIniFile env
    Traced.emit (.sendResult msg.msgWriter { initialResult msg.msgCmd with resultStatus := status })
    return e
  | (e, .err status) => do
    Traced.emit (.sendResult msg.msgWriter { initialResult msg.msgCmd with resultStatus := status })
    return e
  | (e, .forwarded) => return e

theorem excuteNormal_eq (e : SaceEvent) (msg : SaceReaderMessage) (env : EventEnv) :
    e.excuteNormal msg env = e.request msg.msgCmd msg.msgWriter env >>= finish msg env := by
  unfold excuteNormal
  congr 1
  funext out
  obtain ⟨t, outcome⟩ := out
  cases outcome with
  | done status => rfl
  | err status => rfl
  | forwarded => rfl

theorem finish_every {P : Effect → Prop} {msg : SaceReaderMessage} {env : EventEnv}
    (copy : ∀ size capacity, P (.copy size capacity))
    (send : ∀ status, P (.sendResult msg.msgWriter
      { initialResult msg.msgCmd with resultStatus := status })) (out : SaceEvent × Outcome) :
    Traced.Every P (finish msg env out) := by
  obtain ⟨t, outcome⟩ := out
  cases outcome with
  | done status =>
    rw [finish, Traced.every_bind]
    exact ⟨writeIniFile_every copy t env,
      fun _ _ => ((Traced.every_emit _).mpr (send status)).then_pure _⟩
  | err status => exact ((Traced.every_emit _).mpr (send status)).then_pure _
  | forwarded => exact Traced.every_pure _

theorem excuteNormal_every {P : Effect → Prop} {e : SaceEvent} {msg : SaceReaderMessage}
    {env : EventEnv} (copy : ∀ size capacity, P (.copy size capacity))
    (post : ∀ message, Posts e msg.msgCmd msg.msgWriter env message → P (.post message))
    (send : ∀ status, P (.sendResult msg.msgWriter
      { initialResult msg.msgCmd with resultStatus := status })) :
    Traced.Every P (e.excuteNormal msg env) := by
  rw [excuteNormal_eq, Traced.every_bind]
  exact ⟨request_every copy post, fun out _ => finish_every copy send out⟩

/-! ### The effects of the monitor thread -/

@[simp] theorem eventMsg_addWriters (e : SaceEvent) (name : Str) (wr : SaceWriter)
    (msgCmd : SaceCommand) : (e.addWriters name wr).eventMsg msgCmd = e.eventMsg msgCmd := by
  unfold addWriters
  split
  · rfl
  · split <;> rfl

section Effects
variable {P : Effect → Prop}

theorem service_every (e : SaceEvent) (id : Nat) : Traced.Every P (e.service id) := by
  unfold SaceEvent.service
  split
  · exact Traced.every_pure _
  · exact Traced.every_fault _

theorem passResult_every {e : SaceEvent} {result : SaceResult}
    (send : ∀ wr, P (.sendResult wr result)) : Traced.Every P (e.passResult result) := by
  rw [passResult, Traced.every_bind, Traced.every_emitAll]
  refine ⟨fun effect sent => ?_, fun _ _ => Traced.every_pure _⟩
  obtain ⟨wr, _, rfl⟩ := List.mem_map.mp sent
  exact send wr

theorem passResponse_every {e : SaceEvent} {response : SaceStatusResponse}
    (respond : ∀ wr, P (.sendResponse wr response)) : Traced.Every P (e.passResponse response) := by
  rw [passResponse, Traced.every_bind, Traced.every_emitAll]
  refine ⟨fun effect sent => ?_, fun _ _ => Traced.every_pure _⟩
  obtain ⟨wr, _, rfl⟩ := List.mem_map.mp sent
  exact respond wr

theorem handleResponse_every {e : SaceEvent} {response : SaceStatusResponse}
    (respond : ∀ wr, P (.sendResponse wr response)) :
    Traced.Every P (e.handleResponse response) := by
  unfold handleResponse
  split
  · exact passResponse_every respond
  split
  · rw [Traced.every_bind]
    constructor
    · unfold restartEvent
      split
      · exact Traced.every_pure _
      · rw [Traced.every_bind]
        exact ⟨service_every e _, fun _ _ => by split <;> exact Traced.every_pure _⟩
    · rintro ⟨failed, restarted⟩ _
      dsimp only
      split
      · exact Traced.every_pure _
      · exact passResponse_every respond
  · exact passResponse_every respond

theorem stopAll_every (stop : P (.post .stopMsg)) (sves : List (Str × UInt64)) (e : SaceEvent) :
    Traced.Every P (stopAll sves e) := by
  induction sves generalizing e with
  | nil => exact Traced.every_pure _
  | cons sve rest ih =>
    rw [stopAll, Traced.every_bind, stopEvent, Traced.every_bind, Traced.every_emit]
    exact ⟨⟨stop, fun _ _ => Traced.every_pure _⟩, fun _ _ => ih _⟩

variable {e : SaceEvent} (copy : ∀ size capacity, P (.copy size capacity))
variable (post : ∀ msgCmd, P (.post (.message (e.eventMsg msgCmd))))
include copy post

theorem startEvent_every (id : Nat) : Traced.Every P (e.startEvent id) := by
  rw [startEvent, Traced.every_bind]
  refine ⟨service_every e id, fun service _ => ?_⟩
  rw [Traced.every_bind, cloneServiceCommand, Traced.every_bind]
  refine ⟨⟨memcpy_every (copy _ _), fun _ _ => Traced.every_pure _⟩, fun msgCmd _ => ?_⟩
  rw [Traced.every_bind, Traced.every_emit]
  exact ⟨post _, fun _ _ => Traced.every_pure _⟩

theorem pollEvent_every (properties : Str → Str) (id : Nat) :
    Traced.Every P (e.pollEvent properties id) := by
  rw [pollEvent, Traced.every_bind, pollTriggers, Traced.every_bind]
  refine ⟨⟨service_every e id, fun _ _ => Traced.every_pure _⟩, ?_⟩
  rintro ⟨fired, polled⟩ found
  obtain ⟨service, _, polls⟩ := Traced.bind_ok.mp found
  cases polls
  dsimp only
  split
  · exact startEvent_every (e := { e with services := e.services.set id _ }) copy post id
  · exact Traced.every_pure _

theorem handleResult_every {result : SaceResult} (send : ∀ wr, P (.sendResult wr result)) :
    Traced.Every P (e.handleResult result) := by
  unfold handleResult
  split
  · exact passResult_every send
  split
  · split
    · exact startEvent_every copy post _
    · exact passResult_every send
  split
  · rw [Traced.every_bind]
    exact ⟨memcpy_every (copy _ _), fun _ _ => passResult_every send⟩
  · exact passResult_every send

end Effects
end Sace.SaceEvent
