import Sace.Event.Monitor

/-! SaceEvent's two threads section by section: where one of them takes or leaves event_mutex,
the other may come in. -/
namespace Sace

/-- Where the executor's thread is in excuteNormal: at an end, or before the section that the
constructor is named for. `start`, `post` and `insert` are those of an ADD, `running`, `info` and
`infoPost` those of an INFO. -/
inductive ExcutorPlace where
  | free
  | erase (msg : SaceReaderMessage) (env : EventEnv)
  | stop (msg : SaceReaderMessage) (env : EventEnv)
  | start (msg : SaceReaderMessage) (env : EventEnv) (id : Nat)
  | post (msg : SaceReaderMessage) (env : EventEnv) (id : Nat)
  | insert (msg : SaceReaderMessage) (env : EventEnv) (id : Nat)
  | running (msg : SaceReaderMessage)
  | info (msg : SaceReaderMessage)
  | infoPost (msg : SaceReaderMessage)
  | reply (msg : SaceReaderMessage) (env : EventEnv) (status : SaceResultStatus)
  | err (msg : SaceReaderMessage) (status : SaceResultStatus)

/-- Where the monitor thread is: between two calls, in start_event, or in handle_result. -/
inductive MonitorPlace where
  | free
  | start (id : Nat)
  | post (id : Nat)
  | label (result : SaceResult)
  | pass (result : SaceResult)
  | restart (response : SaceStatusResponse)
  | finish (response : SaceStatusResponse)

namespace SaceEvent

def startSection (e : SaceEvent) (id : Nat) : Exec SaceEvent := do
  let service ← e.service id
  let _ ← cloneServiceCommand service.cmd
  return { e with startingEvents := e.startingEvents.insert service.cmd.name }

def startPost (e : SaceEvent) (id : Nat) : Exec Unit := do
  let service ← e.service id
  Traced.emit (.post (.message (e.eventMsg (serviceCommand service.cmd))))

def takeRequest (e : SaceEvent) (msg : SaceReaderMessage) (env : EventEnv) :
    Exec (SaceEvent × ExcutorPlace) :=
  let saceCmd := msg.msgCmd
  if saceCmd.eventType = .del then do
    memcpy saceCmd.extraLen.toNat 1
    return (e, if saceCmd.name ∈ e.events then .erase msg env else .err msg .fail)
  else if saceCmd.eventType = .add then
    if saceCmd.name ∈ e.events then return (e, .err msg .exists_)
    else do
      let triggers ← eventTriggers saceCmd.commandParams
      if triggers = [] then return (e, .err msg .fail)
      else
        let id := e.services.length
        let e := { e with services := e.services ++ [EventService.mk triggers saceCmd] }
        let (fired, e) ← e.pollTriggers env.properties id
        return (e, if fired then .start msg env id else .insert msg env id)
  else if saceCmd.eventType = .info then
    return (e, if saceCmd.command = SERVICE_GET_BY_NAME then .running msg else .err msg .fail)
  else return (e, .reply msg env .fail)

def excutorSection (e : SaceEvent) : ExcutorPlace → Exec (SaceEvent × ExcutorPlace)
  | .free => return (e, .free)
  | .erase msg env =>
    return ({ e with events := e.events.erase msg.msgCmd.name },
      if stopFlag msg.msgCmd then .stop msg env else .reply msg env .ok)
  | .stop msg env =>
    match e.runningEvents[msg.msgCmd.name]? with
    | some label => do
      let e ← e.stopEvent label msg.msgCmd.sequence
      return (e.addWriters msg.msgCmd.name msg.msgWriter, .reply msg env .ok)
    | none => return (e, .reply msg env .ok)
  | .start msg env id => do return (← e.startSection id, .post msg env id)
  | .post msg env id => do
    e.startPost id
    return (e, .insert msg env id)
  | .insert msg env id =>
    return ({ e with events := e.events.insertIfNew msg.msgCmd.name id }, .reply msg env .ok)
  | .running msg =>
    if msg.msgCmd.name ∉ e.runningEvents then return (e, .err msg .fail)
    else do
      let _ ← cloneServiceCommand msg.msgCmd
      return (e, .info msg)
  | .info msg => return (e.addWriters msg.msgCmd.name msg.msgWriter, .infoPost msg)
  | .infoPost msg => do
    Traced.emit (.post (.message (e.eventMsg (infoCommand msg.msgCmd))))
    return (e, .free)
  | .reply msg env status => do
    e.writeIniFile env
    Traced.emit (.sendResult msg.msgWriter { initialResult msg.msgCmd with resultStatus := status })
    return (e, .free)
  | .err msg status => do
    Traced.emit (.sendResult msg.msgWriter { initialResult msg.msgCmd with resultStatus := status })
    return (e, .free)

def takeTrigger (e : SaceEvent) (properties : Str → Str) (id : Nat) :
    Exec (SaceEvent × MonitorPlace) := do
  let (fired, e) ← e.pollTriggers properties id
  return (e, if fired then .start id else .free)

def takeNotice (e : SaceEvent) : Notice → Exec (SaceEvent × MonitorPlace)
  | .result result =>
    if result.name ∉ e.startingEvents then return (e, .pass result)
    else if result.resultStatus ≠ .ok then
      match e.events[result.name]? with
      | some id => return (e, .start id)
      | none => return (e, .pass result)
    else if result.resultType = .label then do
      memcpy result.resultExtraLen.toNat 8
      return (e, .label result)
    else return (e, .pass result)
  | .response response =>
    if e.runningEvents[response.name]? ≠ some response.label then return (e, .finish response)
    else if response.status = .signal then return (e, .restart response)
    else return (e, .finish response)

def monitorSection (e : SaceEvent) : MonitorPlace → Exec (SaceEvent × MonitorPlace)
  | .free => return (e, .free)
  | .start id => do return (← e.startSection id, .post id)
  | .post id => do
    e.startPost id
    return (e, .free)
  | .label result =>
    return ({ e with
      startingEvents := e.startingEvents.erase result.name
      runningEvents := e.runningEvents.insertIfNew result.name (givenLabel result) },
      .pass result)
  | .pass result => do return (← e.passResult result, .free)
  | .restart response => do
    let (e, restarted) ← e.restartEvent response.name
    return (e, if restarted then .free else .finish response)
  | .finish response => do return (← e.passResponse response, .free)

/-- At most `n` sections in a row. -/
def excutorAlone : Nat → SaceEvent → ExcutorPlace → Exec SaceEvent
  | 0, e, _ => return e
  | n + 1, e, place => do
    let out ← e.excutorSection place
    excutorAlone n out.1 out.2

def monitorAlone : Nat → SaceEvent → MonitorPlace → Exec SaceEvent
  | 0, e, _ => return e
  | n + 1, e, place => do
    let out ← e.monitorSection place
    monitorAlone n out.1 out.2

/-! ### A thread alone -/

@[simp] theorem excutorAlone_free (n : Nat) (e : SaceEvent) : excutorAlone n e .free = pure e := by
  induction n with
  | zero => rfl
  | succ n ih => simp only [excutorAlone, excutorSection, Traced.pure_then, ih]

@[simp] theorem monitorAlone_free (n : Nat) (e : SaceEvent) : monitorAlone n e .free = pure e := by
  induction n with
  | zero => rfl
  | succ n ih => simp only [monitorAlone, monitorSection, Traced.pure_then, ih]

theorem startEvent_sections (e : SaceEvent) (id : Nat) : e.startEvent id = (do
    let t ← e.startSection id
    t.startPost id
    return t) := by
  cases held : e.services[id]? with
  | none => simp [startEvent, startSection, service, held]
  | some found =>
    simp only [startEvent, startSection, startPost, service, held, Traced.pure_then,
      cloneServiceCommand, Traced.bind_assoc]
    rfl

section
variable (n : Nat) (e : SaceEvent)

theorem monitorAlone_start (id : Nat) : monitorAlone (n + 2) e (.start id) = e.startEvent id := by
  rw [startEvent_sections]
  simp only [monitorAlone, monitorSection, Traced.bind_assoc, Traced.pure_then, monitorAlone_free]

theorem monitorAlone_pass (result : SaceResult) :
    monitorAlone (n + 1) e (.pass result) = e.passResult result := by
  simp only [monitorAlone, monitorSection, Traced.bind_assoc, Traced.pure_then, monitorAlone_free,
    Traced.then_pure]

theorem monitorAlone_label (result : SaceResult) : monitorAlone (n + 2) e (.label result) =
    ({ e with
      startingEvents := e.startingEvents.erase result.name
      runningEvents := e.runningEvents.insertIfNew result.name (givenLabel result) }
    : SaceEvent).passResult result := by
  rw [monitorAlone, monitorSection, Traced.pure_then]
  exact monitorAlone_pass ..

theorem monitorAlone_finish (response : SaceStatusResponse) :
    monitorAlone (n + 1) e (.finish response) = e.passResponse response := by
  simp only [monitorAlone, monitorSection, Traced.bind_assoc, Traced.pure_then, monitorAlone_free,
    Traced.then_pure]

theorem monitorAlone_restart (response : SaceStatusResponse) :
    monitorAlone (n + 2) e (.restart response) = (do
      let (e, restarted) ← e.restartEvent response.name
      if restarted then return e else e.passResponse response) := by
  rw [monitorAlone, monitorSection, Traced.bind_assoc]
  congr 1
  funext out
  obtain ⟨u, restarted⟩ := out
  cases restarted with
  | true => exact monitorAlone_free _ _
  | false => exact monitorAlone_finish _ _ _

theorem excutorAlone_err (msg : SaceReaderMessage) (env : EventEnv) (status : SaceResultStatus) :
    excutorAlone (n + 1) e (.err msg status) = finish msg env (e, .err status) := by
  simp only [excutorAlone, excutorSection, finish, Traced.bind_assoc, Traced.pure_then,
    excutorAlone_free]

theorem excutorAlone_reply (msg : SaceReaderMessage) (env : EventEnv) (status : SaceResultStatus) :
    excutorAlone (n + 1) e (.reply msg env status) = finish msg env (e, .done status) := by
  simp only [excutorAlone, excutorSection, finish, Traced.bind_assoc, Traced.pure_then,
    excutorAlone_free]

theorem excutorAlone_insert (msg : SaceReaderMessage) (env : EventEnv) (id : Nat) :
    excutorAlone (n + 2) e (.insert msg env id) =
      finish msg env ({ e with events := e.events.insertIfNew msg.msgCmd.name id }, .done .ok) := by
  rw [excutorAlone, excutorSection, Traced.pure_then]
  exact excutorAlone_reply ..

theorem excutorAlone_post (msg : SaceReaderMessage) (env : EventEnv) (id : Nat) :
    excutorAlone (n + 3) e (.post msg env id) = (do
      e.startPost id
      finish msg env
        ({ e with events := e.events.insertIfNew msg.msgCmd.name id }, .done .ok)) := by
  rw [excutorAlone, excutorSection, Traced.bind_assoc]
  congr 1
  funext _
  exact excutorAlone_insert ..

theorem excutorAlone_start (msg : SaceReaderMessage) (env : EventEnv) (id : Nat) :
    excutorAlone (n + 4) e (.start msg env id) = (do
      let e ← e.startEvent id
      finish msg env
        ({ e with events := e.events.insertIfNew msg.msgCmd.name id }, .done .ok)) := by
  rw [startEvent_sections, excutorAlone, excutorSection, Traced.bind_assoc, Traced.bind_assoc]
  congr 1
  funext t
  rw [Traced.pure_then, Traced.bind_assoc]
  exact excutorAlone_post ..

theorem excutorAlone_stop (msg : SaceReaderMessage) (env : EventEnv) :
    excutorAlone (n + 2) e (.stop msg env) = match e.runningEvents[msg.msgCmd.name]? with
      | some label => do
        let e ← e.stopEvent label msg.msgCmd.sequence
        finish msg env (e.addWriters msg.msgCmd.name msg.msgWriter, .done .ok)
      | none => finish msg env (e, .done .ok) := by
  rw [excutorAlone, excutorSection]
  cases e.runningEvents[msg.msgCmd.name]? with
  | none => exact excutorAlone_reply ..
  | some label =>
    rw [Traced.bind_assoc]
    congr 1
    funext t
    exact excutorAlone_reply ..

theorem excutorAlone_erase (msg : SaceReaderMessage) (env : EventEnv) :
    excutorAlone (n + 3) e (.erase msg env) =
      excutorAlone (n + 2) { e with events := e.events.erase msg.msgCmd.name }
        (if stopFlag msg.msgCmd then .stop msg env else .reply msg env .ok) := by
  rw [excutorAlone, excutorSection, Traced.pure_then]

theorem excutorAlone_running (msg : SaceReaderMessage) (env : EventEnv) :
    excutorAlone (n + 3) e (.running msg) =
      if msg.msgCmd.name ∉ e.runningEvents then finish msg env (e, .err .fail)
      else do
        let _ ← cloneServiceCommand msg.msgCmd
        let e := e.addWriters msg.msgCmd.name msg.msgWriter
        Traced.emit (.post (.message (e.eventMsg (infoCommand msg.msgCmd))))
        return e := by
  rw [excutorAlone, excutorSection]
  split
  · exact excutorAlone_err ..
  · rw [Traced.bind_assoc]
    congr 1
    funext _
    simp only [Traced.pure_then, excutorAlone, excutorSection, Traced.bind_assoc, excutorAlone_free]

end

theorem pollEvent_sections (e : SaceEvent) (properties : Str → Str) (id : Nat) :
    e.pollEvent properties id = (do
      let out ← e.takeTrigger properties id
      monitorAlone 2 out.1 out.2) := by
  simp only [pollEvent, takeTrigger, Traced.bind_assoc, Traced.pure_then]
  congr 1
  funext out
  split
  · exact (monitorAlone_start ..).symm
  · exact (monitorAlone_free ..).symm

theorem handleNotice_sections (e : SaceEvent) (notice : Notice) :
    e.handleNotice notice = (do
      let out ← e.takeNotice notice
      monitorAlone 2 out.1 out.2) := by
  cases notice with
  | result result =>
    simp only [handleNotice, handleResult, takeNotice]
    split
    · exact (monitorAlone_pass ..).symm
    split
    · cases e.events[result.name]? with
      | some id => exact (monitorAlone_start ..).symm
      | none => exact (monitorAlone_pass ..).symm
    split
    · rw [Traced.bind_assoc]
      congr 1
      funext _
      exact (monitorAlone_label ..).symm
    · exact (monitorAlone_pass ..).symm
  | response response =>
    simp only [handleNotice, handleResponse, takeNotice]
    split
    · exact (monitorAlone_finish ..).symm
    split
    · exact (monitorAlone_restart ..).symm
    · exact (monitorAlone_finish ..).symm

theorem excuteNormal_sections (e : SaceEvent) (msg : SaceReaderMessage) (env : EventEnv) :
    e.excuteNormal msg env = (do
      let out ← e.takeRequest msg env
      excutorAlone 4 out.1 out.2) := by
  rw [excuteNormal_eq, request, takeRequest]
  dsimp only
  split
  · simp only [delEvent, Traced.bind_assoc]
    congr 1
    funext _
    by_cases there : msg.msgCmd.name ∈ e.events
    · simp only [there, not_true_eq_false, if_false, if_true, Traced.pure_then]
      rw [excutorAlone_erase]
      split
      · rw [excutorAlone_stop]
        cases e.runningEvents[msg.msgCmd.name]? with
        | none => rfl
        | some label => rfl
      · exact (excutorAlone_reply ..).symm
    · simp only [there, not_false_eq_true, if_true, if_false, Traced.pure_then]
      exact (excutorAlone_err ..).symm
  split
  · unfold addEvent
    split
    · exact (excutorAlone_err 3 e msg env _).symm
    · simp only [Traced.bind_assoc]
      congr 1
      funext triggers
      split
      · exact (excutorAlone_err 3 e msg env _).symm
      · simp only [Traced.bind_assoc]
        congr 1
        funext out
        obtain ⟨fired, t⟩ := out
        cases fired with
        | true =>
          simp only [if_true, Traced.bind_assoc, Traced.pure_then]
          exact (excutorAlone_start ..).symm
        | false => exact (excutorAlone_insert ..).symm
  split
  · unfold infoEvent
    by_cases byName : msg.msgCmd.command = SERVICE_GET_BY_NAME
    · simp only [byName, ne_eq, not_true_eq_false, if_false, if_true, Traced.pure_then]
      rw [excutorAlone_running 1 e msg env]
      split
      · rfl
      · simp only [cloneServiceCommand, Traced.bind_assoc, Traced.pure_then]
        rfl
    · simp only [byName, ne_eq, not_false_eq_true, if_true, if_false, Traced.pure_then]
      exact (excutorAlone_err 3 e msg env _).symm
  · exact (excutorAlone_reply ..).symm

end SaceEvent
end Sace
