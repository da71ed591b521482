import Sace.Message

/-! SaceEvent: services that are started when their triggers fire. A shared_ptr to a Service
is a position in `services`, which only grows. -/
namespace Sace

structure EventService where
  triggers : List Trigger
  cmd : SaceCommand
  deriving DecidableEq

abbrev NameSet : Type := Std.ExtTreeSet Str compare

/-- Of the command in the stop message only the label and the sequence ever change. -/
structure SaceEvent where
  services : List EventService := []
  events : Table Str Nat := ∅
  writers : Table Str (List SaceWriter) := ∅
  runningEvents : Table Str UInt64 := ∅
  failedEvents : NameSet := ∅
  startingEvents : NameSet := ∅
  eventWriter : SaceWriter
  stopName : Str
  stopLabel : UInt64 := 0
  stopSequence : UInt32

/-- The writer of the stop message: it sends nothing anywhere. -/
def stopWriter : SaceWriter := ⟨.none, -1⟩

def noClient : SaceClientIdentifier := ⟨0xFFFFFFFF, -1⟩

/-- What surrounds one event request: the property values, and whether the configuration
file can be opened for writing. -/
structure EventEnv where
  properties : Str → Str
  iniOpens : Bool

def triggeredAny (properties : Str → Str) : List Trigger → Bool × List Trigger
  | [] => (false, [])
  | tg :: rest =>
    let (fired, tg) := tg.triggered properties
    if fired then (true, tg :: rest)
    else
      let (fired, rest) := triggeredAny properties rest
      (fired, tg :: rest)

def serviceCommand (old : SaceCommand) : SaceCommand :=
  { old with
    extra := []
    extraLen := 0
    type := .service
    subType := SaceServiceCommandType.start.byte
    subFlags := SaceServiceFlags.event.byte }

/-- `clone_service_command`. The copy constructor copies as many extra bytes as the
original's length says. -/
def cloneServiceCommand (old : SaceCommand) : Exec SaceCommand := do
  memcpy old.extraLen.toNat EXTRA_BUFER_LEN
  return serviceCommand old

namespace SaceEvent

def service (e : SaceEvent) (id : Nat) : Exec EventService :=
  match e.services[id]? with
  | some service => return service
  | none => Traced.fault .useAfterFree

def eventMsg (e : SaceEvent) (msgCmd : SaceCommand) : SaceReaderMessage :=
  { msgHandler := .service, msgCmd, msgWriter := e.eventWriter, msgClient := noClient }

def startEvent (e : SaceEvent) (id : Nat) : Exec SaceEvent := do
  let service ← e.service id
  let msgCmd ← cloneServiceCommand service.cmd
  Traced.emit (.post (.message (e.eventMsg msgCmd)))
  return { e with startingEvents := e.startingEvents.insert service.cmd.name }

def mStopMsg (e : SaceEvent) : SaceReaderMessage :=
  { msgHandler := .service
    msgCmd :=
      { SaceCommand.init e.stopName e.stopSequence with
        type := .service
        label := e.stopLabel
        subType := SaceServiceCommandType.stop.byte }
    msgWriter := stopWriter
    msgClient := noClient }

/-- The one stop message is changed and posted again. -/
def stopEvent (e : SaceEvent) (label : UInt64) (sequence : UInt32) : Exec SaceEvent := do
  Traced.emit (.post .stopMsg)
  return { e with
    stopLabel := label
    stopSequence := if sequence ≠ 0 then sequence else e.stopSequence }

def addWriters (e : SaceEvent) (name : Str) (wr : SaceWriter) : SaceEvent :=
  match e.writers[name]? with
  | none => { e with writers := e.writers.insert name [wr] }
  | some wrs =>
    if wrs.any (·.same wr) then e
    else { e with writers := e.writers.insert name (wrs ++ [wr]) }

def pollTriggers (e : SaceEvent) (properties : Str → Str) (id : Nat) : Exec (Bool × SaceEvent) := do
  let service ← e.service id
  let (fired, triggers) := triggeredAny properties service.triggers
  return (fired, { e with services := e.services.set id { service with triggers } })

/-! ### The configuration file -/

def INI_BUFFER_LEN : Nat := 128

/-- The length of "%s %s\n" with the terminating zero. -/
def nameLine (cmd : SaceCommand) : Nat :=
  (Bytes.cString cmd.name).length + 1 + (Bytes.cString cmd.command).length + 2

/-- The length of "  user %s\n  group %s\n  seclabel %s\n" with the terminating zero. -/
def userLine (params : SaceCommandParams) : Nat :=
  7 + (Bytes.cString params.uid).length + 9 + (Bytes.cString params.gid).length +
    12 + (Bytes.cString params.seclabel).length + 2

/-- The characters 0, 1 and 2 of every rlimits string are read. -/
def rlimitsReadable (params : SaceCommandParams) : Bool :=
  params.rlimits.all fun rlms => 2 ≤ rlms.length

/-- The loop of write_ini_file, as far as it can go wrong: the text is written to the file
and not looked at again. -/
def writeEvents : List EventService → Exec Unit
  | [] => return ()
  | event :: rest =>
    match event.cmd.commandParams with
    | none => Traced.fault .nullPointer
    | some object => do
      memcpy (nameLine event.cmd) INI_BUFFER_LEN
      memcpy (userLine object.base) INI_BUFFER_LEN
      if rlimitsReadable object.base then writeEvents rest else Traced.fault .outOfBounds

def eventList (e : SaceEvent) : List EventService :=
  e.events.toList.filterMap fun entry => e.services[entry.2]?

def writeIniFile (e : SaceEvent) (env : EventEnv) : Exec Unit :=
  if env.iniOpens then writeEvents e.eventList else return ()

/-! ### Requests -/

/-- How a request goes on: to write_ini_file and the reply, directly to the reply, or
nowhere when it was forwarded. -/
inductive Outcome where
  | done (status : SaceResultStatus)
  | err (status : SaceResultStatus)
  | forwarded
  deriving DecidableEq

/-- `*(bool*)&stop` after the copy: its byte is overwritten when there are extra bytes. -/
def stopFlag (saceCmd : SaceCommand) : Bool :=
  saceCmd.extraLen ≠ 0 && saceCmd.extra.headD 0 ≠ 0

def delEvent (e : SaceEvent) (saceCmd : SaceCommand) (writer : SaceWriter) :
    Exec (SaceEvent × Outcome) := do
  memcpy saceCmd.extraLen.toNat 1
  if saceCmd.name ∉ e.events then return (e, .err .fail)
  else
    let e := { e with events := e.events.erase saceCmd.name }
    if stopFlag saceCmd then
      match e.runningEvents[saceCmd.name]? with
      | some label =>
        let e ← e.stopEvent label saceCmd.sequence
        return (e.addWriters saceCmd.name writer, .done .ok)
      | none => return (e, .done .ok)
    else return (e, .done .ok)

/-- The triggers that a command brings along. A cast to SaceEventParams of an object of the
base class reads behind it. -/
def eventTriggers : Option ParamsObject → Exec (List Trigger)
  | none => return []
  | some (.command _) => Traced.fault .outOfBounds
  | some (.event params) =>
    match parseEventParams params with
    | none => Traced.fault .outOfBounds
    | some triggers => return triggers

def addEvent (e : SaceEvent) (saceCmd : SaceCommand) (env : EventEnv) :
    Exec (SaceEvent × Outcome) := do
  if saceCmd.name ∈ e.events then return (e, .err .exists_)
  else
    let triggers ← eventTriggers saceCmd.commandParams
    if triggers = [] then return (e, .err .fail)
    else
      let id := e.services.length
      let e := { e with services := e.services ++ [EventService.mk triggers saceCmd] }
      let (fired, e) ← e.pollTriggers env.properties id
      let e ← if fired then e.startEvent id else pure e
      return ({ e with events := e.events.insertIfNew saceCmd.name id }, .done .ok)

def infoEvent (e : SaceEvent) (saceCmd : SaceCommand) (writer : SaceWriter) :
    Exec (SaceEvent × Outcome) :=
  if saceCmd.command ≠ SERVICE_GET_BY_NAME then return (e, .err .fail)
  else if saceCmd.name ∉ e.runningEvents then return (e, .err .fail)
  else do
    let msgCmd ← cloneServiceCommand saceCmd
    let msgCmd :=
      { msgCmd with
        subType := SaceServiceCommandType.info.byte
        subFlags := SaceServiceFlags.event.byte }
    let e := e.addWriters saceCmd.name writer
    Traced.emit (.post (.message (e.eventMsg msgCmd)))
    return (e, .forwarded)

def request (e : SaceEvent) (saceCmd : SaceCommand) (writer : SaceWriter) (env : EventEnv) :
    Exec (SaceEvent × Outcome) :=
  if saceCmd.eventType = .del then e.delEvent saceCmd writer
  else if saceCmd.eventType = .add then e.addEvent saceCmd env
  else if saceCmd.eventType = .info then e.infoEvent saceCmd writer
  else return (e, .done .fail)

def excuteNormal (e : SaceEvent) (msg : SaceReaderMessage) (env : EventEnv) : Exec SaceEvent := do
  let (e, outcome) ← e.request msg.msgCmd msg.msgWriter env
  match outcome with
  | .done status =>
    e.writeIniFile env
    Traced.emit (.sendResult msg.msgWriter { initialResult msg.msgCmd with resultStatus := status })
    return e
  | .err status =>
    Traced.emit (.sendResult msg.msgWriter { initialResult msg.msgCmd with resultStatus := status })
    return e
  | .forwarded => return e

/-! ### What the monitor thread does with results and responses -/

def restartEvent (e : SaceEvent) (eventName : Str) : Exec (SaceEvent × Bool) :=
  match e.events[eventName]? with
  | none => return (e, false)
  | some id => do
    let service ← e.service id
    if service.cmd.eventFlags = .restart then
      return ({ e with failedEvents := e.failedEvents.insert eventName }, true)
    else return (e, false)

def passResponse (e : SaceEvent) (response : SaceStatusResponse) : Exec SaceEvent := do
  let wrs := (e.writers[response.name]?).getD []
  Traced.emitAll (wrs.map fun wr => .sendResponse wr response)
  return { e with
    runningEvents := e.runningEvents.erase response.name
    writers := e.writers.erase response.name }

def handleResponse (e : SaceEvent) (response : SaceStatusResponse) : Exec SaceEvent :=
  if e.runningEvents[response.name]? ≠ some response.label then e.passResponse response
  else if response.status = .signal then do
    let (e, restarted) ← e.restartEvent response.name
    if restarted then return e else e.passResponse response
  else e.passResponse response

def passResult (e : SaceEvent) (result : SaceResult) : Exec SaceEvent := do
  let wrs := (e.writers[result.name]?).getD []
  Traced.emitAll (wrs.map fun wr => .sendResult wr result)
  return e

def handleResult (e : SaceEvent) (result : SaceResult) : Exec SaceEvent :=
  if result.name ∉ e.startingEvents then e.passResult result
  else if result.resultStatus ≠ .ok then
    match e.events[result.name]? with
    | some id => e.startEvent id
    | none => e.passResult result
  else if result.resultType = .label then do
    memcpy result.resultExtraLen.toNat 8
    let label := UInt64.ofNat (Bytes.toNat (Bytes.padded 8 result.resultExtra))
    let e :=
      { e with
        startingEvents := e.startingEvents.erase result.name
        runningEvents := e.runningEvents.insertIfNew result.name label }
    e.passResult result
  else e.passResult result

def pollEvent (e : SaceEvent) (properties : Str → Str) (id : Nat) : Exec SaceEvent := do
  let (fired, e) ← e.pollTriggers properties id
  if fired then e.startEvent id else return e

def stopAll : List (Str × UInt64) → SaceEvent → Exec SaceEvent
  | [], e => return e
  | sve :: rest, e => do
    let e ← e.stopEvent sve.2 0
    stopAll rest e

def onUninit (e : SaceEvent) : Exec SaceEvent := stopAll e.runningEvents.toList e

end SaceEvent
end Sace
