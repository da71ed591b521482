import Sace.Library.Runs
import Sace.Server

/-! The daemon: its readers, the queue to the executors, the executors, and SaceEvent's
monitor thread with the pipe that leads to it. -/
namespace Sace

inductive Notice where
  | result (result : SaceResult)
  | response (response : SaceStatusResponse)
  deriving DecidableEq

def piped (trace : List Effect) : List Notice :=
  trace.filterMap fun
    | .sendResult ⟨.pipe _, _⟩ result => some (.result result)
    | .sendResponse ⟨.pipe _, _⟩ response => some (.response response)
    | _ => none

theorem piped_append (first second : List Effect) :
    piped (first ++ second) = piped first ++ piped second := List.filterMap_append ..

namespace SaceEvent

def handleNotice (e : SaceEvent) : Notice → Exec SaceEvent
  | .result result => e.handleResult result
  | .response response => e.handleResponse response

end SaceEvent

namespace Server

/-- The turn of an executor for a message, without the monitor pass behind a service request. -/
def serve (server : Server) (msg : SaceReaderMessage) (answers : Answers) : Exec Server :=
  if server.mExit msg.msgHandler then return server
  else match msg.msgHandler with
    | .service => do
      let (service, result) ← server.service.request msg answers.env answers.start
      Traced.emit (.sendResult msg.msgWriter result)
      return { server with service }
    | _ => server.excute msg answers

def stop (server : Server) (kind : SaceMessageHandlerType) : Server :=
  { server with mExit := fun other => other = kind || server.mExit other }

end Server

def MAX_CLIENT_NUM : Nat := 32

/-- `queue` holds what was posted and not taken, `pipe` what was written and not read. `conns`
are the open connections: the descriptor of each and the process at its other end. The last
two fields are locals of SaceEvent's monitor thread. -/
structure Saced where
  server : Server
  mClients : List SaceSocketReader.ClientSocket
  conns : Table Int SaceClientIdentifier := ∅
  queue : List Posted := []
  pipe : List Notice := []
  cmds : Table Str Nat := ∅
  restart : NameSet := ∅

namespace Saced

/-- What the daemon's threads do next. Between a service request and the monitor pass behind
it other threads may run; the timer starts a pass alone. -/
inductive Input where
  /-- A connection comes in on `fd`; `full` is what the test of the indeterminate `i` yields. -/
  | accept (fd : Int) (client : SaceClientIdentifier) (full : Bool)
  | command (slot : Nat) (saceCmd : SaceCommand)
  | hangup (slot : Nat)
  | transaction (id : Nat) (client : SaceClientIdentifier) (saceCmd : SaceCommand)
  | take (kind : SaceMessageHandlerType) (answers : Answers)
  | monitor (wait : Nat → WaitAnswer)
  | snapshot
  | trigger (name : Str) (properties : Str → Str)
  | restartEvent (name : Str)
  /-- One read of the event pipe, which takes `more` whole messages beside the first. -/
  | read (more : Nat)
  | uninitService (wait : Nat → WaitAnswer)
  | destroyService
  | uninitEvent
  | uninitNormal

/-- The branch for a new connection. The indeterminate `i` may close the connection although
a slot has just been given its descriptor. -/
def accept (d : Saced) (fd : Int) (client : SaceClientIdentifier) (full : Bool) : Saced :=
  let mClients := match d.mClients.findIdx? (·.fd < 0) with
    | some i => d.mClients.set i { fd, client, writer := ⟨.socket fd, client.pid⟩ }
    | none => d.mClients
  { d with
    mClients
    conns := if full then d.conns.erase fd else d.conns.insert fd client }

def client (d : Saced) (slot : Nat) : Option SaceSocketReader.ClientSocket :=
  d.mClients[slot]?.filter fun climsg => 0 ≤ climsg.fd

def close (d : Saced) (slot : Nat) : Saced :=
  match d.client slot with
  | none => d
  | some climsg =>
    { d with
      conns := d.conns.erase climsg.fd
      mClients := d.mClients.set slot { climsg with fd := -1 } }

def next (d : Saced) (kind : SaceMessageHandlerType) : Option Posted :=
  d.queue.find? fun posted => (d.server.message posted).msgHandler = kind

def prepare (d : Saced) : Input → Saced
  | .accept fd client full => d.accept fd client full
  | .hangup slot => d.close slot
  | .take kind _ =>
    match d.next kind with
    | none => d
    | some posted => { d with queue := d.queue.erase posted }
  | .snapshot => { d with cmds := d.server.event.events, restart := d.server.event.failedEvents }
  | .read more => { d with pipe := d.pipe.drop (more + 1) }
  | _ => d

def turn (d : Saced) : Input → Exec Server
  | .command slot saceCmd =>
    match d.client slot with
    | none => return d.server
    | some climsg => do
      SaceSocketReader.handleSocketMsg climsg saceCmd
      return d.server
  | .hangup slot =>
    match d.client slot with
    | none => return d.server
    | some climsg => do
      SaceSocketReader.handleSocketClose { climsg with fd := -1 }
      return d.server
  | .transaction id client saceCmd =>
    if securedByUidPid client.uid client.pid then do
      Traced.emit (.post (.message
        { msgHandler := typeCmdToMsg saceCmd.type
          msgCmd := saceCmd
          msgWriter := ⟨.binder id, client.pid⟩
          msgClient := client }))
      return d.server
    else return d.server
  | .take kind answers =>
    match d.next kind with
    | none => return d.server
    | some posted => d.server.serve (d.server.message posted) answers
  | .monitor wait =>
    if d.server.mExit .service then return d.server
    else do return { d.server with service := ← d.server.service.monitorServiceStatus wait }
  | .snapshot =>
    return { d.server with event := { d.server.event with failedEvents := ∅ } }
  | .trigger name properties =>
    match d.cmds[name]? with
    | none => return d.server
    | some id => do return { d.server with event := ← d.server.event.pollEvent properties id }
  | .restartEvent name =>
    match d.cmds[name]? with
    | none => return d.server
    | some id =>
      if name ∈ d.restart then do
        return { d.server with event := ← d.server.event.startEvent id }
      else return d.server
  | .read _ =>
    match d.pipe.head? with
    | none => return d.server
    | some notice => do
      return { d.server with event := ← d.server.event.handleNotice notice }
  | .uninitService wait => do
    return { d.server.stop .service with service := ← d.server.service.onUninit wait }
  | .destroyService =>
    if d.server.mExit .service then do
      return { d.server with service := ← d.server.service.destroy }
    else return d.server
  | .uninitEvent => do
    return { d.server.stop .event with event := ← d.server.event.onUninit }
  | .uninitNormal => return d.server.stop .normal
  | _ => return d.server

/-- What a turn posts goes to the queue, what it pipes to the pipe. -/
def deliver (d : Saced) (server : Server) (trace : List Effect) : Saced :=
  { d with server, queue := d.queue ++ posted trace, pipe := d.pipe ++ piped trace }

def step (d : Saced) (input : Input) : Option Saced :=
  (d.turn input).value.map fun server => (d.prepare input).deliver server (d.turn input).trace

/-- The kernel gives a connection a descriptor that is not open, and the allocator answers
with an unused address. -/
def Provided (d : Saced) : Input → Prop
  | .accept fd _ _ => 0 < fd ∧ fd ∉ d.conns
  | .take _ answers => answers.start.address ∉ d.server.service.heap
  | _ => True

instance (d : Saced) : (input : Input) → Decidable (d.Provided input)
  | .accept fd _ _ => inferInstanceAs (Decidable (0 < fd ∧ fd ∉ d.conns))
  | .take _ answers =>
    inferInstanceAs (Decidable (answers.start.address ∉ d.server.service.heap))
  | .command .. | .hangup _ | .transaction .. | .monitor _ | .snapshot | .trigger ..
  | .restartEvent _ | .read _ | .uninitService _ | .destroyService | .uninitEvent
  | .uninitNormal => .isTrue trivial

/-- After the constructors and read_ini_file, before the first connection. -/
def start (event : SaceEvent) : Saced :=
  { server := { event }
    mClients := List.replicate MAX_CLIENT_NUM { client := noClient, writer := ⟨.none, 0⟩ } }

end Saced

/-- SaceEvent after read_ini_file: the events of the file, each with event parameters, and
nothing started. -/
structure SaceEvent.Loaded (e : SaceEvent) : Prop where
  events : ∀ (n : Str) (id : Nat), e.events[n]? = some id → ∃ service params,
    e.services[id]? = some service ∧ service.cmd.commandParams = some (.event params)
  writers : e.writers = ∅
  running : e.runningEvents = ∅
  failed : e.failedEvents = ∅
  starting : e.startingEvents = ∅
  pipe : ∃ fd, e.eventWriter.channel = .pipe fd

theorem SaceEvent.bare_loaded : SaceEvent.bare.Loaded where
  events n id found := by simp [bare] at found
  writers := rfl
  running := rfl
  failed := rfl
  starting := rfl
  pipe := ⟨4, rfl⟩

end Sace
