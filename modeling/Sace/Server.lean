import Sace.Event.Excutor
import Sace.Normal.Excutor
import Sace.Reader.Socket
import Sace.Service.Excutor

/-! SaceCommandDispatcher and the three executors behind it. -/
namespace Sace

/-- `mExit` says of an executor whether it has been told to stop. -/
structure Server where
  service : SaceServiceExcutor := {}
  normal : SaceNormalExcutor := {}
  event : SaceEvent
  mExit : SaceMessageHandlerType → Bool := fun _ => false

/-- What surrounds the handling of one message. -/
structure Answers where
  env : ParseEnv
  start : StartAnswers
  popen : PopenAnswers
  pclose : Int → List WaitAnswer
  wait : Nat → WaitAnswer
  eventEnv : EventEnv

def SaceEvent.bare : SaceEvent :=
  { eventWriter := ⟨.pipe 4, 100⟩, stopName := str "100:101", stopSequence := 1 }

def shellSocket : SaceSocketReader.ClientSocket :=
  { fd := 5, client := ⟨2000, 200⟩, writer := ⟨.socket 5, 200⟩ }

def systemSocket : SaceSocketReader.ClientSocket :=
  { fd := 5, client := ⟨1000, 200⟩, writer := ⟨.socket 5, 200⟩ }

/-- The next child gets pid 300, no child ends and no property is set. -/
def Answers.quiet : Answers :=
  { env := .empty
    start := { address := 16, fork := 300, localtime := str "2026_0101_000000" }
    popen := { address := 16, fd := 8, pid := 300 }
    pclose := fun _ => []
    wait := fun _ => .running
    eventEnv := { properties := fun _ => [], iniOpens := true } }

def posted (trace : List Effect) : List Posted :=
  trace.filterMap fun
    | .post message => some message
    | _ => none

theorem posted_append (first second : List Effect) :
    posted (first ++ second) = posted first ++ posted second := List.filterMap_append ..

def unposted (trace : List Effect) : List Effect :=
  trace.filter fun
    | .post _ => false
    | _ => true

namespace Server

/-- The turn of the executor that a message is for. The dispatcher only logs a message that
is for none of them. -/
def excute (server : Server) (msg : SaceReaderMessage) (answers : Answers) : Exec Server :=
  match msg.msgHandler with
  | .unkown => return server
  | .normal => do
    let normal ← server.normal.excuteNormal msg answers.env answers.popen answers.pclose
    return { server with normal }
  | .service => do
    let service ← server.service.excuteNormal msg answers.env answers.start answers.wait
    return { server with service }
  | .event => do
    let event ← server.event.excuteNormal msg answers.eventEnv
    return { server with event }

/-- `SaceCommandDispatcher::handleMessage`; an executor that is stopping drops the message. -/
def handleMessage (server : Server) (msg : SaceReaderMessage) (answers : Answers) :
    Exec Server :=
  if server.mExit msg.msgHandler then return server else server.excute msg answers

/-- The message that a pointer in the queue leads to when it is taken out. -/
def message (server : Server) : Posted → SaceReaderMessage
  | .message msg => msg
  | .stopMsg => server.event.mStopMsg

def handleAll (answers : Answers) : List Posted → Server → Exec Server
  | [], server => return server
  | msg :: rest, server => do
    let server ← server.handleMessage (server.message msg) answers
    handleAll answers rest server

def handleCommand (server : Server) (climsg : SaceSocketReader.ClientSocket)
    (saceCmd : SaceCommand) (answers : Answers) : Exec Server := do
  let out := SaceSocketReader.handleSocketMsg climsg saceCmd
  Traced.emitAll (unposted out.trace)
  handleAll answers (posted out.trace) server

/-- The turn for a message and the turns for the messages that it posts, also when it breaks
off after a post. -/
def turns (server : Server) (msg : SaceReaderMessage) (answers : Answers) : List Effect :=
  let turn := server.handleMessage msg answers
  let server := turn.value.getD server
  turn.trace ++ (posted turn.trace).flatMap fun msg =>
    (server.handleMessage (server.message msg) answers).trace

def readEffects (F : ParcelFormat) (server : Server) (climsg : SaceSocketReader.ClientSocket)
    (saceCmd : SaceCommand) (temp : Bytes) (answers : Answers) : List Effect :=
  let decoded := SaceSocketReader.recvCommand F saceCmd temp
  decoded.trace ++ match decoded.result with
    | .ok (some saceCmd) =>
      let out := SaceSocketReader.handleSocketMsg climsg saceCmd
      unposted out.trace ++
        (posted out.trace).flatMap fun msg => server.turns (server.message msg) answers
    | _ => []

def idle : Server := { event := .bare }

theorem handleCommand_refused {server : Server} {climsg : SaceSocketReader.ClientSocket}
    {saceCmd : SaceCommand} {answers : Answers}
    (refused : securedByUidPid climsg.client.uid climsg.client.pid = false) :
    server.handleCommand climsg saceCmd answers =
      ⟨[.sendResult climsg.writer resultBySecure], .ok server⟩ := by
  simp [handleCommand, SaceSocketReader.handleSocketMsg, refused, posted, unposted, handleAll]

def commandMsg (climsg : SaceSocketReader.ClientSocket) (saceCmd : SaceCommand) :
    SaceReaderMessage :=
  { msgHandler := typeCmdToMsg saceCmd.type
    msgCmd := saceCmd
    msgWriter := climsg.writer
    msgClient := climsg.client }

theorem handleCommand_secured {server : Server} {climsg : SaceSocketReader.ClientSocket}
    {saceCmd : SaceCommand} {answers : Answers}
    (secured : securedByUidPid climsg.client.uid climsg.client.pid = true) :
    server.handleCommand climsg saceCmd answers =
      server.handleMessage (commandMsg climsg saceCmd) answers := by
  simp [handleCommand, SaceSocketReader.handleSocketMsg, secured, posted, unposted, handleAll,
    message, commandMsg]

end Server
end Sace
