import Sace.Message

/-! SaceServiceExcutor. Objects are addressed by pointers into `heap`; an address that
is not in it has been deleted or was never allocated. -/
namespace Sace

structure ServiceInfo where
  name : Str
  pid : Int
  startTime : Str := []
  state : ServiceState
  cmdLine : Str
  writer : List SaceWriter := []
  label : UInt64
  flags : SaceServiceFlags
  deriving DecidableEq

namespace ServiceInfo

def addWriter (sveInfo : ServiceInfo) (wr : SaceWriter) : ServiceInfo :=
  if sveInfo.writer.any (·.same wr) then sveInfo
  else { sveInfo with writer := sveInfo.writer ++ [wr] }

def sendResponse (sveInfo : ServiceInfo) (response : SaceStatusResponse) : Exec Unit :=
  Traced.emitAll (sveInfo.writer.map fun wr => .sendResponse wr response)

def sendPolled (sveInfo : ServiceInfo) : Option SaceStatusResponse → Exec Unit
  | some response => sveInfo.sendResponse response
  | none => return ()

/-- The bytes of `SaceServiceInfo::ServiceInfo`, filled by two `strncpy` calls into a
zeroed struct; four bytes of padding stand before the label. -/
def infoBytes (sveInfo : ServiceInfo) : Bytes :=
  Bytes.padded SERVICE_NAME_LEN ((Bytes.cString sveInfo.name).take (SERVICE_NAME_LEN - 1)) ++
  Bytes.padded CMD_BUFFER_LEN ((Bytes.cString sveInfo.cmdLine).take (CMD_BUFFER_LEN - 1)) ++
  Bytes.littleEndian 4 sveInfo.state.code ++ Bytes.littleEndian 4 0 ++
  Bytes.littleEndian 8 sveInfo.label.toNat

end ServiceInfo

structure SaceServiceExcutor where
  mRunningService : List UInt64 := []
  mSeqService : Table UInt64 UInt64 := ∅
  mNameService : Table Str UInt64 := ∅
  heap : Table UInt64 ServiceInfo := ∅

/-- What the kernel and the allocator answer to a START. `fork` is negative when it
fails and otherwise the child's pid: the parent never sees 0. -/
structure StartAnswers where
  address : UInt64
  fork : Int
  localtime : Str

/-! ### Wait statuses -/

def wTermSig (status : UInt32) : UInt32 := status &&& 0x7f
def wIfExited (status : UInt32) : Bool := wTermSig status = 0
def wExitStatus (status : UInt32) : UInt32 := (status &&& 0xff00) >>> 8
def wIfSignaled (status : UInt32) : Bool := 2 ≤ wTermSig (status + 1)

namespace SaceServiceExcutor

def deref (s : SaceServiceExcutor) (p : UInt64) : Exec ServiceInfo :=
  match s.heap[p]? with
  | some sveInfo => pure sveInfo
  | none => Traced.fault .useAfterFree

def store (s : SaceServiceExcutor) (p : UInt64) (sveInfo : ServiceInfo) : SaceServiceExcutor :=
  { s with heap := s.heap.insert p sveInfo }

def add (s : SaceServiceExcutor) (p : UInt64) (sveInfo : ServiceInfo) : SaceServiceExcutor :=
  { mRunningService := s.mRunningService ++ [p]
    mSeqService := s.mSeqService.insertIfNew sveInfo.label p
    mNameService := s.mNameService.insertIfNew sveInfo.name p
    heap := s.heap.insert p sveInfo }

def remove (s : SaceServiceExcutor) (i : Nat) (p : UInt64) (sveInfo : ServiceInfo) :
    SaceServiceExcutor :=
  { mSeqService := s.mSeqService.erase sveInfo.label
    mNameService := s.mNameService.erase sveInfo.name
    mRunningService := s.mRunningService.eraseIdx i
    heap := s.heap.erase p }

/-! ### Requests -/

def newService (saceCmd : SaceCommand) (writer : SaceWriter) (answers : StartAnswers) :
    ServiceInfo :=
  ServiceInfo.addWriter
    { state := .running
      cmdLine := saceCmd.command
      name := saceCmd.name
      label := sequenceToLabel saceCmd.sequence answers.address
      flags := saceCmd.serviceFlags
      pid := answers.fork
      startTime := answers.localtime } writer

def startService (s : SaceServiceExcutor) (saceCmd : SaceCommand) (writer : SaceWriter)
    (env : ParseEnv) (answers : StartAnswers) (result : SaceResult) :
    Exec (SaceServiceExcutor × SaceResult) := do
  if saceCmd.name ∈ s.mNameService then
    return (s, { result with resultStatus := .exists_ })
  let sveInfo := newService saceCmd writer answers
  let param := saceCmd.commandParams.map fun p => parseCommandParams env p.base
  memcpyString saceCmd.command.length CMD_BUFFER_LEN
  if 0 < answers.fork then
    Traced.emit (.spawn answers.fork param)
    return (s.add answers.address sveInfo,
      { result with
        resultStatus := .ok
        resultType := .none
        label := sveInfo.label
        resultExtra := Bytes.littleEndian 8 sveInfo.label.toNat
        resultExtraLen := 8 })
  else
    return (s, result)

def stopService (s : SaceServiceExcutor) (saceCmd : SaceCommand) (result : SaceResult) :
    Exec (SaceServiceExcutor × SaceResult) :=
  match s.mSeqService[saceCmd.label]? with
  | none => return (s, result)
  | some p => do
    let sveInfo ← s.deref p
    if sveInfo.state ≠ .running ∧ sveInfo.state ≠ .paused then
      return (s, { result with resultStatus := .ok })
    else
      Traced.emit (.kill sveInfo.pid SIGTERM)
      return (s.store p { sveInfo with state := .finishingUser },
        { result with resultStatus := .ok })

def pauseService (s : SaceServiceExcutor) (saceCmd : SaceCommand) (result : SaceResult) :
    Exec (SaceServiceExcutor × SaceResult) :=
  match s.mSeqService[saceCmd.label]? with
  | none => return (s, result)
  | some p => do
    let sveInfo ← s.deref p
    if sveInfo.state = .running then
      Traced.emit (.kill sveInfo.pid SIGSTOP)
      return (s.store p { sveInfo with state := .paused }, { result with resultStatus := .ok })
    else
      return (s, result)

/-- The service is appended to `mRunningService` although pausing has not taken it out. -/
def restartService (s : SaceServiceExcutor) (saceCmd : SaceCommand) (result : SaceResult) :
    Exec (SaceServiceExcutor × SaceResult) :=
  match s.mSeqService[saceCmd.label]? with
  | none => return (s, result)
  | some p => do
    let sveInfo ← s.deref p
    if sveInfo.state = .paused then
      Traced.emit (.kill sveInfo.pid SIGCONT)
      let s := s.store p { sveInfo with state := .running }
      return ({ s with mRunningService := s.mRunningService ++ [p] },
        { result with resultStatus := .ok })
    else
      return (s, result)

def handleServiceInfo (s : SaceServiceExcutor) (saceCmd : SaceCommand) (writer : SaceWriter)
    (result : SaceResult) : Exec (SaceServiceExcutor × SaceResult) :=
  if saceCmd.command = SERVICE_GET_BY_NAME then
    match s.mNameService[saceCmd.name]? with
    | none => return (s, result)
    | some p => do
      let sveInfo ← s.deref p
      if sveInfo.flags ≠ saceCmd.serviceFlags then
        return (s, result)
      else
        let info := sveInfo.infoBytes.take EXTRA_BUFER_LEN
        return (s.store p (sveInfo.addWriter writer),
          { result with
            resultExtra := info
            resultExtraLen := UInt32.ofNat info.length
            resultStatus := .ok
            resultType := .extra })
  else
    return (s, result)

def request (s : SaceServiceExcutor) (msg : SaceReaderMessage) (env : ParseEnv)
    (answers : StartAnswers) : Exec (SaceServiceExcutor × SaceResult) :=
  let saceCmd := msg.msgCmd
  let result := initialResult saceCmd
  if saceCmd.serviceCmdType = .start then
    s.startService saceCmd msg.msgWriter env answers result
  else if saceCmd.serviceCmdType = .stop then s.stopService saceCmd result
  else if saceCmd.serviceCmdType = .pause then s.pauseService saceCmd result
  else if saceCmd.serviceCmdType = .restart then s.restartService saceCmd result
  else if saceCmd.serviceCmdType = .info then
    s.handleServiceInfo saceCmd msg.msgWriter result
  else return (s, result)

/-! ### The monitor pass -/

/-- What one turn of the polling loop leaves behind: the object, whether its position was
saved for collection, and the response sent to its writers. -/
structure Polled where
  sveInfo : ServiceInfo
  saved : Bool := false
  response : Option SaceStatusResponse := none

def reaped (sveInfo : ServiceInfo) (status : UInt32) : Polled :=
  let response : SaceStatusResponse :=
    { type := .service, extraLen := 4, label := sveInfo.label, name := sveInfo.name }
  let (state, response) : ServiceState × SaceStatusResponse :=
    if wIfExited status then
      (if wExitStatus status = 0 then .finished else .died,
        { response with
          status := .exit, extra := Bytes.littleEndian 4 (wExitStatus status).toNat })
    else if wIfSignaled status then
      if sveInfo.state = .finishingUser ∧ (wTermSig status).toNat = SIGTERM then
        (.finishedUser, { response with status := .user })
      else
        (.diedSignal, { response with
          status := .signal, extra := Bytes.littleEndian 4 (wTermSig status).toNat })
    else
      (.diedUnknown, { response with
        status := .unknown, extra := Bytes.littleEndian 4 status.toNat })
  { sveInfo := { sveInfo with state }, saved := true, response := some response }

def pollService (sveInfo : ServiceInfo) (answer : WaitAnswer) : Polled :=
  if sveInfo.state.monitored then
    match answer with
    | .running => { sveInfo }
    | .reaped status => reaped sveInfo status
    | .failed errno => { sveInfo, saved := errno = ECHILD }
  else { sveInfo }

/-- The first loop, from position `i` on: the executor and `gcIterator` afterwards.
`wait i` answers the waitpid that is made for the object at position `i`. -/
def pollLoop (wait : Nat → WaitAnswer) :
    Nat → List UInt64 → SaceServiceExcutor → Exec (SaceServiceExcutor × List Nat)
  | _, [], s => return (s, [])
  | i, p :: rest, s => do
    let sveInfo ← s.deref p
    let polled := pollService sveInfo (wait i)
    sveInfo.sendPolled polled.response
    let (s, gc) ← pollLoop wait (i + 1) rest (s.store p polled.sveInfo)
    return (s, if polled.saved then i :: gc else gc)

/-- The second loop. An iterator is a place in the vector's storage: it keeps pointing
there while every `erase` moves the elements behind it down by one. -/
def collectLoop : List Nat → SaceServiceExcutor → Exec SaceServiceExcutor
  | [], s => return s
  | i :: gc, s =>
    match s.mRunningService[i]? with
    | none => Traced.fault .outOfBounds
    | some p => do
      let sveInfo ← s.deref p
      collectLoop gc (s.remove i p sveInfo)

def monitorServiceStatus (s : SaceServiceExcutor) (wait : Nat → WaitAnswer) :
    Exec SaceServiceExcutor := do
  let (s, gc) ← pollLoop wait 0 s.mRunningService s
  collectLoop gc s

def excuteNormal (s : SaceServiceExcutor) (msg : SaceReaderMessage) (env : ParseEnv)
    (answers : StartAnswers) (wait : Nat → WaitAnswer) : Exec SaceServiceExcutor := do
  let (s, result) ← s.request msg env answers
  Traced.emit (.sendResult msg.msgWriter result)
  s.monitorServiceStatus wait

/-! ### Shutdown -/

def interruptAll (s : SaceServiceExcutor) : List UInt64 → Exec Unit
  | [] => return ()
  | p :: rest => do
    let sveInfo ← s.deref p
    Traced.emit (.kill sveInfo.pid SIGINT)
    s.interruptAll rest

def onUninit (s : SaceServiceExcutor) (wait : Nat → WaitAnswer) : Exec SaceServiceExcutor := do
  s.interruptAll s.mRunningService
  s.monitorServiceStatus wait

def killedResponse (sveInfo : ServiceInfo) : SaceStatusResponse :=
  { type := .service, status := .signal, label := sveInfo.label, name := sveInfo.name }

def killAll : List UInt64 → SaceServiceExcutor → Exec SaceServiceExcutor
  | [], s => return s
  | p :: rest, s => do
    let sveInfo ← s.deref p
    Traced.emit (.kill sveInfo.pid SIGKILL)
    sveInfo.sendResponse (killedResponse sveInfo)
    killAll rest { s with heap := s.heap.erase p }

def destroy (s : SaceServiceExcutor) : Exec SaceServiceExcutor := do
  let s ← killAll s.mRunningService s
  return { s with mRunningService := [], mSeqService := ∅, mNameService := ∅ }

end SaceServiceExcutor
end Sace
