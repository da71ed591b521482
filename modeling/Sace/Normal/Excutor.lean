import Sace.Message

/-! SaceNormalExcutor and the two functions that open and close its commands. A CommandInfo
in the executor's tables is neither changed nor deleted before the executor is: it is kept
by value, and its address stands for the pointer. -/
namespace Sace

structure CommandInfo where
  address : UInt64
  fd : Int := -1
  cmdLine : Str
  label : UInt64
  writer : SaceWriter
  pid : Int
  deriving DecidableEq

/-- `pidlist` is the list of the descriptors and processes that sace_popen opened. -/
structure SaceNormalExcutor where
  mRunningCmd : List CommandInfo := []
  mClientCmd : Table SaceClientIdentifier (List UInt64) := ∅
  mSeqCmd : Table UInt64 CommandInfo := ∅
  pidlist : List (Int × Int) := []

def CLOSE_WAIT_TOTAL_TIME : Nat := 2000
def CLOSE_WAIT_KILL_TIME : Nat := 1000

/-- What the allocator and the kernel answer to a START; `fd` is negative when no pipe or
no process could be had. -/
structure PopenAnswers where
  address : UInt64
  fd : Int
  pid : Int

/-- The waiting loop of sace_pclose. The branch for the total time comes after the one for
the killing time and is never taken, so that only waitpid ends the loop. -/
def pcloseLoop (pid : Int) (waitTime : Nat) : List WaitAnswer → Exec Int
  | [] => Traced.fault .waiting
  | .failed _ :: _ => return -1
  | .reaped pstat :: _ => return pstat.toNat
  | .running :: answers =>
    let waitTime := waitTime + 100
    if CLOSE_WAIT_KILL_TIME ≤ waitTime then do
      Traced.emit (.kill pid SIGKILL)
      pcloseLoop pid waitTime answers
    else if CLOSE_WAIT_TOTAL_TIME ≤ waitTime then return -1
    else pcloseLoop pid waitTime answers

/-- `sace_pclose`: the list afterwards and the status. `wait` answers for a process. -/
def sacePclose (pidlist : List (Int × Int)) (fd : Int) (wait : Int → List WaitAnswer) :
    Exec (List (Int × Int) × Int) :=
  if fd < 0 then return (pidlist, -1)
  else match pidlist.find? (·.1 = fd) with
  | none => return (pidlist, -1)
  | some cur => do
    let pstat ← pcloseLoop cur.2 0 (wait cur.2)
    return (pidlist.erase cur, pstat)

/-- What the functions of the executor need of a state: its tables, and sace_pclose on what
sace_popen keeps. -/
class Popens (S : Type) where
  tables : S → SaceNormalExcutor
  update : S → (SaceNormalExcutor → SaceNormalExcutor) → S
  pclose : S → Int → (Int → List WaitAnswer) → Exec (S × Int)

namespace Popens

variable {S : Type} [Popens S]

def closeCmd (s : S) (label : UInt64) (cmdInfo : CommandInfo) (wait : Int → List WaitAnswer) :
    Exec S := do
  let (s, _) ← pclose s cmdInfo.fd wait
  return update s fun t => { t with
    mRunningCmd := t.mRunningCmd.eraseP (·.address = cmdInfo.address)
    mSeqCmd := t.mSeqCmd.erase label }

def closeNormalCmd (s : S) (saceMsg : SaceReaderMessage) (wait : Int → List WaitAnswer) :
    Exec S := do
  let saceCmd := saceMsg.msgCmd
  let result : SaceResult :=
    { sequence := saceCmd.sequence, name := saceCmd.name, resultFd := some (-1) }
  match (tables s).mSeqCmd[saceCmd.label]? with
  | none =>
    Traced.emit (.sendResult saceMsg.msgWriter
      { result with resultStatus := .fail, resultType := .close })
    return s
  | some cmdInfo =>
    let s ← closeCmd s saceCmd.label cmdInfo wait
    let mClientCmd := match (tables s).mClientCmd[saceMsg.msgClient]? with
      | none => (tables s).mClientCmd
      | some labels =>
        if labels.erase cmdInfo.label = [] then (tables s).mClientCmd.erase saceMsg.msgClient
        else (tables s).mClientCmd.insert saceMsg.msgClient (labels.erase cmdInfo.label)
    Traced.emit (.sendResult saceMsg.msgWriter
      { result with resultStatus := .ok, resultType := .close })
    return update s fun t => { t with mClientCmd }

def destroyLoop (wait : Int → List WaitAnswer) : List UInt64 → S → Exec S
  | [], s => return s
  | label :: labels, s =>
    match (tables s).mSeqCmd[label]? with
    | none => destroyLoop wait labels s
    | some cmdInfo => do
      let s ← closeCmd s label cmdInfo wait
      destroyLoop wait labels s

/-- Nothing is sent back. -/
def destroyNormalCmd (s : S) (saceMsg : SaceReaderMessage) (wait : Int → List WaitAnswer) :
    Exec S :=
  match (tables s).mClientCmd[saceMsg.msgClient]? with
  | none => return s
  | some labels => do
    let s ← destroyLoop wait labels s
    return update s fun t => { t with mClientCmd := t.mClientCmd.erase saceMsg.msgClient }

/-- `start` is what startNormalCmd does with the message. -/
def excuteNormal (s : S) (saceMsg : SaceReaderMessage) (start : Exec S)
    (wait : Int → List WaitAnswer) : Exec S :=
  if saceMsg.msgCmd.normalCmdType = .start then start
  else if saceMsg.msgCmd.normalCmdType = .close then closeNormalCmd s saceMsg wait
  else if saceMsg.msgCmd.normalCmdType = .destroy then destroyNormalCmd s saceMsg wait
  else return s

end Popens

namespace SaceNormalExcutor

def startNormalCmd (s : SaceNormalExcutor) (saceMsg : SaceReaderMessage) (env : ParseEnv)
    (answers : PopenAnswers) : Exec SaceNormalExcutor := do
  let saceCmd := saceMsg.msgCmd
  let result : SaceResult := { sequence := saceCmd.sequence, name := saceCmd.name }
  let param := saceCmd.commandParams.map fun p => parseCommandParams env p.base
  if answers.fd < 0 then
    Traced.emit (.sendResult saceMsg.msgWriter
      { result with resultStatus := .fail, resultType := .start })
    return s
  else
    Traced.emit (.spawn answers.pid param)
    let cmdInfo : CommandInfo :=
      { address := answers.address
        fd := answers.fd
        cmdLine := saceCmd.command
        label := sequenceToLabel saceCmd.sequence answers.address
        writer := saceMsg.msgWriter
        pid := answers.pid }
    Traced.emit (.sendResult saceMsg.msgWriter
      { result with
        resultType := .fd
        resultStatus := .ok
        label := cmdInfo.label
        resultFd := some answers.fd })
    return { mRunningCmd := s.mRunningCmd ++ [cmdInfo]
             mSeqCmd := s.mSeqCmd.insertIfNew cmdInfo.label cmdInfo
             mClientCmd := match s.mClientCmd[saceMsg.msgClient]? with
               | none => s.mClientCmd.insert saceMsg.msgClient [cmdInfo.label]
               | some labels => s.mClientCmd.insert saceMsg.msgClient (labels ++ [cmdInfo.label])
             pidlist := (answers.fd, answers.pid) :: s.pidlist }

instance : Popens SaceNormalExcutor where
  tables s := s
  update s change := change s
  pclose s fd wait := do
    let (pidlist, pstat) ← sacePclose s.pidlist fd wait
    return ({ s with pidlist }, pstat)

def closeCmd (s : SaceNormalExcutor) (label : UInt64) (cmdInfo : CommandInfo)
    (wait : Int → List WaitAnswer) : Exec SaceNormalExcutor :=
  Popens.closeCmd s label cmdInfo wait

def destroyLoop (wait : Int → List WaitAnswer) (labels : List UInt64)
    (s : SaceNormalExcutor) : Exec SaceNormalExcutor :=
  Popens.destroyLoop wait labels s

def destroyNormalCmd (s : SaceNormalExcutor) (saceMsg : SaceReaderMessage)
    (wait : Int → List WaitAnswer) : Exec SaceNormalExcutor :=
  Popens.destroyNormalCmd s saceMsg wait

def excuteNormal (s : SaceNormalExcutor) (saceMsg : SaceReaderMessage) (env : ParseEnv)
    (answers : PopenAnswers) (wait : Int → List WaitAnswer) : Exec SaceNormalExcutor :=
  Popens.excuteNormal s saceMsg (s.startNormalCmd saceMsg env answers) wait

/-! ### The shutdown -/

def onUninit (s : SaceNormalExcutor) : Exec Unit :=
  Traced.emitAll (s.mRunningCmd.map fun cmd => .kill cmd.pid SIGINT)

def killedResponse (cmd : CommandInfo) : SaceStatusResponse :=
  { type := .normal, status := .signal, label := cmd.label, name := cmd.cmdLine }

/-- The tables go with the object. -/
def destroy (s : SaceNormalExcutor) : Exec SaceNormalExcutor := do
  Traced.emitAll (s.mRunningCmd.flatMap fun cmd =>
    [.kill cmd.pid SIGKILL, .sendResponse cmd.writer (killedResponse cmd)])
  return { s with mRunningCmd := [] }

end SaceNormalExcutor
end Sace
