import Sace.Library.Register
import Sace.Normal.Popen

/-! What the normal executor is for: a register of the commands that run, each with the client
that started it. Nothing is listed twice and nothing has to be kept in step. -/
namespace Sace

abbrev Job := SaceClientIdentifier × CommandInfo

abbrev Jobs := Register (fun job : Job => job.2.label) fun job : Job => job.2.address

namespace PipedExcutor

def Request.cmdInfo (q : Request) (fd pid : Int) : CommandInfo :=
  { address := q.address
    fd
    cmdLine := q.msg.msgCmd.command
    label := sequenceToLabel q.msg.msgCmd.sequence q.address
    writer := q.msg.msgWriter
    pid }

end PipedExcutor

namespace Jobs

open PipedExcutor (Request)

def opened (flags : SaceCommandFlags) (system : PopenSystem) : Option (Int × Int) :=
  match system.pipe2, system.malloc, system.vfork with
  | some (pdes0, pdes1), true, some pid => some (if flags = .output then pdes1 else pdes0, pid)
  | _, _, _ => none

def ended (wait : Int → List WaitAnswer) : List Job → Exec Unit
  | [] => return ()
  | job :: rest => do
    let _ ← pcloseLoop job.2.pid 0 (wait job.2.pid)
    ended wait rest

def result (q : Request) : SaceResult :=
  { sequence := q.msg.msgCmd.sequence, name := q.msg.msgCmd.name }

/-- A request: what is done and the register behind it. Nothing is said of a START whose label or
address is taken, and of a wait that does not end. -/
def request (r : Jobs) (q : Request) : Option (List Effect × Jobs) :=
  if q.msg.msgCmd.normalCmdType = .start then
    match opened q.msg.msgCmd.flags q.system with
    | none =>
      some ([.sendResult q.msg.msgWriter
        { result q with resultStatus := .fail, resultType := .start }], r)
    | some (fd, pid) =>
      let param := q.msg.msgCmd.commandParams.map fun p => parseCommandParams q.env p.base
      let cmdInfo := q.cmdInfo fd pid
      (r.enter (q.msg.msgClient, cmdInfo)).map fun r =>
        ([.spawn pid param, .sendResult q.msg.msgWriter
          { result q with
            resultType := .fd
            resultStatus := .ok
            label := cmdInfo.label
            resultFd := some fd }], r)
  else if q.msg.msgCmd.normalCmdType = .close then
    match r.byKey q.msg.msgCmd.label with
    | none =>
      some ([.sendResult q.msg.msgWriter
        { result q with resultFd := some (-1), resultStatus := .fail, resultType := .close }], r)
    | some job =>
      let closing := ended q.wait [job]
      closing.value.map fun _ =>
        (closing.trace ++ [.sendResult q.msg.msgWriter
          { result q with resultFd := some (-1), resultStatus := .ok, resultType := .close }],
          r.keep fun other => other.2.label ≠ job.2.label)
  else if q.msg.msgCmd.normalCmdType = .destroy then
    let closing := ended q.wait (r.records.filter fun job => job.1 = q.msg.msgClient)
    closing.value.map fun _ => (closing.trace, r.keep fun job => job.1 ≠ q.msg.msgClient)
  else some ([], r)

def killed (r : Jobs) : List Effect :=
  r.records.flatMap fun job =>
    [.kill job.2.pid SIGKILL, .sendResponse job.2.writer (SaceNormalExcutor.killedResponse job.2)]

inductive Task where
  | request (q : Request)
  | interrupt

def act (r : Jobs) : Task → Option (List Effect × Jobs)
  | .request q => r.request q
  | .interrupt => some (r.records.map fun job => .kill job.2.pid SIGINT, r)

end Jobs
end Sace
