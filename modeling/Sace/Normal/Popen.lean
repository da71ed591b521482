import Sace.Library.Runs
import Sace.Normal.Excutor

/-! sace_popen and sace_pclose with the descriptors that they open and close, and the
normal executor over them. -/
namespace Sace

structure PopenSystem where
  pipe2 : Option (Int × Int)
  malloc : Bool
  vfork : Option Int

/-- The list behind sace_popen, and the ends of pipes that are open in the server. -/
structure Pipes where
  pidlist : List (Int × Int)
  opened : List Int

def Pipes.close (pipes : Pipes) (fd : Int) : Pipes :=
  { pipes with opened := pipes.opened.erase fd }

/-- The lists afterwards, the descriptor and `*out_pid`, which a failure leaves as it was. -/
def sacePopen (pipes : Pipes) (flags : SaceCommandFlags) (system : PopenSystem) :
    Pipes × Int × Int :=
  match system.pipe2 with
  | none => (pipes, -1, 0)
  | some (pdes0, pdes1) =>
    let pipes := { pipes with opened := pdes0 :: pdes1 :: pipes.opened }
    if !system.malloc then ((pipes.close pdes0).close pdes1, -1, 0)
    else match system.vfork with
    | none => ((pipes.close pdes0).close pdes1, -1, 0)
    | some pid =>
      -- the parent keeps the end that the xtype "w" or "r" asks for
      let (fd, pipes) :=
        if flags = .output then (pdes1, pipes.close pdes0) else (pdes0, pipes.close pdes1)
      ({ pipes with pidlist := (fd, pid) :: pipes.pidlist }, fd, pid)

/-- `sace_pclose`: without a node for the descriptor nothing is closed. -/
def sacePcloseEnds (pipes : Pipes) (fd : Int) (wait : Int → List WaitAnswer) :
    Exec (Pipes × Int) :=
  if fd < 0 then return (pipes, -1)
  else match pipes.pidlist.find? (·.1 = fd) with
  | none => return (pipes, -1)
  | some cur => do
    let pstat ← pcloseLoop cur.2 0 (wait cur.2)
    return ({ pipes with pidlist := pipes.pidlist.erase cur }.close fd, pstat)

/-- The executor and the ends of its pipes that are open in the server. -/
structure PipedExcutor extends SaceNormalExcutor where
  opened : List Int := []

namespace PipedExcutor

def pipes (s : PipedExcutor) : Pipes := ⟨s.pidlist, s.opened⟩

def popen (s : PipedExcutor) (msg : SaceReaderMessage) (address : UInt64)
    (system : PopenSystem) : PopenAnswers :=
  let (_, fd, pid) := sacePopen s.pipes msg.msgCmd.flags system
  { address, fd, pid }

def startNormalCmd (s : PipedExcutor) (saceMsg : SaceReaderMessage) (env : ParseEnv)
    (address : UInt64) (system : PopenSystem) : Exec PipedExcutor := do
  let (pipes, _) := sacePopen s.pipes saceMsg.msgCmd.flags system
  let normal ← s.toSaceNormalExcutor.startNormalCmd saceMsg env (s.popen saceMsg address system)
  return { normal with pidlist := pipes.pidlist, opened := pipes.opened }

instance : Popens PipedExcutor where
  tables s := s.toSaceNormalExcutor
  update s change := { s with toSaceNormalExcutor := change s.toSaceNormalExcutor }
  pclose s fd wait := do
    let (pipes, pstat) ← sacePcloseEnds s.pipes fd wait
    return ({ s with pidlist := pipes.pidlist, opened := pipes.opened }, pstat)

def closeCmd (s : PipedExcutor) (label : UInt64) (cmdInfo : CommandInfo)
    (wait : Int → List WaitAnswer) : Exec PipedExcutor :=
  Popens.closeCmd s label cmdInfo wait

theorem closeCmd_ends (s : PipedExcutor) (label : UInt64) (cmdInfo : CommandInfo)
    (wait : Int → List WaitAnswer) : s.closeCmd label cmdInfo wait =
      sacePcloseEnds s.pipes cmdInfo.fd wait >>= fun closed => pure { s with
        mRunningCmd := s.mRunningCmd.eraseP (·.address = cmdInfo.address)
        mSeqCmd := s.mSeqCmd.erase label
        pidlist := closed.1.pidlist
        opened := closed.1.opened } := by
  simp only [closeCmd, Popens.closeCmd, Popens.pclose, Popens.update, Traced.bind_assoc,
    Traced.pure_then]

def destroyLoop (wait : Int → List WaitAnswer) (labels : List UInt64) (s : PipedExcutor) :
    Exec PipedExcutor :=
  Popens.destroyLoop wait labels s

def destroyNormalCmd (s : PipedExcutor) (saceMsg : SaceReaderMessage)
    (wait : Int → List WaitAnswer) : Exec PipedExcutor :=
  Popens.destroyNormalCmd s saceMsg wait

structure Request where
  msg : SaceReaderMessage
  env : ParseEnv
  address : UInt64
  system : PopenSystem
  wait : Int → List WaitAnswer

def excuteNormal (s : PipedExcutor) (r : Request) : Exec PipedExcutor :=
  Popens.excuteNormal s r.msg (s.startNormalCmd r.msg r.env r.address r.system) r.wait

end PipedExcutor
end Sace
