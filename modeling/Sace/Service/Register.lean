import Sace.Library.Register
import Sace.Service.Steps

/-! What the service executor is for: a register of the services by label and by name. It has
no pointers, and a service stands in it once. -/
namespace Sace

abbrev Services := Register ServiceInfo.label ServiceInfo.name

namespace Services

open SaceServiceExcutor

def signal (r : Services) (sveInfo : ServiceInfo) (number : Nat) (state : ServiceState)
    (result : SaceResult) : List Effect × Services × SaceResult :=
  ([.kill sveInfo.pid number],
    r.change sveInfo.label (fun x => { x with state }) fun _ => ⟨rfl, rfl⟩,
    { result with resultStatus := .ok })

def subscribe (r : Services) (sveInfo : ServiceInfo) (writer : SaceWriter) : Services :=
  r.change sveInfo.label (fun x => x.addWriter writer) fun x => by
    unfold ServiceInfo.addWriter
    split <;> exact ⟨rfl, rfl⟩

/-- A request: what is done, the register and the answer. Nothing is said of a START whose
label is not free. -/
def request (r : Services) (msg : SaceReaderMessage) (env : ParseEnv) (answers : StartAnswers) :
    Option (List Effect × Services × SaceResult) :=
  let saceCmd := msg.msgCmd
  let result := initialResult saceCmd
  if saceCmd.serviceCmdType = .start then
    match r.byName saceCmd.name with
    | some _ => some ([], r, { result with resultStatus := .exists_ })
    | none =>
      let copied := Effect.copy (saceCmd.command.length + 1) CMD_BUFFER_LEN
      if 0 < answers.fork then
        let sveInfo := newService saceCmd msg.msgWriter answers
        let param := saceCmd.commandParams.map fun p => parseCommandParams env p.base
        (r.enter sveInfo).map fun r =>
          ([copied, .spawn answers.fork param], r, startedResult saceCmd sveInfo)
      else some ([copied], r, result)
  else if saceCmd.serviceCmdType = .stop then
    match r.byKey saceCmd.label with
    | none => some ([], r, result)
    | some sveInfo =>
      if sveInfo.Active then some (r.signal sveInfo SIGTERM .finishingUser result)
      else some ([], r, { result with resultStatus := .ok })
  else if saceCmd.serviceCmdType = .pause then
    match r.byKey saceCmd.label with
    | none => some ([], r, result)
    | some sveInfo =>
      if sveInfo.state = .running then some (r.signal sveInfo SIGSTOP .paused result)
      else some ([], r, result)
  else if saceCmd.serviceCmdType = .restart then
    match r.byKey saceCmd.label with
    | none => some ([], r, result)
    | some sveInfo =>
      if sveInfo.state = .paused then some (r.signal sveInfo SIGCONT .running result)
      else some ([], r, result)
  else if saceCmd.serviceCmdType = .info ∧ saceCmd.command = SERVICE_GET_BY_NAME then
    match r.byName saceCmd.name with
    | none => some ([], r, result)
    | some sveInfo =>
      if sveInfo.flags = saceCmd.serviceFlags then
        some ([], r.subscribe sveInfo msg.msgWriter, infoResult saceCmd sveInfo)
      else some ([], r, result)
  else some ([], r, result)

def gone (wait : UInt64 → WaitAnswer) (sveInfo : ServiceInfo) : Bool :=
  (pollService sveInfo (wait sveInfo.label)).saved

def told (wait : UInt64 → WaitAnswer) (sveInfo : ServiceInfo) : List Effect :=
  (sveInfo.sendPolled (pollService sveInfo (wait sveInfo.label)).response).trace

def killed (sveInfo : ServiceInfo) : List Effect :=
  .kill sveInfo.pid SIGKILL ::
    sveInfo.writer.map fun wr => .sendResponse wr (killedResponse sveInfo)

inductive Task where
  | request (msg : SaceReaderMessage) (env : ParseEnv) (answers : StartAnswers)
  | pass (wait : UInt64 → WaitAnswer)
  | interrupt
  | destroy

def act (r : Services) : Task → Option (List Effect × Services)
  | .request msg env answers => (r.request msg env answers).map fun (trace, r, result) =>
      (trace ++ [.sendResult msg.msgWriter result], r)
  | .pass wait => some (r.records.flatMap (told wait), r.keep fun x => !gone wait x)
  | .interrupt => some (r.records.map fun x => .kill x.pid SIGINT, r)
  | .destroy => some (r.records.flatMap killed, .empty)

end Services
end Sace
