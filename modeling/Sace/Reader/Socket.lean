import Sace.Encoding

/-! SaceSocketReader: what the server does with the bytes of one read from a client. -/
namespace Sace

def typeCmdToMsg (type : SaceCommandType) : SaceMessageHandlerType :=
  if type = .normal then .normal
  else if type = .service then .service
  else if type = .event then .event
  else .unkown

@[simp] theorem typeCmdToMsg_normal : typeCmdToMsg .normal = .normal := by decide
@[simp] theorem typeCmdToMsg_service : typeCmdToMsg .service = .service := by decide
@[simp] theorem typeCmdToMsg_event : typeCmdToMsg .event = .event := by decide

theorem typeCmdToMsg_other {type : SaceCommandType} (normal : type ≠ .normal)
    (service : type ≠ .service) (event : type ≠ .event) : typeCmdToMsg type = .unkown := by
  simp only [typeCmdToMsg, normal, service, event, if_false]

def securedByUidPid (uid : UInt32) (_pid : Int) : Bool := uid = AID_SYSTEM || uid = AID_ROOT

def resultBySecure : SaceResult :=
  { resultType := .none, resultStatus := .secure, resultExtraLen := 0, resultFd := some (-1) }

def resultByFailure : SaceResult :=
  { resultType := .none, resultStatus := .fail, resultExtraLen := 0, resultFd := some (-1) }

namespace SaceSocketReader

def MAX_SOCKET_BUF : Nat := 1024

/-- A slot of `mClients`; `fd` is -1 while nobody has it. -/
structure ClientSocket where
  fd : Int := -1
  client : SaceClientIdentifier
  writer : SaceWriter
  deriving DecidableEq

def handleSocketMsg (climsg : ClientSocket) (saceCmd : SaceCommand) : Exec Unit :=
  if securedByUidPid climsg.client.uid climsg.client.pid then
    Traced.emit (.post (.message
      { msgHandler := typeCmdToMsg saceCmd.type
        msgCmd := saceCmd
        msgWriter := climsg.writer
        msgClient := climsg.client }))
  else
    Traced.emit (.sendResult climsg.writer resultBySecure)

def closeCommand (client : SaceClientIdentifier) : SaceCommand :=
  { (SaceCommand.init (str (toString client.pid ++ ":0")) 0) with
    subType := SaceNormalCommandType.destroy.byte }

def handleSocketClose (climsg : ClientSocket) : Exec Unit :=
  Traced.emit (.post (.message
    { msgHandler := .normal
      msgCmd := closeCommand climsg.client
      msgWriter := climsg.writer
      msgClient := climsg.client }))

/-- The bytes of one read, up to the call of handle_socket_msg: the command that is passed
to it, if any. `saceCmd` is the newly constructed command that is read into. -/
def recvCommand (F : ParcelFormat) (saceCmd : SaceCommand) (temp : Bytes) :
    Exec (Option SaceCommand) := do
  if temp.length < SaceCommandHeader.parcelSize then return none
  let header := (SaceCommandHeader.readFromParcel F temp).1
  if temp.length < header.len.toNat then return none
  let saceCmd ← saceCmd.readFromParcel F temp
  return some saceCmd

def recvData (F : ParcelFormat) (climsg : ClientSocket) (saceCmd : SaceCommand) (temp : Bytes) :
    Exec Unit := do
  match ← recvCommand F saceCmd temp with
  | some saceCmd => handleSocketMsg climsg saceCmd
  | none => return ()

end SaceSocketReader
end Sace
