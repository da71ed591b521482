import Sace.Message

/-! SaceServiceObj: the commands of its operations and what it makes of their results. All of
them use the sequence of the START that the label comes from. -/
namespace Sace

inductive ErrorCode where
  | ok
  | timeout
  | exit
  | exitUser
  | notExists
  | unknown
  deriving DecidableEq

/-- `result_to_error`; the `return` of ERR_EXIT cannot be reached. -/
def resultToError (status : SaceResultStatus) : ErrorCode :=
  if status = .ok then .ok
  else if status = .timeout then .timeout
  else if status = .fail ∨ status = .secure then .exitUser
  else .unknown

theorem resultToError_ok {status : SaceResultStatus} :
    resultToError status = .ok ↔ status = .ok := by
  unfold resultToError
  constructor
  · intro fine
    repeat' split at fine
    · assumption
    all_goals cases fine
  · intro fine
    rw [if_pos fine]

inductive SaceException where
  | remote (msg : Str)
  | invalidOperation (msg : Str)
  deriving DecidableEq

structure SaceServiceObj where
  label : UInt64
  name : Str
  command : Str
  mError : ErrorCode := .ok

namespace SaceServiceObj

def sveStr (obj : SaceServiceObj) : Str :=
  str "service [name=" ++ obj.name ++ str ", command=" ++ obj.command ++ str ", sequence=" ++
    str (toString (labelToSequence obj.label)) ++ str "]"

/-- The checks of stop, pause and restart and the command that they send; there is none for an
object without a label. Only stop has a blank before the reasons. -/
def operate (cmdType : SaceServiceCommandType) (blank : Str) (own : Str) (sequence : UInt32)
    (obj : SaceServiceObj) : Except SaceException (Option SaceCommand) :=
  let code := obj.mError
  if code = .unknown ∨ code = .notExists then
    .error (.remote (obj.sveStr ++ blank ++ str "Not Exists Or Not Initialize"))
  else if code = .exit then .error (.remote (obj.sveStr ++ blank ++ str "Exit Abnormally"))
  else if code = .exitUser then
    .error (.invalidOperation (obj.sveStr ++ blank ++ str "Has Exit By User"))
  else if obj.label = 0 then .ok none
  else .ok (some
    { SaceCommand.init own sequence with
      label := obj.label
      sequence := labelToSequence obj.label
      type := .service
      subType := cmdType.byte })

def stop : Str → UInt32 → SaceServiceObj → Except SaceException (Option SaceCommand) :=
  operate .stop (str " ")

def pause : Str → UInt32 → SaceServiceObj → Except SaceException (Option SaceCommand) :=
  operate .pause []

def restart : Str → UInt32 → SaceServiceObj → Except SaceException (Option SaceCommand) :=
  operate .restart []

def operated (obj : SaceServiceObj) (mRlt : SaceResult) : SaceServiceObj × Bool :=
  ({ obj with mError := resultToError mRlt.resultStatus }, mRlt.resultStatus = .ok)

end SaceServiceObj
end Sace
