import Sace.Manager.Objects
import Sace.Manager.Params

/-! checkService: two queries and a START, and what it makes of each answer. -/
namespace Sace

def SaceServiceObj.ofInfo (extra : Bytes) : SaceServiceObj :=
  { name := Bytes.cString (extra.take SERVICE_NAME_LEN)
    command := Bytes.cString ((extra.drop SERVICE_NAME_LEN).take CMD_BUFFER_LEN)
    label := UInt64.ofNat
      (Bytes.toNat ((extra.drop (SERVICE_NAME_LEN + CMD_BUFFER_LEN + 8)).take 8)) }

namespace SaceManager

/-- sizeof(SaceServiceInfo::ServiceInfo) -/
def SERVICE_INFO_LEN : Nat := SERVICE_NAME_LEN + CMD_BUFFER_LEN + 4 + 4 + 8

def queryServiceCmd (own : Str) (sequence : UInt32) (name : Str) : SaceCommand :=
  { SaceCommand.init own sequence with
    type := .service
    subType := SaceServiceCommandType.info.byte
    subFlags := SaceServiceFlags.normal.byte
    command := SERVICE_GET_BY_NAME
    name }

def queryEventServiceCmd (own : Str) (sequence : UInt32) (name : Str) : SaceCommand :=
  { SaceCommand.init own sequence with
    type := .event
    subType := SaceEventType.info.byte
    subFlags := SaceEventFlags.none.byte
    command := SERVICE_GET_BY_NAME
    name }

/-- `memcpy(&info, mRlt.resultExtra, mRlt.resultExtraLen)` -/
def copyInfo (info : Bytes) (mRlt : SaceResult) : Exec Bytes := do
  memcpy mRlt.resultExtraLen.toNat SERVICE_INFO_LEN
  return Bytes.padded mRlt.resultExtraLen.toNat mRlt.resultExtra ++
    info.drop mRlt.resultExtraLen.toNat

/-- What queryService and queryEventService make of the answer; `info` is what their local
variable of this name holds before. -/
def queried (mCmd : SaceCommand) (mRlt : SaceResult) (info : Bytes) (name : Str) :
    Exec SaceServiceObj := do
  let failed (errCode : ErrorCode) : SaceServiceObj :=
    { name, command := name, label := sequenceToLabel mCmd.sequence 0, mError := errCode }
  if mRlt.resultStatus = .ok then
    if mRlt.resultType = .extra then
      let info ← copyInfo info mRlt
      return .ofInfo info
    else return failed .unknown
  else return failed (resultToError mRlt.resultStatus)

/-- A call of checkService, with the sequences that `init` gives its commands. -/
structure Check where
  own : Str
  sequence : Nat → UInt32
  info : Nat → Bytes
  name : Str
  cmd : Option Str
  param : Option ParamsObject

/-- The command that the call waits for. Behind two queries that have failed the object of the
second is there. -/
inductive CheckStage where
  | normal
  | event
  | start (sve : SaceServiceObj) (failed : sve.mError ≠ .ok)

/-- What comes of an answer: the next command, or the object that is returned, which is entered
into `mServices` before unless it stands for an error. -/
inductive Checked where
  | asks (stage : CheckStage)
  | entered (sve : SaceServiceObj)
  | failed (sve : SaceServiceObj) (error : sve.mError ≠ .ok)

namespace Check

def command (c : Check) : CheckStage → Option SaceCommand
  | .normal => some (queryServiceCmd c.own (c.sequence 0) c.name)
  | .event => some (queryEventServiceCmd c.own (c.sequence 1) c.name)
  | .start _ _ => c.cmd.map fun cmd => checkServiceCmd c.own (c.sequence 2) c.name cmd c.param

def answered (c : Check) (mRlt : SaceResult) : CheckStage → Exec Checked
  | .normal => do
    let sve ← queried (queryServiceCmd c.own (c.sequence 0) c.name) mRlt (c.info 0) c.name
    return if sve.mError = .ok then .entered sve else .asks .event
  | .event => do
    let sve ← queried (queryEventServiceCmd c.own (c.sequence 1) c.name) mRlt (c.info 1) c.name
    if failed : sve.mError ≠ .ok then
      if c.cmd.isNone then Traced.fault .nullPointer else return .asks (.start sve failed)
    else return .entered sve
  | .start sve failed =>
    if mRlt.resultStatus = .ok then
      return .entered { name := c.name, command := c.cmd.getD [], label := mRlt.label }
    else return .failed sve failed

variable {c : Check} {mRlt : SaceResult} {stage : CheckStage} {sve : SaceServiceObj}

/-- What is entered stands for no error. -/
theorem answered_entered (done : (c.answered mRlt stage).result = .ok (.entered sve)) :
    sve.mError = .ok := by
  cases stage with
  | normal =>
    obtain ⟨made, _, done⟩ := Traced.bind_ok.mp done
    by_cases fine : made.mError = .ok
    · rw [if_pos fine] at done
      cases done
      exact fine
    · rw [if_neg fine] at done
      cases done
  | event =>
    obtain ⟨made, _, done⟩ := Traced.bind_ok.mp done
    by_cases failed : made.mError ≠ .ok
    · rw [dif_pos failed] at done
      split at done <;> cases done
    · rw [dif_neg failed] at done
      cases done
      exact not_not.mp failed
  | start other failed =>
    simp only [answered] at done
    split at done <;> cases done
    rfl

/-- An object comes back for an error when the START is refused, and it is the one that the
queries have left. -/
theorem answered_failed {error : sve.mError ≠ .ok}
    (done : (c.answered mRlt stage).result = .ok (.failed sve error)) :
    stage = .start sve error ∧ mRlt.resultStatus ≠ .ok := by
  cases stage with
  | normal =>
    obtain ⟨made, _, done⟩ := Traced.bind_ok.mp done
    have done := Except.ok.inj done
    split at done <;> cases done
  | event =>
    obtain ⟨made, _, done⟩ := Traced.bind_ok.mp done
    split at done
    · split at done <;> cases done
    · cases done
  | start other failed =>
    simp only [answered] at done
    split at done
    · cases done
    · rename_i refused
      cases done
      exact ⟨rfl, refused⟩

end Check

/-- The process of the caller: how the sender answers its commands, the sequences that `init`
gives them, and what the memory of the local `info` of a query holds. -/
structure Caller where
  own : Str
  excuteCommand : SaceCommand → SaceResult
  sequence : Nat → UInt32
  info : Nat → Bytes
  mServices : Table UInt64 SaceServiceObj := ∅

namespace Caller

def queryService (m : Caller) (name : Str) : Exec SaceServiceObj :=
  let mCmd := queryServiceCmd m.own (m.sequence 0) name
  queried mCmd (m.excuteCommand mCmd) (m.info 0) name

def queryEventService (m : Caller) (name : Str) : Exec SaceServiceObj :=
  let mCmd := queryEventServiceCmd m.own (m.sequence 1) name
  queried mCmd (m.excuteCommand mCmd) (m.info 1) name

def insert (m : Caller) (sve : SaceServiceObj) : Caller :=
  { m with mServices := m.mServices.insertIfNew sve.label sve }

def checkService (m : Caller) (name : Str) (cmd : Option Str) (param : Option ParamsObject) :
    Exec (Caller × SaceServiceObj) := do
  let sve ← m.queryService name
  if sve.mError = .ok then return (m.insert sve, sve)
  else
    let sve ← m.queryEventService name
    if sve.mError = .ok then return (m.insert sve, sve)
    else
      match cmd with
      -- string(cmd) reads through the null pointer before there is an object
      | none => Traced.fault .nullPointer
      | some cmd =>
        let mRlt := m.excuteCommand (checkServiceCmd m.own (m.sequence 2) name cmd param)
        if mRlt.resultStatus = .ok then
          let sve : SaceServiceObj := { name, command := cmd, label := mRlt.label }
          return (m.insert sve, sve)
        -- the object of the second query is still there, and errCode makes no other
        else return (m, sve)

def call (m : Caller) (name : Str) (cmd : Option Str) (param : Option ParamsObject) : Check :=
  { own := m.own, sequence := m.sequence, info := m.info, name, cmd, param }

def ask (m : Caller) (c : Check) : Nat → CheckStage → Exec (Caller × SaceServiceObj)
  | 0, _ => Traced.fault .waiting
  | n + 1, stage =>
    match c.command stage with
    | none => Traced.fault .nullPointer
    | some mCmd => do
      match ← c.answered (m.excuteCommand mCmd) stage with
      | .asks next => m.ask c n next
      | .entered sve => return (m.insert sve, sve)
      | .failed sve _ => return (m, sve)

/-- Command by command checkService does the same. -/
theorem checkService_ask (m : Caller) (name : Str) (cmd : Option Str)
    (param : Option ParamsObject) :
    m.checkService name cmd param = m.ask (m.call name cmd param) 3 .normal := by
  simp only [checkService, ask, Check.command, Check.answered, call, queryService,
    Traced.bind_assoc, Traced.pure_then]
  congr 1
  funext first
  by_cases fine : first.mError = .ok
  · rw [if_pos fine, if_pos fine]
  rw [if_neg fine, if_neg fine]
  simp only [queryEventService, Traced.bind_assoc]
  congr 1
  funext second
  by_cases fineEvent : second.mError = .ok
  · rw [if_pos fineEvent, dif_neg (not_not.mpr fineEvent)]
    rfl
  rw [if_neg fineEvent, dif_pos fineEvent]
  cases cmd with
  | none => rfl
  | some cmd =>
    by_cases started : (m.excuteCommand
        (checkServiceCmd m.own (m.sequence 2) name cmd param)).resultStatus = .ok
    · simp only [Option.isNone_some, Bool.false_eq_true, if_false, Traced.pure_then,
        Option.map_some, if_pos started, Option.getD_some]
    · simp only [Option.isNone_some, Bool.false_eq_true, if_false, Traced.pure_then,
        Option.map_some, if_neg started]

/-! ### One query -/

def Found (mRlt : SaceResult) : Prop := mRlt.resultStatus = .ok ∧ mRlt.resultType = .extra

instance (mRlt : SaceResult) : Decidable (Found mRlt) := inferInstanceAs (Decidable (_ ∧ _))

def Whole (mRlt : SaceResult) : Prop := mRlt.resultExtraLen.toNat = SERVICE_INFO_LEN

instance (mRlt : SaceResult) : Decidable (Whole mRlt) := inferInstanceAs (Decidable (_ = _))

def infoLabel (mRlt : SaceResult) : Option UInt64 :=
  if Whole mRlt then
    some (SaceServiceObj.ofInfo (Bytes.padded SERVICE_INFO_LEN mRlt.resultExtra)).label
  else none

def queryError (mRlt : SaceResult) : ErrorCode :=
  if mRlt.resultStatus = .ok then .unknown else resultToError mRlt.resultStatus

theorem queryError_ne (mRlt : SaceResult) : queryError mRlt ≠ .ok := by
  unfold queryError
  split
  · exact fun same => by cases same
  · rename_i failed
    exact fun same => failed (resultToError_ok.mp same)

theorem ofInfo_append {info : Bytes} (size : info.length = SERVICE_INFO_LEN) (rest : Bytes) :
    (SaceServiceObj.ofInfo (info ++ rest)).label = (SaceServiceObj.ofInfo info).label := by
  unfold SaceServiceObj.ofInfo
  have cut : SERVICE_NAME_LEN + CMD_BUFFER_LEN + 8 ≤ info.length := by
    rw [size]
    decide
  have eight : 8 ≤ (info.drop (SERVICE_NAME_LEN + CMD_BUFFER_LEN + 8)).length := by
    rw [List.length_drop, size]
    decide
  dsimp only
  rw [List.drop_append_of_le_length cut, List.take_append_of_le_length eight]

section
variable {mRlt : SaceResult} (mCmd : SaceCommand) (info : Bytes) (name : Str)

theorem queried_missed (missed : ¬ Found mRlt) :
    ∃ sve, queried mCmd mRlt info name = pure sve ∧ sve.mError = queryError mRlt := by
  unfold queried queryError
  dsimp only
  by_cases fine : mRlt.resultStatus = .ok
  · rw [if_pos fine, if_pos fine, if_neg fun type => missed ⟨fine, type⟩]
    exact ⟨_, rfl, rfl⟩
  · rw [if_neg fine, if_neg fine]
    exact ⟨_, rfl, rfl⟩

theorem whole_of_label {mRlt : SaceResult} {label : UInt64} (some_ : infoLabel mRlt = some label) :
    Whole mRlt := by
  unfold infoLabel at some_
  split at some_
  · assumption
  · cases some_

theorem queried_found (found : Found mRlt) (whole : Whole mRlt) :
    ∃ sve, (queried mCmd mRlt info name).result = .ok sve ∧ sve.mError = .ok ∧
      infoLabel mRlt = some sve.label := by
  have size : mRlt.resultExtraLen.toNat = SERVICE_INFO_LEN := whole
  have label := @ofInfo_append (Bytes.padded SERVICE_INFO_LEN mRlt.resultExtra)
    (Bytes.padded_length ..) (info.drop SERVICE_INFO_LEN)
  unfold queried copyInfo
  simp only [found.1, found.2, if_true, size, memcpy_of_le (Nat.le_refl SERVICE_INFO_LEN)]
  refine ⟨_, rfl, rfl, ?_⟩
  rw [infoLabel, if_pos whole, label]

end

/-! ### The three commands -/

section
variable (m : Caller) (name : Str) (cmd : Option Str) (param : Option ParamsObject)

def normalAnswer : SaceResult :=
  m.excuteCommand (queryServiceCmd m.own (m.sequence 0) name)

def eventAnswer : SaceResult :=
  m.excuteCommand (queryEventServiceCmd m.own (m.sequence 1) name)

def startAnswer (cmd : Str) : SaceResult :=
  m.excuteCommand (checkServiceCmd m.own (m.sequence 2) name cmd param)

/-- An object comes back: with the label of the first of the three commands that succeeds, or
with the error of the START, which is not sent without a command. -/
def Checks : Prop :=
  ∃ after sve, (m.checkService name cmd param).result = .ok (after, sve) ∧
    if Found (m.normalAnswer name) then
      sve.mError = .ok ∧ infoLabel (m.normalAnswer name) = some sve.label
    else if Found (m.eventAnswer name) then
      sve.mError = .ok ∧ infoLabel (m.eventAnswer name) = some sve.label
    else
      match cmd with
      | none => sve.mError = .notExists
      | some cmd =>
        if (m.startAnswer name param cmd).resultStatus = .ok then
          sve.mError = .ok ∧ sve.label = (m.startAnswer name param cmd).label
        else sve.mError = resultToError (m.startAnswer name param cmd).resultStatus

def Served : Prop :=
  if Found (m.normalAnswer name) then Whole (m.normalAnswer name)
  else if Found (m.eventAnswer name) then Whole (m.eventAnswer name)
  else
    match cmd with
    | none => False
    | some cmd => (m.startAnswer name param cmd).resultStatus = .ok ∨
        queryError (m.eventAnswer name) =
          resultToError (m.startAnswer name param cmd).resultStatus

end

section
variable {m : Caller} {name : Str} {cmd : Option Str} {param : Option ParamsObject}

theorem check_normal {sve : SaceServiceObj} (made : (m.queryService name).result = .ok sve)
    (fine : sve.mError = .ok) :
    (m.checkService name cmd param).result = .ok (m.insert sve, sve) := by
  unfold checkService
  rw [Traced.bind_of_ok made, if_pos fine]
  rfl

theorem check_event {first sve : SaceServiceObj} (missed : m.queryService name = pure first)
    (error : first.mError ≠ .ok) (made : (m.queryEventService name).result = .ok sve)
    (fine : sve.mError = .ok) :
    (m.checkService name cmd param).result = .ok (m.insert sve, sve) := by
  unfold checkService
  rw [missed, Traced.pure_then, if_neg error, Traced.bind_of_ok made, if_pos fine]
  rfl

/-- Behind two queries that fail the object of the second one is there. -/
theorem check_start {first second : SaceServiceObj} (missed : m.queryService name = pure first)
    (error : first.mError ≠ .ok) (missedEvent : m.queryEventService name = pure second)
    (errorEvent : second.mError ≠ .ok) :
    (m.checkService name cmd param).result =
      match cmd with
      | none => .error .nullPointer
      | some cmd =>
        let sve : SaceServiceObj :=
          { name, command := cmd, label := (m.startAnswer name param cmd).label }
        if (m.startAnswer name param cmd).resultStatus = .ok then .ok (m.insert sve, sve)
        else .ok (m, second) := by
  unfold checkService
  rw [missed, Traced.pure_then, if_neg error, missedEvent, Traced.pure_then, if_neg errorEvent]
  cases cmd with
  | none => rfl
  | some cmd =>
    dsimp only
    unfold startAnswer
    by_cases started : (m.excuteCommand
        (checkServiceCmd m.own (m.sequence 2) name cmd param)).resultStatus = .ok
    · rw [if_pos started, if_pos started]
      rfl
    · rw [if_neg started, if_neg started]
      rfl

theorem checks_iff : m.Checks name cmd param ↔ m.Served name cmd param := by
  unfold Checks Served
  by_cases normal : Found (m.normalAnswer name)
  · simp only [normal, if_true]
    constructor
    · rintro ⟨after, sve, -, -, label⟩
      exact whole_of_label label
    · intro whole
      obtain ⟨sve, made, fine, label⟩ := queried_found _ (m.info 0) name normal whole
      exact ⟨_, sve, check_normal made fine, fine, label⟩
  · obtain ⟨first, missed, error⟩ := queried_missed _ (m.info 0) name normal
    have unfit : first.mError ≠ .ok := error ▸ queryError_ne _
    simp only [normal, if_false]
    by_cases event : Found (m.eventAnswer name)
    · simp only [event, if_true]
      constructor
      · rintro ⟨after, sve, -, -, label⟩
        exact whole_of_label label
      · intro whole
        obtain ⟨sve, made, fine, label⟩ := queried_found _ (m.info 1) name event whole
        exact ⟨_, sve, check_event missed unfit made fine, fine, label⟩
    · obtain ⟨second, missedEvent, errorEvent⟩ := queried_missed _ (m.info 1) name event
      have unfitEvent : second.mError ≠ .ok := errorEvent ▸ queryError_ne _
      simp only [event, if_false]
      rw [check_start missed unfit missedEvent unfitEvent]
      cases cmd with
      | none => simp
      | some cmd =>
        dsimp only
        by_cases started : (m.startAnswer name param cmd).resultStatus = .ok
        · simp [started]
        · have own : second.mError = queryError (m.eventAnswer name) := errorEvent
          simp only [if_neg started]
          rw [← own, or_iff_right started]
          constructor
          · rintro ⟨after, sve, made, same⟩
            cases made
            exact same
          · intro same
            exact ⟨m, second, rfl, same⟩

end

def refused : Caller where
  own := str "200:200"
  excuteCommand _ := { resultStatus := .fail }
  sequence k := UInt32.ofNat (7 + k)
  info _ := []

/-- Nothing is found, and no command is given. -/
theorem null_command_faults : ¬ refused.Checks (str "svc") none none := by
  rintro ⟨after, sve, made, -⟩
  have faulted : (refused.checkService (str "svc") none none).result = .error .nullPointer := by
    rfl
  rw [faulted] at made
  cases made

end Caller
end SaceManager
end Sace
