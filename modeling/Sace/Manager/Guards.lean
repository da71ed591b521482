import Sace.Manager.Control

/-! The objects that the error constructors make: which of their calls go through to the
descriptor and to the sender, neither of which they have. -/
namespace Sace

inductive ObjException where
  | unsupported (msg : Str)
  | sace (exception : SaceException)
  deriving DecidableEq

inductive ObjEffect where
  | read (fd : Int) (len : Nat)
  | write (fd : Int) (buf : Bytes)
  | fsync (fd : Int)
  | close (fd : Int)
  | excute (cmd : SaceCommand)
  | callback (cmdType : SaceCommandType) (label : UInt64)
  deriving DecidableEq

def ObjEffect.Touches : ObjEffect → Prop
  | .callback _ _ => False
  | _ => True

abbrev ObjCall := Traced ObjEffect Fault

/-- `SaceCmdObj::excute`: a call through `mCmdSender`. -/
def excuteThrough (sender : Bool) (cmd : SaceCommand) : ObjCall Unit := do
  Traced.emit (.excute cmd)
  if !sender then Traced.fault .nullPointer

theorem excuteThrough_sends (sender : Bool) (cmd : SaceCommand) :
    .excute cmd ∈ (excuteThrough sender cmd).trace := by
  simp [excuteThrough]

/-- `sender` says that there are a sender and a callback. -/
structure SaceCommandObj where
  mError : ErrorCode
  sender : Bool
  cmd : Str
  label : UInt64
  fd : Int
  in_ : Bool

namespace SaceCommandObj

/-- The error constructor. It stores no `fd` and no `in`: they are what the memory holds. -/
def ofError (code : ErrorCode) (cmd : Str) (label : UInt64) (fd : Int) (in_ : Bool) :
    SaceCommandObj :=
  { mError := code, sender := false, cmd, label, fd, in_ }

def cmdStr (obj : SaceCommandObj) : Str :=
  str "command [cmd=" ++ obj.cmd ++ str ", sequence=" ++
    str (toString (labelToSequence obj.label)) ++ str "] "

/-- The error codes that read and write refuse. Only read has a blank before the reasons. -/
def refusal (blank : Str) (obj : SaceCommandObj) : Option SaceException :=
  if obj.mError = .unknown then some (.remote (obj.cmdStr ++ str "May be initialize failed"))
  else if obj.mError = .exit then some (.remote (obj.cmdStr ++ blank ++ str "Exit Abnormally"))
  else if obj.mError = .exitUser then
    some (.invalidOperation (obj.cmdStr ++ blank ++ str "Has Exit By User"))
  else none

def read (obj : SaceCommandObj) (len : Nat) : ObjCall (Except ObjException Unit) :=
  if !obj.in_ then return .error (.unsupported (str "only read support"))
  else
    match obj.refusal (str " ") with
    | some exception => return .error (.sace exception)
    | none => do
      Traced.emit (.read obj.fd len)
      return .ok ()

def write (obj : SaceCommandObj) (buf : Bytes) : ObjCall (Except ObjException Unit) :=
  if obj.in_ then return .error (.unsupported (str "only write support"))
  else
    match obj.refusal [] with
    | some exception => return .error (.sace exception)
    | none => do
      Traced.emit (.write obj.fd buf)
      return .ok ()

def closeCommand (obj : SaceCommandObj) (fresh : SaceCommand) : SaceCommand :=
  { fresh with
    label := obj.label
    sequence := labelToSequence obj.label
    type := .normal
    subType := SaceNormalCommandType.close.byte
    command := obj.cmd }

/-- `mRlt` is the answer to the command. -/
def close (obj : SaceCommandObj) (fresh : SaceCommand) (mRlt : SaceResult) :
    ObjCall SaceCommandObj :=
  if obj.mError = .exit ∨ obj.mError = .exitUser ∨ obj.mError = .unknown then return obj
  else if obj.fd < 0 then return obj
  else do
    Traced.emit (.fsync obj.fd)
    Traced.emit (.close obj.fd)
    excuteThrough obj.sender (obj.closeCommand fresh)
    Traced.emit (.callback .normal obj.label)
    return { obj with fd := -1, mError := resultToError mRlt.resultStatus }

inductive Operation where
  | read (len : Nat)
  | write (buf : Bytes)
  | close (fresh : SaceCommand) (mRlt : SaceResult)

def operate (obj : SaceCommandObj) : Operation → ObjCall SaceCommandObj
  | .read len => do
    let _ ← obj.read len
    return obj
  | .write buf => do
    let _ ← obj.write buf
    return obj
  | .close fresh mRlt => obj.close fresh mRlt

def destroyed (obj : SaceCommandObj) (calls : List Operation) (fresh : SaceCommand)
    (mRlt : SaceResult) : ObjCall SaceCommandObj :=
  (calls ++ [Operation.close fresh mRlt]).foldlM operate obj

def Refused (code : ErrorCode) : Prop := code = .exit ∨ code = .exitUser ∨ code = .unknown

instance (code : ErrorCode) : Decidable (Refused code) := inferInstanceAs (Decidable (_ ∨ _))

def Quiet (obj : SaceCommandObj) (op : Operation) : Prop :=
  Refused obj.mError ∨
    match op with
    | .read _ => obj.in_ = false
    | .write _ => obj.in_ = true
    | .close _ _ => obj.fd < 0

variable {obj : SaceCommandObj}

theorem refusal_some (refused : Refused obj.mError) (blank : Str) :
    ∃ exception, obj.refusal blank = some exception := by
  unfold refusal
  rcases refused with exit | user | unknown
  · simp [exit]
  · simp [user]
  · simp [unknown]

theorem refusal_none (open_ : ¬ Refused obj.mError) (blank : Str) : obj.refusal blank = none := by
  unfold Refused at open_
  push Not at open_
  simp [refusal, open_]

theorem operate_quiet {op : Operation} (quiet : Quiet obj op) : obj.operate op = pure obj := by
  cases op with
  | read len =>
    unfold operate read
    cases direction : obj.in_ with
    | false => rfl
    | true =>
      rcases quiet with refused | other
      · obtain ⟨exception, thrown⟩ := refusal_some refused (str " ")
        simp [thrown]
      · rw [direction] at other
        cases other
  | write buf =>
    unfold operate write
    cases direction : obj.in_ with
    | true => rfl
    | false =>
      rcases quiet with refused | other
      · obtain ⟨exception, thrown⟩ := refusal_some refused []
        simp [thrown]
      · rw [direction] at other
        cases other
  | close fresh mRlt =>
    unfold operate close
    rcases quiet with refused | closed
    · exact if_pos refused
    · have negative : obj.fd < 0 := closed
      simp [negative]

theorem operate_touches {op : Operation} (loud : ¬ Quiet obj op) :
    ∃ effect ∈ (obj.operate op).trace, effect.Touches := by
  obtain ⟨open_, other⟩ := not_or.mp loud
  cases op with
  | read len =>
    have direction : obj.in_ = true := by simpa using other
    refine ⟨.read obj.fd len, Traced.mem_bind.mpr (.inl ?_), trivial⟩
    simp [read, direction, refusal_none open_]
  | write buf =>
    have direction : obj.in_ = false := by simpa using other
    refine ⟨.write obj.fd buf, Traced.mem_bind.mpr (.inl ?_), trivial⟩
    simp [write, direction, refusal_none open_]
  | close fresh mRlt =>
    refine ⟨.fsync obj.fd, ?_, trivial⟩
    unfold Refused at open_
    simp [operate, close, open_, other]

def Operation.Turned (in_ : Bool) : Operation → Prop
  | .read _ => in_ = false
  | .write _ => in_ = true
  | .close _ _ => True

theorem destroyed_quiet (calls : List Operation) (fresh : SaceCommand) (mRlt : SaceResult) :
    Traced.Every (fun effect => ¬ effect.Touches) (obj.destroyed calls fresh mRlt) ↔
      Refused obj.mError ∨ obj.fd < 0 ∧ ∀ op ∈ calls, op.Turned obj.in_ := by
  unfold destroyed
  rw [Traced.every_foldlM (fun op (quiet : Quiet obj op) => operate_quiet quiet)
    (fun op loud => by simpa using operate_touches loud), List.forall_mem_append,
    List.forall_mem_singleton]
  by_cases refused : Refused obj.mError
  · exact iff_of_true ⟨fun op _ => .inl refused, .inl refused⟩ (.inl refused)
  · rw [or_iff_right refused]
    constructor
    · rintro ⟨calls, last⟩
      have negative : obj.fd < 0 := last.resolve_left refused
      refine ⟨negative, fun op member => ?_⟩
      have turned := (calls op member).resolve_left refused
      cases op with
      | read len => exact turned
      | write buf => exact turned
      | close fresh mRlt => trivial
    · rintro ⟨negative, turned⟩
      refine ⟨fun op member => .inr ?_, .inr negative⟩
      have other := turned op member
      cases op with
      | read len => exact other
      | write buf => exact other
      | close fresh mRlt => exact negative

end SaceCommandObj

/-! ### Services -/

namespace SaceServiceObj

def ofError (code : ErrorCode) (name command : Str) (label : UInt64) : SaceServiceObj :=
  { label, name, command, mError := code }

/-- A call with what it needs from outside: the name and the sequence of a new command, and the
answer to it. -/
structure Call where
  op : Operation
  own : Str
  sequence : UInt32
  mRlt : SaceResult

def perform (sender : Bool) (obj : SaceServiceObj) (call : Call) : ObjCall SaceServiceObj :=
  match call.op.command call.own call.sequence obj with
  | .error _ => return obj
  | .ok none => return obj
  | .ok (some mCmd) => do
    excuteThrough sender mCmd
    if call.op = .stop then Traced.emit (.callback .service obj.label)
    return (obj.operated call.mRlt).1

def destroyed (obj : SaceServiceObj) (sender : Bool) (calls : List Call) :
    ObjCall SaceServiceObj :=
  calls.foldlM (perform sender) obj

/-- What the call itself refuses, or does nothing about. -/
def Operation.Refuses (code : ErrorCode) (label : UInt64) : Operation → Prop
  | .getState => code = .exit ∨ code = .exitUser
  | _ => (code ≠ .ok ∧ code ≠ .timeout) ∨ label = 0

variable {obj : SaceServiceObj} (own : Str) (sequence : UInt32)

theorem operate_sends {cmdType : SaceServiceCommandType} {blank : Str} :
    (∃ mCmd, obj.operate cmdType blank own sequence = .ok (some mCmd)) ↔
      ¬ ((obj.mError ≠ .ok ∧ obj.mError ≠ .timeout) ∨ obj.label = 0) := by
  unfold operate
  cases obj.mError with
  | ok | timeout | exit | exitUser | notExists | unknown =>
    by_cases unlabelled : obj.label = 0
    · simp [unlabelled]
    · simp [unlabelled]

theorem command_sends (op : Operation) :
    (∃ mCmd, op.command own sequence obj = .ok (some mCmd)) ↔
      ¬ op.Refuses obj.mError obj.label := by
  cases op with
  | stop | pause | restart => exact operate_sends own sequence
  | getState =>
    unfold Operation.command getState Operation.Refuses
    cases code : obj.mError with
    | ok | timeout | exit | exitUser | notExists | unknown => simp [code]

theorem perform_quiet {sender : Bool} {call : Call}
    (refuses : call.op.Refuses obj.mError obj.label) : perform sender obj call = pure obj := by
  have silent := mt (command_sends call.own call.sequence call.op).mp
    (not_not_intro refuses)
  unfold perform
  split
  · rfl
  · rfl
  · rename_i mCmd sends
    exact absurd ⟨mCmd, sends⟩ silent

theorem perform_touches {sender : Bool} {call : Call}
    (goes : ¬ call.op.Refuses obj.mError obj.label) :
    ∃ effect ∈ (perform sender obj call).trace, effect.Touches := by
  obtain ⟨mCmd, sends⟩ := (command_sends call.own call.sequence call.op).mpr goes
  refine ⟨.excute mCmd, ?_, trivial⟩
  unfold perform
  rw [sends]
  exact Traced.mem_bind.mpr (.inl (excuteThrough_sends sender mCmd))

theorem destroyed_quiet (sender : Bool) (calls : List Call) :
    Traced.Every (fun effect => ¬ effect.Touches) (obj.destroyed sender calls) ↔
      ∀ call ∈ calls, call.op.Refuses obj.mError obj.label :=
  Traced.every_foldlM (fun _ refuses => perform_quiet refuses)
    (fun _ goes => by simpa using perform_touches goes) calls

end SaceServiceObj

/-- Which calls on an object of an error constructor, its destruction included, stay away from
the descriptor and from the sender that it does not have. -/
theorem error_objects_quiet (code : ErrorCode) :
    (∀ cmd label fd in_ calls fresh mRlt,
      Traced.Every (fun effect => ¬ effect.Touches)
          ((SaceCommandObj.ofError code cmd label fd in_).destroyed calls fresh mRlt) ↔
        SaceCommandObj.Refused code ∨ fd < 0 ∧ ∀ op ∈ calls, op.Turned in_) ∧
      ∀ name command label calls,
        Traced.Every (fun effect => ¬ effect.Touches)
            ((SaceServiceObj.ofError code name command label).destroyed false calls) ↔
          ∀ call ∈ calls, call.op.Refuses code label :=
  ⟨fun _ _ _ _ calls fresh mRlt => SaceCommandObj.destroyed_quiet calls fresh mRlt,
    fun _ _ _ calls => SaceServiceObj.destroyed_quiet false calls⟩

/-! ### The objects of runCommand -/

namespace SaceManager

/-- runCommand and the answer to its command. `fd` and `in` of an error object are what the memory
holds. -/
def Caller.runCommand (m : Caller) (cmd : Str) (param : Option ParamsObject) (in_ : Bool)
    (memory : Int × Bool) : SaceCommandObj :=
  let mCmd := SaceManager.runCommand m.own (m.sequence 0) cmd param in_
  let mRlt := m.excuteCommand mCmd
  let failed (errCode : ErrorCode) : SaceCommandObj :=
    .ofError errCode cmd (sequenceToLabel mCmd.sequence 0) memory.1 memory.2
  if mRlt.resultStatus = .ok then
    if mRlt.resultType = .fd then
      { mError := .ok, sender := true, cmd, label := mRlt.label
        fd := mRlt.resultFd.getD memory.1, in_ }
    else failed .unknown
  else failed (resultToError mRlt.resultStatus)

/-- Of the results that fail only a timeout makes an object that does not refuse all calls. -/
theorem resultToError_refused {status : SaceResultStatus} (failed : status ≠ .ok) :
    SaceCommandObj.Refused (resultToError status) ↔ status ≠ .timeout := by
  unfold resultToError
  rw [if_neg failed]
  split
  · rename_i late
    simp [SaceCommandObj.Refused, late]
  · rename_i other
    refine iff_of_true ?_ other
    split
    · exact .inr (.inl rfl)
    · exact .inr (.inr rfl)

theorem runCommand_error {m : Caller} {cmd : Str} {param : Option ParamsObject} {in_ : Bool}
    {memory : Int × Bool} (failed : (m.runCommand cmd param in_ memory).sender = false) :
    SaceCommandObj.Refused (m.runCommand cmd param in_ memory).mError ∨
      (m.runCommand cmd param in_ memory).mError = .timeout := by
  unfold Caller.runCommand at failed ⊢
  dsimp only at failed ⊢
  split at failed
  · split at failed
    · cases failed
    · rename_i ok other
      rw [if_pos ok, if_neg other]
      exact .inl (.inr (.inr rfl))
  · rename_i failure
    rw [if_neg failure]
    by_cases late : (m.excuteCommand
        (runCommand m.own (m.sequence 0) cmd param in_)).resultStatus = .timeout
    · rw [late]
      exact .inr rfl
    · exact .inl ((resultToError_refused failure).mpr late)

/-- The server does not answer in time, and the memory holds a descriptor of the process. -/
theorem timeout_closes :
    let m : Caller := { Caller.refused with excuteCommand := fun _ => { resultStatus := .timeout } }
    let obj := m.runCommand (str "id") none true (5, true)
    obj = .ofError .timeout (str "id") (sequenceToLabel 7 0) 5 true ∧
      ¬ Traced.Every (fun effect => ¬ effect.Touches)
        (obj.destroyed [] (.init (str "200:200") 8) {}) := by
  refine ⟨rfl, fun quiet => ?_⟩
  exact quiet (.close 5) (by decide) trivial

end SaceManager
end Sace
