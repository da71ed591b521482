import Sace.Params
import Sace.Library.Tables

/-! SaceTypes: commands, results and status responses. The enumerations are single
bytes on the wire and the cast that reads them checks nothing, so each is kept as a
byte with names for the enumerators. -/
namespace Sace

def EXTRA_BUFER_LEN : Nat := 256
def CMD_BUFFER_LEN : Nat := 128
def SERVICE_NAME_LEN : Nat := 64

def labelToSequence (x : UInt64) : UInt32 := (x &&& (0xFFFFFFFF : UInt64)).toUInt32

def sequenceToLabel (x : UInt32) (y : UInt64) : UInt64 :=
  (x.toUInt64 &&& (0xFFFFFFFF : UInt64)) ||| (y <<< 32)

theorem lowWord (x : UInt64) :
    (x &&& (0xFFFFFFFF : UInt64)).toNat = x.toNat % 2 ^ 32 := by
  have ones : (0xFFFFFFFF : UInt64).toNat = 2 ^ 32 - 1 := rfl
  rw [UInt64.toNat_and, ones, Nat.and_two_pow_sub_one_eq_mod]

theorem sequenceToLabel_toNat (x : UInt32) (y : UInt64) :
    (sequenceToLabel x y).toNat = y.toUInt32.toNat * 2 ^ 32 + x.toNat := by
  have small : x.toNat % 2 ^ 32 = x.toNat := Nat.mod_eq_of_lt x.toNat_lt
  have shifted : (y <<< 32).toNat = y.toUInt32.toNat <<< 32 := by
    simp [Nat.shiftLeft_eq]
    omega
  rw [sequenceToLabel, UInt64.toNat_or, lowWord, UInt32.toNat_toUInt64, small, shifted, Nat.or_comm,
    ← Nat.shiftLeft_add_eq_or_of_lt x.toNat_lt, Nat.shiftLeft_eq]

/-- A label carries the sequence that it was made of. -/
theorem labelToSequence_sequenceToLabel (x : UInt32) (y : UInt64) :
    labelToSequence (sequenceToLabel x y) = x := by
  have small := x.toNat_lt
  rw [← UInt32.toNat_inj, labelToSequence, UInt64.toNat_toUInt32, lowWord, sequenceToLabel_toNat]
  omega

/-- Equal labels agree on the sequence and on the lower half of the address, and on no more. -/
theorem sequenceToLabel_eq_iff {x x' : UInt32} {y y' : UInt64} :
    sequenceToLabel x y = sequenceToLabel x' y' ↔ x = x' ∧ y.toUInt32 = y'.toUInt32 := by
  have small := x.toNat_lt
  have small' := x'.toNat_lt
  rw [← UInt64.toNat_inj, ← UInt32.toNat_inj, ← UInt32.toNat_inj, sequenceToLabel_toNat,
    sequenceToLabel_toNat]
  omega

structure SaceCommandType where
  byte : UInt8
  deriving DecidableEq, Repr

namespace SaceCommandType
def normal : SaceCommandType := ⟨0⟩
def service : SaceCommandType := ⟨1⟩
def event : SaceCommandType := ⟨2⟩
end SaceCommandType

structure SaceServiceCommandType where
  byte : UInt8
  deriving DecidableEq, Repr

namespace SaceServiceCommandType
def start : SaceServiceCommandType := ⟨0⟩
def stop : SaceServiceCommandType := ⟨1⟩
def pause : SaceServiceCommandType := ⟨2⟩
def restart : SaceServiceCommandType := ⟨3⟩
def info : SaceServiceCommandType := ⟨4⟩
end SaceServiceCommandType

structure SaceNormalCommandType where
  byte : UInt8
  deriving DecidableEq, Repr

namespace SaceNormalCommandType
def start : SaceNormalCommandType := ⟨0⟩
def close : SaceNormalCommandType := ⟨1⟩
def destroy : SaceNormalCommandType := ⟨2⟩
end SaceNormalCommandType

structure SaceEventType where
  byte : UInt8
  deriving DecidableEq, Repr

namespace SaceEventType
def add : SaceEventType := ⟨0⟩
def del : SaceEventType := ⟨1⟩
def info : SaceEventType := ⟨2⟩
end SaceEventType

structure SaceServiceFlags where
  byte : UInt8
  deriving DecidableEq, Repr

namespace SaceServiceFlags
def normal : SaceServiceFlags := ⟨0⟩
def event : SaceServiceFlags := ⟨1⟩
end SaceServiceFlags

structure SaceCommandFlags where
  byte : UInt8
  deriving DecidableEq, Repr

namespace SaceCommandFlags
def input : SaceCommandFlags := ⟨0⟩
def output : SaceCommandFlags := ⟨1⟩
end SaceCommandFlags

structure SaceEventFlags where
  byte : UInt8
  deriving DecidableEq, Repr

namespace SaceEventFlags
def none : SaceEventFlags := ⟨0⟩
def restart : SaceEventFlags := ⟨1⟩
end SaceEventFlags

/-- `extra` is the part of the zeroed buffer that was written. The union of the three
sub-type pairs is its two bytes; the accessors below are its readings. -/
structure SaceCommand where
  len : UInt32 := 0
  type : SaceCommandType := .normal
  sequence : UInt32
  label : UInt64 := 0
  name : Str
  command : Str := []
  commandParams : Option ParamsObject := none
  extra : Bytes := []
  extraLen : UInt32 := 0
  subType : UInt8 := 0
  subFlags : UInt8 := 0
  deriving DecidableEq

namespace SaceCommand

/-- `SaceCommand::init`: the name is made of the process and thread ids, the sequence of the
thread id and a counter. -/
def init (name : Str) (sequence : UInt32) : SaceCommand := { name, sequence }

def serviceCmdType (c : SaceCommand) : SaceServiceCommandType := ⟨c.subType⟩
def serviceFlags (c : SaceCommand) : SaceServiceFlags := ⟨c.subFlags⟩
def normalCmdType (c : SaceCommand) : SaceNormalCommandType := ⟨c.subType⟩
def flags (c : SaceCommand) : SaceCommandFlags := ⟨c.subFlags⟩
def eventType (c : SaceCommand) : SaceEventType := ⟨c.subType⟩
def eventFlags (c : SaceCommand) : SaceEventFlags := ⟨c.subFlags⟩

end SaceCommand

structure SaceResultHeaderType where
  byte : UInt8
  deriving DecidableEq, Repr

namespace SaceResultHeaderType
def normal : SaceResultHeaderType := ⟨0⟩
def response : SaceResultHeaderType := ⟨1⟩
end SaceResultHeaderType

structure SaceResultStatus where
  byte : UInt8
  deriving DecidableEq, Repr

namespace SaceResultStatus
def ok : SaceResultStatus := ⟨0⟩
def timeout : SaceResultStatus := ⟨1⟩
def fail : SaceResultStatus := ⟨2⟩
def secure : SaceResultStatus := ⟨3⟩
def exists_ : SaceResultStatus := ⟨4⟩
end SaceResultStatus

structure SaceResultType where
  byte : UInt8
  deriving DecidableEq, Repr

namespace SaceResultType
def none : SaceResultType := ⟨0⟩
def start : SaceResultType := ⟨1⟩
def close : SaceResultType := ⟨2⟩
def fd : SaceResultType := ⟨3⟩
def extra : SaceResultType := ⟨4⟩
def label : SaceResultType := ⟨5⟩
end SaceResultType

/-- `resultFd` has no value until somebody assigns one. -/
structure SaceResult where
  len : UInt32 := 0
  type : SaceResultHeaderType := .normal
  label : UInt64 := 0
  sequence : UInt32 := 0
  name : Str := []
  resultType : SaceResultType := .none
  resultStatus : SaceResultStatus := .ok
  resultExtra : Bytes := []
  resultExtraLen : UInt32 := 0
  resultFd : Option Int := Option.none
  deriving DecidableEq

structure SaceResponseStatus where
  byte : UInt8
  deriving DecidableEq, Repr

namespace SaceResponseStatus
def exit : SaceResponseStatus := ⟨0⟩
def signal : SaceResponseStatus := ⟨1⟩
def user : SaceResponseStatus := ⟨2⟩
def unknown : SaceResponseStatus := ⟨3⟩
end SaceResponseStatus

structure SaceResponseType where
  byte : UInt8
  deriving DecidableEq, Repr

namespace SaceResponseType
def normal : SaceResponseType := ⟨0⟩
def service : SaceResponseType := ⟨1⟩
end SaceResponseType

/-- The header's type and the response's own type are two members of one name in the
source; here the first is `headerType`. -/
structure SaceStatusResponse where
  len : UInt32 := 0
  headerType : SaceResultHeaderType := .response
  label : UInt64 := 0
  name : Str := []
  type : SaceResponseType := .service
  status : SaceResponseStatus := .exit
  extra : Bytes := []
  extraLen : UInt32 := 0
  deriving DecidableEq

def SERVICE_GET_BY_NAME : Str := str "GET_BY_NAME"
def SERVICE_GET_BY_LABEL : Str := str "GET_BY_LABEL"

inductive ServiceState where
  | paused | stoped | running | died | diedSignal | diedUnknown
  | finished | finishingUser | finishedUser | unknown
  deriving DecidableEq, Repr

def ServiceState.code : ServiceState → Nat
  | .paused => 0 | .stoped => 1 | .running => 2 | .died => 3 | .diedSignal => 4
  | .diedUnknown => 5 | .finished => 6 | .finishingUser => 7 | .finishedUser => 8
  | .unknown => 9

def ServiceState.monitored (state : ServiceState) : Bool :=
  state = .paused || state = .running || state = .stoped || state = .finishingUser

structure SaceClientIdentifier where
  uid : UInt32
  pid : Int
  deriving DecidableEq, Repr

/-- `operator<`: by uid, then by pid. -/
instance : Ord SaceClientIdentifier where
  compare := compareLex (compareOn SaceClientIdentifier.uid) (compareOn SaceClientIdentifier.pid)

instance : Std.TransOrd SaceClientIdentifier :=
  inferInstanceAs (Std.TransCmp
    (compareLex (compareOn SaceClientIdentifier.uid) (compareOn SaceClientIdentifier.pid)))

instance : Std.LawfulEqOrd SaceClientIdentifier where
  eq_of_compare {a b} h := by
    obtain ⟨uid, pid⟩ := Ordering.then_eq_eq.mp h
    have sameUid : a.uid = b.uid := Std.compare_eq_iff_eq.mp uid
    have samePid : a.pid = b.pid := Std.compare_eq_iff_eq.mp pid
    cases a
    cases b
    cases sameUid
    cases samePid
    rfl

end Sace
