import Sace.Types
import Sace.Library.Traced

/-! Messages between the server's threads, the writers through which replies leave,
and what an executor does besides changing its own state. -/
namespace Sace

inductive SaceMessageHandlerType where
  | unkown | normal | service | event
  deriving DecidableEq, Repr

/-- Where a writer sends: a client's socket, the pipe of the event executor, a Binder
transaction, or nowhere (SaceEventStopWriter). -/
inductive Channel where
  | socket (sockfd : Int)
  | pipe (fd : Int)
  | binder (transaction : Nat)
  | none
  deriving DecidableEq, Repr

structure SaceWriter where
  channel : Channel
  mId : Int
  deriving DecidableEq, Repr

/-- `operator==` of SaceWriter: only the ids are compared. -/
def SaceWriter.same (w v : SaceWriter) : Bool := w.mId = v.mId

structure SaceReaderMessage where
  msgHandler : SaceMessageHandlerType
  msgCmd : SaceCommand
  msgWriter : SaceWriter
  msgClient : SaceClientIdentifier
  deriving DecidableEq

/-- A message given to the dispatcher. The event executor posts one and the same stop
message object every time, so what is queued is a pointer to it. -/
inductive Posted where
  | message (msg : SaceReaderMessage)
  | stopMsg
  deriving DecidableEq

def SIGINT : Nat := 2
def SIGKILL : Nat := 9
def SIGTERM : Nat := 15
def SIGCONT : Nat := 18
def SIGSTOP : Nat := 19

inductive Effect where
  | sendResult (writer : SaceWriter) (result : SaceResult)
  | sendResponse (writer : SaceWriter) (response : SaceStatusResponse)
  | kill (pid : Int) (signal : Nat)
  /-- A child that runs a command under the given parameters. -/
  | spawn (pid : Int) (params : Option CommandParams)
  | post (message : Posted)
  /-- A copy of `size` bytes to a destination of `capacity` bytes. -/
  | copy (size capacity : Nat)
  deriving DecidableEq

inductive Fault where
  | useAfterFree
  | outOfBounds
  | overflow
  | nullPointer
  /-- The recorded answers end while the thread is still in a wait loop. -/
  | waiting
  deriving DecidableEq, Repr

abbrev Exec := Traced Effect Fault

/-- A memcpy of `size` bytes to a destination of `capacity` bytes. -/
def memcpy (size capacity : Nat) : Exec Unit := do
  Traced.emit (.copy size capacity)
  if capacity < size then Traced.fault .overflow

/-- A memcpy of a string of `size` bytes without its zero, to a zeroed destination that
is read as a string afterwards. -/
def memcpyString (size capacity : Nat) : Exec Unit := do
  Traced.emit (.copy (size + 1) capacity)
  if capacity < size then Traced.fault .overflow

@[simp] theorem memcpy_of_le {size capacity : Nat} (fits : size ≤ capacity) :
    memcpy size capacity = ⟨[.copy size capacity], .ok ()⟩ := by
  simp [memcpy, Nat.not_lt.mpr fits]

@[simp] theorem memcpy_of_lt {size capacity : Nat} (large : capacity < size) :
    memcpy size capacity = ⟨[.copy size capacity], .error .overflow⟩ := by
  simp [memcpy, large]

theorem memcpy_fits {size capacity : Nat} (copied : (memcpy size capacity).result = .ok ()) :
    size ≤ capacity := by
  by_contra large
  rw [memcpy_of_lt (Nat.lt_of_not_le large)] at copied
  cases copied

theorem memcpyString_of_le {size capacity : Nat} (fits : size ≤ capacity) :
    memcpyString size capacity = ⟨[.copy (size + 1) capacity], .ok ()⟩ := by
  simp [memcpyString, Nat.not_lt.mpr fits]

theorem memcpyString_of_lt {size capacity : Nat} (large : capacity < size) :
    memcpyString size capacity = ⟨[.copy (size + 1) capacity], .error .overflow⟩ := by
  simp [memcpyString, large]

theorem memcpy_every {P : Effect → Prop} {size capacity : Nat} (copy : P (.copy size capacity)) :
    Traced.Every P (memcpy size capacity) := by
  rw [memcpy, Traced.every_bind, Traced.every_emit]
  exact ⟨copy, fun _ _ => by split <;> simp⟩

def initialResult (saceCmd : SaceCommand) : SaceResult :=
  { sequence := saceCmd.sequence
    name := saceCmd.name
    resultStatus := .fail
    resultType := .none }

/-- What an executor sends for a command has its sequence and is not of the type LABEL. -/
def SaceResult.Answers (result : SaceResult) (saceCmd : SaceCommand) : Prop :=
  result.sequence = saceCmd.sequence ∧ result.resultType ≠ .label

/-- The outcome of `waitpid(pid, &status, WNOHANG)`. -/
inductive WaitAnswer where
  | running
  | reaped (status : UInt32)
  | failed (errno : Nat)
  deriving DecidableEq, Repr

def ECHILD : Nat := 10

end Sace
