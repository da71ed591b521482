import Sace.Library.Runs
import Sace.Reader.Socket

/-! SaceBinderReader: calls of sendCommand, their results on the heap, and the threads that
answer them. A pointer to a SaceResult is a position in `objects`, which only grows. -/
namespace Sace

/-- `operator=`: only the extra bytes that count are copied. -/
def SaceResult.assign (old rslt : SaceResult) : Exec SaceResult := do
  memcpy rslt.resultExtraLen.toNat EXTRA_BUFER_LEN
  return { rslt with
    resultExtra := Bytes.padded rslt.resultExtraLen.toNat rslt.resultExtra ++
      old.resultExtra.drop rslt.resultExtraLen.toNat }

/-- Equal as objects, with the whole of the zeroed buffers. -/
structure SaceResult.Same (r t : SaceResult) : Prop where
  members : { r with resultExtra := [] } = { t with resultExtra := [] }
  extra : Bytes.padded EXTRA_BUFER_LEN r.resultExtra = Bytes.padded EXTRA_BUFER_LEN t.resultExtra

namespace SaceBinderReader

structure SaceBinderWriter where
  mId : Int
  listener : Nat
  result : Nat
  syncSem : Nat := 0
  deriving DecidableEq

inductive Verdict where
  | exited
  | refused
  | posted (writer : SaceBinderWriter)
  deriving DecidableEq

/-- A call of sendCommand: `rslt` is the object that the stub passes, `passed` what the
executor has given to the call's writer. -/
structure Call where
  client : SaceClientIdentifier
  command : SaceCommand
  rslt : Nat
  verdict : Verdict
  passed : List SaceResult := []
  returned : Bool := false

structure SaceManagerService where
  mExit : Bool := false
  mListener : Table SaceClientIdentifier Nat := ∅
  objects : List SaceResult := []
  calls : List Call := []

namespace SaceManagerService

def new (s : SaceManagerService) (result : SaceResult) : SaceManagerService × Nat :=
  ({ s with objects := s.objects ++ [result] }, s.objects.length)

def message (client : SaceClientIdentifier) (command : SaceCommand) (rslt : Nat) :
    SaceReaderMessage :=
  { msgHandler := typeCmdToMsg command.type
    msgCmd := command
    msgWriter := ⟨.binder rslt, client.pid⟩
    msgClient := client }

/-- Up to the wait. Each branch gives the parameter `rslt` a new object, and the object that
the caller passed is not used. A client without a listener is looked up in vain. -/
def sendCommand (s : SaceManagerService) (client : SaceClientIdentifier) (command : SaceCommand)
    (_rslt : Nat) : Exec (SaceManagerService × Verdict) :=
  if s.mExit then
    let (s, _) := s.new resultByFailure
    return (s, .exited)
  else if !securedByUidPid client.uid client.pid then
    let (s, _) := s.new resultBySecure
    return (s, .refused)
  else
    let (s, rslt) := s.new {}
    match s.mListener[client]? with
    | none => Traced.fault .outOfBounds
    | some listener => do
      Traced.emit (.post (.message (message client command rslt)))
      return (s, .posted { mId := client.pid, listener, result := rslt })

/-- The stub: a default object, and sendCommand with its address. -/
def call (s : SaceManagerService) (client : SaceClientIdentifier) (command : SaceCommand) :
    Exec SaceManagerService := do
  let (s, rslt) := s.new {}
  let (s, verdict) ← s.sendCommand client command rslt
  return { s with
    calls := s.calls ++ [{
      client, command, rslt, verdict
      returned := match verdict with | .posted _ => false | _ => true }] }

def sendResult (s : SaceManagerService) (i : Nat) (result : SaceResult) :
    Exec SaceManagerService :=
  match s.calls[i]? with
  | some call =>
    match call.verdict with
    | .posted writer =>
      match s.objects[writer.result]? with
      | none => Traced.fault .useAfterFree
      | some old => do
        let new ← old.assign result
        return { s with
          objects := s.objects.set writer.result new
          calls := s.calls.set i { call with
            verdict := .posted { writer with syncSem := writer.syncSem + 1 }
            passed := call.passed ++ [result] } }
    | _ => return s
  | none => return s

/-- A `waitResult` that finds the semaphore posted; sendCommand returns. -/
def waitResult (s : SaceManagerService) (i : Nat) : SaceManagerService :=
  match s.calls[i]? with
  | some call =>
    match call.verdict with
    | .posted writer =>
      if 0 < writer.syncSem ∧ !call.returned then
        { s with
          calls := s.calls.set i { call with
            verdict := .posted { writer with syncSem := writer.syncSem - 1 }
            returned := true } }
      else s
    | _ => s
  | none => s

def registerListener (s : SaceManagerService) (client : SaceClientIdentifier) (listener : Nat) :
    SaceManagerService :=
  if s.mExit then s else { s with mListener := s.mListener.insertIfNew client listener }

def unregisterListener (s : SaceManagerService) (client : SaceClientIdentifier) :
    SaceManagerService :=
  if s.mExit then s else { s with mListener := s.mListener.erase client }

/-- What the death of a client does; the message has no writer. -/
def destroyClient (s : SaceManagerService) (client : SaceClientIdentifier) :
    Exec SaceManagerService := do
  Traced.emit (.post (.message
    { msgHandler := .normal
      msgCmd := SaceSocketReader.closeCommand client
      msgWriter := ⟨.none, 0⟩
      msgClient := client }))
  return { s with mListener := s.mListener.erase client }

def stop (s : SaceManagerService) : SaceManagerService := { s with mExit := true }

inductive Input where
  | register (client : SaceClientIdentifier) (listener : Nat)
  | unregister (client : SaceClientIdentifier)
  | died (client : SaceClientIdentifier)
  | stop
  | call (client : SaceClientIdentifier) (command : SaceCommand)
  | answer (i : Nat) (result : SaceResult)
  | wake (i : Nat)

def turn (s : SaceManagerService) : Input → Exec SaceManagerService
  | .register client listener => return s.registerListener client listener
  | .unregister client => return s.unregisterListener client
  | .died client => s.destroyClient client
  | .stop => return s.stop
  | .call client command => s.call client command
  | .answer i result => s.sendResult i result
  | .wake i => return s.waitResult i

def step (s : SaceManagerService) (input : Input) : Option SaceManagerService :=
  (s.turn input).value

/-! ### The caller's object -/

/-- No writer leads to an object that a stub has passed, and each of these is as it was made. -/
structure Apart (s : SaceManagerService) : Prop where
  untouched : ∀ call ∈ s.calls, s.objects[call.rslt]? = some {}
  writers : ∀ call ∈ s.calls, ∀ writer, call.verdict = .posted writer →
    writer.result < s.objects.length ∧ ∀ other ∈ s.calls, writer.result ≠ other.rslt

theorem sendCommand_ok {s t : SaceManagerService} {client : SaceClientIdentifier}
    {command : SaceCommand} {rslt : Nat} {verdict : Verdict}
    (done : (s.sendCommand client command rslt).result = .ok (t, verdict)) :
    ∃ object, t = (s.new object).1 ∧
      ∀ writer, verdict = .posted writer → writer.result = s.objects.length := by
  unfold sendCommand at done
  split at done
  · cases done
    exact ⟨resultByFailure, rfl, fun writer no => by cases no⟩
  split at done
  · cases done
    exact ⟨resultBySecure, rfl, fun writer no => by cases no⟩
  · dsimp only at done
    split at done
    · cases done
    · cases done
      refine ⟨{}, rfl, fun writer same => ?_⟩
      cases same
      rfl

/-- A call makes two objects: the stub's, which stays a default one, and another. -/
theorem call_ok {s t : SaceManagerService} {client : SaceClientIdentifier}
    {command : SaceCommand} (done : (s.call client command).result = .ok t) :
    ∃ object call, t = { s with
        objects := s.objects ++ [{}] ++ [object], calls := s.calls ++ [call] } ∧
      call.rslt = s.objects.length ∧
      ∀ writer, call.verdict = .posted writer → writer.result = s.objects.length + 1 := by
  obtain ⟨⟨u, verdict⟩, sent, done⟩ := Traced.bind_ok.mp done
  obtain ⟨object, rfl, result⟩ := sendCommand_ok sent
  cases done
  refine ⟨object, _, rfl, rfl, fun writer posted => ?_⟩
  simpa [new] using result writer posted

/-- What an answer and the end of a wait leave of a call. -/
structure Kept (before after : Call) : Prop where
  rslt : after.rslt = before.rslt
  result : ∀ writer, after.verdict = .posted writer →
    ∃ old, before.verdict = .posted old ∧ writer.result = old.result

theorem kept_of_posted {before after : Call} {old new : SaceBinderWriter}
    (was : before.verdict = .posted old) (rslt : after.rslt = before.rslt)
    (is : after.verdict = .posted new) (result : new.result = old.result) :
    Kept before after where
  rslt := rslt
  result writer posted := by
    cases is.symm.trans posted
    exact ⟨old, was, result⟩

theorem Apart.set {s : SaceManagerService} (apart : Apart s) {i : Nat} {before after : Call}
    (at_ : s.calls[i]? = some before) (kept : Kept before after) {objects : List SaceResult}
    (untouched : ∀ call ∈ s.calls, objects[call.rslt]? = some {})
    (length : objects.length = s.objects.length) :
    Apart { s with objects, calls := s.calls.set i after } where
  untouched call member := by
    rcases List.mem_or_eq_of_mem_set member with old | rfl
    · exact untouched call old
    · rw [kept.rslt]
      exact untouched before (List.mem_of_getElem? at_)
  writers call member writer posted := by
    have rslts : ∀ other ∈ s.calls.set i after, ∃ old ∈ s.calls, other.rslt = old.rslt := by
      intro other among
      rcases List.mem_or_eq_of_mem_set among with old | rfl
      · exact ⟨other, old, rfl⟩
      · exact ⟨before, List.mem_of_getElem? at_, kept.rslt⟩
    obtain ⟨old, oldMember, oldWriter, oldPosted, same⟩ : ∃ old ∈ s.calls, ∃ oldWriter,
        old.verdict = .posted oldWriter ∧ writer.result = oldWriter.result := by
      rcases List.mem_or_eq_of_mem_set member with old | rfl
      · exact ⟨call, old, writer, posted, rfl⟩
      · obtain ⟨oldWriter, oldPosted, same⟩ := kept.result writer posted
        exact ⟨before, List.mem_of_getElem? at_, oldWriter, oldPosted, same⟩
    obtain ⟨inside, others⟩ := apart.writers old oldMember oldWriter oldPosted
    refine ⟨by rw [same, length]; exact inside, fun other among => ?_⟩
    obtain ⟨origin, there, rslt⟩ := rslts other among
    rw [same, rslt]
    exact others origin there

theorem Apart.call {s t : SaceManagerService} (apart : Apart s) {client : SaceClientIdentifier}
    {command : SaceCommand} (done : (s.call client command).result = .ok t) : Apart t := by
  obtain ⟨object, fresh, rfl, rslt, result⟩ := call_ok done
  have old : ∀ call ∈ s.calls, call.rslt < s.objects.length := fun call member =>
    (List.getElem?_eq_some_iff.mp (apart.untouched call member)).1
  constructor
  · intro call member
    rcases List.mem_append.mp member with before | new
    · rw [List.append_assoc, List.getElem?_append_left (old call before)]
      exact apart.untouched call before
    · cases List.mem_singleton.mp new
      rw [rslt, List.append_assoc, List.getElem?_append_right (Nat.le_refl _), Nat.sub_self]
      rfl
  · intro call member writer posted
    simp only [List.length_append, List.length_singleton]
    rcases List.mem_append.mp member with before | new
    · obtain ⟨inside, others⟩ := apart.writers call before writer posted
      refine ⟨by omega, fun other among => ?_⟩
      rcases List.mem_append.mp among with among | among
      · exact others other among
      · cases List.mem_singleton.mp among
        omega
    · cases List.mem_singleton.mp new
      have address := result writer posted
      refine ⟨by omega, fun other among => ?_⟩
      rcases List.mem_append.mp among with among | among
      · have := old other among
        omega
      · cases List.mem_singleton.mp among
        omega

theorem Apart.sendResult {s t : SaceManagerService} (apart : Apart s) {i : Nat}
    {result : SaceResult} (done : (s.sendResult i result).result = .ok t) : Apart t := by
  unfold SaceManagerService.sendResult at done
  split at done
  · rename_i call at_
    split at done
    · rename_i writer posted
      split at done
      · cases done
      · obtain ⟨new, _, done⟩ := Traced.bind_ok.mp done
        cases done
        obtain ⟨_, others⟩ := apart.writers call (List.mem_of_getElem? at_) writer posted
        have kept : Kept call { call with
            verdict := .posted { writer with syncSem := writer.syncSem + 1 }
            passed := call.passed ++ [result] } := kept_of_posted posted rfl rfl rfl
        refine apart.set at_ kept (fun other member => ?_) List.length_set
        rw [List.getElem?_set_ne (others other member)]
        exact apart.untouched other member
    · cases done
      exact apart
  · cases done
    exact apart

theorem Apart.waitResult {s : SaceManagerService} (apart : Apart s) (i : Nat) :
    Apart (s.waitResult i) := by
  unfold SaceManagerService.waitResult
  split
  · rename_i call at_
    split
    · rename_i writer posted
      split
      · have kept : Kept call { call with
            verdict := .posted { writer with syncSem := writer.syncSem - 1 }
            returned := true } := kept_of_posted posted rfl rfl rfl
        exact apart.set at_ kept apart.untouched rfl
      · exact apart
    · exact apart
  · exact apart

theorem Apart.step {s t : SaceManagerService} (apart : Apart s) {input : Input}
    (moved : s.step input = some t) : Apart t := by
  have done := Traced.value_eq_some.mp moved
  cases input with
  | register client listener =>
    cases done
    unfold registerListener
    split <;> exact ⟨apart.untouched, apart.writers⟩
  | unregister client =>
    cases done
    unfold unregisterListener
    split <;> exact ⟨apart.untouched, apart.writers⟩
  | died client =>
    cases done
    exact ⟨apart.untouched, apart.writers⟩
  | stop =>
    cases done
    exact ⟨apart.untouched, apart.writers⟩
  | call client command => exact apart.call done
  | answer i result => exact apart.sendResult done
  | wake i =>
    cases done
    exact apart.waitResult i

theorem reached_apart {s : SaceManagerService}
    (reached : Runs.Reached step (fun _ _ => True) {} s) : Apart s := by
  apply reached.invariant
  · exact ⟨fun call member => absurd member List.not_mem_nil,
      fun call member => absurd member List.not_mem_nil⟩
  · intro s input t apart _ moved
    exact apart.step moved

end SaceManagerService

/-! ### What a call returns -/

def Call.due (call : Call) : Option SaceResult :=
  match call.verdict with
  | .exited => some resultByFailure
  | .refused => some resultBySecure
  | .posted _ => call.passed.getLast?

namespace SaceManagerService

/-- The caller's object is the result that is due. -/
def Delivered (s : SaceManagerService) (call : Call) : Prop :=
  ∃ found due, s.objects[call.rslt]? = some found ∧ call.due = some due ∧ found.Same due

/-- Every call comes back with a default result, and so with the right one exactly when it was
posted and the executor passed a default result. -/
theorem reached_delivered_iff {s : SaceManagerService}
    (reached : Runs.Reached step (fun _ _ => True) {} s) {call : Call} (member : call ∈ s.calls)
    (_returned : call.returned = true) :
    Delivered s call ↔ (∃ writer, call.verdict = .posted writer) ∧
      ∃ result, call.passed.getLast? = some result ∧ SaceResult.Same {} result := by
  have untouched := (reached_apart reached).untouched call member
  constructor
  · rintro ⟨found, due, at_, isDue, same⟩
    cases Option.some.inj (untouched.symm.trans at_)
    cases verdict : call.verdict with
    | exited =>
      simp only [Call.due, verdict, Option.some.injEq] at isDue
      subst isDue
      exact absurd (congrArg SaceResult.resultStatus same.members) (by decide)
    | refused =>
      simp only [Call.due, verdict, Option.some.injEq] at isDue
      subst isDue
      exact absurd (congrArg SaceResult.resultStatus same.members) (by decide)
    | posted writer =>
      simp only [Call.due, verdict] at isDue
      exact ⟨⟨writer, rfl⟩, due, isDue, same⟩
  · rintro ⟨⟨writer, posted⟩, result, passed, same⟩
    exact ⟨{}, result, untouched, by simp only [Call.due, posted, passed], same⟩

/-! A client with a listener asks the normal executor to close a command that it does not
have; another client is not authorised. -/

def closeUnknown : SaceCommand :=
  { sequence := 9, name := str "1:1", label := 5, subType := SaceNormalCommandType.close.byte }

def closeRefused : SaceResult :=
  { sequence := 9, name := str "1:1", resultType := .close, resultStatus := .fail
    resultFd := some (-1) }

def answeredCall : List Input :=
  [.register ⟨1000, 200⟩ 1, .call ⟨1000, 200⟩ closeUnknown, .answer 0 closeRefused, .wake 0,
    .call ⟨2000, 300⟩ closeUnknown]

theorem answered_run : ∃ s, Runs.Reached step (fun _ _ => True) {} s ∧
    ∃ answered refused, s.calls = [answered, refused] ∧
      answered.returned = true ∧ refused.returned = true ∧
      answered.passed = [closeRefused] ∧ refused.due = some resultBySecure ∧
      s.objects[refused.rslt]? = some {} := by
  have last : (Runs.run step {} answeredCall).map (fun s => (s.calls.map (·.returned),
      s.calls.map (·.passed), s.calls.map Call.due,
      s.calls.map fun call => s.objects[call.rslt]?)) =
        some ([true, true], [[closeRefused], []], [some closeRefused, some resultBySecure],
          [some {}, some {}]) := by
    decide +kernel
  obtain ⟨s, ran, eq⟩ := Option.map_eq_some_iff.mp last
  simp only [Prod.mk.injEq] at eq
  obtain ⟨returned, passed, due, objects⟩ := eq
  refine ⟨s, Runs.run_reached (Runs.admitted_of_all (fun _ _ => trivial) _) ran, ?_⟩
  match calls : s.calls with
  | [answered, refused] =>
    rw [calls] at returned passed due objects
    simp only [List.map_cons, List.map_nil, List.cons.injEq, and_true]
      at returned passed due objects
    exact ⟨answered, refused, rfl, returned.1, returned.2, passed.1, due.2, objects.2⟩
  | [] | [_] | _ :: _ :: _ :: _ => simp [calls] at returned

theorem answered_delivered_iff : ∃ s call, call.passed = [closeRefused] ∧
    (Delivered s call ↔ (∃ writer, call.verdict = .posted writer) ∧
      ∃ result, call.passed.getLast? = some result ∧ SaceResult.Same {} result) := by
  obtain ⟨s, reached, answered, refused, calls, returned, _, passed, _⟩ := answered_run
  exact ⟨s, answered, passed,
    reached_delivered_iff reached (by rw [calls]; exact List.mem_cons_self) returned⟩

/-- The refused client is told that its command was executed. -/
theorem refused_told_ok : ¬ ∀ s, Runs.Reached step (fun _ _ => True) {} s →
    ∀ call ∈ s.calls, call.returned = true → Delivered s call := by
  intro delivered
  obtain ⟨s, reached, answered, refused, calls, _, returned, _, isDue, at_⟩ := answered_run
  obtain ⟨found, due, there, same, equal⟩ :=
    delivered s reached refused (by rw [calls]; simp) returned
  cases Option.some.inj (at_.symm.trans there)
  cases Option.some.inj (isDue.symm.trans same)
  exact absurd (congrArg SaceResult.resultStatus equal.members) (by decide)

end SaceManagerService
end SaceBinderReader
end Sace
