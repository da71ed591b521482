import Sace.Service.Works

/-! The service executor with the two threads that work on its services without a lock: its own
and, from onUninit on, the main thread. -/
namespace Sace

namespace SaceServiceExcutor

/-- The object that the handler of a STOP, PAUSE or RESTART goes on to signal. -/
def signalled (s : SaceServiceExcutor) (saceCmd : SaceCommand) : Option UInt64 :=
  s.mSeqService[saceCmd.label]?.bind fun p => s.heap[p]?.bind fun sveInfo =>
    let cmdType := saceCmd.serviceCmdType
    if cmdType = .stop ∧ (sveInfo.state = .running ∨ sveInfo.state = .paused) ∨
        cmdType = .pause ∧ sveInfo.state = .running ∨
        cmdType = .restart ∧ sveInfo.state = .paused then
      some p
    else none

def signalService (s : SaceServiceExcutor) (cmdType : SaceServiceCommandType) (p : UInt64) :
    Exec SaceServiceExcutor := do
  let sveInfo ← s.deref p
  if cmdType = .stop then
    Traced.emit (.kill sveInfo.pid SIGTERM)
    return s.store p { sveInfo with state := .finishingUser }
  else if cmdType = .pause then
    Traced.emit (.kill sveInfo.pid SIGSTOP)
    return s.store p { sveInfo with state := .paused }
  else
    Traced.emit (.kill sveInfo.pid SIGCONT)
    let s := s.store p { sveInfo with state := .running }
    return { s with mRunningService := s.mRunningService ++ [p] }

theorem signalled_some {s : SaceServiceExcutor} {saceCmd : SaceCommand} {p : UInt64} :
    s.signalled saceCmd = some p ↔ s.mSeqService[saceCmd.label]? = some p ∧
      ∃ sveInfo, s.heap[p]? = some sveInfo ∧
        (saceCmd.serviceCmdType = .stop ∧
            (sveInfo.state = .running ∨ sveInfo.state = .paused) ∨
          saceCmd.serviceCmdType = .pause ∧ sveInfo.state = .running ∨
          saceCmd.serviceCmdType = .restart ∧ sveInfo.state = .paused) := by
  unfold signalled
  constructor
  · intro signals
    obtain ⟨q, found, signals⟩ := Option.bind_eq_some_iff.mp signals
    obtain ⟨sveInfo, live, signals⟩ := Option.bind_eq_some_iff.mp signals
    dsimp only at signals
    split at signals
    · cases signals
      exact ⟨found, sveInfo, live, ‹_›⟩
    · cases signals
  · rintro ⟨found, sveInfo, live, kind⟩
    simp only [found, live, Option.bind_some]
    exact if_pos kind

/-- A request that signals is the look-up of its object and the kill. -/
theorem request_signals {s : SaceServiceExcutor} {msg : SaceReaderMessage} {p : UInt64}
    (signals : s.signalled msg.msgCmd = some p) (env : ParseEnv) (answers : StartAnswers) :
    s.request msg env answers =
      s.signalService msg.msgCmd.serviceCmdType p >>= fun t =>
        pure (t, { initialResult msg.msgCmd with resultStatus := .ok }) := by
  obtain ⟨found, sveInfo, live, ⟨stop, active⟩ | ⟨pause, running⟩ | ⟨restart, paused⟩⟩ :=
    signalled_some.mp signals
  · have started : ¬ SaceServiceCommandType.stop = .start := by decide
    have still : ¬ (sveInfo.state ≠ .running ∧ sveInfo.state ≠ .paused) := fun other =>
      active.elim other.1 other.2
    simp only [request, signalService, stop, started, stopService, found, deref_of_live live,
      still, Traced.pure_then, if_true, if_false]
    rfl
  · have started : ¬ SaceServiceCommandType.pause = .start := by decide
    have stopped : ¬ SaceServiceCommandType.pause = .stop := by decide
    simp only [request, signalService, pause, started, stopped, pauseService, found,
      deref_of_live live, running, Traced.pure_then, if_true, if_false]
    rfl
  · have started : ¬ SaceServiceCommandType.restart = .start := by decide
    have stopped : ¬ SaceServiceCommandType.restart = .stop := by decide
    have halted : ¬ SaceServiceCommandType.restart = .pause := by decide
    simp only [request, signalService, restart, started, stopped, halted, restartService, found,
      deref_of_live live, paused, Traced.pure_then, if_true, if_false]
    rfl

end SaceServiceExcutor

/-! ### The two workers -/

namespace Watched

inductive Worker where
  | thread | main

/-- Where a worker is: at the kill of a handler or of onUninit, or in one of the two loops of
monitor_service_status with what `gcIterator` still holds. -/
inductive Place where
  | outside
  | signalling (msg : SaceReaderMessage) (p : UInt64)
  | interrupting (it : Nat)
  | polling (it : Nat) (gc : List Nat)
  | collecting (gc : List Nat)
  | stopped

def Worker.back : Worker → Place
  | .thread => .outside
  | .main => .stopped

namespace Place

def saved : Place → List Nat
  | polling _ gc | collecting gc => gc
  | _ => []

def inside : Place → Bool
  | outside | stopped => false
  | _ => true

end Place

end Watched

/-- The services and the two workers, with the pids that waitpid has reaped and that no later
fork has given to a child again. -/
structure Watched where
  service : SaceServiceExcutor := {}
  thread : Sace.Watched.Place := .outside
  main : Sace.Watched.Place := .outside
  reaped : List Int := []

namespace Watched

open SaceServiceExcutor

inductive Input where
  | request (msg : SaceReaderMessage) (env : ParseEnv) (answers : StartAnswers)
  | signal
  | timeout
  | uninit
  | interrupt
  | poll (who : Worker) (answer : WaitAnswer)
  | collect (who : Worker)
  | leave
  | destroy

def place (d : Watched) : Worker → Place
  | .thread => d.thread
  | .main => d.main

def moved (d : Watched) (place : Place) : Worker → Watched
  | .thread => { d with thread := place }
  | .main => { d with main := place }

def polled (d : Watched) (who : Worker) (it : Nat) (gc : List Nat) (answer : WaitAnswer) :
    Exec Watched :=
  match d.service.mRunningService[it]? with
  | none => return d.moved (.collecting gc) who
  | some p => do
    let sveInfo ← d.service.deref p
    let polled := pollService sveInfo answer
    sveInfo.sendPolled polled.response
    let gc := if polled.saved then gc ++ [it] else gc
    return { d.moved (.polling (it + 1) gc) who with
      service := d.service.store p polled.sveInfo
      reaped := if polled.response.isSome then d.reaped ++ [sveInfo.pid] else d.reaped }

def collected (d : Watched) (who : Worker) : List Nat → Exec Watched
  | [] => return d.moved who.back who
  | i :: gc =>
    match d.service.mRunningService[i]? with
    | none => Traced.fault .outOfBounds
    | some p => do
      let sveInfo ← d.service.deref p
      return { d.moved (.collecting gc) who with service := d.service.remove i p sveInfo }

/-- One step of a worker that is where the step is made. The executor's thread ends, and is
joined, when onUninit is over; the destructor comes last. -/
def turn (d : Watched) : Input → Option (Exec Watched)
  | .request msg env answers =>
    match d.thread, d.service.signalled msg.msgCmd with
    | .outside, some p => some (pure { d with thread := .signalling msg p })
    | .outside, none =>
      let work := d.service.work (.request msg env answers)
      some do
        let service ← work
        return { d with
          service
          thread := .polling 0 []
          reaped := d.reaped.filter fun pid => !work.trace.any (·.spawns pid) }
    | _, _ => none
  | .signal =>
    match d.thread with
    | .signalling msg p => some do
      let service ← d.service.signalService msg.msgCmd.serviceCmdType p
      Traced.emit (.sendResult msg.msgWriter
        { initialResult msg.msgCmd with resultStatus := .ok })
      return { d with service, thread := .polling 0 [] }
    | _ => none
  | .timeout =>
    match d.thread with
    | .outside => some (pure { d with thread := .polling 0 [] })
    | _ => none
  | .uninit =>
    match d.main with
    | .outside => some (pure { d with main := .interrupting 0 })
    | _ => none
  | .interrupt =>
    match d.main with
    | .interrupting it =>
      match d.service.mRunningService[it]? with
      | none => some (pure { d with main := .polling 0 [] })
      | some p => some do
        let sveInfo ← d.service.deref p
        Traced.emit (.kill sveInfo.pid SIGINT)
        return { d with main := .interrupting (it + 1) }
    | _ => none
  | .poll who answer =>
    match d.place who with
    | .polling it gc => some (d.polled who it gc answer)
    | _ => none
  | .collect who =>
    match d.place who with
    | .collecting gc => some (d.collected who gc)
    | _ => none
  | .leave =>
    match d.thread, d.main with
    | .outside, .stopped => some (pure { d with thread := .stopped })
    | _, _ => none
  | .destroy =>
    match d.thread, d.main with
    | .stopped, .stopped => some do
      let service ← d.service.work .destroy
      return { d with service }
    | _, _ => none

def step (d : Watched) (input : Input) : Option Watched := (d.turn input).bind (·.value)

/-- Nobody is signalled whose pid has been reaped, and no pid is read from a deleted object. -/
structure Aimed (d : Watched) (input : Input) : Prop where
  kills : ∀ out, d.turn input = some out →
    ∀ pid signal, .kill pid signal ∈ out.trace → pid ∉ d.reaped
  live : ∀ out, d.turn input = some out → out.result ≠ .error .useAfterFree

/-- What the allocator and the kernel promise: an unused address, and a child whose pid is
that of no other service that has not been reaped. -/
def Provided (d : Watched) : Input → Prop
  | .request msg _ answers => msg.msgCmd.serviceCmdType = .start →
      answers.address ∉ d.service.heap ∧ ∀ (p : UInt64) (sveInfo : ServiceInfo),
        d.service.heap[p]? = some sveInfo → sveInfo.pid ∉ d.reaped → sveInfo.pid ≠ answers.fork
  | _ => True

/-- onUninit and the executor's thread are never inside together, a pass finds at most one
service ended and that one listed once, and the destructor finds no service listed twice. -/
def Tidy (d : Watched) : Input → Prop
  | .request _ _ _ | .timeout => d.main.inside = false
  | .uninit => d.thread.inside = false
  | .poll who answer =>
    match d.place who with
    | .polling it gc => ∀ p ∈ d.service.mRunningService[it]?, ∀ sveInfo ∈ d.service.heap[p]?,
        (pollService sveInfo answer).saved → gc = [] ∧ d.service.mRunningService.count p = 1
    | _ => True
  | .destroy => d.service.mRunningService.Nodup
  | _ => True

instance (d : Watched) : (input : Input) → Decidable (d.Provided input)
  | .request _ _ answers =>
    have := Table.decidableForall d.service.heap fun _ sveInfo =>
      sveInfo.pid ∉ d.reaped → sveInfo.pid ≠ answers.fork
    inferInstanceAs (Decidable (_ → _ ∧ _))
  | .signal | .timeout | .uninit | .interrupt | .poll _ _ | .collect _ | .leave | .destroy =>
    inferInstanceAs (Decidable True)

instance (d : Watched) : (input : Input) → Decidable (d.Tidy input)
  | .request _ _ _ | .timeout | .uninit => inferInstanceAs (Decidable (_ = false))
  | .poll who answer =>
    match at_ : d.place who with
    | .polling it gc =>
      -- The entry is looked at, not the numbers that a word can hold.
      @decidable_of_iff _ (∀ p ∈ d.service.mRunningService[it]?, ∀ sveInfo ∈ d.service.heap[p]?,
        (pollService sveInfo answer).saved →
          gc = [] ∧ d.service.mRunningService.count p = 1) (by rw [Tidy, at_])
        (@Option.decidableForallMem _ _ (fun _ => inferInstance) _)
    | .outside | .signalling _ _ | .interrupting _ | .collecting _ | .stopped =>
      isTrue (by rw [Tidy, at_]; trivial)
  | .destroy => inferInstanceAs (Decidable (List.Nodup _))
  | .signal | .interrupt | .collect _ | .leave => inferInstanceAs (Decidable True)

def startMsg (name : String) : SaceReaderMessage :=
  { clientMsg .start 0 with msgCmd := { (clientMsg .start 0).msgCmd with name := str name } }

def startAnswers (address : UInt64) (fork : Int) : StartAnswers :=
  { address, fork, localtime := str "2026_0101_000000" }

end Watched
end Sace
