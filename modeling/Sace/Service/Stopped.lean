import Sace.Service.Labels

/-! The services' states beside those of their processes. A SIGSTOP stops a process until a
SIGCONT; a process that is stopped does not act on SIGTERM. -/
namespace Sace

open SaceServiceExcutor

/-- The processes that are stopped after an effect of the executor. A new child runs. -/
def Effect.stops (stopped : List Int) : Effect → List Int
  | .kill pid signal =>
    if signal = SIGSTOP then pid :: stopped
    else if signal = SIGCONT then stopped.filter (· ≠ pid)
    else stopped
  | .spawn pid _ => stopped.filter (· ≠ pid)
  | _ => stopped

structure Signalled where
  service : SaceServiceExcutor := {}
  stopped : List Int := []

namespace Signalled

def step (d : Signalled) : Input → Option Signalled
  | .request msg env answers => (d.service.request msg env answers).value.map fun out =>
    { service := out.1
      stopped := (d.service.request msg env answers).trace.foldl Effect.stops d.stopped }
  | .monitor wait => (d.service.monitorServiceStatus wait).value.map fun service =>
    { service
      stopped := (d.service.monitorServiceStatus wait).trace.foldl Effect.stops d.stopped }

/-- What the kernel promises: a child gets a pid that no process has that is still to be waited
for, and SIGTERM does not end a process that is stopped. -/
def Provided (d : Signalled) : Input → Prop
  | .request msg _ answers => msg.msgCmd.serviceCmdType = .start →
      ∀ (p : UInt64) (sveInfo : ServiceInfo), d.service.heap[p]? = some sveInfo →
        sveInfo.state.monitored → sveInfo.pid ≠ answers.fork
  | .monitor wait => ∀ (i : Nat) (p : UInt64) (sveInfo : ServiceInfo) (status : UInt32),
      d.service.mRunningService[i]? = some p → d.service.heap[p]? = some sveInfo →
        sveInfo.pid ∈ d.stopped → wait i = .reaped status → (wTermSig status).toNat ≠ SIGTERM

/-- A STOP finds its service in a state other than PAUSED. -/
def Careful (d : Signalled) : Input → Prop
  | .request msg _ _ => msg.msgCmd.serviceCmdType = .stop →
      ∀ (p : UInt64) (sveInfo : ServiceInfo), d.service.mSeqService[msg.msgCmd.label]? = some p →
        d.service.heap[p]? = some sveInfo → sveInfo.state ≠ .paused
  | .monitor _ => True

/-- No service that is to finish for a user is stopped. -/
def Finishing (d : Signalled) : Prop :=
  ∀ (p : UInt64) (sveInfo : ServiceInfo), d.service.heap[p]? = some sveInfo →
    sveInfo.state = .finishingUser → sveInfo.pid ∉ d.stopped

/-- RUNNING and PAUSED are what the kernel's states are, and no two processes that are still
to be waited for have one pid. -/
structure Kept (d : Signalled) : Prop where
  apart : ∀ (p q : UInt64) (a b : ServiceInfo), d.service.heap[p]? = some a →
    d.service.heap[q]? = some b → a.state.monitored → b.state.monitored → a.pid = b.pid → p = q
  running : ∀ (p : UInt64) (sveInfo : ServiceInfo), d.service.heap[p]? = some sveInfo →
    sveInfo.state = .running → sveInfo.pid ∉ d.stopped
  paused : ∀ (p : UInt64) (sveInfo : ServiceInfo), d.service.heap[p]? = some sveInfo →
    sveInfo.state = .paused → sveInfo.pid ∈ d.stopped

/-! ### What one step does -/

/-- The objects and the stopped processes after a completed step, and whether the step was
careful. A step leaves the states alone, starts a service or gives one service another state. -/
inductive Moved (d : Signalled) (input : Input) (e : Signalled) : Prop
  | same (careful : d.Careful input) (stopped : e.stopped = d.stopped)
      (older : ∀ (p : UInt64) (after : ServiceInfo), e.service.heap[p]? = some after →
        after.state.monitored → ∃ before, d.service.heap[p]? = some before ∧
          before.state = after.state ∧ before.pid = after.pid)
  | start (careful : d.Careful input) (p : UInt64) (sveInfo : ServiceInfo)
      (running : sveInfo.state = .running)
      (own : ∀ (q : UInt64) (other : ServiceInfo), d.service.heap[q]? = some other →
        other.state.monitored → other.pid ≠ sveInfo.pid)
      (heap : e.service.heap = d.service.heap.insert p sveInfo)
      (stopped : e.stopped = d.stopped.filter (· ≠ sveInfo.pid))
  | stop (p : UInt64) (sveInfo : ServiceInfo) (live : d.service.heap[p]? = some sveInfo)
      (active : sveInfo.Active) (careful : d.Careful input ↔ sveInfo.state = .running)
      (heap : e.service.heap = d.service.heap.insert p { sveInfo with state := .finishingUser })
      (stopped : e.stopped = d.stopped)
  | pause (careful : d.Careful input) (p : UInt64) (sveInfo : ServiceInfo)
      (live : d.service.heap[p]? = some sveInfo) (running : sveInfo.state = .running)
      (heap : e.service.heap = d.service.heap.insert p { sveInfo with state := .paused })
      (stopped : e.stopped = sveInfo.pid :: d.stopped)
  | restart (careful : d.Careful input) (p : UInt64) (sveInfo : ServiceInfo)
      (live : d.service.heap[p]? = some sveInfo) (paused : sveInfo.state = .paused)
      (heap : e.service.heap = d.service.heap.insert p { sveInfo with state := .running })
      (stopped : e.stopped = d.stopped.filter (· ≠ sveInfo.pid))

theorem Moved.unchanged {d : Signalled} {input : Input} (careful : d.Careful input) :
    Moved d input d :=
  .same careful rfl fun _ after held _ => ⟨after, held, rfl, rfl⟩

theorem careful_other {d : Signalled} {msg : SaceReaderMessage} {env : ParseEnv}
    {answers : StartAnswers} (other : msg.msgCmd.serviceCmdType ≠ .stop) :
    d.Careful (.request msg env answers) :=
  fun stop => absurd stop other

theorem newService_state (saceCmd : SaceCommand) (writer : SaceWriter) (answers : StartAnswers) :
    (newService saceCmd writer answers).state = .running := by
  unfold newService ServiceInfo.addWriter
  split <;> rfl

section Requests
variable {d : Signalled} {msg : SaceReaderMessage} {env : ParseEnv} {answers : StartAnswers}
variable {t : SaceServiceExcutor} {result : SaceResult}

theorem start_moved (kind : msg.msgCmd.serviceCmdType = .start)
    (provided : d.Provided (.request msg env answers))
    (done : (d.service.startService msg.msgCmd msg.msgWriter env answers
      (initialResult msg.msgCmd)).result = .ok (t, result)) :
    Moved d (.request msg env answers) ⟨t, (d.service.startService msg.msgCmd msg.msgWriter env
      answers (initialResult msg.msgCmd)).trace.foldl Effect.stops d.stopped⟩ := by
  have careful : d.Careful (.request msg env answers) := by
    apply careful_other
    rw [kind]
    decide
  by_cases taken : msg.msgCmd.name ∈ d.service.mNameService
  · rw [startService_taken taken] at done ⊢
    cases done
    exact .unchanged careful
  · rw [startService_free taken] at done ⊢
    obtain ⟨_, copied, done⟩ := Traced.bind_ok.mp done
    have fits : msg.msgCmd.command.length ≤ CMD_BUFFER_LEN := by
      by_contra large
      rw [memcpyString_of_lt (Nat.lt_of_not_le large)] at copied
      cases copied
    rw [Traced.bind_of_ok copied, memcpyString_of_le fits]
    split at done
    · rename_i forked
      cases done
      refine .start careful answers.address (newService msg.msgCmd msg.msgWriter answers)
        (newService_state ..) ?_ rfl ?_
      · rw [newService_pid]
        exact provided kind
      · rw [newService_pid, if_pos forked]
        rfl
    · rename_i failed
      cases done
      rw [if_neg failed]
      exact .unchanged careful

/-- A STOP is careful exactly when the service that it finds is not PAUSED. -/
theorem stop_careful_iff (kind : msg.msgCmd.serviceCmdType = .stop) {p : UInt64}
    {sveInfo : ServiceInfo} (found : d.service.mSeqService[msg.msgCmd.label]? = some p)
    (live : d.service.heap[p]? = some sveInfo) :
    d.Careful (.request msg env answers) ↔ sveInfo.state ≠ .paused := by
  constructor
  · intro careful
    exact careful kind p sveInfo found live
  · intro other _ q info found' live'
    cases Option.some.inj (found.symm.trans found')
    cases Option.some.inj (live.symm.trans live')
    exact other

theorem branch_moved (provided : d.Provided (.request msg env answers))
    {out : Exec (SaceServiceExcutor × SaceResult)}
    (branch : Branch d.service msg env answers out) (done : out.result = .ok (t, result)) :
    Moved d (.request msg env answers) ⟨t, out.trace.foldl Effect.stops d.stopped⟩ := by
  have careful {kind : SaceServiceCommandType} (same : msg.msgCmd.serviceCmdType = kind)
      (other : kind ≠ .stop) : d.Careful (.request msg env answers) :=
    careful_other fun stop => other (same.symm.trans stop)
  cases branch with
  | start kind => exact start_moved kind provided done
  | dangling => cases done
  | nothing _ missing =>
    cases done
    refine .unchanged fun kind p sveInfo found => ?_
    rw [missing (by rw [kind]; decide)] at found
    cases found
  | ended kind found live ended =>
    cases done
    exact .unchanged ((stop_careful_iff kind found live).mpr fun paused => ended (.inr paused))
  | @stop p sveInfo kind found live active =>
    cases done
    refine .stop p sveInfo live active ((stop_careful_iff kind found live).trans ?_) rfl rfl
    constructor
    · intro other
      exact active.resolve_right other
    · intro running paused
      rw [running] at paused
      cases paused
  | unpaused kind =>
    cases done
    exact .unchanged (careful kind (by decide))
  | @pause p sveInfo kind found live running =>
    cases done
    exact .pause (careful kind (by decide)) p sveInfo live running rfl rfl
  | unresumed kind =>
    cases done
    exact .unchanged (careful kind (by decide))
  | @restart p sveInfo kind found live paused =>
    cases done
    exact .restart (careful kind (by decide)) p sveInfo live paused rfl rfl
  | @query p sveInfo kind found live =>
    cases done
    refine .same (careful kind (by decide)) rfl fun q after held _ => ?_
    rcases (Table.insert_some ..).mp held with ⟨rfl, rfl⟩ | ⟨_, held⟩
    · refine ⟨sveInfo, live, ?_, (addWriter_pid _ _).symm⟩
      unfold ServiceInfo.addWriter
      split <;> rfl
    · exact ⟨after, held, rfl, rfl⟩

end Requests

theorem stops_silent {effects : List Effect}
    (silent : ∀ effect ∈ effects, ∀ stopped, Effect.stops stopped effect = stopped)
    (stopped : List Int) : effects.foldl Effect.stops stopped = stopped := by
  induction effects with
  | nil => rfl
  | cons effect effects ih =>
    rw [List.foldl_cons, silent effect List.mem_cons_self]
    exact ih fun other member => silent other (List.mem_cons_of_mem _ member)

/-- A completed step has moved the services and the processes together. -/
theorem step_moved {d e : Signalled} {input : Input} (provided : d.Provided input)
    (moved : d.step input = some e) : Moved d input e := by
  cases input with
  | request msg env answers =>
    obtain ⟨⟨t, result⟩, value, rfl⟩ := Option.map_eq_some_iff.mp moved
    have done := Traced.value_eq_some.mp value
    exact branch_moved provided request_branch done
  | monitor wait =>
    obtain ⟨t, value, rfl⟩ := Option.map_eq_some_iff.mp moved
    have done := Traced.value_eq_some.mp value
    have silent : Traced.Every (fun effect => ∀ stopped, Effect.stops stopped effect = stopped)
        (d.service.monitorServiceStatus wait) := monitor_every (fun _ _ _ => rfl) _ wait
    refine .same trivial (stops_silent silent d.stopped) fun p after held asked => ?_
    obtain ⟨⟨u, gc⟩, loop, collected⟩ := Traced.bind_ok.mp done
    exact ⟨after, pollLoop_monitored loop (collectLoop_older collected held) asked, rfl, rfl⟩

/-! ### Every run -/

theorem mem_without {stopped : List Int} {pid other : Int} :
    pid ∈ stopped.filter (· ≠ other) ↔ pid ∈ stopped ∧ pid ≠ other := by
  rw [List.mem_filter, decide_eq_true_iff]

/-- The object at an address after one object has been written. -/
theorem held_cases {d e : Signalled} {p q : UInt64} {sveInfo info : ServiceInfo}
    (heap : e.service.heap = d.service.heap.insert p sveInfo)
    (held : e.service.heap[q]? = some info) :
    q = p ∧ info = sveInfo ∨ q ≠ p ∧ d.service.heap[q]? = some info := by
  rw [heap] at held
  rcases (Table.insert_some ..).mp held with ⟨rfl, rfl⟩ | ⟨ne, held⟩
  · exact .inl ⟨rfl, rfl⟩
  · exact .inr ⟨Ne.symm ne, held⟩

/-- Where no service of a state was stopped none is when one more is written that goes on. -/
theorem apart_resumed {d e : Signalled} {p : UInt64} {sveInfo : ServiceInfo}
    {state : ServiceState} (heap : e.service.heap = d.service.heap.insert p sveInfo)
    (stopped : e.stopped = d.stopped.filter (· ≠ sveInfo.pid))
    (before : ∀ (q : UInt64) (info : ServiceInfo), d.service.heap[q]? = some info →
      info.state = state → info.pid ∉ d.stopped) :
    ∀ (q : UInt64) (info : ServiceInfo), e.service.heap[q]? = some info → info.state = state →
      info.pid ∉ e.stopped := by
  intro q info held own
  rw [stopped, mem_without]
  rcases held_cases heap held with ⟨rfl, rfl⟩ | ⟨-, held⟩
  · exact fun both => both.2 rfl
  · exact fun both => before q info held own both.1

theorem Kept.apart_written {d e : Signalled} (kept : d.Kept) {p : UInt64}
    {sveInfo : ServiceInfo} (heap : e.service.heap = d.service.heap.insert p sveInfo)
    (own : ∀ (q : UInt64) (other : ServiceInfo), q ≠ p → d.service.heap[q]? = some other →
      other.state.monitored → other.pid ≠ sveInfo.pid) :
    ∀ (q r : UInt64) (a b : ServiceInfo), e.service.heap[q]? = some a →
      e.service.heap[r]? = some b → a.state.monitored → b.state.monitored → a.pid = b.pid →
      q = r := by
  intro q r a b heldA heldB askedA askedB same
  rcases held_cases heap heldA with ⟨rfl, rfl⟩ | ⟨neA, heldA⟩
  · rcases held_cases heap heldB with ⟨rfl, rfl⟩ | ⟨neB, heldB⟩
    · rfl
    · exact absurd same.symm (own r b neB heldB askedB)
  · rcases held_cases heap heldB with ⟨rfl, rfl⟩ | ⟨neB, heldB⟩
    · exact absurd same (own q a neA heldA askedA)
    · exact kept.apart q r a b heldA heldB askedA askedB same

/-- A monitored object elsewhere has another pid. -/
theorem Kept.own {d : Signalled} (kept : d.Kept) {p : UInt64} {sveInfo : ServiceInfo}
    (live : d.service.heap[p]? = some sveInfo) (asked : sveInfo.state.monitored) (q : UInt64)
    (other : ServiceInfo) (ne : q ≠ p) (held : d.service.heap[q]? = some other)
    (also : other.state.monitored) : other.pid ≠ sveInfo.pid :=
  fun same => ne (kept.apart q p other sveInfo held live also asked same)

theorem running_monitored {sveInfo : ServiceInfo} (running : sveInfo.state = .running) :
    sveInfo.state.monitored = true := by rw [running]; rfl

theorem paused_monitored {sveInfo : ServiceInfo} (paused : sveInfo.state = .paused) :
    sveInfo.state.monitored = true := by rw [paused]; rfl

/-- A step that leaves the states and the stopped processes alone. -/
theorem Kept.older {d e : Signalled} (kept : d.Kept) (stopped : e.stopped = d.stopped)
    (older : ∀ (p : UInt64) (after : ServiceInfo), e.service.heap[p]? = some after →
      after.state.monitored → ∃ before, d.service.heap[p]? = some before ∧
        before.state = after.state ∧ before.pid = after.pid) : e.Kept := by
  constructor
  · intro p q a b heldA heldB askedA askedB same
    obtain ⟨a', wasA, stateA, pidA⟩ := older p a heldA askedA
    obtain ⟨b', wasB, stateB, pidB⟩ := older q b heldB askedB
    apply kept.apart p q a' b' wasA wasB
    · rw [stateA]
      exact askedA
    · rw [stateB]
      exact askedB
    · rw [pidA, pidB]
      exact same
  · intro p after held running
    obtain ⟨before, was, state, pid⟩ := older p after held (running_monitored running)
    rw [stopped, ← pid]
    exact kept.running p before was (state.trans running)
  · intro p after held paused
    obtain ⟨before, was, state, pid⟩ := older p after held (paused_monitored paused)
    rw [stopped, ← pid]
    exact kept.paused p before was (state.trans paused)

theorem step_kept {d e : Signalled} {input : Input} (kept : d.Kept)
    (provided : d.Provided input) (moved : d.step input = some e) : e.Kept := by
  cases step_moved provided moved with
  | same careful stopped older => exact kept.older stopped older
  | start careful p sveInfo running own heap stopped =>
    constructor
    · exact kept.apart_written heap fun q other _ => own q other
    · exact apart_resumed heap stopped kept.running
    · intro q after held state
      rw [stopped, mem_without]
      rcases held_cases heap held with ⟨rfl, rfl⟩ | ⟨-, held⟩
      · rw [running] at state
        cases state
      · exact ⟨kept.paused q after held state, own q after held (paused_monitored state)⟩
  | stop p sveInfo live active careful heap stopped =>
    have asked : sveInfo.state.monitored = true := by
      rcases active with running | paused
      · exact running_monitored running
      · exact paused_monitored paused
    have own := kept.own live asked
    constructor
    · exact kept.apart_written heap own
    · intro q after held state
      rw [stopped]
      rcases held_cases heap held with ⟨rfl, rfl⟩ | ⟨-, held⟩
      · cases state
      · exact kept.running q after held state
    · intro q after held state
      rw [stopped]
      rcases held_cases heap held with ⟨rfl, rfl⟩ | ⟨-, held⟩
      · cases state
      · exact kept.paused q after held state
  | pause careful p sveInfo live running heap stopped =>
    have own := kept.own live (running_monitored running)
    constructor
    · exact kept.apart_written heap own
    · intro q after held state
      rw [stopped, List.mem_cons, not_or]
      rcases held_cases heap held with ⟨rfl, rfl⟩ | ⟨ne, held⟩
      · cases state
      · exact ⟨own q after ne held (running_monitored state), kept.running q after held state⟩
    · intro q after held state
      rw [stopped, List.mem_cons]
      rcases held_cases heap held with ⟨rfl, rfl⟩ | ⟨-, held⟩
      · exact .inl rfl
      · exact .inr (kept.paused q after held state)
  | restart careful p sveInfo live paused heap stopped =>
    have own := kept.own live (paused_monitored paused)
    constructor
    · exact kept.apart_written heap own
    · exact apart_resumed heap stopped kept.running
    · intro q after held state
      rw [stopped, mem_without]
      rcases held_cases heap held with ⟨rfl, rfl⟩ | ⟨ne, held⟩
      · cases state
      · exact ⟨kept.paused q after held state, own q after ne held (paused_monitored state)⟩

/-- A STOP of a paused service, and nothing else, makes one that is stopped and is to finish. -/
theorem step_finishing_iff {d e : Signalled} {input : Input} (kept : d.Kept)
    (finishing : d.Finishing) (provided : d.Provided input) (moved : d.step input = some e) :
    e.Finishing ↔ d.Careful input := by
  have asked : ∀ {sveInfo : ServiceInfo}, sveInfo.state = .finishingUser →
      sveInfo.state.monitored = true := by
    intro sveInfo state
    rw [state]
    rfl
  cases step_moved provided moved with
  | same careful stopped older =>
    refine iff_of_true (fun p after held state => ?_) careful
    obtain ⟨before, was, same, pid⟩ := older p after held (asked state)
    rw [stopped, ← pid]
    exact finishing p before was (same.trans state)
  | start careful p sveInfo running own heap stopped =>
    exact iff_of_true (apart_resumed heap stopped finishing) careful
  | stop p sveInfo live active careful heap stopped =>
    rw [careful]
    constructor
    · intro after
      refine active.resolve_right fun paused => ?_
      have here : e.service.heap[p]? = some { sveInfo with state := .finishingUser } := by
        simp [heap]
      apply after p _ here rfl
      rw [stopped]
      exact kept.paused p sveInfo live paused
    · intro running q after held state
      rw [stopped]
      rcases held_cases heap held with ⟨rfl, rfl⟩ | ⟨-, held⟩
      · exact kept.running q sveInfo live running
      · exact finishing q after held state
  | pause careful p sveInfo live running heap stopped =>
    refine iff_of_true (fun q after held state => ?_) careful
    rw [stopped, List.mem_cons, not_or]
    rcases held_cases heap held with ⟨rfl, rfl⟩ | ⟨ne, held⟩
    · cases state
    · exact ⟨kept.own live (running_monitored running) q after ne held (asked state),
        finishing q after held state⟩
  | restart careful p sveInfo live paused heap stopped =>
    exact iff_of_true (apart_resumed heap stopped finishing) careful

theorem empty_kept : Kept {} where
  apart p q a b heldA := by simp at heldA
  running p sveInfo held := by simp at held
  paused p sveInfo held := by simp at held

/-- As long as no STOP finds its service PAUSED, no service that is to finish is stopped; the
first one that does makes one. -/
theorem reached_finishing {d : Signalled}
    (reached : Runs.Reached step (fun d input => d.Provided input ∧ d.Careful input) {} d) :
    d.Finishing ∧ ∀ input e, d.Provided input → d.step input = some e →
      (e.Finishing ↔ d.Careful input) := by
  have initial : Kept {} ∧ Finishing {} := ⟨empty_kept, fun p sveInfo held => by simp at held⟩
  have both : d.Kept ∧ d.Finishing := by
    refine reached.invariant (I := fun d => d.Kept ∧ d.Finishing) initial ?_
    intro d input e inv admitted moved
    exact ⟨step_kept inv.1 admitted.1 moved,
      (step_finishing_iff inv.1 inv.2 admitted.1 moved).mpr admitted.2⟩
  refine ⟨both.2, fun input e provided moved => ?_⟩
  exact step_finishing_iff both.1 both.2 provided moved

/-! A client starts a service and stops it, at once or after it has paused it. -/

def startInput : Input := .request (clientMsg .start 0) .empty forked
def pauseInput : Input := .request (clientMsg .pause (sequenceToLabel 7 16)) .empty forked
def stopInput : Input := .request (clientMsg .stop (sequenceToLabel 7 16)) .empty forked
def passInput : Input := .monitor fun _ => .running

theorem start_provided : Provided {} startInput := by
  intro _ p sveInfo held
  simp at held

theorem pass_provided (d : Signalled) : d.Provided passInput := by
  intro _ _ _ _ _ _ _ reaped
  cases reaped

theorem stopped_finishing : ∃ d, Runs.run step {} [startInput, stopInput] = some d ∧
    d.Finishing := by
  have found : (step {} startInput).map (fun d => d.service.mSeqService[sequenceToLabel 7 16]?) =
      some (some 16) := by decide +kernel
  have running : (step {} startInput).map (fun d => (d.service.heap[(16 : UInt64)]?).map
      ServiceInfo.state) = some (some .running) := by decide +kernel
  have some_ : (Runs.run step {} [startInput, stopInput]).isSome := by decide +kernel
  obtain ⟨d, ran⟩ := Option.isSome_iff_exists.mp some_
  refine ⟨d, ran, (reached_finishing (Runs.run_reached ?_ ran)).1⟩
  refine ⟨⟨start_provided, fun kind => ?_⟩, fun t started => ⟨⟨fun kind => ?_, ?_⟩,
    fun _ _ => trivial⟩⟩
  · cases kind
  · cases kind
  · rw [started, Option.map_some, Option.some.injEq] at found running
    intro _ p sveInfo found' live paused
    cases Option.some.inj (found.symm.trans found')
    rw [live, Option.map_some, paused] at running
    cases running

def pauseAndStop : List Input :=
  [startInput, passInput, pauseInput, passInput, stopInput, passInput]

theorem paused_finishing : ¬ ∀ d, Runs.Reached step Provided {} d → d.Finishing := by
  intro finishing
  have last : (Runs.run step {} pauseAndStop).map (fun d =>
      ((d.service.heap[(16 : UInt64)]?).map fun sveInfo => (sveInfo.state, sveInfo.pid),
        d.stopped)) = some (some (.finishingUser, 300), [300]) := by decide +kernel
  obtain ⟨d, ran, both⟩ := Option.map_eq_some_iff.mp last
  have admitted : Runs.Admitted step Provided {} pauseAndStop := by
    refine ⟨start_provided, fun _ _ => ⟨pass_provided _, fun _ _ => ⟨fun kind => ?_,
      fun _ _ => ⟨pass_provided _, fun _ _ => ⟨fun kind => ?_, fun _ _ =>
      ⟨pass_provided _, fun _ _ => trivial⟩⟩⟩⟩⟩⟩
    · cases kind
    · cases kind
  rw [Prod.mk.injEq, Option.map_eq_some_iff] at both
  obtain ⟨⟨sveInfo, held, state⟩, stopped⟩ := both
  rw [Prod.mk.injEq] at state
  apply finishing d (Runs.run_reached admitted ran) 16 sveInfo held state.1
  rw [stopped, state.2]
  exact List.mem_singleton_self _

end Signalled
end Sace
