import Sace.Event.Monitor

/-! An event that dies again and again: whether the loop of event_monitor_thread starts it again
each time. -/
namespace Sace.SaceEvent

/-- How far the service of the event is: a START is posted and not answered, it runs under a
label, or it was killed. -/
inductive Phase where
  | started
  | alive (label : UInt64)
  | dead
  deriving DecidableEq

/-- SaceEvent, and what the service of one of its events has been through. -/
structure Supervision where
  event : SaceEvent
  phase : Phase := .started
  deaths : Nat := 0
  /-- The labels that are not fresh. -/
  labels : List UInt64

namespace Supervision

inductive Step where
  | top (properties : Str → Str → Str)
  | answer (result : SaceResult)
  | death (response : SaceStatusResponse)
  | other (notice : Notice)
  | request (msg : SaceReaderMessage) (env : EventEnv)

def watch (e : SaceEvent) (name : Str) : Supervision :=
  { event := e, labels := (e.runningEvents[name]?).toList }

def step (name : Str) (s : Supervision) : Step → Option Supervision
  | .top properties => do
    let event ← (s.event.monitorTop properties).value
    let restarted := s.phase = .dead ∧ Starts name (s.event.monitorTop properties)
    some { s with event, phase := if restarted then .started else s.phase }
  | .answer result => do
    let event ← (s.event.handleNotice (.result result)).value
    some { s with
      event
      phase := .alive (givenLabel result)
      labels := givenLabel result :: s.labels }
  | .death response => do
    let event ← (s.event.handleNotice (.response response)).value
    some { s with event, phase := .dead, deaths := s.deaths + 1 }
  | .other notice => do
    let event ← (s.event.handleNotice notice).value
    some { s with event }
  | .request msg env => do
    let event ← (s.event.excuteNormal msg env).value
    some { s with event }

/-- The service of the event `name` is started and killed in turn: each START is answered by an
OK with a fresh label, each death is reported with that label. The triggers may do what they
do, other services and requests go on beside it, and the event stays listed. -/
def Scripted (name : Str) (s : Supervision) : Step → Prop
  | .top _ => True
  | .answer result =>
    s.phase = .started ∧ result.name = name ∧ result.resultStatus = .ok ∧
      result.resultType = .label ∧ givenLabel result ∉ s.labels
  | .death response =>
    s.phase = .alive response.label ∧ response.name = name ∧ response.status = .signal
  | .other notice => notice.name ≠ name
  | .request msg env => ∀ t ∈ (s.event.excuteNormal msg env).value, name ∈ t.events

instance (name : Str) (s : Supervision) : DecidablePred (Scripted name s)
  | .top _ => inferInstanceAs (Decidable True)
  | .answer _ => inferInstanceAs (Decidable (_ ∧ _ ∧ _ ∧ _ ∧ _))
  | .death _ => inferInstanceAs (Decidable (_ ∧ _ ∧ _))
  | .other _ => inferInstanceAs (Decidable (_ ≠ _))
  | .request .. => inferInstanceAs (Decidable (∀ t ∈ _, _))

/-- After an even number of deaths running_events is as it was before the first. -/
def Vacant (e : SaceEvent) (name : Str) (deaths : Nat) : Prop :=
  deaths % 2 = 0 ↔ e.runningEvents[name]? = none

theorem vacant_succ (e : SaceEvent) (name : Str) (deaths : Nat) :
    Vacant e name (deaths + 1) ↔ ¬ Vacant e name deaths := by
  have parity : (deaths + 1) % 2 = 0 ↔ ¬ deaths % 2 = 0 := by omega
  unfold Vacant
  rw [parity]
  exact not_iff.symm

def Fits (e : SaceEvent) (name : Str) (s : Supervision) : Phase → Prop
  | .started => name ∈ s.event.startingEvents ∧ name ∉ s.event.failedEvents ∧
      (s.event.runningEvents[name]? = none ↔ Vacant e name s.deaths)
  | .alive label => label ∈ s.labels ∧ name ∉ s.event.failedEvents ∧
      (s.event.runningEvents[name]? = some label ↔ Vacant e name s.deaths)
  | .dead => (name ∈ s.event.failedEvents ↔ ¬ Vacant e name s.deaths) ∧
      (s.event.runningEvents[name]? = none ↔ Vacant e name s.deaths)

structure Watched (e : SaceEvent) (name : Str) (id : Nat) (s : Supervision) : Prop where
  supervises : s.event.Supervises name id
  known : ∀ label, s.event.runningEvents[name]? = some label → label ∈ s.labels
  fits : Fits e name s s.phase

theorem Watched.aside {e t : SaceEvent} {name : Str} {id : Nat} {s : Supervision}
    (watched : Watched e name id s) (aside : Aside name id s.event t) :
    Watched e name id { s with event := t } where
  supervises := aside.supervises watched.supervises
  known := by
    dsimp only
    rw [aside.running]
    exact watched.known
  fits := by
    have fits := watched.fits
    dsimp only
    cases phase : s.phase with
    | started =>
      rw [phase] at fits
      obtain ⟨starting, unfailed, running⟩ := fits
      refine ⟨aside.starting starting, mt aside.failed.mp unfailed, ?_⟩
      rw [← running, aside.running]
    | alive label =>
      rw [phase] at fits
      obtain ⟨listed, unfailed, running⟩ := fits
      refine ⟨listed, mt aside.failed.mp unfailed, ?_⟩
      rw [← running, aside.running]
    | dead =>
      rw [phase] at fits
      obtain ⟨failed, running⟩ := fits
      exact ⟨aside.failed.trans failed, by rw [← running, aside.running]⟩

theorem Watched.top {e t : SaceEvent} {name : Str} {id : Nat} {s : Supervision}
    {properties : Str → Str → Str} (watched : Watched e name id s)
    (done : (s.event.monitorTop properties).result = .ok t) :
    Watched e name id { s with
      event := t
      phase := if s.phase = .dead ∧ Starts name (s.event.monitorTop properties) then .started
        else s.phase } := by
  obtain ⟨aside, starts, started⟩ := monitorTop_ok watched.supervises done
  have unfailed : name ∉ t.failedEvents := by
    rw [aside.failed]
    exact Std.ExtTreeSet.not_mem_empty
  have running : t.runningEvents[name]? = s.event.runningEvents[name]? := aside.running
  constructor
  · refine aside.supervises ⟨?_, ?_, ?_⟩
    · exact watched.supervises.named
    · exact watched.supervises.events
    · exact watched.supervises.restart
  · dsimp only
    rw [running]
    exact watched.known
  · have fits := watched.fits
    dsimp only
    cases phase : s.phase with
    | started =>
      rw [phase] at fits
      rw [if_neg (by rintro ⟨no, -⟩; cases no)]
      exact ⟨aside.starting fits.1, unfailed, by rw [← fits.2.2, running]⟩
    | alive label =>
      rw [phase] at fits
      rw [if_neg (by rintro ⟨no, -⟩; cases no)]
      exact ⟨fits.1, unfailed, by rw [← fits.2.2, running]⟩
    | dead =>
      rw [phase] at fits
      by_cases again : Starts name (s.event.monitorTop properties)
      · rw [if_pos ⟨rfl, again⟩]
        exact ⟨started again, unfailed, by rw [← fits.2, running]⟩
      · rw [if_neg fun both => again both.2]
        have quiet : name ∉ s.event.failedEvents := fun failed => again (starts.mpr (.inr failed))
        exact ⟨iff_of_false unfailed (mt fits.1.mpr quiet), by rw [← fits.2, running]⟩

theorem Watched.answer {e t : SaceEvent} {name : Str} {id : Nat} {s : Supervision}
    {result : SaceResult} (watched : Watched e name id s)
    (scripted : Scripted name s (.answer result))
    (done : (s.event.handleNotice (.result result)).result = .ok t) :
    Watched e name id { s with
      event := t
      phase := .alive (givenLabel result)
      labels := givenLabel result :: s.labels } := by
  obtain ⟨phase, rfl, ok, type, fresh⟩ := scripted
  have fits := watched.fits
  rw [phase] at fits
  obtain ⟨starting, unfailed, running⟩ := fits
  cases handleResult_label starting ok type done
  refine ⟨watched.supervises.same ⟨rfl, rfl, rfl⟩, fun label found => ?_, ?_⟩
  · rcases Table.of_insertIfNew_some found with ⟨-, rfl⟩ | old
    · exact List.mem_cons_self
    · exact List.mem_cons_of_mem _ (watched.known label old)
  · refine ⟨List.mem_cons_self, unfailed, ?_⟩
    dsimp only
    rw [← running]
    constructor
    · intro found
      cases before : s.event.runningEvents[result.name]? with
      | none => rfl
      | some label =>
        have kept := Table.insertIfNew_keeps (k := result.name) (v := givenLabel result) before
        rw [found] at kept
        cases kept
        exact absurd (watched.known _ before) fresh
    · intro absent
      exact (Table.insertIfNew_some absent ..).mpr (.inl ⟨rfl, rfl⟩)

theorem Watched.death {e t : SaceEvent} {name : Str} {id : Nat} {s : Supervision}
    {response : SaceStatusResponse} (watched : Watched e name id s)
    (scripted : Scripted name s (.death response))
    (done : (s.event.handleNotice (.response response)).result = .ok t) :
    Watched e name id { s with event := t, phase := .dead, deaths := s.deaths + 1 } := by
  obtain ⟨phase, rfl, signal⟩ := scripted
  have fits := watched.fits
  rw [phase] at fits
  obtain ⟨-, unfailed, running⟩ := fits
  rcases handleResponse_signal watched.supervises signal done with ⟨same, rfl⟩ | ⟨differs, rfl⟩
  · have vacant := running.mp same
    refine ⟨watched.supervises.same ⟨rfl, rfl, rfl⟩, watched.known, ?_, ?_⟩
    · apply iff_of_true Std.ExtTreeSet.mem_insert_self
      intro again
      exact (vacant_succ ..).mp again vacant
    · refine iff_of_false ?_ fun again => (vacant_succ ..).mp again vacant
      intro absent
      cases same.symm.trans absent
  · have stale := mt running.mpr differs
    refine ⟨watched.supervises.same ⟨rfl, rfl, rfl⟩, ?_, ?_, ?_⟩
    · intro label found
      exact absurd rfl ((Table.erase_some ..).mp found).1
    · exact iff_of_false unfailed (not_not.mpr ((vacant_succ ..).mpr stale))
    · exact iff_of_true (by simp) ((vacant_succ ..).mpr stale)

theorem Watched.step {e : SaceEvent} {name : Str} {id : Nat} {s t : Supervision} {a : Step}
    (watched : Watched e name id s) (scripted : Scripted name s a)
    (moved : step name s a = some t) : Watched e name id t := by
  cases a with
  | top properties =>
    obtain ⟨event, done, moved⟩ := Option.bind_eq_some_iff.mp moved
    cases moved
    exact watched.top (Traced.value_eq_some.mp done)
  | answer result =>
    obtain ⟨event, done, moved⟩ := Option.bind_eq_some_iff.mp moved
    cases moved
    exact watched.answer scripted (Traced.value_eq_some.mp done)
  | death response =>
    obtain ⟨event, done, moved⟩ := Option.bind_eq_some_iff.mp moved
    cases moved
    exact watched.death scripted (Traced.value_eq_some.mp done)
  | other notice =>
    obtain ⟨event, done, moved⟩ := Option.bind_eq_some_iff.mp moved
    cases moved
    exact watched.aside (handleNotice_aside id scripted (Traced.value_eq_some.mp done))
  | request msg env =>
    obtain ⟨event, done, moved⟩ := Option.bind_eq_some_iff.mp moved
    cases moved
    have change := excuteNormal_change (Traced.value_eq_some.mp done)
    exact watched.aside (change_aside id change (scripted event done))

theorem watch_watched {e : SaceEvent} {name : Str} {id : Nat} (supervises : e.Supervises name id)
    (starting : name ∈ e.startingEvents) (unfailed : name ∉ e.failedEvents) :
    Watched e name id (watch e name) where
  supervises := supervises
  known _ found := Option.mem_toList.mpr found
  fits := ⟨starting, unfailed, (iff_true_left rfl).symm⟩

/-- When the service of an event is dead, the next turn of the loop starts the event again
exactly if one of its triggers fires or it was the first of two deaths: a restart leaves the old
label in running_events, the second death does not match it and only erases it. -/
theorem reached_restarts {e : SaceEvent} {name : Str} {id : Nat}
    (supervises : e.Supervises name id) (starting : name ∈ e.startingEvents)
    (unfailed : name ∉ e.failedEvents) {s t : Supervision}
    (reached : Runs.Reached (step name) (Scripted name) (watch e name) s)
    (dead : s.phase = .dead) {properties : Str → Str → Str}
    (moved : step name s (.top properties) = some t) :
    Starts name (s.event.monitorTop properties) ↔ s.event.Fires (properties name) id ∨
      (s.deaths % 2 = 1 ↔ e.runningEvents[name]? = none) := by
  have watched : Watched e name id s := by
    apply reached.invariant (watch_watched supervises starting unfailed)
    intro _ _ _ watched scripted moved
    exact watched.step scripted moved
  have fits := watched.fits
  rw [dead] at fits
  obtain ⟨event, done, _⟩ := Option.bind_eq_some_iff.mp moved
  obtain ⟨_, starts, _⟩ := monitorTop_ok watched.supervises (Traced.value_eq_some.mp done)
  have parity : s.deaths % 2 = 1 ↔ ¬ s.deaths % 2 = 0 := by omega
  rw [starts, fits.1, parity]
  exact or_congr_right not_iff

/-! A boot event that is to be restarted. -/

def keptCommand : SaceCommand :=
  { Saced.bootCommand with subFlags := SaceEventFlags.restart.byte }

def keptEvent : SaceEvent :=
  { SaceEvent.bare with
    services := [⟨[.boot true], keptCommand⟩]
    events := (∅ : Table Str Nat).insert (str "svc") 0
    startingEvents := (∅ : NameSet).insert (str "svc") }

theorem keptEvent_supervises : keptEvent.Supervises (str "svc") 0 where
  named name id found := by
    rcases (Table.insert_some ..).mp found with ⟨rfl, rfl⟩ | ⟨_, no⟩
    · exact ⟨_, rfl, rfl⟩
    · simp at no
  events := (Table.insert_some ..).mpr (.inl ⟨rfl, rfl⟩)
  restart service held := by
    cases held
    rfl

theorem keptEvent_starting : str "svc" ∈ keptEvent.startingEvents :=
  Std.ExtTreeSet.mem_insert_self

theorem keptEvent_unfailed : str "svc" ∉ keptEvent.failedEvents := Std.ExtTreeSet.not_mem_empty

def keptStarted (label : UInt8) : Step :=
  .answer { name := str "svc", resultStatus := .ok, resultType := .label
            resultExtra := [label, 0, 0, 0, 0, 0, 0, 0], resultExtraLen := 8 }

def keptKilled (label : UInt64) : Step :=
  .death { name := str "svc", status := .signal, label }

def killedOnce : List Step := [keptStarted 7, keptKilled 7]

def killedTwice : List Step :=
  killedOnce ++ [.top fun _ _ => [], keptStarted 8, keptKilled 8]

def EndsDead (restarts : Bool) : Prop :=
  ∃ s t, Runs.Reached (step (str "svc")) (Scripted (str "svc")) (watch keptEvent (str "svc")) s ∧
    s.phase = .dead ∧ step (str "svc") s (.top fun _ _ => []) = some t ∧
    decide (Starts (str "svc") (s.event.monitorTop fun _ _ => [])) = restarts

theorem endsDead (steps : List Step) {restarts : Bool}
    (admitted : Runs.Admitted (step (str "svc")) (Scripted (str "svc"))
      (watch keptEvent (str "svc")) steps)
    (ends : (Runs.run (step (str "svc")) (watch keptEvent (str "svc")) steps).map (fun s =>
      (s.phase, (step (str "svc") s (.top fun _ _ => [])).isSome,
        decide (Starts (str "svc") (s.event.monitorTop fun _ _ => [])))) =
          some (.dead, true, restarts)) : EndsDead restarts := by
  obtain ⟨s, ran, ends⟩ := Option.map_eq_some_iff.mp ends
  simp only [Prod.mk.injEq] at ends
  obtain ⟨dead, turns, starts⟩ := ends
  obtain ⟨t, moved⟩ := Option.isSome_iff_exists.mp turns
  exact ⟨s, t, Runs.run_reached admitted ran, dead, moved, starts⟩

theorem once_restarts : ∃ s : Supervision, s.phase = .dead ∧
    (Starts (str "svc") (s.event.monitorTop fun _ _ => []) ↔ s.event.Fires (fun _ => []) 0 ∨
      (s.deaths % 2 = 1 ↔ keptEvent.runningEvents[str "svc"]? = none)) := by
  have ends : EndsDead true := endsDead killedOnce (by decide +kernel) (by decide +kernel)
  obtain ⟨s, t, reached, dead, moved, _⟩ := ends
  exact ⟨s, dead, reached_restarts keptEvent_supervises keptEvent_starting keptEvent_unfailed
    reached dead moved⟩

theorem twice_forgotten : ¬ ∀ (e : SaceEvent) (name : Str) (id : Nat), e.Supervises name id →
    name ∈ e.startingEvents → name ∉ e.failedEvents → ∀ s t : Supervision,
      Runs.Reached (step name) (Scripted name) (watch e name) s → s.phase = .dead →
        ∀ properties, step name s (.top properties) = some t →
          Starts name (s.event.monitorTop properties) := by
  intro restarts
  have ends : EndsDead false := endsDead killedTwice (by decide +kernel) (by decide +kernel)
  obtain ⟨s, t, reached, dead, moved, forgotten⟩ := ends
  have starts := restarts keptEvent (str "svc") 0 keptEvent_supervises keptEvent_starting
    keptEvent_unfailed s t reached dead _ moved
  exact of_decide_eq_false forgotten starts

end Supervision
end Sace.SaceEvent
