import Sace.Saced.Dispatcher

/-! The order in which stop ends the threads. -/
namespace Sace

namespace SaceExcutor
variable {outTime : Int} {s t : SaceExcutor}

/-- What a step does to an executor that is told to stop and to one whose thread is gone. -/
theorem step_exits {a : Step} (moved : s.step outTime a = some t) :
    (t.mExit = true ↔ s.mExit = true ∨ a = .exit) ∧
    (t.place = .exited → s.place = .exited ∨ s.mExit = true) ∧
    (s.place = .exited → t.place = .exited ∧ t.excuted = s.excuted) := by
  cases a with
  | enter | push | post | exitPost =>
    simp only [step] at moved
    split at moved
    all_goals cases moved
    all_goals simp +contextual
  | exit =>
    cases moved
    simp +contextual
  | token | timedOut | timeoutDone | interrupted =>
    simp only [step, Option.ite_none_right_eq_some] at moved
    obtain ⟨place, moved⟩ := moved
    cases moved
    simp [place]
  | test =>
    simp only [step, Option.ite_none_right_eq_some] at moved
    obtain ⟨place, moved⟩ := moved
    cases moved
    cases s.mExit <;> simp [place]
  | pop =>
    simp only [step, Option.ite_none_right_eq_some] at moved
    obtain ⟨place, moved⟩ := moved
    split at moved <;> cases moved <;> simp [place]
  | excuted =>
    simp only [step] at moved
    split at moved
    · rename_i place
      cases moved
      simp [place]
    · cases moved

end SaceExcutor

namespace SaceCommandDispatcher

def Done (d : SaceCommandDispatcher) : StopAction → Prop
  | .exit kind => (d.excutor kind).mExit = true
  | .join kind => (d.excutor kind).place = .exited
  | .exitDispatch => d.mExit = true
  | .joinDispatch => d.place = .exited
  | .exitPost _ | .destroy _ => True

def did (d : SaceCommandDispatcher) : Step → List StopAction
  | .main => (d.stopping.getD []).take 1
  | _ => []

/-- `past` is what the main thread has done of stop: it has left its traces, and nothing has been
told to stop otherwise, except that mExit may have been there from the beginning. -/
structure Halting (mExit : Bool) (d : SaceCommandDispatcher) (past : List StopAction) : Prop where
  program : (d.stopping = none ∧ past = []) ∨ ∃ rest, d.stopping = some rest ∧ past ++ rest = stop
  done : ∀ action ∈ past, d.Done action
  told : ∀ kind, (d.excutor kind).mExit = true → .exit kind ∈ past
  gone : ∀ kind, (d.excutor kind).place = .exited → (d.excutor kind).mExit = true
  dispatch : d.mExit = true → mExit = true ∨ .exitDispatch ∈ past
  dispatched : d.place = .exited → d.mExit = true

section Steps
variable {d e : SaceCommandDispatcher} {a : Step} {mExit : Bool} {past : List StopAction}

theorem excutor_exits (moved : d.step a = some e) (kind : SaceMessageHandlerType) :
    ((d.excutor kind).mExit = true → (e.excutor kind).mExit = true) ∧
    ((e.excutor kind).mExit = true → (d.excutor kind).mExit = true ∨ .exit kind ∈ d.did a) ∧
    ((e.excutor kind).place = .exited →
      (d.excutor kind).place = .exited ∨ (d.excutor kind).mExit = true) ∧
    ((d.excutor kind).place = .exited →
      (e.excutor kind).place = .exited ∧ (e.excutor kind).excuted = (d.excutor kind).excuted) := by
  rcases excutor_step moved kind with same | ⟨step, stepped, _, told⟩
  · rw [same]
    exact ⟨id, .inl, .inl, fun exited => ⟨exited, rfl⟩⟩
  · obtain ⟨exit, exited, lasting⟩ := SaceExcutor.step_exits stepped
    refine ⟨fun before => exit.mpr (.inl before), fun after => ?_, exited, lasting⟩
    refine (exit.mp after).imp_right fun exits => ?_
    obtain ⟨rfl, rest, next⟩ := told exits
    simp [did, next]

theorem dispatch_exits (moved : d.step a = some e) :
    (d.mExit = true → e.mExit = true) ∧
    (e.mExit = true → d.mExit = true ∨ .exitDispatch ∈ d.did a) ∧
    (e.place = .exited → d.place = .exited ∨ d.mExit = true) ∧
    (d.place = .exited → e.place = .exited) := by
  cases step_moved moved with
  | posted | idle | begun | awaited => exact ⟨id, .inl, .inl, id⟩
  | taken polling => exact ⟨id, .inl, nofun, by simp [polling]⟩
  | left _ exits => exact ⟨id, .inl, fun _ => .inr exits, fun _ => rfl⟩
  | passed place => exact ⟨id, .inl, nofun, by simp [place]⟩
  | offered place => exact ⟨id, .inl, nofun, by simp [place]⟩
  | entered place _ _ acted | pushed place acted | sent place acted =>
    obtain ⟨there, _, _, _, exit, _⟩ := move_frame acted
    simp +contextual [there, exit, place]
  | ran _ acted | told _ acted | woken _ acted =>
    obtain ⟨there, _, _, _, exit, _⟩ := move_frame acted
    simp +contextual [there, exit]
  | exits next => exact ⟨fun _ => rfl, fun _ => .inr (by simp [did, next]), .inl, id⟩

theorem stopping_step (moved : d.step a = some e) :
    (e.stopping = d.stopping ∧ d.did a = []) ∨
    (d.stopping = none ∧ e.stopping = some stop ∧ d.did a = []) ∨
    ∃ action rest, d.stopping = some (action :: rest) ∧ e.stopping = some rest ∧
      d.did a = [action] ∧ e.Done action := by
  cases step_moved moved with
  | posted | taken | idle | left | passed | offered => exact .inl ⟨rfl, rfl⟩
  | entered _ _ _ acted | pushed _ acted | sent _ acted | ran _ acted =>
    obtain ⟨_, _, _, _, _, stopping⟩ := move_frame acted
    exact .inl ⟨stopping, rfl⟩
  | begun first => exact .inr (.inl ⟨first, rfl, rfl⟩)
  | told next acted =>
    refine .inr (.inr ⟨_, _, next, rfl, by simp [did, next], ?_⟩)
    obtain ⟨excutor, stepped, rfl⟩ := Option.map_eq_some_iff.mp acted
    cases stepped
    simp [Done]
  | woken next => exact .inr (.inr ⟨_, _, next, rfl, by simp [did, next], trivial⟩)
  | awaited next why =>
    refine .inr (.inr ⟨_, _, next, rfl, by simp [did, next], ?_⟩)
    rcases why with ⟨_, rfl, exited⟩ | ⟨_, rfl⟩ | ⟨rfl, exited⟩
    · exact exited
    · trivial
    · exact exited
  | exits next => exact .inr (.inr ⟨_, _, next, rfl, by simp [did, next], rfl⟩)

theorem Done.lasting {action : StopAction} (done : d.Done action) (moved : d.step a = some e) :
    e.Done action := by
  cases action with
  | exit kind => exact (excutor_exits moved kind).1 done
  | join kind => exact ((excutor_exits moved kind).2.2.2 done).1
  | exitDispatch => exact (dispatch_exits moved).1 done
  | joinDispatch => exact (dispatch_exits moved).2.2.2 done
  | exitPost kind => trivial
  | destroy kind => trivial

theorem Halting.step (halting : Halting mExit d past) (moved : d.step a = some e) :
    Halting mExit e (past ++ d.did a) where
  program := by
    rcases stopping_step moved with ⟨same, did⟩ | ⟨first, begun, did⟩ | ⟨action, rest, next, left,
      did, _⟩ <;> rw [did]
    · rw [same, List.append_nil]
      exact halting.program
    · rcases halting.program with ⟨_, rfl⟩ | ⟨_, stopping, _⟩
      · exact .inr ⟨_, begun, rfl⟩
      · cases first.symm.trans stopping
    · rcases halting.program with ⟨none, _⟩ | ⟨_, stopping, program⟩
      · cases none.symm.trans next
      · cases stopping.symm.trans next
        exact .inr ⟨rest, left, by rw [← program, List.append_assoc]; rfl⟩
  done action there := by
    rcases List.mem_append.mp there with before | last
    · exact (halting.done action before).lasting moved
    · rcases stopping_step moved with ⟨_, did⟩ | ⟨_, _, did⟩ | ⟨_, _, _, _, did, done⟩ <;>
        rw [did] at last
      · cases last
      · cases last
      · cases List.mem_singleton.mp last
        exact done
  told kind exits := List.mem_append.mpr
    (((excutor_exits moved kind).2.1 exits).imp_left (halting.told kind))
  gone kind exited := (excutor_exits moved kind).1
    (((excutor_exits moved kind).2.2.1 exited).elim (halting.gone kind) id)
  dispatch exits := by
    rcases (dispatch_exits moved).2.1 exits with before | now
    · exact (halting.dispatch before).imp_right (List.mem_append_left _)
    · exact .inr (List.mem_append_right _ now)
  dispatched exited := (dispatch_exits moved).1
    (((dispatch_exits moved).2.2.1 exited).elim halting.dispatched id)

theorem reached_halting (reached : Runs.Reached step (fun _ _ => True) (start mExit) d) :
    ∃ past, Halting mExit d past := by
  apply reached.invariant (I := fun d => ∃ past, Halting mExit d past)
  · exact ⟨[], .inl ⟨rfl, rfl⟩, nofun, nofun, nofun, .inl, nofun⟩
  · rintro d a e ⟨past, halting⟩ _ moved
    exact ⟨_, halting.step moved⟩

/-- What stands in front of an action in stop has been done before it. -/
theorem Halting.before (halting : Halting mExit d past) (first : StopAction) {second : StopAction}
    (ordered : stop.idxOf first < stop.idxOf second) (there : second ∈ past) : first ∈ past := by
  rcases halting.program with ⟨_, rfl⟩ | ⟨rest, _, program⟩
  · cases there
  · rw [← program, List.idxOf_append_of_mem there] at ordered
    by_contra missing
    rw [List.idxOf_append_of_notMem missing] at ordered
    have inside := List.idxOf_lt_length_iff.mpr there
    omega

theorem Halting.all_exited (halting : Halting mExit d past)
    (there : StopAction.exitDispatch ∈ past) :
    ∀ kind ∈ mExcutor, (d.excutor kind).place = .exited := by
  intro kind known
  refine halting.done _ (halting.before (.join kind) ?_ there)
  revert kind
  decide

/-- With an mExit that stood there from the beginning the dispatch thread is gone as soon as no
message comes for a second. -/
theorem idle_exits : Runs.Reached step (fun _ _ => True) (start true)
    { start true with place := .exited } :=
  .next (a := .poll .timeout) .start trivial rfl

/-- stop ends the executors in the reverse order of their creation, each before the next one is
told to stop. When it has returned, the dispatch thread is gone and nothing is executed any more.
That the dispatch thread is never gone before the executors is true exactly where the memory of
mExit happened to be false. -/
theorem reached_halts (reached : Runs.Reached step (fun _ _ => True) (start mExit) d) :
    (∀ before kind behind, mExcutor = before ++ kind :: behind → (d.excutor kind).mExit = true →
      ∀ later ∈ behind, (d.excutor later).place = .exited) ∧
    (d.stopping = some [] → d.place = .exited ∧ ∀ a e, d.step a = some e →
      ∀ kind ∈ mExcutor, (e.excutor kind).excuted = (d.excutor kind).excuted) ∧
    ((∀ e, Runs.Reached step (fun _ _ => True) (start mExit) e → e.place = .exited →
      ∀ kind ∈ mExcutor, (e.excutor kind).place = .exited) ↔ mExit = false) := by
  obtain ⟨past, halting⟩ := reached_halting reached
  refine ⟨fun before kind behind list exits later there => ?_, fun ended => ?_, fun last => ?_, ?_⟩
  · refine halting.done _ (halting.before (.join later) ?_ (halting.told kind exits))
    have size := congrArg List.length list
    rcases before with _ | ⟨_, _ | ⟨_, _ | ⟨_, before⟩⟩⟩
    · cases list
      revert later
      decide
    · cases list
      revert later
      decide
    · cases list
      cases there
    · simp [mExcutor] at size
  · rcases halting.program with ⟨none, _⟩ | ⟨rest, stopping, program⟩
    · cases none.symm.trans ended
    · cases stopping.symm.trans ended
      rw [List.append_nil] at program
      subst program
      refine ⟨halting.done .joinDispatch (by decide), fun a e moved kind known => ?_⟩
      have exited := halting.all_exited (by decide) kind known
      exact ((excutor_exits moved kind).2.2.2 exited).2
  · cases mExit with
    | false => rfl
    | true => cases last _ idle_exits rfl .service (by decide)
  · rintro rfl e other exited
    obtain ⟨past, halting⟩ := reached_halting other
    exact halting.all_exited ((halting.dispatch (halting.dispatched exited)).resolve_left nofun)

/-- The dispatch thread is in sendCommandMessage of the executor, behind the test of mExit. -/
def Inside (d : SaceCommandDispatcher) (kind : SaceMessageHandlerType) : Prop :=
  ∃ msg rest, d.place = .sending msg kind rest ∨ d.place = .posting msg kind rest

theorem inside_before (moved : d.step a = some e) {kind : SaceMessageHandlerType}
    (inside : e.Inside kind) : d.Inside kind ∨ (d.excutor kind).mExit = false := by
  obtain ⟨msg, rest, place⟩ := inside
  cases step_moved moved with
  | posted | idle | begun | awaited | exits => exact .inl ⟨msg, rest, place⟩
  | taken | left | passed | offered => rcases place with place | place <;> cases place
  | entered _ _ running acted =>
    rw [(move_frame acted).1] at place
    rcases place with place | place <;> cases place
    exact .inr running
  | pushed before acted =>
    rw [(move_frame acted).1] at place
    rcases place with place | place <;> cases place
    exact .inl ⟨_, _, .inl before⟩
  | sent _ acted =>
    rw [(move_frame acted).1] at place
    rcases place with place | place <;> cases place
  | ran _ acted | told _ acted | woken _ acted =>
    exact .inl ⟨msg, rest, (move_frame acted).1 ▸ place⟩

/-- Nobody enters sendCommandMessage any more once the executor has been told to stop. -/
theorem outside_lasting {kind : SaceMessageHandlerType}
    (outside : (d.excutor kind).mExit = true ∧ ¬ d.Inside kind) (moved : d.step a = some e) :
    (e.excutor kind).mExit = true ∧ ¬ e.Inside kind := by
  obtain ⟨exit, outside⟩ := outside
  refine ⟨(excutor_exits moved kind).1 exit, fun inside => ?_⟩
  rcases inside_before moved inside with before | running
  · exact outside before
  · rw [exit] at running
    cases running

/-- Where the dispatch thread is inside, it goes on: it locks the mutex or posts the semaphore. -/
theorem Routed.inside_handles (routed : Routed d) {kind : SaceMessageHandlerType}
    (known : kind ∈ mExcutor) (inside : d.Inside kind) : ∃ e, d.step .handle = some e := by
  have lane := routed.lanes kind known
  have entered := lane.entered
  have pushed := lane.pushed
  obtain ⟨msg, rest, place | place⟩ := inside <;> rw [place] at entered pushed
  · have one : (d.excutor kind).entered = 1 := by simpa [entering] using entered
    simp [SaceCommandDispatcher.step, handle, place, move, SaceExcutor.step, one]
  · have one : (d.excutor kind).pushed = 1 := by simpa [pushing] using pushed
    simp [SaceCommandDispatcher.step, handle, place, move, SaceExcutor.step, one]

theorem Halting.destroys (halting : Halting mExit d past) {kind : SaceMessageHandlerType}
    {rest : List StopAction} (next : d.stopping = some (.destroy kind :: rest)) :
    kind ∈ mExcutor ∧ (d.excutor kind).mExit = true := by
  rcases halting.program with ⟨none, _⟩ | ⟨left, stopping, program⟩
  · cases none.symm.trans next
  · cases stopping.symm.trans next
    have there : StopAction.destroy kind ∈ stop := by simp [← program]
    have order : stop.idxOf (.exit kind) < stop.idxOf (.destroy kind) := by
      revert there
      cases kind <;> decide
    refine ⟨by revert there; cases kind <;> decide, halting.done (.exit kind) ?_⟩
    have once : stop.Nodup := by decide
    rw [← program] at once order
    have fresh : StopAction.destroy kind ∉ past := fun before =>
      List.disjoint_of_nodup_append once before List.mem_cons_self
    rw [List.idxOf_append_of_notMem fresh, List.idxOf_cons_self] at order
    by_contra missing
    rw [List.idxOf_append_of_notMem missing] at order
    omega

/-- uninit destroys an executor's mutex and semaphore without waiting for the dispatch thread.
Afterwards that thread locks the mutex or posts the semaphore in some run exactly where it is in
sendCommandMessage when they are destroyed. -/
theorem destroyed_unused (reached : Runs.Reached step (fun _ _ => True) (start mExit) d)
    {kind : SaceMessageHandlerType} {rest : List StopAction}
    (next : d.stopping = some (.destroy kind :: rest)) :
    (∃ e f g, d.step .main = some e ∧ Runs.Reached step (fun _ _ => True) e f ∧ f.Inside kind ∧
      f.step .handle = some g) ↔ d.Inside kind := by
  obtain ⟨past, halting⟩ := reached_halting reached
  obtain ⟨known, exit⟩ := halting.destroys next
  constructor
  · rintro ⟨e, f, _, destroyed, later, inside, _⟩
    by_contra outside
    have after := outside_lasting ⟨exit, outside⟩ destroyed
    exact (later.invariant (I := fun f => (f.excutor kind).mExit = true ∧ ¬ f.Inside kind) after
      fun _ _ _ outside _ moved => outside_lasting outside moved).2 inside
  · intro inside
    have routed : Routed d := reached.invariant (routed_start mExit) fun _ _ _ routed _ moved =>
      routed.step moved
    have destroyed : d.step .main = some { d with stopping := some rest } := by
      simp [step, next, act]
    obtain ⟨g, uses⟩ := (routed.step destroyed).inside_handles known inside
    exact ⟨_, _, g, destroyed, .start, inside, uses⟩

end Steps

/-- An event request is on its way when stop begins: the executor is told to stop and its thread
is gone while the dispatch thread is about to lock its mutex. -/
def caught (msg : Posted) : List Step :=
  [.post msg, .poll .callback, .handle, .handle, .handle, .stop, .main, .main,
    .thread .event .token, .thread .event .test, .main]

theorem caught_reached : ∃ d, Runs.run step (start false) (caught eventRequest) = some d ∧
    d.stopping = some (stop.drop 3) ∧ d.place = .sending eventRequest .event [] :=
  ⟨_, rfl, rfl, rfl⟩

theorem caught_inside : ∃ d, Runs.Reached step (fun _ _ => True) (start false) d ∧
    d.stopping = some (.destroy .event :: stop.drop 4) ∧
    ∃ e f g, d.step .main = some e ∧ Runs.Reached step (fun _ _ => True) e f ∧ f.Inside .event ∧
      f.step .handle = some g := by
  obtain ⟨d, ran, next, place⟩ := caught_reached
  have reached := Runs.run_reached (Runs.admitted_of_all (fun _ _ => trivial) _) ran
  exact ⟨d, reached, next, (destroyed_unused reached next).mpr ⟨_, _, .inl place⟩⟩

theorem caught_halts : ∃ d, Runs.run step (start false) (caught eventRequest) = some d ∧
    (d.excutor .event).place = .exited ∧
    (∀ before kind behind, mExcutor = before ++ kind :: behind → (d.excutor kind).mExit = true →
      ∀ later ∈ behind, (d.excutor later).place = .exited) := by
  have last : (Runs.run step (start false) (caught eventRequest)).map
      (fun d => (d.excutor .event).place) = some .exited := rfl
  obtain ⟨d, ran, exited⟩ := Option.map_eq_some_iff.mp last
  exact ⟨d, ran, exited,
    (reached_halts (Runs.run_reached (Runs.admitted_of_all (fun _ _ => trivial) _) ran)).1⟩

end SaceCommandDispatcher
end Sace
