import Sace.Service.Tables

/-! One monitor pass over a state whose indexes agree. -/
namespace Sace.SaceServiceExcutor

/-- What waitpid reports about a process: a wait status, or that there is no such child. -/
def ended : WaitAnswer → Bool
  | .running => false
  | .reaped _ => true
  | .failed errno => errno = ECHILD

abbrev AllMonitored (s : SaceServiceExcutor) : Prop :=
  ∀ p ∈ s.mRunningService, (s.heap[p]?).all (·.state.monitored)

def answered (s : SaceServiceExcutor) (wait : Nat → WaitAnswer) (entry : UInt64 × Nat) :
    Option (ServiceInfo × WaitAnswer) :=
  (s.heap[entry.1]?).bind fun sveInfo =>
    if sveInfo.state.monitored then some (sveInfo, wait entry.2) else none

def endedAt (s : SaceServiceExcutor) (wait : Nat → WaitAnswer) (entry : UInt64 × Nat) : Bool :=
  (s.answered wait entry).any fun answer => ended answer.2

abbrev endedServices (s : SaceServiceExcutor) (wait : Nat → WaitAnswer) : List UInt64 :=
  Erasure.chosen (s.endedAt wait) s.mRunningService

abbrev endedPositions (s : SaceServiceExcutor) (wait : Nat → WaitAnswer) : List Nat :=
  Erasure.saved (s.endedAt wait) s.mRunningService

abbrev keptServices (s : SaceServiceExcutor) (wait : Nat → WaitAnswer) : List UInt64 :=
  Erasure.passed (s.endedAt wait) s.mRunningService

/-- Whom the pass has to tell about which label: each writer of each service with a status. -/
def owed (s : SaceServiceExcutor) (wait : Nat → WaitAnswer) : List (SaceWriter × UInt64) :=
  s.mRunningService.zipIdx.flatMap fun entry =>
    match s.answered wait entry with
    | some (sveInfo, .reaped _) => sveInfo.writer.map fun wr => (wr, sveInfo.label)
    | _ => []

def responses (trace : List Effect) : List (SaceWriter × UInt64) :=
  trace.filterMap fun
    | .sendResponse wr response => some (wr, response.label)
    | _ => none

/-- The pass completes, takes exactly the ended services out of every index and deletes
them, keeps the rest in order, and tells every writer of every reaped service once. -/
structure PassMeets (s : SaceServiceExcutor) (wait : Nat → WaitAnswer)
    (t : SaceServiceExcutor) : Prop where
  running : t.mRunningService = s.keptServices wait
  seq : ∀ l p : UInt64,
    t.mSeqService[l]? = some p ↔ p ∉ s.endedServices wait ∧ s.mSeqService[l]? = some p
  names : ∀ (n : Str) (p : UInt64),
    t.mNameService[n]? = some p ↔ p ∉ s.endedServices wait ∧ s.mNameService[n]? = some p
  deleted : ∀ p ∈ s.endedServices wait, p ∉ t.heap
  objects : ∀ p : UInt64, p ∉ s.endedServices wait →
    (t.heap[p]?).map ServiceInfo.identity = (s.heap[p]?).map ServiceInfo.identity
  told : (responses (s.monitorServiceStatus wait).trace).Perm (s.owed wait)

theorem saves_eq_endedAt (s : SaceServiceExcutor) (wait : Nat → WaitAnswer)
    (entry : UInt64 × Nat) : s.saves wait entry = s.endedAt wait entry := by
  unfold saves endedAt answered
  cases s.heap[entry.1]? with
  | none => rfl
  | some sveInfo =>
    simp only [Option.any_some, Option.bind_some, pollService]
    split
    · cases wait entry.2 <;> rfl
    · rfl

theorem responses_at (s : SaceServiceExcutor) (wait : Nat → WaitAnswer) (entry : UInt64 × Nat) :
    responses (s.responsesAt wait entry) =
      match s.answered wait entry with
      | some (sveInfo, .reaped _) => sveInfo.writer.map fun wr => (wr, sveInfo.label)
      | _ => [] := by
  unfold responsesAt answered
  cases live : s.heap[entry.1]? with
  | none => rfl
  | some sveInfo =>
    by_cases asked : sveInfo.state.monitored
    · cases answer : wait entry.2 with
      | running => simp [pollService, asked, ServiceInfo.sendPolled, responses]
      | failed errno => simp [pollService, asked, ServiceInfo.sendPolled, responses]
      | reaped status =>
        obtain ⟨response, sent⟩ : ∃ response,
            (pollService sveInfo (.reaped status)).response = some response := by
          simp only [pollService, asked, if_true, reaped]
          exact ⟨_, rfl⟩
        have label := pollService_response sent
        simp [sent, asked, ServiceInfo.sendPolled, ServiceInfo.sendResponse, responses, label]
    · simp [pollService, asked, ServiceInfo.sendPolled, responses]

theorem responses_flatMap (s : SaceServiceExcutor) (wait : Nat → WaitAnswer)
    (entries : List (UInt64 × Nat)) :
    responses (entries.flatMap (s.responsesAt wait)) =
      entries.flatMap fun entry => responses (s.responsesAt wait entry) := by
  simp only [responses, List.filterMap_flatMap]

theorem pollLoop_agrees {s : SaceServiceExcutor} (agree : TablesAgree s)
    (wait : Nat → WaitAnswer) :
    ∃ t, pollLoop wait 0 s.mRunningService s =
        ⟨s.mRunningService.zipIdx.flatMap (s.responsesAt wait), .ok (t, s.endedPositions wait)⟩ ∧
      SameObjects s t := by
  obtain ⟨t, loop, same⟩ := pollLoop_distinct wait 0 s.mRunningService s agree.distinct agree.live
  refine ⟨t, ?_, same⟩
  rw [loop, endedPositions, Erasure.saved, funext (s.saves_eq_endedAt wait)]

theorem monitor_told {s : SaceServiceExcutor} (agree : TablesAgree s)
    (wait : Nat → WaitAnswer) :
    responses (s.monitorServiceStatus wait).trace = s.owed wait := by
  obtain ⟨t, loop, _⟩ := pollLoop_agrees agree wait
  rw [monitorServiceStatus, loop, Traced.bind_of_ok rfl, collectLoop_trace, List.append_nil,
    responses_flatMap, owed]
  simp only [responses_at]

theorem monitor_erases {s : SaceServiceExcutor} (agree : TablesAgree s) {wait : Nat → WaitAnswer}
    {erased left : List UInt64}
    (hit : Erasure.eraseSaved (s.endedPositions wait) s.mRunningService = some (erased, left)) :
    ∃ u t, SameObjects s u ∧ Collected u t erased left ∧ TablesAgree t ∧
      (s.monitorServiceStatus wait).result = .ok t := by
  obtain ⟨u, loop, same⟩ := pollLoop_agrees agree wait
  obtain ⟨t, collect, agreeT, collected⟩ : ∃ t, collectLoop (s.endedPositions wait) u = pure t ∧
      TablesAgree t ∧ Collected u t erased left :=
    collectLoop_erases (agree.of_same same) (same.running ▸ hit)
  refine ⟨u, t, same, collected, agreeT, ?_⟩
  rw [monitorServiceStatus, loop, Traced.bind_of_ok rfl]
  simp only [collect, Traced.pure_result]

theorem monitor_stops {s : SaceServiceExcutor} (agree : TablesAgree s) {wait : Nat → WaitAnswer}
    (missed : Erasure.eraseSaved (s.endedPositions wait) s.mRunningService = none) :
    (s.monitorServiceStatus wait).result = .error .outOfBounds := by
  obtain ⟨u, loop, same⟩ := pollLoop_agrees agree wait
  have stops : (collectLoop (s.endedPositions wait) u).result = .error .outOfBounds :=
    collectLoop_stops (agree.of_same same) (same.running ▸ missed)
  rw [monitorServiceStatus, loop, Traced.bind_of_ok rfl]
  exact stops

theorem meets_of_few {s : SaceServiceExcutor} (agree : TablesAgree s) {wait : Nat → WaitAnswer}
    (few : (s.endedServices wait).length ≤ 1) :
    ∃ t, (s.monitorServiceStatus wait).result = .ok t ∧ PassMeets s wait t := by
  have few : (Erasure.saved (s.endedAt wait) s.mRunningService).length ≤ 1 := by
    simpa [Erasure.saved, Erasure.chosen] using few
  have single := Erasure.eraseSaved_single few
  obtain ⟨u, t, same, collected, _, done⟩ := monitor_erases agree single
  refine ⟨t, done, collected.running, fun l p => ?_, fun n p => ?_, fun p gone held => ?_,
    fun p stays => ?_, .of_eq (monitor_told agree wait)⟩
  · rw [collected.seq, same.seq]
  · rw [collected.names, same.names]
  · obtain ⟨sveInfo, held⟩ :=
      Table.some_of_mem held
    exact ((collected.objects p sveInfo).mp held).1 gone
  · rw [← same.objects p]
    refine congrArg _ (Option.ext fun sveInfo => ?_)
    rw [collected.objects]
    exact and_iff_right stays

theorem few_of_meets {s t : SaceServiceExcutor} (agree : TablesAgree s)
    {wait : Nat → WaitAnswer} (done : (s.monitorServiceStatus wait).result = .ok t)
    (meets : PassMeets s wait t) : (s.endedServices wait).length ≤ 1 := by
  cases hit : Erasure.eraseSaved (s.endedPositions wait) s.mRunningService with
  | none => cases (monitor_stops agree hit).symm.trans done
  | some out =>
    obtain ⟨u, t', _, collected, _, done'⟩ := monitor_erases agree hit
    cases done'.symm.trans done
    have left : out.2 = s.keptServices wait := collected.running.symm.trans meets.running
    have few := (Erasure.eraseSaved_exact_iff agree.distinct).mp
      ⟨out.1, hit.trans (congrArg some (Prod.ext rfl left))⟩
    simpa [Erasure.saved, Erasure.chosen] using few

/-- The pass is right exactly when it finds at most one service ended. -/
theorem monitor_meets_iff {s : SaceServiceExcutor} (agree : TablesAgree s)
    (wait : Nat → WaitAnswer) :
    (∃ t, (s.monitorServiceStatus wait).result = .ok t ∧ PassMeets s wait t) ↔
      (s.endedServices wait).length ≤ 1 :=
  ⟨fun ⟨_, done, meets⟩ => few_of_meets agree done meets, meets_of_few agree⟩

/-! Three services, of which the first two end at once. -/

def threeServices : SaceServiceExcutor :=
  ((({} : SaceServiceExcutor).add 16 (ServiceInfo.mk (str "a") 101 [] .running [] [] 1 .normal)).add
    32 (ServiceInfo.mk (str "b") 102 [] .running [] [] 2 .normal)).add
    48 (ServiceInfo.mk (str "c") 103 [] .running [] [] 3 .normal)

def firstTwoEnd : Nat → WaitAnswer := fun i => if i < 2 then .reaped 0 else .running

theorem threeServices_agree : TablesAgree threeServices := by
  refine ((empty_agrees.added ?_ ?_ ?_).added ?_ ?_ ?_).added ?_ ?_ ?_ <;> decide

theorem monitor_meets_third : (∃ t, (threeServices.monitorServiceStatus fun i =>
      if i = 2 then .reaped 0 else .running).result = .ok t ∧
    PassMeets threeServices (fun i => if i = 2 then .reaped 0 else .running) t) ↔
      (threeServices.endedServices fun i => if i = 2 then .reaped 0 else .running).length ≤ 1 :=
  monitor_meets_iff threeServices_agree _

/-- The third service is taken out in place of the second. -/
theorem monitor_misses : ¬ ∀ (s : SaceServiceExcutor) (wait : Nat → WaitAnswer), TablesAgree s →
    s.AllMonitored →
    (∀ i, wait i = .running ∨ (∃ status, wait i = .reaped status) ∨ wait i = .failed ECHILD) →
    ∃ t, (s.monitorServiceStatus wait).result = .ok t ∧ PassMeets s wait t := by
  intro meetsAll
  have answers : ∀ i, firstTwoEnd i = .running ∨ (∃ status, firstTwoEnd i = .reaped status) ∨
      firstTwoEnd i = .failed ECHILD := by
    intro i
    unfold firstTwoEnd
    split
    · exact Or.inr (Or.inl ⟨0, rfl⟩)
    · exact Or.inl rfl
  have monitored : (threeServices.mRunningService.all fun p =>
      (threeServices.heap[p]?).all (·.state.monitored)) = true := by decide
  obtain ⟨t, done, meets⟩ := meetsAll threeServices firstTwoEnd threeServices_agree
    (List.all_eq_true.mp monitored) answers
  have left : ((threeServices.monitorServiceStatus firstTwoEnd).value.map
      (·.mRunningService)) = some [32] := by decide
  rw [Traced.value_eq_some.mpr done, Option.map_some, meets.running] at left
  exact absurd left (by decide)

end Sace.SaceServiceExcutor
