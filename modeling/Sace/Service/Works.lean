import Sace.Service.Reach

/-! What the executor does as a whole: requests, monitor passes and the loops of the shutdown. -/
namespace Sace

def Effect.spawns (pid : Int) : Effect → Bool
  | .spawn child _ => child = pid
  | _ => false

namespace SaceServiceExcutor

/-! ### What the executor does -/

/-- A turn of the executor is a request and a monitor pass, its onUninit the interrupts and a
monitor pass; the timer makes a pass alone. -/
inductive Work where
  | request (msg : SaceReaderMessage) (env : ParseEnv) (answers : StartAnswers)
  | monitor (wait : Nat → WaitAnswer)
  | interrupt
  | destroy

def work (s : SaceServiceExcutor) : Work → Exec SaceServiceExcutor
  | .request msg env answers => do
    let (s, result) ← s.request msg env answers
    Traced.emit (.sendResult msg.msgWriter result)
    return s
  | .monitor wait => s.monitorServiceStatus wait
  | .interrupt => do
    s.interruptAll s.mRunningService
    return s
  | .destroy => s.destroy

theorem excuteNormal_works (s : SaceServiceExcutor) (msg : SaceReaderMessage) (env : ParseEnv)
    (answers : StartAnswers) (wait : Nat → WaitAnswer) :
    s.excuteNormal msg env answers wait =
      s.work (.request msg env answers) >>= fun t => t.work (.monitor wait) := by
  simp only [excuteNormal, work, Traced.bind_assoc, Traced.pure_then]

theorem onUninit_works (s : SaceServiceExcutor) (wait : Nat → WaitAnswer) :
    s.onUninit wait = s.work .interrupt >>= fun t => t.work (.monitor wait) := by
  simp only [onUninit, work, Traced.bind_assoc, Traced.pure_then]

theorem request_work {s t : SaceServiceExcutor} {msg : SaceReaderMessage} {env : ParseEnv}
    {answers : StartAnswers} (done : (s.work (.request msg env answers)).result = .ok t) :
    ∃ result, (s.request msg env answers).result = .ok (t, result) := by
  obtain ⟨⟨u, result⟩, requested, rest⟩ := Traced.bind_ok.mp done
  cases rest
  exact ⟨result, requested⟩

theorem start_spawns {s t : SaceServiceExcutor} {msg : SaceReaderMessage} {env : ParseEnv}
    {answers : StartAnswers} {result : SaceResult} (kind : msg.msgCmd.serviceCmdType = .start)
    (new : msg.msgCmd.name ∉ s.mNameService) (forked : 0 < answers.fork)
    (done : (s.request msg env answers).result = .ok (t, result)) :
    (s.request msg env answers).trace.any (·.spawns answers.fork) = true := by
  simp only [request, kind, if_true, startService_free new] at done ⊢
  obtain ⟨_, copied, _⟩ := Traced.bind_ok.mp done
  rw [Traced.bind_of_ok copied]
  simp [forked, Effect.spawns]

theorem request_faults {s : SaceServiceExcutor} (owned : s.Owned) (msg : SaceReaderMessage)
    (env : ParseEnv) (answers : StartAnswers) :
    (s.work (.request msg env answers)).result ≠ .error .useAfterFree := by
  by_cases fits : s.Fits msg
  · obtain ⟨out, done⟩ : ∃ out, (s.request msg env answers).result = .ok out :=
      (request_completes owned).mpr fits
    rw [work, Traced.bind_of_ok done]
    simp
  · unfold Fits at fits
    push Not at fits
    obtain ⟨kind, new, long⟩ := fits
    have stopped : (s.request msg env answers).result = .error .overflow := by
      simp only [request, kind, if_true, startService_free new]
      rw [memcpyString_of_lt long, Traced.bind_of_error rfl]
    rw [work, Traced.bind_of_error stopped]
    simp

theorem newService_pid (saceCmd : SaceCommand) (writer : SaceWriter) (answers : StartAnswers) :
    (newService saceCmd writer answers).pid = answers.fork := by
  unfold newService ServiceInfo.addWriter
  split <;> rfl

theorem addWriter_pid (sveInfo : ServiceInfo) (wr : SaceWriter) :
    (sveInfo.addWriter wr).pid = sveInfo.pid := by
  unfold ServiceInfo.addWriter
  split <;> rfl

/-! ### Turns of the polling loop -/

theorem saved_of_response {sveInfo : ServiceInfo} {answer : WaitAnswer}
    (told : (pollService sveInfo answer).response.isSome) :
    (pollService sveInfo answer).saved = true := by
  unfold pollService at told ⊢
  split
  · rename_i monitored
    cases answer with
    | running => simp [monitored] at told
    | failed errno => simp [monitored] at told
    | reaped status => rfl
  · rename_i other
    simp [other] at told

/-- Who counts as ended after a turn has counted so before it. -/
theorem endedAt_of_store {s : SaceServiceExcutor} {wait : Nat → WaitAnswer} {p : UInt64}
    {sveInfo : ServiceInfo} {answer : WaitAnswer} (live : s.heap[p]? = some sveInfo)
    (entry : UInt64 × Nat)
    (ended : (s.store p (pollService sveInfo answer).sveInfo).endedAt wait entry = true) :
    s.endedAt wait entry = true := by
  by_cases here : p = entry.1
  · subst here
    by_cases asked : (pollService sveInfo answer).sveInfo.state.monitored
    · rw [monitored_polled asked] at ended
      simpa [endedAt, answered, store, live] using ended
    · simp [endedAt, answered, store, asked] at ended
  · simpa [endedAt, answered, store, Std.ExtTreeMap.getElem?_insert, here] using ended

/-! ### The loop of the destructor -/

/-- Over distinct live objects the destructor's loop completes. What it leaves was there
before it, and so was whom it kills. -/
theorem killAll_live {ps : List UInt64} {s : SaceServiceExcutor} (distinct : ps.Nodup)
    (live : ∀ p ∈ ps, p ∈ s.heap) :
    ∃ t, (killAll ps s).result = .ok t ∧
      (∀ (p : UInt64) (sveInfo : ServiceInfo), t.heap[p]? = some sveInfo →
        s.heap[p]? = some sveInfo) ∧
      ∀ pid signal, .kill pid signal ∈ (killAll ps s).trace →
        ∃ (p : UInt64) (sveInfo : ServiceInfo), s.heap[p]? = some sveInfo ∧ sveInfo.pid = pid := by
  induction ps generalizing s with
  | nil => exact ⟨s, rfl, fun _ _ held => held, fun _ _ sent => nomatch sent⟩
  | cons p rest ih =>
    obtain ⟨sveInfo, held⟩ := Table.some_of_mem (live p List.mem_cons_self)
    obtain ⟨fresh, distinct⟩ := List.nodup_cons.mp distinct
    have others : ∀ q ∈ rest, q ∈ s.heap.erase p := by
      intro q later
      apply Table.mem_erase.mpr
      refine ⟨fun same => ?_, live q (List.mem_cons_of_mem _ later)⟩
      exact fresh (same ▸ later)
    obtain ⟨t, done, left, kills⟩ :=
      @ih { s with heap := s.heap.erase p } distinct others
    have older : ∀ (q : UInt64) (info : ServiceInfo), (s.heap.erase p)[q]? = some info →
        s.heap[q]? = some info := fun q info found => ((Table.erase_some ..).mp found).2
    rw [killAll, deref_of_live held, Traced.pure_then, Traced.emit_then,
      ServiceInfo.sendResponse, Traced.emitAll_then]
    refine ⟨t, done, fun q info found => older q info (left q info found),
      fun pid signal sent => ?_⟩
    rcases List.mem_cons.mp sent with same | sent
    · cases same
      exact ⟨p, sveInfo, held, rfl⟩
    · rcases List.mem_append.mp sent with response | sent
      · obtain ⟨wr, _, other⟩ := List.mem_map.mp response
        cases other
      · obtain ⟨q, info, found, own⟩ := kills pid signal sent
        exact ⟨q, info, older q info found, own⟩

end SaceServiceExcutor
end Sace
