import Sace.Normal.Popen

/-! How long sace_pclose waits. The branch for the total time stands after the one for the
killing time, which is reached first and from then on always taken. -/
namespace Sace

theorem pcloseLoop_running_cons (pid : Int) (waitTime : Nat) (answers : List WaitAnswer) :
    (pcloseLoop pid waitTime (.running :: answers)).result =
      (pcloseLoop pid (waitTime + 100) answers).result := by
  rw [pcloseLoop]
  split
  · rw [Traced.emit_then]
  · rename_i early
    rw [if_neg]
    intro total
    unfold CLOSE_WAIT_KILL_TIME at early
    unfold CLOSE_WAIT_TOTAL_TIME at total
    omega

/-- As long as the process runs the loop goes on, however often it has been killed. -/
theorem pcloseLoop_running (pid : Int) (waitTime : Nat) {answers : List WaitAnswer}
    (running : ∀ answer ∈ answers, answer = .running) :
    (pcloseLoop pid waitTime answers).result = .error .waiting := by
  induction answers generalizing waitTime with
  | nil => rfl
  | cons answer answers ih =>
    have rest : ∀ other ∈ answers, other = .running :=
      fun other member => running other (List.mem_cons_of_mem _ member)
    cases running answer List.mem_cons_self
    rw [pcloseLoop_running_cons]
    exact ih _ rest

/-- The first answer that is not "running" ends the loop. -/
theorem pcloseLoop_ended (pid : Int) (waitTime : Nat) {answers : List WaitAnswer}
    (ended : ∃ answer ∈ answers, answer ≠ .running) :
    ∃ status, (pcloseLoop pid waitTime answers).result = .ok status ∧
      ((∀ pstat, .reaped pstat ∉ answers) → status = -1) := by
  induction answers generalizing waitTime with
  | nil =>
    obtain ⟨_, member, _⟩ := ended
    cases member
  | cons answer answers ih =>
    cases answer with
    | failed errno => exact ⟨-1, rfl, fun _ => rfl⟩
    | reaped pstat =>
      exact ⟨pstat.toNat, rfl, fun unreaped => absurd List.mem_cons_self (unreaped pstat)⟩
    | running =>
      have rest : ∃ answer ∈ answers, answer ≠ .running := by
        obtain ⟨answer, member, ne⟩ := ended
        rcases List.mem_cons.mp member with rfl | member
        · exact absurd rfl ne
        · exact ⟨answer, member, ne⟩
      obtain ⟨status, done, unreaped⟩ := ih (waitTime + 100) rest
      refine ⟨status, (pcloseLoop_running_cons ..).trans done,
        fun none => unreaped fun pstat member => ?_⟩
      exact none pstat (List.mem_cons_of_mem _ member)

theorem pcloseLoop_completes {pid : Int} {waitTime : Nat} {answers : List WaitAnswer} :
    (∃ status, (pcloseLoop pid waitTime answers).result = .ok status) ↔
      ∃ answer ∈ answers, answer ≠ .running := by
  constructor
  · rintro ⟨status, done⟩
    by_contra running
    push Not at running
    cases (pcloseLoop_running pid waitTime running).symm.trans done
  · intro ended
    obtain ⟨status, done, _⟩ := pcloseLoop_ended pid waitTime ended
    exact ⟨status, done⟩

/-- Within the total time the call has ended and closed the descriptor, and it has reported
a failure unless the process was reaped. `answers` says what each poll would see. -/
def ClosesInTime (pipes : Pipes) (fd : Int) (answers : Nat → WaitAnswer) : Prop :=
  ∃ polls ≤ CLOSE_WAIT_TOTAL_TIME / 100, ∃ pipes' status,
    (sacePcloseEnds pipes fd fun _ => (List.range polls).map answers).result =
      .ok (pipes', status) ∧
    pipes'.opened = pipes.opened.erase fd ∧
    ((∀ i < polls, ∀ pstat, answers i ≠ .reaped pstat) → status = -1)

/-- The call ends in time exactly when some waitpid of the first twenty does not answer that
the process still runs. -/
theorem closesInTime_iff {pipes : Pipes} {fd : Int} (valid : 0 ≤ fd)
    (recorded : ∃ pid, (fd, pid) ∈ pipes.pidlist) (answers : Nat → WaitAnswer) :
    ClosesInTime pipes fd answers ↔
      ∃ i < CLOSE_WAIT_TOTAL_TIME / 100, answers i ≠ .running := by
  obtain ⟨pid, node⟩ := recorded
  have found : ∃ cur, pipes.pidlist.find? (·.1 = fd) = some cur := by
    apply Option.isSome_iff_exists.mp
    rw [List.find?_isSome]
    exact ⟨(fd, pid), node, decide_eq_true rfl⟩
  obtain ⟨cur, found⟩ := found
  have call : ∀ polls, sacePcloseEnds pipes fd (fun _ => (List.range polls).map answers) =
      pcloseLoop cur.2 0 ((List.range polls).map answers) >>= fun pstat =>
        pure ({ pipes with pidlist := pipes.pidlist.erase cur }.close fd, pstat) := by
    intro polls
    rw [sacePcloseEnds, if_neg (by omega), found]
  constructor
  · rintro ⟨polls, bound, pipes', status, done, -, -⟩
    by_contra all
    have running : ∀ answer ∈ (List.range polls).map answers, answer = .running := by
      intro answer member
      obtain ⟨i, inside, rfl⟩ := List.mem_map.mp member
      by_contra ne
      have early := List.mem_range.mp inside
      exact all ⟨i, by omega, ne⟩
    rw [call, Traced.bind_of_error (pcloseLoop_running cur.2 0 running)] at done
    cases done
  · rintro ⟨i, bound, ne⟩
    have ended : ∃ answer ∈ (List.range (CLOSE_WAIT_TOTAL_TIME / 100)).map answers,
        answer ≠ .running :=
      ⟨answers i, List.mem_map_of_mem (List.mem_range.mpr bound), ne⟩
    obtain ⟨status, done, unreaped⟩ := pcloseLoop_ended cur.2 0 ended
    refine ⟨_, le_rfl, { pipes with pidlist := pipes.pidlist.erase cur }.close fd, status, ?_, rfl,
      ?_⟩
    · rw [call, Traced.bind_ok]
      exact ⟨status, done, rfl⟩
    · intro none
      apply unreaped
      intro pstat member
      obtain ⟨j, inside, same⟩ := List.mem_map.mp member
      exact none j (List.mem_range.mp inside) pstat same

def onePipe : Pipes := ⟨[(8, 300)], [8]⟩

/-- A process that is killed and reaped late is in time. -/
theorem reaped_in_time :
    ClosesInTime onePipe 8 fun i => if i < 12 then .running else .reaped 9 :=
  (closesInTime_iff (by decide) ⟨300, List.mem_singleton_self _⟩ _).mpr
    ⟨12, by decide, by decide⟩

/-- A process that does not even end when it is killed is waited for without end. -/
theorem never_closes : ¬ (∀ (pipes : Pipes) (fd : Int), 0 ≤ fd →
    (∃ pid, (fd, pid) ∈ pipes.pidlist) → ∀ answers, ClosesInTime pipes fd answers) := by
  intro all
  obtain ⟨polls, -, pipes', status, done, -, -⟩ :=
    all onePipe 8 (by decide) ⟨300, List.mem_singleton_self _⟩ fun _ => .running
  have call : sacePcloseEnds onePipe 8 (fun _ => (List.range polls).map fun _ => .running) =
      pcloseLoop 300 0 ((List.range polls).map fun _ => .running) >>= fun pstat =>
        pure ({ onePipe with pidlist := [] }.close 8, pstat) := rfl
  have running : ∀ answer ∈ (List.range polls).map (fun _ => WaitAnswer.running),
      answer = .running := by
    intro answer member
    obtain ⟨_, -, rfl⟩ := List.mem_map.mp member
    rfl
  rw [call, Traced.bind_of_error (pcloseLoop_running 300 0 running)] at done
  cases done

end Sace
