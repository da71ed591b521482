import Sace.Saced

/-! SaceExcutor: the queue of messages that one executor has, the semaphore that counts them,
and the thread that waits on it. The daemon's single queue stands for these queues. -/
namespace Sace

/-- Where excute_command_thread is: in its wait, in excuteTimeout, behind a wait that has
ended, behind the test of mExit, in excuteCommand if there was a message, or gone. -/
inductive ThreadPlace where
  | waiting
  | timeout
  | woken
  | tested
  | excuting (saceMsg : Option Posted)
  | exited
  deriving DecidableEq

/-- `entered` and `pushed` count the callers of sendCommandMessage before their push and
between push and sem_post; `stopping` says that destroy_excute_thread has yet to post. All
messages that were pushed and all that were passed to excuteCommand are kept beside them. -/
structure SaceExcutor where
  mCmdQueue : List Posted := []
  mSyncSem : Nat := 0
  mExit : Bool := false
  entered : Nat := 0
  pushed : Nat := 0
  stopping : Bool := false
  place : ThreadPlace := .waiting
  sent : List Posted := []
  excuted : List Posted := []

namespace SaceExcutor

/-- What the callers of sendCommandMessage, the executor's thread and destroy_excute_thread
do next. A wait ends by a token, by ETIMEDOUT or by EINTR. -/
inductive Step where
  | enter
  | push (msg : Posted)
  | post
  | token
  | timedOut
  | timeoutDone
  | interrupted
  | test
  | pop
  | excuted
  | exit
  | exitPost

/-- `outTime` is what receive_msg_timeout answers; only a positive one makes the wait a timed
one. -/
def step (outTime : Int) (s : SaceExcutor) : Step → Option SaceExcutor
  | .enter => if s.mExit then none else some { s with entered := s.entered + 1 }
  | .push msg =>
    if s.entered = 0 then none
    else some { s with
      entered := s.entered - 1
      pushed := s.pushed + 1
      mCmdQueue := s.mCmdQueue ++ [msg]
      sent := s.sent ++ [msg] }
  | .post =>
    if s.pushed = 0 then none
    else some { s with pushed := s.pushed - 1, mSyncSem := s.mSyncSem + 1 }
  | .token =>
    if s.place = .waiting ∧ s.mSyncSem ≠ 0 then
      some { s with mSyncSem := s.mSyncSem - 1, place := .woken }
    else none
  | .timedOut =>
    if s.place = .waiting ∧ 0 < outTime then some { s with place := .timeout } else none
  | .timeoutDone => if s.place = .timeout then some { s with place := .waiting } else none
  | .interrupted => if s.place = .waiting then some { s with place := .woken } else none
  | .test =>
    if s.place = .woken then some { s with place := if s.mExit then .exited else .tested }
    else none
  | .pop =>
    if s.place = .tested then
      match s.mCmdQueue with
      | saceMsg :: rest => some { s with
          mCmdQueue := rest
          place := .excuting (some saceMsg)
          excuted := s.excuted ++ [saceMsg] }
      | [] => some { s with place := .excuting none }
    else none
  | .excuted =>
    match s.place with
    | .excuting _ => some { s with place := .waiting }
    | _ => none
  | .exit => some { s with mExit := true, stopping := true }
  | .exitPost =>
    if s.stopping then some { s with stopping := false, mSyncSem := s.mSyncSem + 1 } else none

def between (s : SaceExcutor) : Nat :=
  match s.place with
  | .woken | .tested => 1
  | _ => 0

/-- Nothing is lost and nothing executed twice; and until the thread is told to stop there is a
token, a caller that brings one, or a pop under way for every message in the queue. -/
structure Counted (s : SaceExcutor) : Prop where
  fifo : s.excuted ++ s.mCmdQueue = s.sent
  tokens : s.mExit = false → s.mCmdQueue.length ≤ s.mSyncSem + s.pushed + s.between

theorem Counted.moved {s t : SaceExcutor} (counted : s.Counted) (queue : t.mCmdQueue = s.mCmdQueue)
    (excuted : t.excuted = s.excuted) (sent : t.sent = s.sent)
    (tokens : t.mExit = false → s.mExit = false ∧
      s.mSyncSem + s.pushed + s.between ≤ t.mSyncSem + t.pushed + t.between) : t.Counted where
  fifo := by rw [excuted, queue, sent, counted.fifo]
  tokens := by
    intro running
    obtain ⟨before, more⟩ := tokens running
    rw [queue]
    exact Nat.le_trans (counted.tokens before) more

theorem push_counted {s : SaceExcutor} (counted : s.Counted) (msg : Posted) :
    { s with
      entered := s.entered - 1
      pushed := s.pushed + 1
      mCmdQueue := s.mCmdQueue ++ [msg]
      sent := s.sent ++ [msg] }.Counted where
  fifo := by
    rw [← counted.fifo, List.append_assoc]
  tokens := by
    intro running
    have before := counted.tokens running
    simp only [between, List.length_append, List.length_singleton] at before ⊢
    omega

theorem pop_counted {s : SaceExcutor} {saceMsg : Posted} {rest : List Posted}
    (counted : s.Counted) (tested : s.place = .tested) (queue : s.mCmdQueue = saceMsg :: rest) :
    { s with
      mCmdQueue := rest
      place := .excuting (some saceMsg)
      excuted := s.excuted ++ [saceMsg] }.Counted where
  fifo := by
    have fifo := counted.fifo
    rw [queue] at fifo
    rw [← fifo, List.append_assoc]
    rfl
  tokens := by
    intro running
    have before := counted.tokens running
    simp only [between, tested, queue, List.length_cons] at before ⊢
    omega

theorem step_counted {outTime : Int} {s t : SaceExcutor} {a : Step} (counted : s.Counted)
    (moved : s.step outTime a = some t) : t.Counted := by
  cases a with
  | enter =>
    simp only [step] at moved
    split at moved
    · cases moved
    · cases moved
      exact counted.moved rfl rfl rfl fun running => ⟨running, Nat.le_refl _⟩
  | push msg =>
    simp only [step] at moved
    split at moved
    · cases moved
    · cases moved
      exact push_counted counted msg
  | post =>
    simp only [step] at moved
    split at moved
    · cases moved
    · cases moved
      refine counted.moved rfl rfl rfl fun running => ⟨running, ?_⟩
      simp only [between]
      omega
  | token =>
    simp only [step, Option.ite_none_right_eq_some] at moved
    obtain ⟨⟨waiting, _⟩, moved⟩ := moved
    cases moved
    refine counted.moved rfl rfl rfl fun running => ⟨running, ?_⟩
    simp only [between, waiting]
    omega
  | timedOut =>
    simp only [step, Option.ite_none_right_eq_some] at moved
    obtain ⟨⟨waiting, _⟩, moved⟩ := moved
    cases moved
    refine counted.moved rfl rfl rfl fun running => ⟨running, ?_⟩
    simp only [between, waiting, Nat.le_refl]
  | timeoutDone =>
    simp only [step, Option.ite_none_right_eq_some] at moved
    obtain ⟨timeout, moved⟩ := moved
    cases moved
    refine counted.moved rfl rfl rfl fun running => ⟨running, ?_⟩
    simp only [between, timeout, Nat.le_refl]
  | interrupted =>
    -- the wait ends without a token, which leaves the count one higher than it need be
    simp only [step, Option.ite_none_right_eq_some] at moved
    obtain ⟨waiting, moved⟩ := moved
    cases moved
    refine counted.moved rfl rfl rfl fun running => ⟨running, ?_⟩
    simp only [between, waiting]
    omega
  | test =>
    simp only [step, Option.ite_none_right_eq_some] at moved
    obtain ⟨woken, moved⟩ := moved
    cases moved
    refine counted.moved rfl rfl rfl fun running => ⟨running, ?_⟩
    have running : s.mExit = false := running
    simp only [between, woken, running, Bool.false_eq_true, if_false, Nat.le_refl]
  | pop =>
    simp only [step, Option.ite_none_right_eq_some] at moved
    obtain ⟨tested, moved⟩ := moved
    split at moved
    · rename_i queue
      cases moved
      exact pop_counted counted tested queue
    · rename_i queue
      cases moved
      exact ⟨counted.fifo, fun _ => by simp [queue]⟩
  | excuted =>
    simp only [step] at moved
    split at moved
    · rename_i excuting
      cases moved
      refine counted.moved rfl rfl rfl fun running => ⟨running, ?_⟩
      simp only [between, excuting, Nat.le_refl]
    · cases moved
  | exit =>
    cases moved
    exact ⟨counted.fifo, fun running => by cases running⟩
  | exitPost =>
    simp only [step, Option.ite_none_right_eq_some] at moved
    obtain ⟨_, moved⟩ := moved
    cases moved
    refine counted.moved rfl rfl rfl fun running => ⟨running, ?_⟩
    simp only [between]
    omega

/-- Whatever the callers and the thread do, messages are executed in the order they were pushed
in, each once; and while the thread has not been told to stop, its wait on a queue that is not
empty ends now or after the sem_post of a caller that has pushed. -/
theorem reached_counted {outTime : Int} {s : SaceExcutor}
    (reached : Runs.Reached (step outTime) (fun _ _ => True) {} s) (running : s.mExit = false) :
    s.excuted ++ s.mCmdQueue = s.sent ∧
    s.mCmdQueue.length ≤ s.mSyncSem + s.pushed + s.between ∧
    (s.place = .waiting → s.mCmdQueue ≠ [] → (s.step outTime .token).isSome ∨
      ∃ t, s.step outTime .post = some t ∧ (t.step outTime .token).isSome) := by
  have counted : s.Counted := reached.invariant ⟨rfl, fun _ => Nat.zero_le _⟩
    fun _ _ _ counted _ moved => step_counted counted moved
  have tokens := counted.tokens running
  refine ⟨counted.fifo, tokens, fun waiting nonempty => ?_⟩
  have pending : 0 < s.mSyncSem + s.pushed := by
    have length := List.length_pos_of_ne_nil nonempty
    simp only [between, waiting] at tokens
    omega
  by_cases token : s.mSyncSem = 0
  · have caller : s.pushed ≠ 0 := by omega
    exact .inr ⟨_, if_neg caller, by simp [step, waiting]⟩
  · exact .inl (by simp [step, waiting, token])

/-- A caller has pushed and not posted yet, and a signal has interrupted the wait. -/
theorem interrupted_counted : ∃ s, Runs.run (step (-1)) {}
      [.enter, .push .stopMsg, .interrupted, .test, .pop, .post] = some s ∧
    s.excuted ++ s.mCmdQueue = s.sent ∧ s.sent = [.stopMsg] := by
  have admitted : Runs.Admitted (step (-1)) (fun _ _ => True) {}
      [.enter, .push .stopMsg, .interrupted, .test, .pop, .post] := by simp [Runs.Admitted]
  exact ⟨_, rfl, (reached_counted (Runs.run_reached admitted rfl) rfl).1, rfl⟩

end SaceExcutor

/-- The stop message is always one for the service executor. -/
def Posted.msgHandler : Posted → SaceMessageHandlerType
  | .message msg => msg.msgHandler
  | .stopMsg => .service

theorem Server.message_handler (server : Server) (posted : Posted) :
    (server.message posted).msgHandler = posted.msgHandler := by
  cases posted <;> rfl

def Saced.queueOf (d : Saced) (kind : SaceMessageHandlerType) : List Posted :=
  d.queue.filter fun posted => (d.server.message posted).msgHandler = kind

theorem Saced.take_pops {d : Saced} {kind : SaceMessageHandlerType} {posted : Posted}
    (found : d.next kind = some posted) (answers : Answers) :
    d.queueOf kind = posted :: (d.prepare (.take kind answers)).queueOf kind := by
  have head : (d.queueOf kind).head? = some posted := by
    rw [queueOf, List.head?_filter]
    exact found
  obtain ⟨rest, queue⟩ := List.head?_eq_some_iff.mp head
  have taken : (d.prepare (.take kind answers)).queueOf kind = (d.queueOf kind).erase posted := by
    simp only [prepare, found, queueOf]
    exact List.erase_filter.symm
  rw [taken, queue, List.erase_cons_head]

end Sace
