import Sace.Reader.Pass

/-! The thread of the socket reader and the main thread, which starts it and waits for a signal. -/
namespace Sace

open SaceSocketReader (SetupAnswers PassAnswers)

/-- SaceSocketReader with its MonitorThread. `listening` is whether the descriptor in `mSockFd` is
still that of the socket. -/
structure MonitorThread where
  reader : SaceSocketReader
  listening : Bool := false
  running : Bool := false
  exitPending : Bool := false

namespace MonitorThread

/-- `run` refuses a thread that runs already, and its status is not looked at. -/
def startRead (t : MonitorThread) (answers : SetupAnswers) (run : Bool) : MonitorThread × Bool :=
  let (reader, failed) :=
    if t.reader.mSockFd < 0 then t.reader.setupSocket answers else (t.reader, 0)
  if failed ≠ 0 then ({ t with reader }, false)
  else
    ({ reader
       listening := t.listening || t.reader.mSockFd < 0
       running := t.running || run
       exitPending := t.running && t.exitPending }, true)

/-- The clients' connections are shut down for writing and stay open. -/
def stopRead (t : MonitorThread) : MonitorThread :=
  { t with listening := false, exitPending := t.exitPending || t.running }

def threadLoop (F : ParcelFormat) (t : MonitorThread) (answers : PassAnswers) :
    Exec MonitorThread := do
  let received ← t.reader.recvDataOrConnection F answers
  return { t with
    reader := received.reader
    listening := t.listening || received.reopened
    running := !t.exitPending || received.again }

inductive Step where
  | startRead (answers : SetupAnswers) (run : Bool)
  | stopRead
  | loop (answers : PassAnswers)

def step (F : ParcelFormat) (t : MonitorThread) : Step → Option MonitorThread
  | .startRead answers run => some (t.startRead answers run).1
  | .stopRead => some t.stopRead
  | .loop answers => if t.running then (t.threadLoop F answers).value else none

/-- select and fstat fail for a descriptor that is not open any more. -/
def Honest (t : MonitorThread) : Step → Prop
  | .loop answers => t.listening = false →
      answers.select < 0 ∧ answers.fstat t.reader.mSockFd < 0
  | _ => True

/-! ### The loop -/

section Loop
variable {F : ParcelFormat} {r : SaceSocketReader} {answers : PassAnswers}
  {received : SaceSocketReader.Received}

theorem watched_of_socket (opened : 0 ≤ r.mSockFd) : r.watched ≠ [] := by
  simp [SaceSocketReader.watched, opened]

theorem setupSocket_cases (r : SaceSocketReader) (answers : SetupAnswers) :
    (r.setupSocket answers).1 = r ∧ (r.setupSocket answers).2 ≠ 0 ∨
      0 ≤ answers.socketId ∧ (r.setupSocket answers).1.mSockFd = answers.socketId ∧
        (r.setupSocket answers).2 = 0 := by
  unfold SaceSocketReader.setupSocket
  split
  · exact .inl ⟨rfl, by simp⟩
  · split
    · exact .inl ⟨rfl, by simp⟩
    · rename_i opened _
      exact .inr ⟨Int.not_lt.mp opened, rfl, rfl⟩

/-- A pass over a set that is not empty returns true, and the socket is still the same or a new
one that listens. -/
theorem selected_again {fds : List Int}
    (done : (r.recvSelected F fds answers).result = .ok received) :
    received.again = true ∧ (received.reader.mSockFd = r.mSockFd ∧ received.reopened = false ∨
      0 ≤ received.reader.mSockFd ∧ received.reopened = true) := by
  unfold SaceSocketReader.recvSelected at done
  split at done
  · cases done
    exact ⟨rfl, .inl ⟨rfl, rfl⟩⟩
  split at done
  · obtain ⟨⟨mClients, closed⟩, _, done⟩ := Traced.bind_ok.mp done
    dsimp only at done
    split at done
    · cases done
      refine ⟨rfl, ?_⟩
      rcases setupSocket_cases { r with mClients } answers.setup with
        ⟨same, failed⟩ | ⟨opened, new, succeeded⟩
      · exact .inl ⟨by rw [same], decide_eq_false failed⟩
      · exact .inr ⟨new ▸ opened, decide_eq_true succeeded⟩
    · cases done
      exact ⟨rfl, .inl ⟨rfl, rfl⟩⟩
  split at done
  · split at done
    · cases done
      exact ⟨rfl, .inl ⟨rfl, rfl⟩⟩
    · cases done
      exact ⟨rfl, .inl ⟨rfl, rfl⟩⟩
  · obtain ⟨⟨mClients, closed⟩, _, done⟩ := Traced.bind_ok.mp done
    cases done
    exact ⟨rfl, .inl ⟨rfl, rfl⟩⟩

theorem pass_again (watching : r.watched ≠ [])
    (done : (r.recvDataOrConnection F answers).result = .ok received) :
    received.again = true ∧ (received.reader.mSockFd = r.mSockFd ∧ received.reopened = false ∨
      0 ≤ received.reader.mSockFd ∧ received.reopened = true) := by
  rw [SaceSocketReader.recvDataOrConnection, if_neg watching] at done
  exact selected_again done

/-- When neither select nor fstat knows the socket any more, it is replaced if there is another. -/
theorem pass_reopened (watching : r.watched ≠ []) (failed : answers.select < 0)
    (gone : answers.fstat r.mSockFd < 0) (created : 0 ≤ answers.setup.socketId)
    (bound : 0 ≤ answers.setup.listen)
    (done : (r.recvDataOrConnection F answers).result = .ok received) :
    received.reopened = true ∧ received.reader.mSockFd = answers.setup.socketId := by
  rw [SaceSocketReader.recvDataOrConnection, if_neg watching, SaceSocketReader.recvSelected,
    if_neg (by omega), if_pos failed] at done
  obtain ⟨⟨mClients, closed⟩, _, done⟩ := Traced.bind_ok.mp done
  dsimp only at done
  rw [if_pos gone, SaceSocketReader.setupSocket, if_neg (by omega), if_neg (by omega)] at done
  cases done
  exact ⟨rfl, rfl⟩

end Loop

/-! ### Every run -/

section Runs
variable {F : ParcelFormat} {t u : MonitorThread} {a : Step}

def Working (t : MonitorThread) : Prop := t.running = true → 0 ≤ t.reader.mSockFd

theorem startRead_cases (t : MonitorThread) (answers : SetupAnswers) (run : Bool) :
    t.startRead answers run = (t, false) ∨ ∃ reader : SaceSocketReader, 0 ≤ reader.mSockFd ∧
      t.startRead answers run =
        ({ reader
           listening := t.listening || t.reader.mSockFd < 0
           running := t.running || run
           exitPending := t.running && t.exitPending }, true) := by
  unfold startRead
  by_cases none : t.reader.mSockFd < 0
  · simp only [none, if_true]
    rcases setupSocket_cases t.reader answers with ⟨same, failed⟩ | ⟨opened, new, succeeded⟩
    · rw [if_pos failed, same]
      exact .inl rfl
    · rw [if_neg (not_not_intro succeeded)]
      exact .inr ⟨_, new ▸ opened, rfl⟩
  · simp only [none, if_false]
    exact .inr ⟨t.reader, Int.not_lt.mp none, rfl⟩

theorem step_running (working : t.Working) (running : t.running = true)
    (moved : t.step F a = some u) : u.running = true := by
  cases a with
  | startRead answers run =>
    cases Option.some.inj moved
    rcases t.startRead_cases answers run with failed | ⟨reader, _, started⟩
    · rw [failed]
      exact running
    · rw [started]
      simp [running]
  | stopRead =>
    cases Option.some.inj moved
    exact running
  | loop answers =>
    simp only [step, running, if_true] at moved
    obtain ⟨received, done, same⟩ := Traced.bind_ok.mp (Traced.value_eq_some.mp moved)
    cases same
    obtain ⟨again, _⟩ := pass_again (watched_of_socket (working running)) done
    simp [again]

theorem step_working (working : t.Working) (moved : t.step F a = some u) : u.Working := by
  cases a with
  | startRead answers run =>
    cases Option.some.inj moved
    rcases t.startRead_cases answers run with failed | ⟨reader, opened, started⟩
    · rw [failed]
      exact working
    · rw [started]
      exact fun _ => opened
  | stopRead =>
    cases Option.some.inj moved
    exact working
  | loop answers =>
    simp only [step, Option.ite_none_right_eq_some] at moved
    obtain ⟨running, moved⟩ := moved
    obtain ⟨received, done, same⟩ := Traced.bind_ok.mp (Traced.value_eq_some.mp moved)
    cases same
    have opened := working running
    obtain ⟨_, ⟨kept, _⟩ | ⟨new, _⟩⟩ := pass_again (watched_of_socket opened) done
    · exact fun _ => kept ▸ opened
    · exact fun _ => new

theorem reached_running (working : t.Working) (running : t.running = true)
    (reached : Runs.Reached (step F) (fun _ _ => True) t u) : u.running = true := by
  have both : u.Working ∧ u.running = true :=
    reached.invariant (I := fun u => u.Working ∧ u.running = true) ⟨working, running⟩
      fun _ _ _ before _ moved =>
        ⟨step_working before.1 moved, step_running before.1 before.2 moved⟩
  exact both.2

theorem reached_working {mClients : List SaceSocketReader.ClientSocket}
    (reached : Runs.Reached (step F) (fun _ _ => True) { reader := { mClients } } t) :
    t.Working := by
  refine reached.invariant (I := Working) ?_ fun _ _ _ before _ moved => step_working before moved
  exact fun none => absurd none Bool.false_ne_true

/-- Nothing ends the thread once it runs, stopRead included. When its socket has been closed, a pass
opens a new one if there is one to be had, and it listens again. -/
theorem reached_looping {mClients : List SaceSocketReader.ClientSocket}
    (reached : Runs.Reached (step F) (fun _ _ => True) { reader := { mClients } } t)
    (running : t.running = true) :
    (∀ u, Runs.Reached (step F) (fun _ _ => True) t u → u.running = true) ∧
    ∀ (answers : PassAnswers) (u : MonitorThread), t.listening = false →
      t.Honest (.loop answers) → 0 ≤ answers.setup.socketId → 0 ≤ answers.setup.listen →
      t.step F (.loop answers) = some u →
      u.listening = true ∧ u.reader.mSockFd = answers.setup.socketId := by
  have working := reached_working reached
  refine ⟨fun u later => reached_running working running later,
    fun answers u closed honest created bound moved => ?_⟩
  obtain ⟨failed, gone⟩ := honest closed
  simp only [step, running, if_true] at moved
  obtain ⟨received, done, same⟩ := Traced.bind_ok.mp (Traced.value_eq_some.mp moved)
  cases same
  obtain ⟨reopened, socket⟩ :=
    pass_reopened (watched_of_socket (working running)) failed gone created bound done
  exact ⟨by simp [reopened], socket⟩

end Runs

def stopped : List Step := [.startRead ⟨3, 0⟩ true, .stopRead]

def refused : PassAnswers :=
  { select := -1
    isSet := fun _ => false
    fstat := fun fd => if fd = 3 then -1 else 0
    setup := ⟨5, 0⟩
    clientFd := -1
    cred := ⟨0, 0⟩
    i := 0
    read := fun _ => []
    saceCmd := fun _ => .init [] 0 }

theorem stopped_looping : ∃ t u, Runs.run (step Android.parcel)
      { reader := { mClients := SaceSocketReader.noClients } } stopped = some t ∧
    t.exitPending = true ∧ t.step Android.parcel (.loop refused) = some u ∧
    u.running = true ∧ u.listening = true ∧ u.reader.mSockFd = 5 := by
  have before : (Runs.run (step Android.parcel)
      { reader := { mClients := SaceSocketReader.noClients } } stopped).map
      (fun t => (t.exitPending, t.running, t.listening, t.reader.mSockFd)) =
    some (true, true, false, 3) := by decide +kernel
  obtain ⟨t, ran, eq⟩ := Option.map_eq_some_iff.mp before
  have moves : ((Runs.run (step Android.parcel)
      { reader := { mClients := SaceSocketReader.noClients } } stopped).bind
      (·.step Android.parcel (.loop refused))).isSome = true := by decide +kernel
  rw [ran, Option.bind_some] at moves
  obtain ⟨u, moved⟩ := Option.isSome_iff_exists.mp moves
  simp only [Prod.mk.injEq] at eq
  obtain ⟨pending, running, closed, socket⟩ := eq
  have looping := reached_looping
    (Runs.run_reached (Runs.admitted_of_all (by simp) _) ran) running
  have honest : t.Honest (.loop refused) := fun _ => ⟨by decide, by rw [socket]; decide⟩
  obtain ⟨listens, new⟩ := looping.2 refused u closed honest (by decide) (by decide) moved
  exact ⟨t, u, ran, pending, moved, looping.1 u (.next .start trivial moved), listens, new⟩

end MonitorThread
end Sace
