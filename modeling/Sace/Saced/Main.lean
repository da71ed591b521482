import Mathlib.Algebra.GroupWithZero.Nat
import Sace.Reader.Thread

/-! sace_main: the main thread waits for a signal on its eventfd, which it shares with the
children of the process, and the thread of the socket reader works beside it. -/
namespace Sace

open SaceSocketReader (ClientSocket SetupAnswers PassAnswers noClients)

/-- Where the thread of the reader is: between two calls of recv_data_or_connection, or in the
select of one, which has been given the set `fds`. -/
inductive PassPlace where
  | outside
  | selecting (fds : List Int)

/-- MonitorThread, which outlives the reader that it has a pointer to. -/
structure ReaderThread where
  mReader : UInt64
  listening : Bool := false
  running : Bool := false
  exitPending : Bool := false
  place : PassPlace := .outside

/-- The monitor with its readers, the socket reader in the heap and its thread. Of the Binder
reader there is only `mExit`. -/
structure SaceCommandMonitor where
  mReaders : List UInt64
  thread : ReaderThread
  heap : Table UInt64 SaceSocketReader
  mExit : Bool := false

namespace SaceCommandMonitor

def deref (m : SaceCommandMonitor) (p : UInt64) : Exec SaceSocketReader :=
  match m.heap[p]? with
  | some reader => return reader
  | none => Traced.fault .useAfterFree

def socket (m : SaceCommandMonitor) (reader : SaceSocketReader) : MonitorThread :=
  { reader
    listening := m.thread.listening
    running := m.thread.running
    exitPending := m.thread.exitPending }

def store (m : SaceCommandMonitor) (t : MonitorThread) : SaceCommandMonitor :=
  { m with
    heap := m.heap.insert m.thread.mReader t.reader
    thread := { m.thread with
      listening := t.listening
      running := t.running
      exitPending := t.exitPending } }

/-- The Binder reader starts in any case, and is stopped again when the socket reader has not
started. -/
def startListen (m : SaceCommandMonitor) (answers : SetupAnswers) (run : Bool) :
    Exec (SaceCommandMonitor × Bool) := do
  let reader ← m.deref m.thread.mReader
  let started := (m.socket reader).startRead answers run
  return ({ m.store started.1 with mExit := !started.2 }, started.2)

def stopListen (m : SaceCommandMonitor) : Exec SaceCommandMonitor := do
  let reader ← m.deref m.thread.mReader
  return { m.store (m.socket reader).stopRead with mExit := true }

def delete (m : SaceCommandMonitor) : SaceCommandMonitor :=
  { m with heap := m.mReaders.foldl (fun heap p => heap.erase p) m.heap }

def goOn (m : SaceCommandMonitor) (again : Bool) : SaceCommandMonitor :=
  { m with thread := { m.thread with
    running := !m.thread.exitPending || again
    place := .outside } }

/-- threadLoop up to the next select or from there on. The set is made of the fields of the reader,
and behind a select that has timed out none of them is looked at. -/
def threadLoop (F : ParcelFormat) (m : SaceCommandMonitor) (answers : PassAnswers) :
    Exec SaceCommandMonitor :=
  match m.thread.place with
  | .outside => do
    let mSockFd := (← m.deref m.thread.mReader).mSockFd
    let mClients := (← m.deref m.thread.mReader).mClients
    let fds := SaceSocketReader.watched { mSockFd, mClients }
    return if fds = [] then m.goOn false
      else { m with thread := { m.thread with place := .selecting fds } }
  | .selecting fds =>
    if answers.select = 0 then return m.goOn true
    else do
      let reader ← m.deref m.thread.mReader
      let received ← reader.recvSelected F fds answers
      return (m.store { m.socket reader with
        reader := received.reader
        listening := m.thread.listening || received.reopened }).goOn received.again

end SaceCommandMonitor

def EVENT_EXIT : Nat := 1

/-- The largest value of an eventfd; a write that would exceed it blocks. -/
def EVENT_MAX : Nat := 2 ^ 64 - 2

inductive ExitAction where
  | stopListen
  | stopDispatcher
  | deleteMonitor
  | exit

/-- `exit_sace`, and the exit behind it -/
def exitSace : List ExitAction := [.stopListen, .stopDispatcher, .deleteMonitor, .exit]

inductive MainPlace where
  | starting
  | dispatching
  | waiting
  | exiting (actions : List ExitAction)
  | failed

def MainPlace.over : MainPlace → Bool
  | .failed | .exiting [] => true
  | _ => false

def MainPlace.leaving : MainPlace → Bool
  | .exiting _ => true
  | _ => false

def MainPlace.deleted : MainPlace → Bool
  | .exiting [.exit] | .exiting [] => true
  | _ => false

/-- The dispatcher works and may fork. -/
def MainPlace.forking : MainPlace → Bool
  | .starting => false
  | place => !place.over

/-- The process and its children: `forked` have not executed anything yet and still have the
handlers of main, `executed` have nothing of it but the open descriptor. `event` is the counter of
`g_event_fd`. Kept beside it: all that has been written to it and what the reads of main and
those of the children have found. -/
structure SaceMain where
  monitor : SaceCommandMonitor
  place : MainPlace := .starting
  event : Nat := 0
  forked : List Int := []
  executed : List Int := []
  written : List Nat := []
  reads : List Nat := []
  stolen : List Nat := []

namespace SaceMain

inductive Step where
  | signal
  | fork (pid : Int)
  | exec (pid : Int)
  /-- One of the four signals for a child that still has the handlers. -/
  | signalChild (pid : Int)
  | childWrite (pid : Int) (value : Nat)
  | childRead (pid : Int)
  | startDispatcher (started : Bool)
  | startListen (answers : SetupAnswers) (run : Bool)
  | read
  | exit
  | thread (answers : PassAnswers)

def write (m : SaceMain) (value : Nat) : Option SaceMain :=
  if m.event + value ≤ EVENT_MAX then
    some { m with event := m.event + value, written := m.written ++ [value] }
  else none

def act (m : SaceMain) : ExitAction → Exec SaceCommandMonitor
  | .stopListen => m.monitor.stopListen
  | .stopDispatcher | .exit => return m.monitor
  | .deleteMonitor => return m.monitor.delete

/-- `sig_handler`, `main` up to its loop, the loop and `exit_sace`, with the children and the
reader's thread. -/
def step (F : ParcelFormat) (m : SaceMain) : Step → Option SaceMain
  | .signal => if m.place.over then none else m.write EVENT_EXIT
  | .fork pid => if m.place.forking then some { m with forked := m.forked ++ [pid] } else none
  | .exec pid =>
    if pid ∈ m.forked then
      some { m with forked := m.forked.erase pid, executed := m.executed ++ [pid] }
    else none
  | .signalChild pid => if pid ∈ m.forked then m.write EVENT_EXIT else none
  | .childWrite pid value => if pid ∈ m.executed then m.write value else none
  | .childRead pid =>
    if pid ∈ m.executed ∧ m.event ≠ 0 then
      some { m with event := 0, stolen := m.stolen ++ [m.event] }
    else none
  | .startDispatcher started =>
    match m.place with
    | .starting => some { m with place := if started then .dispatching else .failed }
    | _ => none
  | .startListen answers run =>
    match m.place with
    | .dispatching => (m.monitor.startListen answers run).value.map fun started =>
        { m with monitor := started.1, place := if started.2 then .waiting else .failed }
    | _ => none
  | .read =>
    match m.place with
    | .waiting =>
      if m.event = 0 then none
      else
        some { m with
          event := 0
          reads := m.reads ++ [m.event]
          place := if m.event = EVENT_EXIT then .exiting exitSace else .waiting }
    | _ => none
  | .exit =>
    match m.place with
    | .exiting (action :: rest) =>
      (m.act action).value.map fun monitor => { m with monitor, place := .exiting rest }
    | _ => none
  | .thread answers =>
    if m.place.over = false ∧ m.monitor.thread.running then
      (m.monitor.threadLoop F answers).value.map fun monitor => { m with monitor }
    else none

/-- The readers have been made at the addresses `socket` and `binder`. -/
def start (mClients : List ClientSocket) (socket binder : UInt64) : SaceMain :=
  { monitor :=
    { mReaders := [socket, binder]
      thread := { mReader := socket }
      heap := (∅ : Table UInt64 SaceSocketReader).insert socket { mClients } } }

variable {F : ParcelFormat} {m n : SaceMain}

inductive Moved (F : ParcelFormat) (m : SaceMain) : SaceMain → Prop
  | wrote {value : Nat} :
      Moved F m { m with event := m.event + value, written := m.written ++ [value] }
  | children {forked executed : List Int} : Moved F m { m with forked, executed }
  | stole : Moved F m { m with event := 0, stolen := m.stolen ++ [m.event] }
  | dispatcher {place : MainPlace} (before : m.place = .starting)
      (after : place = .dispatching ∨ place = .failed) : Moved F m { m with place }
  | listener {answers : SetupAnswers} {run success : Bool} {monitor : SaceCommandMonitor}
      (before : m.place = .dispatching)
      (started : (m.monitor.startListen answers run).result = .ok (monitor, success)) :
      Moved F m { m with monitor, place := if success then .waiting else .failed }
  | read (waiting : m.place = .waiting) (pending : m.event ≠ 0) : Moved F m { m with
      event := 0
      reads := m.reads ++ [m.event]
      place := if m.event = EVENT_EXIT then .exiting exitSace else .waiting }
  | exit {action : ExitAction} {rest : List ExitAction} {monitor : SaceCommandMonitor}
      (place : m.place = .exiting (action :: rest)) (acted : (m.act action).result = .ok monitor) :
      Moved F m { m with monitor, place := .exiting rest }
  | thread {answers : PassAnswers} {monitor : SaceCommandMonitor}
      (running : m.monitor.thread.running = true)
      (passed : (m.monitor.threadLoop F answers).result = .ok monitor) :
      Moved F m { m with monitor }

theorem write_moved {value : Nat} (moved : m.write value = some n) : Moved F m n := by
  simp only [write, Option.ite_none_right_eq_some] at moved
  cases moved.2
  exact .wrote

theorem step_moved {a : Step} (moved : m.step F a = some n) : Moved F m n := by
  cases a with
  | signal =>
    simp only [step, Option.ite_none_left_eq_some] at moved
    exact write_moved moved.2
  | fork pid =>
    simp only [step, Option.ite_none_right_eq_some] at moved
    cases moved.2
    exact .children
  | exec pid =>
    simp only [step, Option.ite_none_right_eq_some] at moved
    cases moved.2
    exact .children
  | signalChild pid | childWrite pid value =>
    simp only [step, Option.ite_none_right_eq_some] at moved
    exact write_moved moved.2
  | childRead pid =>
    simp only [step, Option.ite_none_right_eq_some] at moved
    cases moved.2
    exact .stole
  | startDispatcher started =>
    simp only [step] at moved
    split at moved
    · rename_i place
      cases moved
      refine .dispatcher place ?_
      cases started
      · exact .inr rfl
      · exact .inl rfl
    · cases moved
  | startListen answers run =>
    simp only [step] at moved
    split at moved
    · rename_i place
      obtain ⟨⟨monitor, success⟩, started, rfl⟩ := Option.map_eq_some_iff.mp moved
      exact .listener place (Traced.value_eq_some.mp started)
    · cases moved
  | read =>
    simp only [step] at moved
    split at moved
    · rename_i place
      split at moved
      · cases moved
      · rename_i pending
        cases moved
        exact .read place pending
    · cases moved
  | exit =>
    simp only [step] at moved
    split at moved
    · rename_i place
      obtain ⟨monitor, acted, rfl⟩ := Option.map_eq_some_iff.mp moved
      exact .exit place (Traced.value_eq_some.mp acted)
    · cases moved
  | thread answers =>
    simp only [step, Option.ite_none_right_eq_some] at moved
    obtain ⟨⟨_, running⟩, moved⟩ := moved
    obtain ⟨monitor, passed, rfl⟩ := Option.map_eq_some_iff.mp moved
    exact .thread running (Traced.value_eq_some.mp passed)

/-! ### The signals -/

/-- All that has been written is what somebody has read and what is there. main goes on after a
read of two or more and leaves its loop after a read of one. -/
structure Heeded (m : SaceMain) : Prop where
  written : m.written.sum = m.reads.sum + m.stolen.sum + m.event
  staying : m.place.leaving = false → ∀ value ∈ m.reads, 2 ≤ value
  leaving : m.place.leaving = true →
    ∃ earlier, m.reads = earlier ++ [EVENT_EXIT] ∧ ∀ value ∈ earlier, 2 ≤ value

theorem Heeded.read (heeded : m.Heeded) (waiting : m.place = .waiting) (pending : m.event ≠ 0) :
    Heeded { m with
      event := 0
      reads := m.reads ++ [m.event]
      place := if m.event = EVENT_EXIT then .exiting exitSace else .waiting } := by
  have stayed := heeded.staying (by rw [waiting]; rfl)
  have written := heeded.written
  refine ⟨?_, fun stays value member => ?_, fun left => ?_⟩
  · simp only [List.sum_append, List.sum_singleton]
    omega
  · rcases List.mem_append.mp member with before | last
    · exact stayed value before
    · cases List.mem_singleton.mp last
      by_contra few
      have one : m.event = EVENT_EXIT := by
        simp only [EVENT_EXIT]
        omega
      rw [if_pos one] at stays
      cases stays
  · by_cases one : m.event = EVENT_EXIT
    · exact ⟨m.reads, by rw [one], stayed⟩
    · rw [if_neg one] at left
      cases left

theorem Heeded.moved (heeded : m.Heeded) (moved : Moved F m n) : n.Heeded := by
  have written := heeded.written
  cases moved with
  | wrote =>
    refine ⟨?_, heeded.staying, heeded.leaving⟩
    simp only [List.sum_append, List.sum_singleton]
    omega
  | children => exact ⟨written, heeded.staying, heeded.leaving⟩
  | stole =>
    refine ⟨?_, heeded.staying, heeded.leaving⟩
    simp only [List.sum_append, List.sum_singleton]
    omega
  | dispatcher before after =>
    refine ⟨written, fun _ => heeded.staying (by rw [before]; rfl), fun left => ?_⟩
    rcases after with rfl | rfl <;> cases left
  | listener before started =>
    rename_i success _
    refine ⟨written, fun _ => heeded.staying (by rw [before]; rfl), fun left => ?_⟩
    cases success <;> cases left
  | read waiting pending => exact heeded.read waiting pending
  | exit place acted =>
    have left := heeded.leaving (by rw [place]; rfl)
    exact ⟨written, nofun, fun _ => left⟩
  | thread running passed => exact ⟨written, heeded.staying, heeded.leaving⟩

theorem reached_heeded {mClients : List ClientSocket} {socket binder : UInt64}
    (reached : Runs.Reached (step F) (fun _ _ => True) (start mClients socket binder) m) :
    m.Heeded :=
  have initial : (start mClients socket binder).Heeded :=
    ⟨rfl, fun _ _ none => absurd none List.not_mem_nil, fun left => absurd left Bool.false_ne_true⟩
  reached.invariant initial fun _ _ _ heeded _ moved => heeded.moved (step_moved moved)

def served : List Step := [.startDispatcher true, .startListen ⟨3, 0⟩ true]

/-- The first two signals are read at once. Then a service is stopped before it has executed
anything: the signal was for the child, and main leaves its loop. -/
def signalled : List Step := [.signal, .signal, .read, .fork 300, .signalChild 300, .read]

theorem signalled_heeded : ∃ m, Runs.run (step Android.parcel) (start noClients 16 32)
    (served ++ signalled) = some m ∧ m.reads = [2, 1] ∧ m.place.leaving = true ∧ m.Heeded := by
  have last : (Runs.run (step Android.parcel) (start noClients 16 32) (served ++ signalled)).map
    (fun m => (m.reads, m.place.leaving)) = some ([2, 1], true) := by decide +kernel
  obtain ⟨m, ran, parts⟩ := Option.map_eq_some_iff.mp last
  obtain ⟨reads, left⟩ := Prod.mk.inj parts
  exact ⟨m, ran, reads, left,
    reached_heeded (Runs.run_reached (Runs.admitted_of_all (by simp) _) ran)⟩

end SaceMain

/-! ### The reader's thread -/

namespace SaceCommandMonitor
variable {F : ParcelFormat} {m n : SaceCommandMonitor} {mClients : List ClientSocket}
  {answers : PassAnswers}

theorem deref_freed {p : UInt64} (freed : m.heap[p]? = none) :
    m.deref p = Traced.fault .useAfterFree := by
  rw [deref, freed]

theorem deref_here {p : UInt64} {reader : SaceSocketReader} (here : m.heap[p]? = some reader) :
    m.deref p = pure reader := by
  rw [deref, here]

/-- The reader is at its address and has come to its state by calls of startRead, stopRead and
passes. A set that the thread has given to select is still made of its fields. -/
structure Tied (F : ParcelFormat) (mClients : List ClientSocket) (m : SaceCommandMonitor)
    (reader : SaceSocketReader) : Prop where
  here : m.heap[m.thread.mReader]? = some reader
  ran : Runs.Reached (MonitorThread.step F) (fun _ _ => True) { reader := { mClients } }
    (m.socket reader)
  selecting : ∀ fds, m.thread.place = .selecting fds →
    m.thread.running = true ∧ fds ≠ [] ∧ fds = reader.watched

theorem Tied.store {reader : SaceSocketReader} (tied : Tied F mClients m reader)
    {t : MonitorThread} (ran : Runs.Reached (MonitorThread.step F) (fun _ _ => True)
      { reader := { mClients } } t)
    (selecting : ∀ fds, m.thread.place = .selecting fds →
      t.running = true ∧ t.reader.watched = reader.watched) (mExit : Bool) :
    Tied F mClients { m.store t with mExit } t.reader where
  here := by simp [SaceCommandMonitor.store]
  ran := ran
  selecting fds place := by
    obtain ⟨running, same⟩ := selecting fds place
    obtain ⟨_, some, made⟩ := tied.selecting fds place
    exact ⟨running, some, made.trans same.symm⟩

theorem Tied.startListen {reader : SaceSocketReader} (tied : Tied F mClients m reader)
    (idle : m.thread.running = false) {setup : SetupAnswers} {run success : Bool}
    (started : (m.startListen setup run).result = .ok (n, success)) :
    ∃ after, Tied F mClients n after := by
  rw [SaceCommandMonitor.startListen, deref_here tied.here, Traced.pure_then] at started
  cases started
  refine ⟨_, tied.store (.next (a := .startRead setup run) tied.ran trivial rfl) ?_ _⟩
  intro fds place
  exact absurd (idle.symm.trans (tied.selecting fds place).1) Bool.false_ne_true

theorem Tied.stopListen {reader : SaceSocketReader} (tied : Tied F mClients m reader)
    (stopped : m.stopListen.result = .ok n) :
    Tied F mClients n reader ∧ n.thread.running = m.thread.running := by
  rw [SaceCommandMonitor.stopListen, deref_here tied.here, Traced.pure_then] at stopped
  cases stopped
  refine ⟨tied.store (.next (a := .stopRead) tied.ran trivial rfl) ?_ _, rfl⟩
  exact fun fds place => ⟨(tied.selecting fds place).1, rfl⟩

/-- Behind select it is the rest of a pass of MonitorThread. -/
theorem Tied.pass {reader : SaceSocketReader} (tied : Tied F mClients m reader)
    (running : m.thread.running = true) {received : SaceSocketReader.Received}
    (done : (reader.recvSelected F reader.watched answers).result = .ok received) :
    (m.socket reader).step F (.loop answers) = some { m.socket reader with
      reader := received.reader
      listening := m.thread.listening || received.reopened
      running := !m.thread.exitPending || received.again } := by
  have watching := MonitorThread.watched_of_socket (MonitorThread.reached_working tied.ran running)
  have whole : ((m.socket reader).reader.recvDataOrConnection F answers).result =
      .ok received := by
    rw [SaceSocketReader.recvDataOrConnection, if_neg watching]
    exact done
  rw [MonitorThread.step, if_pos (show (m.socket reader).running = true from running),
    Traced.value_eq_some]
  exact Traced.bind_ok.mpr ⟨received, whole, rfl⟩

theorem Tied.threadLoop {reader : SaceSocketReader} (tied : Tied F mClients m reader)
    (running : m.thread.running = true) (passed : (m.threadLoop F answers).result = .ok n) :
    n.thread.running = true ∧ ∃ after, Tied F mClients n after := by
  unfold SaceCommandMonitor.threadLoop at passed
  split at passed
  · have watching : SaceSocketReader.watched ⟨reader.mSockFd, reader.mClients⟩ ≠ [] :=
      MonitorThread.watched_of_socket (MonitorThread.reached_working tied.ran running)
    rw [deref_here tied.here, Traced.pure_then, Traced.pure_then] at passed
    dsimp only at passed
    rw [if_neg watching] at passed
    cases passed
    refine ⟨running, reader, tied.here, tied.ran, fun fds place => ?_⟩
    cases place
    exact ⟨running, watching, rfl⟩
  · rename_i fds place
    obtain ⟨_, _, rfl⟩ := tied.selecting fds place
    split at passed
    · cases passed
      have same : (m.goOn true).socket reader = m.socket reader := by
        simp [goOn, socket, running]
      exact ⟨by simp [goOn], reader, tied.here, same ▸ tied.ran, nofun⟩
    · rw [deref_here tied.here, Traced.pure_then] at passed
      obtain ⟨received, done, same⟩ := Traced.bind_ok.mp passed
      cases same
      refine ⟨by simp [goOn, (MonitorThread.selected_again done).1], received.reader, ?_,
        .next tied.ran trivial (tied.pass running done), nofun⟩
      simp [goOn, SaceCommandMonitor.store]

theorem threadLoop_frame (passed : (m.threadLoop F answers).result = .ok n) :
    n.thread.mReader = m.thread.mReader ∧ n.mReaders = m.mReaders := by
  unfold SaceCommandMonitor.threadLoop at passed
  split at passed
  · obtain ⟨_, _, passed⟩ := Traced.bind_ok.mp passed
    obtain ⟨_, _, passed⟩ := Traced.bind_ok.mp passed
    cases passed
    dsimp only
    split <;> exact ⟨rfl, rfl⟩
  · split at passed
    · cases passed
      exact ⟨rfl, rfl⟩
    · obtain ⟨_, _, passed⟩ := Traced.bind_ok.mp passed
      obtain ⟨_, _, passed⟩ := Traced.bind_ok.mp passed
      cases passed
      exact ⟨rfl, rfl⟩

theorem startListen_frame {setup : SetupAnswers} {run success : Bool}
    (started : (m.startListen setup run).result = .ok (n, success)) :
    n.thread.mReader = m.thread.mReader ∧ n.mReaders = m.mReaders := by
  obtain ⟨_, _, started⟩ := Traced.bind_ok.mp started
  cases started
  exact ⟨rfl, rfl⟩

/-- Where the reader has been freed, the thread gets no further than to the end of its select. -/
theorem threadLoop_freed (freed : m.heap[m.thread.mReader]? = none) (answers : PassAnswers) :
    (m.threadLoop F answers).result = .error .useAfterFree ∨
      answers.select = 0 ∧ (∃ fds, m.thread.place = .selecting fds) ∧
      (m.threadLoop F answers).result = .ok (m.goOn true) := by
  unfold threadLoop
  split
  · left
    rw [deref_freed freed]
    rfl
  · rename_i fds place
    by_cases timeout : answers.select = 0
    · right
      rw [if_pos timeout]
      exact ⟨timeout, ⟨fds, place⟩, rfl⟩
    · left
      rw [if_neg timeout, deref_freed freed]
      rfl

theorem foldl_erase_none {heap : Table UInt64 SaceSocketReader} {p : UInt64}
    (freed : heap[p]? = none) (ps : List UInt64) :
    (ps.foldl (fun heap p => heap.erase p) heap)[p]? = none := by
  induction ps generalizing heap with
  | nil => exact freed
  | cons q ps ih =>
    refine ih ?_
    rw [Std.ExtTreeMap.getElem?_erase]
    split
    · rfl
    · exact freed

theorem delete_frees {p : UInt64} (among : p ∈ m.mReaders) : m.delete.heap[p]? = none := by
  unfold delete
  dsimp only
  generalize m.heap = heap
  revert among
  generalize m.mReaders = ps
  induction ps generalizing heap with
  | nil => exact fun none => absurd none List.not_mem_nil
  | cons q ps ih =>
    intro among
    rcases List.mem_cons.mp among with rfl | later
    · exact foldl_erase_none (by simp) ps
    · exact ih _ later

end SaceCommandMonitor

namespace SaceMain
variable {F : ParcelFormat} {m n : SaceMain} {mClients : List ClientSocket}
  {socket binder : UInt64}

/-- The reader is there until exit_sace has deleted it. -/
structure Reading (F : ParcelFormat) (mClients : List ClientSocket) (m : SaceMain) : Prop where
  among : m.monitor.thread.mReader ∈ m.monitor.mReaders
  tied : m.place.deleted = false → ∃ reader, m.monitor.Tied F mClients reader
  freed : m.place.deleted = true → m.monitor.heap[m.monitor.thread.mReader]? = none
  idle : m.place = .starting ∨ m.place = .dispatching → m.monitor.thread.running = false
  actions : ∀ actions, m.place = .exiting actions → actions <:+ exitSace

theorem start_reading : Reading F mClients (start mClients socket binder) where
  among := List.mem_cons_self
  tied _ := ⟨{ mClients }, by simp [start], .start, nofun⟩
  freed := nofun
  idle _ := rfl
  actions := nofun

/-- What is left of exit_sace tells what has been done. -/
theorem suffix_cases {action : ExitAction} {rest : List ExitAction}
    (suffix : action :: rest <:+ exitSace) :
    (action = .stopListen ∨ action = .stopDispatcher) ∧
        (MainPlace.exiting (action :: rest)).deleted = false ∧
        (MainPlace.exiting rest).deleted = false ∨
      action = .deleteMonitor ∧ (MainPlace.exiting (action :: rest)).deleted = false ∧
        (MainPlace.exiting rest).deleted = true ∨
      action = .exit ∧ (MainPlace.exiting (action :: rest)).deleted = true ∧
        (MainPlace.exiting rest).deleted = true := by
  simp only [exitSace, List.suffix_cons_iff, List.cons.injEq] at suffix
  rcases suffix with ⟨rfl, rfl⟩ | ⟨rfl, rfl⟩ | ⟨rfl, rfl⟩ | ⟨rfl, rfl⟩ | none
  · exact .inl ⟨.inl rfl, rfl, rfl⟩
  · exact .inl ⟨.inr rfl, rfl, rfl⟩
  · exact .inr (.inl ⟨rfl, rfl, rfl⟩)
  · exact .inr (.inr ⟨rfl, rfl, rfl⟩)
  · simp at none

theorem Reading.exit (reading : Reading F mClients m) {action : ExitAction}
    {rest : List ExitAction} {monitor : SaceCommandMonitor}
    (place : m.place = .exiting (action :: rest)) (acted : (m.act action).result = .ok monitor) :
    Reading F mClients { m with monitor, place := .exiting rest } ∧
      monitor.thread.running = m.monitor.thread.running := by
  obtain ⟨among, tied, freed, _, actions⟩ := reading
  have suffix := actions _ place
  have shorter : ∀ actions, MainPlace.exiting rest = .exiting actions → actions <:+ exitSace := by
    intro actions same
    cases same
    exact (List.suffix_cons action rest).trans suffix
  rw [place] at tied freed
  rcases suffix_cases suffix with ⟨what, here, still⟩ | ⟨rfl, here, gone⟩ | ⟨rfl, gone, still⟩
  · obtain ⟨reader, there⟩ := tied here
    rcases what with rfl | rfl
    · obtain ⟨after, same⟩ := there.stopListen acted
      rw [act, SaceCommandMonitor.stopListen, SaceCommandMonitor.deref_here there.here,
        Traced.pure_then] at acted
      cases acted
      exact ⟨⟨among, fun _ => ⟨reader, after⟩, fun gone => absurd (still.symm.trans gone)
        Bool.false_ne_true, nofun, shorter⟩, same⟩
    · cases acted
      exact ⟨⟨among, fun _ => ⟨reader, there⟩, fun gone => absurd (still.symm.trans gone)
        Bool.false_ne_true, nofun, shorter⟩, rfl⟩
  · cases acted
    exact ⟨⟨among, fun here => absurd (here.symm.trans gone) Bool.false_ne_true,
      fun _ => SaceCommandMonitor.delete_frees among, nofun, shorter⟩, rfl⟩
  · cases acted
    exact ⟨⟨among, fun here => absurd (here.symm.trans still) Bool.false_ne_true,
      fun _ => freed gone, nofun, shorter⟩, rfl⟩

/-- The thread goes on as long as the reader is there. Afterwards only a select that has timed out
lets it go on. -/
theorem Reading.thread (reading : Reading F mClients m) {answers : PassAnswers}
    {monitor : SaceCommandMonitor} (running : m.monitor.thread.running = true)
    (passed : (m.monitor.threadLoop F answers).result = .ok monitor) :
    Reading F mClients { m with monitor } ∧ monitor.thread.running = true := by
  have same : monitor.thread.mReader = m.monitor.thread.mReader ∧
      monitor.mReaders = m.monitor.mReaders := SaceCommandMonitor.threadLoop_frame passed
  have among : monitor.thread.mReader ∈ monitor.mReaders := by
    rw [same.1, same.2]
    exact reading.among
  have idle : ¬ (m.place = .starting ∨ m.place = .dispatching) := fun begun =>
    Bool.false_ne_true ((reading.idle begun).symm.trans running)
  cases gone : m.place.deleted with
  | false =>
    obtain ⟨reader, tied⟩ := reading.tied gone
    obtain ⟨still, after⟩ := tied.threadLoop running passed
    exact ⟨⟨among, fun _ => after, fun freed => absurd (gone.symm.trans freed)
      Bool.false_ne_true, fun begun => absurd begun idle, reading.actions⟩, still⟩
  | true =>
    rcases SaceCommandMonitor.threadLoop_freed (reading.freed gone) answers with
      faulted | ⟨_, _, timeout⟩
    · cases faulted.symm.trans passed
    · cases timeout.symm.trans passed
      exact ⟨⟨among, fun here => absurd (here.symm.trans gone) Bool.false_ne_true,
        fun _ => reading.freed gone, fun begun => absurd begun idle, reading.actions⟩,
        by simp [SaceCommandMonitor.goOn]⟩

theorem Reading.moved (reading : Reading F mClients m) (moved : Moved F m n) :
    Reading F mClients n ∧ (m.monitor.thread.running = true → n.monitor.thread.running = true) := by
  obtain ⟨among, tied, freed, idle, actions⟩ := reading
  cases moved with
  | wrote | children | stole => exact ⟨⟨among, tied, freed, idle, actions⟩, id⟩
  | dispatcher before after =>
    rw [before] at tied
    refine ⟨⟨among, fun _ => tied rfl, ?_, fun _ => idle (.inl before), ?_⟩, id⟩ <;>
      rcases after with rfl | rfl <;> nofun
  | listener before started =>
    rw [before] at tied
    obtain ⟨reader, there⟩ := tied rfl
    have frame := SaceCommandMonitor.startListen_frame started
    refine ⟨⟨?_, fun _ => there.startListen (idle (.inr before)) started, ?_, ?_, ?_⟩,
      fun running => absurd ((idle (.inr before)).symm.trans running) Bool.false_ne_true⟩
    · rw [frame.1, frame.2]
      exact among
    all_goals
      split
      · nofun
      · nofun
  | read waiting pending =>
    rw [waiting] at tied
    refine ⟨⟨among, fun _ => tied rfl, ?_, ?_, ?_⟩, id⟩
    · split <;> nofun
    · split <;> nofun
    · split
      · rintro _ ⟨⟩
        exact List.suffix_refl _
      · nofun
  | exit place acted =>
    obtain ⟨after, same⟩ := Reading.exit ⟨among, tied, freed, idle, actions⟩ place acted
    exact ⟨after, fun running => same.trans running⟩
  | thread running passed =>
    obtain ⟨after, still⟩ := Reading.thread ⟨among, tied, freed, idle, actions⟩ running passed
    exact ⟨after, fun _ => still⟩

/-- Once the reader's thread runs, nothing ends it before the process ends. When exit_sace has
deleted the reader, what the thread does next is a use of it, unless it is in a select that times
out; then it is in front of the next pass. -/
theorem reached_deleted
    (reached : Runs.Reached (step F) (fun _ _ => True) (start mClients socket binder) m)
    (running : m.monitor.thread.running = true)
    (later : Runs.Reached (step F) (fun _ _ => True) m n) :
    n.monitor.thread.running = true ∧
      (n.place.deleted = true → ∀ answers,
        (n.monitor.threadLoop F answers).result = .error .useAfterFree ∨
          answers.select = 0 ∧ (∃ fds, n.monitor.thread.place = .selecting fds) ∧
            (n.monitor.threadLoop F answers).result = .ok (n.monitor.goOn true)) := by
  have before : Reading F mClients m := reached.invariant start_reading
    fun _ _ _ reading _ moved => (reading.moved (step_moved moved)).1
  have after : Reading F mClients n ∧ n.monitor.thread.running = true :=
    later.invariant (I := fun n => Reading F mClients n ∧ n.monitor.thread.running = true)
      ⟨before, running⟩ fun _ _ _ both _ moved =>
        ⟨(both.1.moved (step_moved moved)).1, (both.1.moved (step_moved moved)).2 both.2⟩
  exact ⟨after.2, fun gone answers =>
    SaceCommandMonitor.threadLoop_freed (after.1.freed gone) answers⟩

def ended : List Step :=
  [.thread MonitorThread.refused, .signal, .read, .exit, .exit, .exit]

theorem ended_deleted : ∃ m n,
    Runs.run (step Android.parcel) (start noClients 16 32) served = some m ∧
    Runs.run (step Android.parcel) m ended = some n ∧ n.monitor.thread.running = true ∧
    (n.monitor.threadLoop Android.parcel MonitorThread.refused).result =
      .error .useAfterFree := by
  have all (inputs : List Step) (m : SaceMain) :
      Runs.Admitted (step Android.parcel) (fun _ _ => True) m inputs :=
    Runs.admitted_of_all (by simp) inputs
  have listening : (Runs.run (step Android.parcel) (start noClients 16 32) served).map
    (·.monitor.thread.running) = some true := by decide +kernel
  obtain ⟨m, first, running⟩ := Option.map_eq_some_iff.mp listening
  have gone : ((Runs.run (step Android.parcel) (start noClients 16 32) served).bind
    (Runs.run (step Android.parcel) · ended)).map (·.place.deleted) = some true := by
      decide +kernel
  rw [first, Option.bind_some] at gone
  obtain ⟨n, second, deleted⟩ := Option.map_eq_some_iff.mp gone
  obtain ⟨still, uses⟩ := reached_deleted (Runs.run_reached (all _ _) first) running
    (Runs.run_reached (all _ _) second)
  refine ⟨m, n, first, second, still, ?_⟩
  exact (uses deleted MonitorThread.refused).resolve_right fun timeout =>
    absurd timeout.1 (by decide)

end SaceMain
end Sace
