import Mathlib.Logic.Function.Basic
import Sace.Saced.Queue

/-! SaceCommandDispatcher. What anybody posts goes to the looper; the dispatch thread takes it
from there and offers it to the executors, each of which has its own queue and thread. -/
namespace Sace

def receiveMsgTimeout : SaceMessageHandlerType → Int
  | .service => 1
  | _ => -1

/-- What pollOnce of the looper returns. A timeout means that no message was there. -/
inductive PollResult where
  | wake
  | callback
  | timeout
  | error
  deriving DecidableEq

/-- Where dispatch_thread is: in pollOnce, in the loop of handleMessage before the executors
`rest`, in sendCommandMessage behind the test of mExit or behind the push, or gone. -/
inductive DispatchPlace where
  | polling
  | handling (msg : Posted) (rest : List SaceMessageHandlerType) (handle : Bool)
  | sending (msg : Posted) (kind : SaceMessageHandlerType) (rest : List SaceMessageHandlerType)
  | posting (msg : Posted) (kind : SaceMessageHandlerType) (rest : List SaceMessageHandlerType)
  | exited
  deriving DecidableEq

/-- What SaceCommandDispatcher::stop does, one after the other. -/
inductive StopAction where
  | exit (kind : SaceMessageHandlerType)
  | exitPost (kind : SaceMessageHandlerType)
  | join (kind : SaceMessageHandlerType)
  /-- `sem_destroy` and `pthread_mutex_destroy` -/
  | destroy (kind : SaceMessageHandlerType)
  | exitDispatch
  | joinDispatch
  deriving DecidableEq

/-- `mLooper` holds the messages that wait in the looper, `stopping` what is left to do of a
stop that has begun. All messages that were posted and those that handleDefaultMessage got are
kept beside them. -/
structure SaceCommandDispatcher where
  mExit : Bool
  mLooper : List Posted := []
  place : DispatchPlace := .polling
  excutor : SaceMessageHandlerType → SaceExcutor := fun _ => {}
  stopping : Option (List StopAction) := none
  posted : List Posted := []
  defaulted : List Posted := []

namespace SaceCommandDispatcher

/-- The executors in the order in which start creates them. -/
def mExcutor : List SaceMessageHandlerType := [.service, .normal, .event]

def start (mExit : Bool) : SaceCommandDispatcher := { mExit }

/-- `stop`: the executors are stopped in reverse order, and then the dispatch thread. -/
def stop : List StopAction :=
  (mExcutor.reverse.flatMap fun kind =>
    [.exit kind, .exitPost kind, .join kind, .destroy kind]) ++ [.exitDispatch, .joinDispatch]

inductive Step where
  /-- `MessageDistributable::post` of any thread -/
  | post (msg : Posted)
  | poll (ret : PollResult)
  /-- The dispatch thread goes on in handleMessage. -/
  | handle
  | thread (kind : SaceMessageHandlerType) (step : SaceExcutor.Step)
  | stop
  /-- The main thread goes on in stop. -/
  | main

def ofThread : SaceExcutor.Step → Bool
  | .token | .timedOut | .timeoutDone | .interrupted | .test | .pop | .excuted => true
  | _ => false

def move (d : SaceCommandDispatcher) (kind : SaceMessageHandlerType) (step : SaceExcutor.Step)
    (place : DispatchPlace) : Option SaceCommandDispatcher :=
  ((d.excutor kind).step (receiveMsgTimeout kind) step).map fun excutor =>
    { d with place, excutor := Function.update d.excutor kind excutor }

def handle (d : SaceCommandDispatcher) : Option SaceCommandDispatcher :=
  match d.place with
  | .handling msg (kind :: rest) handle =>
    if msg.msgHandler = kind then
      if (d.excutor kind).mExit then some { d with place := .handling msg rest true }
      else d.move kind .enter (.sending msg kind rest)
    else some { d with place := .handling msg rest handle }
  | .handling msg [] handle =>
    some { d with
      place := .polling
      defaulted := if handle then d.defaulted else d.defaulted ++ [msg] }
  | .sending msg kind rest => d.move kind (.push msg) (.posting msg kind rest)
  | .posting msg kind rest => d.move kind .post (.handling msg rest true)
  | _ => none

def act (d : SaceCommandDispatcher) : StopAction → Option SaceCommandDispatcher
  | .exit kind => d.move kind .exit d.place
  | .exitPost kind => d.move kind .exitPost d.place
  | .join kind => if (d.excutor kind).place = .exited then some d else none
  | .destroy _ => some d
  | .exitDispatch => some { d with mExit := true }
  | .joinDispatch => if d.place = .exited then some d else none

def step (d : SaceCommandDispatcher) : Step → Option SaceCommandDispatcher
  | .post msg => some { d with mLooper := d.mLooper ++ [msg], posted := d.posted ++ [msg] }
  | .poll ret =>
    if d.place = .polling then
      match ret, d.mLooper with
      | .callback, msg :: rest =>
        some { d with mLooper := rest, place := .handling msg mExcutor false }
      | .callback, [] => none
      | .timeout, [] => some (if d.mExit then { d with place := .exited } else d)
      | .timeout, _ :: _ => none
      | .wake, _ => some d
      | .error, _ => some d
    else none
  | .handle => d.handle
  | .thread kind step => if ofThread step then d.move kind step d.place else none
  | .stop => if d.stopping = none then some { d with stopping := some stop } else none
  | .main =>
    match d.stopping with
    | some (action :: rest) => (d.act action).map fun e => { e with stopping := some rest }
    | _ => none

def hand (d : SaceCommandDispatcher) (kind : SaceMessageHandlerType) : List Posted :=
  match d.place with
  | .handling msg rest _ => if msg.msgHandler = kind ∧ kind ∈ rest then [msg] else []
  | .sending msg own _ => if own = kind then [msg] else []
  | _ => []

/-- The dispatch thread has passed the executor's test of mExit and not pushed yet. -/
def Sending (d : SaceCommandDispatcher) (kind : SaceMessageHandlerType) : Prop :=
  ∃ msg rest, d.place = .sending msg kind rest

def messagesFor (kind : SaceMessageHandlerType) (msgs : List Posted) : List Posted :=
  msgs.filter fun msg => msg.msgHandler = kind

@[simp] theorem messagesFor_append (kind : SaceMessageHandlerType) (first second : List Posted) :
    messagesFor kind (first ++ second) = messagesFor kind first ++ messagesFor kind second :=
  List.filter_append ..

/-! ### What the dispatch thread and the executors do to one executor's messages -/

def entering (kind : SaceMessageHandlerType) : DispatchPlace → Nat
  | .sending _ own _ => if own = kind then 1 else 0
  | _ => 0

def pushing (kind : SaceMessageHandlerType) : DispatchPlace → Nat
  | .posting _ own _ => if own = kind then 1 else 0
  | _ => 0

/-- The executors that are still to be offered a message are different ones, and the one that the
message is for is among them until it has been offered to it. -/
def Placed : DispatchPlace → Prop
  | .handling msg rest handle => rest.Nodup ∧ (∀ kind ∈ rest, kind ∈ mExcutor) ∧
      if handle then msg.msgHandler ∈ mExcutor ∧ msg.msgHandler ∉ rest
      else msg.msgHandler ∈ mExcutor → msg.msgHandler ∈ rest
  | .sending msg kind rest | .posting msg kind rest => rest.Nodup ∧
      (∀ kind ∈ rest, kind ∈ mExcutor) ∧ msg.msgHandler = kind ∧ kind ∈ mExcutor ∧ kind ∉ rest
  | _ => True

/-- What was posted for an executor is what has been pushed to it, in the same order, what the
dispatch thread has in hand for it and what waits in the looper. When the executor has been told
to stop, the rest need not come any more. -/
structure Lane (d : SaceCommandDispatcher) (kind : SaceMessageHandlerType) : Prop where
  counted : (d.excutor kind).Counted
  entered : (d.excutor kind).entered = entering kind d.place
  pushed : (d.excutor kind).pushed = pushing kind d.place
  whole : (d.excutor kind).mExit = false ∨ d.Sending kind →
    (d.excutor kind).sent ++ d.hand kind ++ messagesFor kind d.mLooper = messagesFor kind d.posted
  part : (d.excutor kind).sent <+: messagesFor kind d.posted

section Steps
variable {outTime : Int} {s t : SaceExcutor}

theorem thread_keeps {a : SaceExcutor.Step} (own : ofThread a) (moved : s.step outTime a = some t) :
    t.sent = s.sent ∧ t.mExit = s.mExit ∧ t.entered = s.entered ∧ t.pushed = s.pushed ∧
      s.place ≠ .exited ∧ (t.place = .exited → s.mExit = true) := by
  cases a with
  | enter | push | post | exit | exitPost => cases own
  | token | timedOut | timeoutDone | interrupted =>
    simp only [SaceExcutor.step, Option.ite_none_right_eq_some] at moved
    obtain ⟨place, moved⟩ := moved
    cases moved
    simp [place]
  | test =>
    simp only [SaceExcutor.step, Option.ite_none_right_eq_some] at moved
    obtain ⟨place, moved⟩ := moved
    cases moved
    cases s.mExit <;> simp [place]
  | pop =>
    simp only [SaceExcutor.step, Option.ite_none_right_eq_some] at moved
    obtain ⟨place, moved⟩ := moved
    split at moved <;> cases moved <;> simp [place]
  | excuted =>
    simp only [SaceExcutor.step] at moved
    split at moved
    · rename_i place
      cases moved
      simp [place]
    · cases moved

end Steps

section Lanes
variable {d e : SaceCommandDispatcher} {kind own : SaceMessageHandlerType}

theorem Lane.kept (lane : Lane d kind) (excutor : e.excutor kind = d.excutor kind)
    (entered : entering kind e.place = entering kind d.place)
    (pushed : pushing kind e.place = pushing kind d.place) (posted : e.posted = d.posted)
    (whole : (d.excutor kind).mExit = false ∨ e.Sending kind →
      ((d.excutor kind).mExit = false ∨ d.Sending kind) ∧
      e.hand kind ++ messagesFor kind e.mLooper = d.hand kind ++ messagesFor kind d.mLooper) :
    Lane e kind where
  counted := by rw [excutor]; exact lane.counted
  entered := by rw [excutor, entered]; exact lane.entered
  pushed := by rw [excutor, pushed]; exact lane.pushed
  whole := by
    rw [excutor, posted, List.append_assoc]
    intro open_
    obtain ⟨before, same⟩ := whole open_
    rw [same, ← List.append_assoc]
    exact lane.whole before
  part := by rw [excutor, posted]; exact lane.part

theorem Lane.post (lane : Lane d kind) (msg : Posted) :
    Lane { d with mLooper := d.mLooper ++ [msg], posted := d.posted ++ [msg] } kind where
  counted := lane.counted
  entered := lane.entered
  pushed := lane.pushed
  whole open_ := by
    rw [messagesFor_append, messagesFor_append, ← List.append_assoc]
    exact congrArg (· ++ _) (lane.whole open_)
  part := by
    rw [messagesFor_append]
    exact lane.part.trans (List.prefix_append ..)

theorem Lane.poll (lane : Lane d kind) (known : kind ∈ mExcutor) (polling : d.place = .polling)
    {msg : Posted} {rest : List Posted} (looper : d.mLooper = msg :: rest) :
    Lane { d with mLooper := rest, place := .handling msg mExcutor false } kind := by
  refine lane.kept rfl ?_ ?_ rfl fun open_ => ⟨?_, ?_⟩
  · simp [polling, entering]
  · simp [polling, pushing]
  · rcases open_ with running | ⟨_, _, sending⟩
    · exact .inl running
    · cases sending
  · by_cases own : msg.msgHandler = kind
    · simp [hand, polling, looper, messagesFor, own, known]
    · simp [hand, polling, looper, messagesFor, own]

/-- An executor that the dispatch thread leaves alone. -/
theorem Lane.elsewhere (lane : Lane d kind) {step : SaceExcutor.Step} {place : DispatchPlace}
    (moved : d.move own step place = some e) (other : own ≠ kind)
    (entered : entering kind place = entering kind d.place)
    (pushed : pushing kind place = pushing kind d.place)
    (sending : ∀ msg rest, place = .sending msg kind rest → d.Sending kind)
    (hand : { d with place }.hand kind = d.hand kind) : Lane e kind := by
  obtain ⟨excutor, _, rfl⟩ := Option.map_eq_some_iff.mp moved
  refine lane.kept (Function.update_of_ne other.symm _ _) entered pushed rfl fun open_ =>
    ⟨?_, congrArg (· ++ _) hand⟩
  rcases open_ with running | ⟨msg, rest, there⟩
  · exact .inl running
  · exact .inr (sending msg rest there)

theorem Lane.enter (lane : Lane d own) {msg : Posted} {rest : List SaceMessageHandlerType}
    {handle : Bool} (place : d.place = .handling msg (own :: rest) handle)
    (mine : msg.msgHandler = own) (moved : d.move own .enter (.sending msg own rest) = some e) :
    Lane e own := by
  obtain ⟨excutor, stepped, rfl⟩ := Option.map_eq_some_iff.mp moved
  have counted := SaceExcutor.step_counted lane.counted stepped
  simp only [SaceExcutor.step] at stepped
  split at stepped
  · cases stepped
  · rename_i running
    cases stepped
    have entered := lane.entered
    have pushed := lane.pushed
    rw [place] at entered pushed
    have whole := lane.whole (.inl (by simpa using running))
    constructor
    · simpa using counted
    · simpa [entering] using entered
    · simpa [pushing] using pushed
    · intro _
      simpa [hand, place, mine] using whole
    · simpa using lane.part

theorem Lane.push (lane : Lane d own) {msg : Posted} {rest : List SaceMessageHandlerType}
    (place : d.place = .sending msg own rest)
    (moved : d.move own (.push msg) (.posting msg own rest) = some e) : Lane e own := by
  obtain ⟨excutor, stepped, rfl⟩ := Option.map_eq_some_iff.mp moved
  have counted := SaceExcutor.step_counted lane.counted stepped
  have entered := lane.entered
  have pushed := lane.pushed
  rw [place] at entered pushed
  have whole := lane.whole (.inr ⟨msg, rest, place⟩)
  simp only [hand, place, if_true] at whole
  simp only [SaceExcutor.step] at stepped
  split at stepped
  · cases stepped
  · cases stepped
    constructor
    · simpa using counted
    · simp [entering] at entered ⊢
      omega
    · simp [pushing] at pushed ⊢
      omega
    · intro _
      simpa [hand] using whole
    · simp only [Function.update_self, ← whole]
      exact List.prefix_append ..

theorem Lane.sent (lane : Lane d own) {msg : Posted} {rest : List SaceMessageHandlerType}
    (place : d.place = .posting msg own rest) (offered : own ∉ rest)
    (moved : d.move own .post (.handling msg rest true) = some e) : Lane e own := by
  obtain ⟨excutor, stepped, rfl⟩ := Option.map_eq_some_iff.mp moved
  have counted := SaceExcutor.step_counted lane.counted stepped
  have entered := lane.entered
  have pushed := lane.pushed
  rw [place] at entered pushed
  simp only [SaceExcutor.step] at stepped
  split at stepped
  · cases stepped
  · cases stepped
    constructor
    · simpa using counted
    · simpa [entering] using entered
    · simp [pushing] at pushed ⊢
      omega
    · rintro (running | ⟨_, _, sending⟩)
      · have whole := lane.whole (.inl (by simpa using running))
        simpa [hand, place, offered] using whole
      · cases sending
    · simpa using lane.part

/-- A step of the executor's own thread, or one that tells it to stop. -/
theorem Lane.within (lane : Lane d kind) {step : SaceExcutor.Step}
    (moved : d.move own step d.place = some e)
    (keeps : ∀ t, (d.excutor own).step (receiveMsgTimeout own) step = some t →
      t.sent = (d.excutor own).sent ∧ t.entered = (d.excutor own).entered ∧
        t.pushed = (d.excutor own).pushed ∧ (t.mExit = false → (d.excutor own).mExit = false)) :
    Lane e kind := by
  by_cases same : own = kind
  · subst same
    obtain ⟨excutor, stepped, rfl⟩ := Option.map_eq_some_iff.mp moved
    obtain ⟨sent, entered, pushed, exit⟩ := keeps excutor stepped
    constructor
    · simpa using SaceExcutor.step_counted lane.counted stepped
    · simpa [entered] using lane.entered
    · simpa [pushed] using lane.pushed
    · intro open_
      simp only [Function.update_self] at open_ ⊢
      rw [sent]
      exact lane.whole (open_.imp exit id)
    · simpa [sent] using lane.part
  · exact lane.elsewhere moved same rfl rfl (fun msg rest place => ⟨msg, rest, place⟩) rfl

end Lanes

/-! ### Every step -/

section Moves
variable {d e : SaceCommandDispatcher} {a : Step}

/-- What each step may be, by where the dispatch thread and the stop are. -/
inductive Moved (d : SaceCommandDispatcher) : Step → SaceCommandDispatcher → Prop
  | posted {msg : Posted} :
      Moved d (.post msg) { d with mLooper := d.mLooper ++ [msg], posted := d.posted ++ [msg] }
  | taken {msg : Posted} {rest : List Posted} (polling : d.place = .polling)
      (looper : d.mLooper = msg :: rest) :
      Moved d (.poll .callback) { d with mLooper := rest, place := .handling msg mExcutor false }
  | idle {ret : PollResult} : Moved d (.poll ret) d
  | left (polling : d.place = .polling) (exits : d.mExit = true) :
      Moved d (.poll .timeout) { d with place := .exited }
  | passed {msg : Posted} {own : SaceMessageHandlerType} {rest : List SaceMessageHandlerType}
      {handle after : Bool} (place : d.place = .handling msg (own :: rest) handle)
      (why : msg.msgHandler = own ∧ (d.excutor own).mExit = true ∧ after = true ∨
        msg.msgHandler ≠ own ∧ after = handle) :
      Moved d .handle { d with place := .handling msg rest after }
  | entered {msg : Posted} {own : SaceMessageHandlerType} {rest : List SaceMessageHandlerType}
      {handle : Bool} {e : SaceCommandDispatcher}
      (place : d.place = .handling msg (own :: rest) handle) (mine : msg.msgHandler = own)
      (running : (d.excutor own).mExit = false)
      (moved : d.move own .enter (.sending msg own rest) = some e) : Moved d .handle e
  | offered {msg : Posted} {handle : Bool} (place : d.place = .handling msg [] handle) :
      Moved d .handle { d with
        place := .polling
        defaulted := if handle then d.defaulted else d.defaulted ++ [msg] }
  | pushed {msg : Posted} {own : SaceMessageHandlerType} {rest : List SaceMessageHandlerType}
      {e : SaceCommandDispatcher} (place : d.place = .sending msg own rest)
      (moved : d.move own (.push msg) (.posting msg own rest) = some e) : Moved d .handle e
  | sent {msg : Posted} {own : SaceMessageHandlerType} {rest : List SaceMessageHandlerType}
      {e : SaceCommandDispatcher} (place : d.place = .posting msg own rest)
      (moved : d.move own .post (.handling msg rest true) = some e) : Moved d .handle e
  | ran {kind : SaceMessageHandlerType} {step : SaceExcutor.Step} {e : SaceCommandDispatcher}
      (own : ofThread step = true) (moved : d.move kind step d.place = some e) :
      Moved d (.thread kind step) e
  | begun (first : d.stopping = none) : Moved d .stop { d with stopping := some stop }
  | told {kind : SaceMessageHandlerType} {rest : List StopAction} {e : SaceCommandDispatcher}
      (next : d.stopping = some (.exit kind :: rest)) (moved : d.move kind .exit d.place = some e) :
      Moved d .main { e with stopping := some rest }
  | woken {kind : SaceMessageHandlerType} {rest : List StopAction} {e : SaceCommandDispatcher}
      (next : d.stopping = some (.exitPost kind :: rest))
      (moved : d.move kind .exitPost d.place = some e) :
      Moved d .main { e with stopping := some rest }
  | awaited {action : StopAction} {rest : List StopAction}
      (next : d.stopping = some (action :: rest))
      (why : (∃ kind, action = .join kind ∧ (d.excutor kind).place = .exited) ∨
        (∃ kind, action = .destroy kind) ∨ action = .joinDispatch ∧ d.place = .exited) :
      Moved d .main { d with stopping := some rest }
  | exits {rest : List StopAction} (next : d.stopping = some (.exitDispatch :: rest)) :
      Moved d .main { d with mExit := true, stopping := some rest }

theorem poll_moved {ret : PollResult} (moved : d.step (.poll ret) = some e) :
    Moved d (.poll ret) e := by
  simp only [step, Option.ite_none_right_eq_some] at moved
  obtain ⟨polling, moved⟩ := moved
  split at moved
  · rename_i looper
    cases moved
    exact .taken polling looper
  · cases moved
  · cases moved
    split
    · rename_i exits
      exact .left polling exits
    · exact .idle
  · cases moved
  · cases moved
    exact .idle
  · cases moved
    exact .idle

theorem handle_moved (moved : d.handle = some e) : Moved d .handle e := by
  unfold SaceCommandDispatcher.handle at moved
  split at moved
  · rename_i place
    split at moved
    · rename_i mine
      split at moved
      · rename_i stopped
        cases moved
        exact .passed place (.inl ⟨mine, stopped, rfl⟩)
      · rename_i running
        exact .entered place mine (by simpa using running) moved
    · rename_i other
      cases moved
      exact .passed place (.inr ⟨other, rfl⟩)
  · rename_i place
    cases moved
    exact .offered place
  · rename_i place
    exact .pushed place moved
  · rename_i place
    exact .sent place moved
  · cases moved

theorem act_moved {action : StopAction} {rest : List StopAction}
    (next : d.stopping = some (action :: rest)) (acted : d.act action = some e) :
    Moved d .main { e with stopping := some rest } := by
  cases action with
  | exit kind => exact .told next acted
  | exitPost kind => exact .woken next acted
  | join kind =>
    simp only [act, Option.ite_none_right_eq_some] at acted
    cases acted.2
    exact .awaited next (.inl ⟨kind, rfl, acted.1⟩)
  | destroy kind =>
    cases acted
    exact .awaited next (.inr (.inl ⟨kind, rfl⟩))
  | exitDispatch =>
    cases acted
    exact .exits next
  | joinDispatch =>
    simp only [act, Option.ite_none_right_eq_some] at acted
    cases acted.2
    exact .awaited next (.inr (.inr ⟨rfl, acted.1⟩))

theorem step_moved (moved : d.step a = some e) : Moved d a e := by
  cases a with
  | post msg =>
    cases moved
    exact .posted
  | poll ret => exact poll_moved moved
  | handle => exact handle_moved moved
  | thread kind step =>
    simp only [SaceCommandDispatcher.step, Option.ite_none_right_eq_some] at moved
    exact .ran moved.1 moved.2
  | stop =>
    simp only [step, Option.ite_none_right_eq_some] at moved
    cases moved.2
    exact .begun moved.1
  | main =>
    simp only [step] at moved
    split at moved
    · rename_i next
      obtain ⟨f, acted, rfl⟩ := Option.map_eq_some_iff.mp moved
      exact act_moved next acted
    · cases moved

theorem move_frame {own : SaceMessageHandlerType} {step : SaceExcutor.Step} {place : DispatchPlace}
    (moved : d.move own step place = some e) :
    e.place = place ∧ e.mLooper = d.mLooper ∧ e.posted = d.posted ∧ e.defaulted = d.defaulted ∧
      e.mExit = d.mExit ∧ e.stopping = d.stopping := by
  obtain ⟨_, _, rfl⟩ := Option.map_eq_some_iff.mp moved
  exact ⟨rfl, rfl, rfl, rfl, rfl, rfl⟩

theorem move_excutor {own : SaceMessageHandlerType} {step : SaceExcutor.Step}
    {place : DispatchPlace} (moved : d.move own step place = some e)
    (kind : SaceMessageHandlerType) : e.excutor kind = d.excutor kind ∨
      own = kind ∧ (d.excutor kind).step (receiveMsgTimeout kind) step = some (e.excutor kind) := by
  obtain ⟨excutor, stepped, rfl⟩ := Option.map_eq_some_iff.mp moved
  by_cases same : own = kind
  · subst same
    exact .inr ⟨rfl, by simpa using stepped⟩
  · exact .inl (Function.update_of_ne (Ne.symm same) _ _)

/-- An executor is left alone or takes one step, which its thread takes only by itself, and which
tells it to stop only when stop is there. -/
theorem excutor_step (moved : d.step a = some e) (kind : SaceMessageHandlerType) :
    e.excutor kind = d.excutor kind ∨
    ∃ step, (d.excutor kind).step (receiveMsgTimeout kind) step = some (e.excutor kind) ∧
      (ofThread step = true → a = .thread kind step) ∧
      (step = .exit → a = .main ∧ ∃ rest, d.stopping = some (.exit kind :: rest)) := by
  cases step_moved moved with
  | posted | taken | idle | left | passed | offered | begun | awaited | exits => exact .inl rfl
  | entered _ _ _ moved | pushed _ moved | sent _ moved =>
    refine (move_excutor moved kind).imp_right fun ⟨_, stepped⟩ => ⟨_, stepped, ?_, ?_⟩ <;> nofun
  | ran own moved =>
    refine (move_excutor moved kind).imp_right fun ⟨same, stepped⟩ => ⟨_, stepped, ?_, ?_⟩
    · exact fun _ => same ▸ rfl
    · rintro rfl
      cases own
  | told next acted =>
    refine (move_excutor acted kind).imp_right fun ⟨same, stepped⟩ => ⟨.exit, stepped, nofun, ?_⟩
    exact fun _ => ⟨rfl, _, same ▸ next⟩
  | woken _ acted =>
    refine (move_excutor acted kind).imp_right fun ⟨_, stepped⟩ => ⟨_, stepped, ?_, ?_⟩ <;> nofun

end Moves

def strangers (msgs : List Posted) : List Posted := msgs.filter fun msg => msg.msgHandler ∉ mExcutor

def held : DispatchPlace → List Posted
  | .handling msg _ _ | .sending msg _ _ | .posting msg _ _ => [msg]
  | _ => []

structure Routed (d : SaceCommandDispatcher) : Prop where
  placed : Placed d.place
  lanes : ∀ kind ∈ mExcutor, Lane d kind
  strangers : d.defaulted ++ strangers (held d.place) ++ strangers d.mLooper = strangers d.posted

section Run
variable {d e : SaceCommandDispatcher} {msg : Posted} {own : SaceMessageHandlerType}
  {rest : List SaceMessageHandlerType}

theorem strangers_append (first second : List Posted) :
    SaceCommandDispatcher.strangers (first ++ second) =
      SaceCommandDispatcher.strangers first ++ SaceCommandDispatcher.strangers second :=
  List.filter_append ..

theorem Routed.moved (routed : Routed d) {step : SaceExcutor.Step}
    {place : DispatchPlace} (moved : d.move own step place = some e) (placed : Placed place)
    (lanes : ∀ kind ∈ mExcutor, Lane e kind)
    (held : SaceCommandDispatcher.strangers (held place) =
      SaceCommandDispatcher.strangers (SaceCommandDispatcher.held d.place)) : Routed e := by
  obtain ⟨at_, looper, posted, defaulted, _, _⟩ := move_frame moved
  refine ⟨at_ ▸ placed, lanes, ?_⟩
  rw [at_, looper, posted, defaulted, held]
  exact routed.strangers

/-- Steps of the dispatch thread that leave the executors and the looper alone, outside of
sendCommandMessage. -/
theorem Routed.placed_at (routed : Routed d) {place : DispatchPlace} {defaulted : List Posted}
    (placed : Placed place) (calm : ∀ kind, entering kind place = entering kind d.place ∧
      pushing kind place = pushing kind d.place)
    (away : ∀ msg kind rest, place ≠ .sending msg kind rest)
    (hand : ∀ kind ∈ mExcutor, (d.excutor kind).mExit = false →
      { d with place }.hand kind = d.hand kind)
    (told : defaulted ++ SaceCommandDispatcher.strangers (held place) =
      d.defaulted ++ SaceCommandDispatcher.strangers (held d.place)) :
    Routed { d with place, defaulted } where
  placed := placed
  lanes kind known := by
    refine (routed.lanes kind known).kept rfl (calm kind).1 (calm kind).2 rfl fun open_ => ?_
    rcases open_ with running | ⟨_, _, sending⟩
    · exact ⟨.inl running, congrArg (· ++ _) (hand kind known running)⟩
    · exact absurd sending (away _ _ _)
  strangers := by
    change defaulted ++ SaceCommandDispatcher.strangers (held place) ++ _ = _
    rw [told]
    exact routed.strangers

theorem Routed.taken (routed : Routed d) {rest : List Posted} (polling : d.place = .polling)
    (looper : d.mLooper = msg :: rest) :
    Routed { d with mLooper := rest, place := .handling msg mExcutor false } where
  placed := ⟨by decide, fun _ there => there, id⟩
  lanes kind known := (routed.lanes kind known).poll known polling looper
  strangers := by
    have strangers := routed.strangers
    rw [polling, looper, ← List.singleton_append, strangers_append, ← List.append_assoc,
      show SaceCommandDispatcher.strangers (held .polling) = [] from rfl, List.append_nil]
      at strangers
    exact strangers

theorem Routed.left (routed : Routed d) (polling : d.place = .polling) :
    Routed { d with place := .exited } := by
  refine routed.placed_at trivial (fun kind => ?_) (fun _ _ _ sending => ?_) (fun kind _ _ => ?_) ?_
  · simp [polling, entering, pushing]
  · cases sending
  · simp [hand, polling]
  · rw [polling]
    rfl

theorem Routed.passed (routed : Routed d) {handle after : Bool}
    (place : d.place = .handling msg (own :: rest) handle)
    (why : msg.msgHandler = own ∧ (d.excutor own).mExit = true ∧ after = true ∨
      msg.msgHandler ≠ own ∧ after = handle) :
    Routed { d with place := .handling msg rest after } := by
  have placed := routed.placed
  rw [place] at placed
  obtain ⟨once, known, offered⟩ := placed
  obtain ⟨fresh, once⟩ := List.nodup_cons.mp once
  have later : Placed (.handling msg rest after) := by
    refine ⟨once, fun kind there => known kind (List.mem_cons_of_mem _ there), ?_⟩
    rcases why with ⟨mine, _, rfl⟩ | ⟨other, rfl⟩
    · rw [if_pos rfl, mine]
      exact ⟨known own List.mem_cons_self, fresh⟩
    · cases after with
      | true =>
        rw [if_pos rfl] at offered ⊢
        exact ⟨offered.1, fun there => offered.2 (List.mem_cons_of_mem _ there)⟩
      | false =>
        rw [if_neg Bool.false_ne_true] at offered ⊢
        exact fun there => (List.mem_cons.mp (offered there)).resolve_left other
  refine routed.placed_at later (fun kind => ?_) (fun _ _ _ sending => ?_)
    (fun kind there running => ?_) ?_
  · simp [place, entering, pushing]
  · cases sending
  · -- an executor that has been told to stop gets nothing any more, and nothing is promised to it
    have apart : msg.msgHandler = kind → kind ≠ own := by
      rintro mine rfl
      rcases why with ⟨_, stopped, _⟩ | ⟨other, _⟩
      · rw [running] at stopped
        cases stopped
      · exact other mine
    by_cases mine : msg.msgHandler = kind
    · simp [hand, place, mine, apart mine]
    · simp [hand, place, mine]
  · rw [place]
    rfl

theorem Routed.entered (routed : Routed d) {handle : Bool}
    (place : d.place = .handling msg (own :: rest) handle) (mine : msg.msgHandler = own)
    (moved : d.move own .enter (.sending msg own rest) = some e) : Routed e := by
  have placed := routed.placed
  rw [place] at placed
  obtain ⟨once, known, _⟩ := placed
  obtain ⟨fresh, once⟩ := List.nodup_cons.mp once
  refine routed.moved moved ⟨once, fun kind there => known kind (List.mem_cons_of_mem _ there),
    mine, known own List.mem_cons_self, fresh⟩ (fun kind there => ?_) (by rw [place]; rfl)
  by_cases same : own = kind
  · subst same
    exact (routed.lanes own there).enter place mine moved
  · refine (routed.lanes kind there).elsewhere moved same ?_ ?_ ?_ ?_
    · simp [place, entering, same]
    · simp [place, pushing]
    · rintro _ _ sending
      cases sending
      exact absurd rfl same
    · simp [hand, place, mine, same]

theorem Routed.offered (routed : Routed d) {handle : Bool}
    (place : d.place = .handling msg [] handle) :
    Routed { d with
      place := .polling
      defaulted := if handle then d.defaulted else d.defaulted ++ [msg] } := by
  have placed := routed.placed
  rw [place] at placed
  obtain ⟨_, _, offered⟩ := placed
  refine routed.placed_at trivial (fun kind => ?_) (fun _ _ _ sending => ?_) (fun kind _ _ => ?_) ?_
  · simp [place, entering, pushing]
  · cases sending
  · simp [hand, place]
  · rw [place]
    cases handle with
    | true => simp [held, SaceCommandDispatcher.strangers, (if_pos rfl ▸ offered).1]
    | false =>
      have none : msg.msgHandler ∉ mExcutor := fun there => List.not_mem_nil (offered there)
      simp [held, SaceCommandDispatcher.strangers, none]

theorem Routed.pushed (routed : Routed d) (place : d.place = .sending msg own rest)
    (moved : d.move own (.push msg) (.posting msg own rest) = some e) : Routed e := by
  have placed := routed.placed
  rw [place] at placed
  refine routed.moved moved placed (fun kind there => ?_) (by rw [place]; rfl)
  by_cases same : own = kind
  · subst same
    exact (routed.lanes own there).push place moved
  · refine (routed.lanes kind there).elsewhere moved same ?_ ?_ ?_ ?_
    · simp [place, entering, same]
    · simp [place, pushing, same]
    · rintro _ _ sending
      cases sending
    · simp [hand, place, same]

theorem Routed.sent (routed : Routed d) (place : d.place = .posting msg own rest)
    (moved : d.move own .post (.handling msg rest true) = some e) : Routed e := by
  have placed := routed.placed
  rw [place] at placed
  obtain ⟨once, known, mine, among, fresh⟩ := placed
  refine routed.moved moved ⟨once, known, ?_⟩ (fun kind there => ?_) (by rw [place]; rfl)
  · rw [if_pos rfl, mine]
    exact ⟨among, fresh⟩
  · by_cases same : own = kind
    · subst same
      exact (routed.lanes own there).sent place fresh moved
    · refine (routed.lanes kind there).elsewhere moved same ?_ ?_ ?_ ?_
      · simp [place, entering]
      · simp [place, pushing, same]
      · rintro _ _ sending
        cases sending
      · simp [hand, place, mine, same]

theorem Routed.within (routed : Routed d) {step : SaceExcutor.Step}
    (moved : d.move own step d.place = some e)
    (keeps : ∀ t, (d.excutor own).step (receiveMsgTimeout own) step = some t →
      t.sent = (d.excutor own).sent ∧ t.entered = (d.excutor own).entered ∧
        t.pushed = (d.excutor own).pushed ∧ (t.mExit = false → (d.excutor own).mExit = false)) :
    Routed e :=
  routed.moved moved routed.placed (fun kind there => (routed.lanes kind there).within moved keeps)
    rfl

/-- What the main thread notes about its stop is nothing to the messages. -/
theorem Routed.noted (routed : Routed d) (stopping : Option (List StopAction)) (mExit : Bool) :
    Routed { d with stopping, mExit } :=
  ⟨routed.placed, fun kind there =>
    (routed.lanes kind there).kept rfl rfl rfl rfl fun open_ => ⟨open_, rfl⟩, routed.strangers⟩

theorem Routed.step (routed : Routed d) {a : Step} (moved : d.step a = some e) : Routed e := by
  cases step_moved moved with
  | posted =>
    refine ⟨routed.placed, fun kind there => (routed.lanes kind there).post _, ?_⟩
    rw [strangers_append, strangers_append, ← List.append_assoc, routed.strangers]
  | taken polling looper => exact routed.taken polling looper
  | idle => exact routed
  | left polling => exact routed.left polling
  | passed place why => exact routed.passed place why
  | entered place mine _ moved => exact routed.entered place mine moved
  | offered place => exact routed.offered place
  | pushed place moved => exact routed.pushed place moved
  | sent place moved => exact routed.sent place moved
  | ran own moved =>
    refine routed.within moved fun t stepped => ?_
    obtain ⟨sent, exit, entered, pushed, _⟩ := thread_keeps own stepped
    exact ⟨sent, entered, pushed, fun running => exit ▸ running⟩
  | begun => exact routed.noted _ _
  | told _ acted =>
    refine (routed.within acted fun t stepped => ?_).noted _ _
    cases stepped
    exact ⟨rfl, rfl, rfl, fun running => nomatch running⟩
  | woken _ acted =>
    refine (routed.within acted fun t stepped => ?_).noted _ _
    simp only [SaceExcutor.step, Option.ite_none_right_eq_some] at stepped
    obtain ⟨_, stepped⟩ := stepped
    cases stepped
    exact ⟨rfl, rfl, rfl, id⟩
  | awaited => exact routed.noted _ _
  | exits => exact routed.noted _ _

theorem Routed.posts (routed : Routed d) (msgs : List Posted) :
    Routed { d with mLooper := d.mLooper ++ msgs, posted := d.posted ++ msgs } := by
  induction msgs generalizing d with
  | nil => simpa using routed
  | cons msg rest ih =>
    have step := ih (routed.step (a := .post msg) rfl)
    simpa using step

theorem routed_start (mExit : Bool) : Routed (start mExit) :=
  ⟨trivial,
    fun _ _ => ⟨⟨rfl, fun _ => Nat.zero_le _⟩, rfl, rfl, fun _ => rfl, List.nil_prefix⟩, rfl⟩

/-- Each executor executes the messages that were posted for it and no others, in the order in
which they were posted and each once. Until it is told to stop none is lost on the way, and its
thread is woken for every message that has arrived. handleDefaultMessage has got every message
that is for none of the executors, but for the one in handleMessage and those in the looper. -/
theorem reached_routed {mExit : Bool}
    (reached : Runs.Reached step (fun _ _ => True) (start mExit) d)
    {kind : SaceMessageHandlerType} (known : kind ∈ mExcutor) :
    let excutor := d.excutor kind
    excutor.excuted <+: messagesFor kind d.posted ∧
    (excutor.mExit = false →
      excutor.excuted ++ excutor.mCmdQueue ++ d.hand kind ++ messagesFor kind d.mLooper =
        messagesFor kind d.posted ∧
      (excutor.place = .waiting → excutor.mCmdQueue ≠ [] →
        excutor.mSyncSem ≠ 0 ∨ ∃ msg rest, d.place = .posting msg kind rest)) ∧
    d.defaulted ++ strangers (held d.place) ++ strangers d.mLooper = strangers d.posted := by
  have routed : Routed d := reached.invariant (routed_start mExit) fun _ _ _ routed _ moved =>
    routed.step moved
  have lane := routed.lanes kind known
  intro excutor
  have fifo : excutor.excuted ++ excutor.mCmdQueue = excutor.sent := lane.counted.fifo
  refine ⟨?_, fun running => ⟨?_, fun waiting nonempty => ?_⟩, routed.strangers⟩
  · exact (fifo ▸ List.prefix_append ..).trans lane.part
  · rw [fifo]
    exact lane.whole (.inl running)
  · have tokens : excutor.mCmdQueue.length ≤
        excutor.mSyncSem + excutor.pushed + excutor.between := lane.counted.tokens running
    have length := List.length_pos_of_ne_nil nonempty
    have between : excutor.between = 0 := by simp [SaceExcutor.between, waiting]
    have pushed : excutor.pushed = pushing kind d.place := lane.pushed
    by_cases token : excutor.mSyncSem = 0
    · right
      have posts : pushing kind d.place ≠ 0 := by omega
      unfold pushing at posts
      split at posts
      · rename_i msg own rest place
        split at posts
        · rename_i same
          exact ⟨msg, rest, same ▸ place⟩
        · exact absurd rfl posts
      · exact absurd rfl posts
    · exact .inl token

end Run

def eventRequest : Posted := .message
  { msgHandler := .event
    msgCmd := { type := .event, sequence := 7, name := str "200:1" }
    msgWriter := ⟨.socket 5, 200⟩
    msgClient := ⟨1000, 200⟩ }

def strange : Posted := .message
  { msgHandler := .unkown
    msgCmd := { type := ⟨9⟩, sequence := 8, name := [] }
    msgWriter := ⟨.socket 5, 200⟩
    msgClient := ⟨1000, 200⟩ }

/-- A request goes all the way, and one that nobody is there for comes in meanwhile. -/
def served : List Step :=
  [.post eventRequest, .poll .callback, .handle, .handle, .handle, .handle, .post strange, .handle,
    .thread .event .token, .thread .event .test, .thread .event .pop, .handle,
    .poll .callback, .handle, .handle, .handle, .handle]

theorem served_routed : ∃ d, Runs.run step (start false) served = some d ∧
    (d.excutor .event).excuted = [eventRequest] ∧ d.defaulted = [strange] ∧
    (d.excutor .event).excuted <+: messagesFor .event d.posted ∧
    d.defaulted ++ strangers (held d.place) ++ strangers d.mLooper = strangers d.posted := by
  have last : (Runs.run step (start false) served).map
      (fun d => ((d.excutor .event).excuted, d.defaulted)) = some ([eventRequest], [strange]) := rfl
  obtain ⟨d, ran, parts⟩ := Option.map_eq_some_iff.mp last
  obtain ⟨excuted, defaulted⟩ := Prod.mk.inj parts
  have reached := Runs.run_reached (Runs.admitted_of_all (fun _ _ => trivial) _) ran
  obtain ⟨first, _, others⟩ := reached_routed reached (show .event ∈ mExcutor by decide)
  exact ⟨d, ran, excuted, defaulted, first, others⟩

end SaceCommandDispatcher
end Sace
