import Sace.Event.Monitor
import Sace.Library.Shared
import Sace.Saced.Queue

/-! The one stop message of SaceEvent on its way through the looper and the service executor's
queue. -/
namespace Sace

namespace SaceEvent

def requestStops (e : SaceEvent) (saceCmd : SaceCommand) : Option UInt64 :=
  if saceCmd.eventType = .del ∧ saceCmd.name ∈ e.events ∧ stopFlag saceCmd then
    e.runningEvents[saceCmd.name]?
  else none

def workStops (e : SaceEvent) : Work → Option UInt64
  | .request msg _ => e.requestStops msg.msgCmd
  | _ => none

variable {e t : SaceEvent}

/-- A stop message is posted for every call of stop_event, and only a call changes the label. -/
structure StopsOnce (e t : SaceEvent) (trace : List Effect) (called : Option UInt64) : Prop where
  posts : (posted trace).count .stopMsg = called.toList.length
  label : t.stopLabel = called.getD e.stopLabel

theorem StopsOnce.silent {A : Type} {x : Exec A} (quiet : Traced.Every (· ≠ .post .stopMsg) x)
    (label : t.stopLabel = e.stopLabel) : StopsOnce e t x.trace none where
  posts := List.count_eq_zero.mpr fun member => quiet _ (mem_posted.mp member) rfl
  label := label

theorem addWriters_label (e : SaceEvent) (name : Str) (writer : SaceWriter) :
    (e.addWriters name writer).stopLabel = e.stopLabel := by
  obtain ⟨writers, eq⟩ := addWriters_eq e name writer
  rw [eq]

theorem requestStops_deleted {saceCmd : SaceCommand} (kind : saceCmd.eventType = .del)
    (there : saceCmd.name ∈ e.events) : e.requestStops saceCmd =
      if stopFlag saceCmd then e.runningEvents[saceCmd.name]? else none := by
  simp only [requestStops, kind, there, true_and]

theorem deleted_label {saceCmd : SaceCommand} (writer : SaceWriter)
    (kind : saceCmd.eventType = .del) (there : saceCmd.name ∈ e.events) :
    (e.deleted saceCmd writer).stopLabel = (e.requestStops saceCmd).getD e.stopLabel := by
  rw [requestStops_deleted kind there]
  cases stop : stopFlag saceCmd with
  | false => simp only [deleted, stop, Bool.false_eq_true, if_false, Option.getD_none]
  | true =>
    cases running : e.runningEvents[saceCmd.name]? with
    | none => simp only [deleted, stop, running, if_true, Option.getD_none]
    | some label => simp only [deleted, stop, running, if_true, addWriters_label, Option.getD_some]

theorem deletePosts_once {saceCmd : SaceCommand} (kind : saceCmd.eventType = .del)
    (there : saceCmd.name ∈ e.events) :
    (posted (e.deletePosts saceCmd)).count .stopMsg =
      (e.requestStops saceCmd).toList.length := by
  rw [requestStops_deleted kind there, deletePosts]
  cases stop : stopFlag saceCmd with
  | false => simp [posted]
  | true =>
    cases running : e.runningEvents[saceCmd.name]? with
    | none =>
      have idle : saceCmd.name ∉ e.runningEvents := Table.notMem_of_none running
      simp [idle, posted]
    | some label =>
      have runs : saceCmd.name ∈ e.runningEvents := Table.mem_of_some running
      simp [runs, posted]

theorem delEvent_stops {saceCmd : SaceCommand} {writer : SaceWriter} {outcome : Outcome}
    (kind : saceCmd.eventType = .del)
    (done : (e.delEvent saceCmd writer).result = .ok (t, outcome)) :
    StopsOnce e t (e.delEvent saceCmd writer).trace (e.requestStops saceCmd) := by
  by_cases there : saceCmd.name ∈ e.events
  · rw [delEvent_some there] at done ⊢
    obtain ⟨_, copied, done⟩ := Traced.bind_ok.mp done
    rw [memcpy_of_le (memcpy_fits copied), Traced.bind_of_ok rfl]
    cases done
    refine ⟨?_, deleted_label writer kind there⟩
    rw [← deletePosts_once kind there]
    simp [posted]
  · have none : e.requestStops saceCmd = none := if_neg fun stops => there stops.2.1
    rw [delEvent_none there] at done ⊢
    rw [none]
    apply StopsOnce.silent
    · exact (memcpy_every (by simp)).then_pure _
    · obtain ⟨_, _, done⟩ := Traced.bind_ok.mp done
      cases done
      rfl

theorem request_stops {saceCmd : SaceCommand} {writer : SaceWriter} {env : EventEnv}
    {outcome : Outcome} (done : (e.request saceCmd writer env).result = .ok (t, outcome)) :
    StopsOnce e t (e.request saceCmd writer env).trace (e.requestStops saceCmd) := by
  by_cases kind : saceCmd.eventType = .del
  · have branch : e.request saceCmd writer env = e.delEvent saceCmd writer := if_pos kind
    rw [branch] at done ⊢
    exact delEvent_stops kind done
  have none : e.requestStops saceCmd = none := if_neg fun stops => kind stops.1
  rw [none]
  apply StopsOnce.silent
  · rw [request, if_neg kind]
    split
    · rename_i add
      exact addEvent_every (by simp) add (by simp)
    split
    · exact infoEvent_every (by simp) (by simp)
    · exact Traced.every_pure _
  · unfold request at done
    rw [if_neg kind] at done
    split at done
    · rcases addEvent_change done with rfl | ⟨_, _, _, _, _, _, rfl⟩ <;> rfl
    split at done
    · rcases infoEvent_change done with ⟨rfl, _⟩ | ⟨_, rfl, _⟩
      · rfl
      · exact addWriters_label _ _ _
    · cases done
      rfl

theorem excuteNormal_stops {msg : SaceReaderMessage} {env : EventEnv}
    (done : (e.excuteNormal msg env).result = .ok t) :
    StopsOnce e t (e.excuteNormal msg env).trace (e.requestStops msg.msgCmd) := by
  obtain ⟨outcome, requested⟩ := excuteNormal_request done
  have stops := request_stops requested
  refine ⟨?_, stops.label⟩
  have quiet : Traced.Every (· ≠ .post .stopMsg) (finish msg env (t, outcome)) :=
    finish_every (by simp) (by simp) _
  have last := (StopsOnce.silent (e := e) quiet rfl).posts
  rw [excuteNormal_eq, Traced.bind_of_ok requested, ← stops.posts]
  simp only [posted, List.filterMap_append, List.count_append] at last ⊢
  rw [last]
  rfl

theorem startEvent_label {id : Nat} (done : (e.startEvent id).result = .ok t) :
    t.stopLabel = e.stopLabel := by
  obtain ⟨_, _, rfl, _⟩ := startEvent_ok done
  rfl

theorem pollEvent_label {properties : Str → Str} {id : Nat}
    (done : (e.pollEvent properties id).result = .ok t) : t.stopLabel = e.stopLabel := by
  obtain ⟨service, _, started | rfl⟩ := pollEvent_ok done
  · rw [startEvent_label started]
    rfl
  · rfl

theorem handleResponse_label {response : SaceStatusResponse}
    (done : (e.handleResponse response).result = .ok t) : t.stopLabel = e.stopLabel := by
  unfold handleResponse at done
  split at done
  · rw [passResponse_ok done]
  split at done
  · obtain ⟨⟨u, restarted⟩, asked, done⟩ := Traced.bind_ok.mp done
    have same : u.stopLabel = e.stopLabel := by
      unfold restartEvent at asked
      split at asked
      · cases asked
        rfl
      · obtain ⟨_, _, asked⟩ := Traced.bind_ok.mp asked
        split at asked <;> cases asked <;> rfl
    dsimp only at done
    split at done
    · cases done
      exact same
    · rw [passResponse_ok done]
      exact same
  · rw [passResponse_ok done]

theorem handleResult_label_same {result : SaceResult}
    (done : (e.handleResult result).result = .ok t) : t.stopLabel = e.stopLabel := by
  unfold handleResult at done
  split at done
  · rw [passResult_ok done]
  split at done
  · split at done
    · exact startEvent_label done
    · rw [passResult_ok done]
  split at done
  · obtain ⟨_, _, done⟩ := Traced.bind_ok.mp done
    rw [passResult_ok done]
  · rw [passResult_ok done]

theorem work_stops {work : Work} (done : (e.work work).result = .ok t) :
    StopsOnce e t (e.work work).trace (e.workStops work) := by
  cases work with
  | request msg env => exact excuteNormal_stops done
  | snapshot =>
    cases done
    exact .silent (by simp [SaceEvent.work]) rfl
  | poll properties id =>
    exact .silent (pollEvent_every (by simp) (by simp) properties id) (pollEvent_label done)
  | restart id => exact .silent (startEvent_every (by simp) (by simp) id) (startEvent_label done)
  | notice notice =>
    cases notice with
    | result result =>
      exact .silent (handleResult_every (by simp) (by simp) (by simp))
        (handleResult_label_same done)
    | response response =>
      exact .silent (handleResponse_every (by simp)) (handleResponse_label done)

end SaceEvent

namespace SaceExcutor

def excuting (s : SaceExcutor) : List Posted :=
  match s.place with
  | .excuting (some saceMsg) => [saceMsg]
  | _ => []

structure Between (s t : SaceExcutor) : Prop where
  queue : t.mCmdQueue = s.mCmdQueue
  excuting : t.excuting = s.excuting
  exited : t.place = .exited ↔ s.place = .exited

/-- A message is taken, is done, or the thread goes; every other step of the thread and of those
who stop it is between these. -/
theorem thread_between {outTime : Int} {s t : SaceExcutor} {a : Step}
    (moved : s.step outTime a = some t) (push : ∀ msg, a ≠ .push msg) (test : a ≠ .test)
    (pop : a ≠ .pop) (excuted : a ≠ .excuted) : Between s t := by
  cases a with
  | enter =>
    simp only [step] at moved
    split at moved
    · cases moved
    · cases moved
      exact ⟨rfl, rfl, .rfl⟩
  | push msg => exact absurd rfl (push msg)
  | post =>
    simp only [step] at moved
    split at moved
    · cases moved
    · cases moved
      exact ⟨rfl, rfl, .rfl⟩
  | token =>
    simp only [step, Option.ite_none_right_eq_some] at moved
    obtain ⟨⟨waiting, _⟩, moved⟩ := moved
    cases moved
    exact ⟨rfl, by simp only [SaceExcutor.excuting, waiting], by simp [waiting]⟩
  | timedOut =>
    simp only [step, Option.ite_none_right_eq_some] at moved
    obtain ⟨⟨waiting, _⟩, moved⟩ := moved
    cases moved
    exact ⟨rfl, by simp only [SaceExcutor.excuting, waiting], by simp [waiting]⟩
  | timeoutDone =>
    simp only [step, Option.ite_none_right_eq_some] at moved
    obtain ⟨timeout, moved⟩ := moved
    cases moved
    exact ⟨rfl, by simp only [SaceExcutor.excuting, timeout], by simp [timeout]⟩
  | interrupted =>
    simp only [step, Option.ite_none_right_eq_some] at moved
    obtain ⟨waiting, moved⟩ := moved
    cases moved
    exact ⟨rfl, by simp only [SaceExcutor.excuting, waiting], by simp [waiting]⟩
  | test => exact absurd rfl test
  | pop => exact absurd rfl pop
  | excuted => exact absurd rfl excuted
  | exit =>
    cases moved
    exact ⟨rfl, rfl, .rfl⟩
  | exitPost =>
    simp only [step, Option.ite_none_right_eq_some] at moved
    obtain ⟨_, moved⟩ := moved
    cases moved
    exact ⟨rfl, rfl, .rfl⟩

end SaceExcutor

/-- SaceEvent and what is under way from it to the service executor. `posting` is what the
executor's thread has yet to post in its turn, `stopping` what onUninit has, and `leaving` are the
events that onUninit has still to stop. All labels with which stop_event
was called and all that were read from the stop message are kept beside them. -/
structure Stopping where
  event : SaceEvent
  running : Bool := true
  posting : List Posted := []
  leaving : List (Str × UInt64) := []
  stopping : List Posted := []
  looper : List Posted := []
  dispatched : Option Posted := none
  service : SaceExcutor := {}
  called : List UInt64 := []
  processed : List UInt64 := []

namespace Stopping

/-- The steps of SaceEvent's threads, of the other posters, of the dispatcher and of the service
executor's thread. -/
inductive Input where
  | work (work : SaceEvent.Work)
  /-- The executor's thread gets to the posts of its turn. -/
  | post
  | uninit
  | stopNext
  | stopPost
  /-- Somebody else posts a message. -/
  | client (msg : SaceReaderMessage)
  | dispatch
  | push
  | thread (step : SaceExcutor.Step)

def handler : Posted → SaceMessageHandlerType
  | .message msg => msg.msgHandler
  | .stopMsg => .service

def reads (s : Stopping) : Posted → List UInt64
  | .message _ => []
  | .stopMsg => [s.event.mStopMsg.msgCmd.label]

def TIMEOUT : Int := 1

def step (s : Stopping) : Input → Option Stopping
  | .work work =>
    match work with
    | .request msg env =>
      if s.posting ≠ [] then none
      else (s.event.work (.request msg env)).value.map fun event =>
        { s with
          event
          posting := posted (s.event.work (.request msg env)).trace
          called := s.called ++ (s.event.workStops (.request msg env)).toList }
    | work =>
      if s.running then
        (s.event.work work).value.map fun event =>
          { s with event, looper := s.looper ++ posted (s.event.work work).trace }
      else none
  | .post => some { s with posting := [], looper := s.looper ++ s.posting }
  | .uninit =>
    if s.running then some { s with running := false, leaving := s.event.runningEvents.toList }
    else none
  | .stopNext =>
    match s.leaving with
    | sve :: rest =>
      if s.stopping ≠ [] then none
      else (s.event.stopEvent sve.2 0).value.map fun event =>
        { s with
          event
          leaving := rest
          stopping := posted (s.event.stopEvent sve.2 0).trace
          called := s.called ++ [sve.2] }
    | [] => none
  | .stopPost => some { s with stopping := [], looper := s.looper ++ s.stopping }
  | .client msg => some { s with looper := s.looper ++ [.message msg] }
  | .dispatch =>
    if s.dispatched ≠ none ∨ s.service.pushed ≠ 0 then none
    else match s.looper with
      | [] => none
      | msg :: rest =>
        if handler msg ≠ .service then some { s with looper := rest }
        else match s.service.step TIMEOUT .enter with
          | none => some { s with looper := rest }
          | some service => some { s with looper := rest, dispatched := some msg, service }
  | .push =>
    match s.dispatched with
    | none => none
    | some msg => (s.service.step TIMEOUT (.push msg)).map fun service =>
      { s with dispatched := none, service }
  | .thread step =>
    match step with
    | .enter | .push _ => none
    | .excuted => (s.service.step TIMEOUT .excuted).map fun service =>
      { s with service, processed := s.processed ++ s.service.excuting.flatMap s.reads }
    | step => (s.service.step TIMEOUT step).map fun service => { s with service }

/-! ### The stop message as a shared cell -/

def onTheWay (s : Stopping) : Nat :=
  s.posting.count .stopMsg + s.stopping.count .stopMsg + s.looper.count .stopMsg +
    s.dispatched.toList.count .stopMsg + s.service.mCmdQueue.count .stopMsg

def outstanding (s : Stopping) : Nat := s.onTheWay + s.service.excuting.count .stopMsg

def shared (s : Stopping) : Shared UInt64 where
  cell := s.event.stopLabel
  waiting := s.onTheWay
  held := s.service.excuting.count .stopMsg
  closed := s.service.place = .exited
  called := s.called
  processed := s.processed

def stops (s : Stopping) : Input → Option UInt64
  | .work work => s.event.workStops work
  | .stopNext => s.leaving.head?.map Prod.snd
  | _ => none

def meaning (s : Stopping) : Input → Option (Shared.Event UInt64)
  | .dispatch => if s.looper.head? = some .stopMsg ∧ s.service.mExit then some .lose else none
  | .thread .test => if s.service.mExit then some .close else none
  | .thread .pop => if s.service.mCmdQueue.head? = some .stopMsg then some .take else none
  | .thread .excuted => if s.service.excuting = [.stopMsg] then some .read else none
  | input => (s.stops input).map .post

/-- stop_event is called only with the label that the message has or when no stop is outstanding,
and not after the executor's thread has gone; the dispatcher has no stop to drop; and the thread
goes only when no stop is left. -/
structure Careful (s : Stopping) (input : Input) : Prop where
  alone : ∀ label, s.stops input = some label →
    s.service.place ≠ .exited ∧ (s.outstanding = 0 ∨ s.event.stopLabel = label)
  kept : input = .dispatch → s.looper.head? = some .stopMsg → s.service.mExit = false
  last : input = .thread .test → s.service.mExit = true → s.onTheWay = 0

variable {s t : Stopping}

theorem careful_post {label : UInt64} : s.shared.Careful (.post label) ↔
    s.service.place ≠ .exited ∧ (s.outstanding = 0 ∨ s.event.stopLabel = label) := by
  simp only [Shared.Careful, shared, decide_eq_false_iff_not]
  rfl

theorem careful_posts {input : Input} (dispatch : input ≠ .dispatch) (test : input ≠ .thread .test)
    (means : s.meaning input = (s.stops input).map .post) :
    s.Careful input ↔ ∀ event, s.meaning input = some event → s.shared.Careful event := by
  rw [means]
  constructor
  · intro careful event called
    obtain ⟨label, stops, rfl⟩ := Option.map_eq_some_iff.mp called
    exact careful_post.mpr (careful.alone label stops)
  · intro all
    refine ⟨fun label stops => careful_post.mp (all _ ?_), fun here => absurd here dispatch,
      fun here => absurd here test⟩
    rw [stops, Option.map_some]

theorem careful_iff {input : Input} :
    s.Careful input ↔ ∀ event, s.meaning input = some event → s.shared.Careful event := by
  have still (means : ∀ event, s.meaning input = some event → s.shared.Careful event)
      (dispatch : input ≠ .dispatch) (test : input ≠ .thread .test) (stops : s.stops input = none) :
      s.Careful input ↔ ∀ event, s.meaning input = some event → s.shared.Careful event := by
    refine iff_of_true ⟨fun label called => ?_, fun here => absurd here dispatch,
      fun here => absurd here test⟩ means
    cases stops.symm.trans called
  cases input with
  | dispatch =>
    simp only [meaning, Option.ite_none_right_eq_some]
    constructor
    · rintro careful event ⟨⟨head, exit⟩, _⟩
      have running := careful.kept rfl head
      exact absurd exit (by simp [running])
    · intro all
      refine ⟨nofun, fun _ head => ?_, nofun⟩
      cases exit : s.service.mExit with
      | false => rfl
      | true => exact (all .lose ⟨⟨head, exit⟩, rfl⟩).elim
  | thread a =>
    cases a with
    | test =>
      simp only [meaning, Option.ite_none_right_eq_some]
      constructor
      · rintro careful event ⟨exit, closes⟩
        cases closes
        exact careful.last rfl exit
      · intro all
        exact ⟨nofun, nofun, fun _ exit => all .close ⟨exit, rfl⟩⟩
    | pop =>
      refine still (fun event means => ?_) nofun nofun rfl
      simp only [meaning, Option.ite_none_right_eq_some] at means
      obtain ⟨_, means⟩ := means
      cases means
      trivial
    | excuted =>
      refine still (fun event means => ?_) nofun nofun rfl
      simp only [meaning, Option.ite_none_right_eq_some] at means
      obtain ⟨_, means⟩ := means
      cases means
      trivial
    | _ => exact careful_posts nofun nofun rfl
  | _ => exact careful_posts nofun nofun rfl

/-- A step of SaceEvent or of another poster: the posts are as many as the calls. -/
theorem called_shared {called : Option UInt64}
    (cell : t.event.stopLabel = called.getD s.event.stopLabel)
    (posts : t.onTheWay = s.onTheWay + called.toList.length) (service : t.service = s.service)
    (calls : t.called = s.called ++ called.toList) (processed : t.processed = s.processed) :
    (called.map Shared.Event.post).elim (some s.shared) s.shared.step = some t.shared := by
  cases called with
  | none =>
    have posts : t.onTheWay = s.onTheWay := posts
    simp only [Option.map_none, Option.elim_none, shared, cell, posts, service, calls, processed,
      Option.getD_none, Option.toList_none, List.append_nil]
  | some label =>
    have posts : t.onTheWay = s.onTheWay + 1 := posts
    simp only [Option.map_some, Option.elim_some, Shared.step, shared, cell, posts, service, calls,
      processed, Option.getD_some, Option.toList_some]

theorem work_shared {work : SaceEvent.Work} (moved : s.step (.work work) = some t) :
    ((s.event.workStops work).map Shared.Event.post).elim (some s.shared) s.shared.step =
      some t.shared := by
  have other (plain : s.event.workStops work = none) (moved : (if s.running then
      (s.event.work work).value.map fun event =>
        ({ s with event, looper := s.looper ++ posted (s.event.work work).trace } : Stopping)
      else none) = some t) : ((s.event.workStops work).map Shared.Event.post).elim
        (some s.shared) s.shared.step = some t.shared := by
    simp only [Option.ite_none_right_eq_some, Option.map_eq_some_iff, Traced.value_eq_some] at moved
    obtain ⟨_, event, done, rfl⟩ := moved
    obtain ⟨posts, label⟩ := SaceEvent.work_stops done
    rw [plain] at posts label ⊢
    refine @called_shared s _ none label ?_ rfl (List.append_nil _).symm rfl
    simp only [onTheWay, List.count_append, posts]
    omega
  cases work with
  | request msg env =>
    simp only [step] at moved
    split at moved
    · cases moved
    · rename_i idle
      have idle := not_not.mp idle
      simp only [Option.map_eq_some_iff, Traced.value_eq_some] at moved
      obtain ⟨event, done, rfl⟩ := moved
      obtain ⟨posts, label⟩ := SaceEvent.work_stops done
      refine called_shared label ?_ rfl rfl rfl
      simp only [onTheWay, idle, List.count_nil, posts]
      omega
  | snapshot => exact other rfl moved
  | poll properties id => exact other rfl moved
  | restart id => exact other rfl moved
  | notice notice => exact other rfl moved

theorem stopNext_shared (moved : s.step .stopNext = some t) :
    ((s.stops .stopNext).map Shared.Event.post).elim (some s.shared) s.shared.step =
      some t.shared := by
  cases leaving : s.leaving with
  | nil => simp only [step, leaving, reduceCtorEq] at moved
  | cons sve rest =>
    simp only [step, leaving] at moved
    split at moved
    · cases moved
    · rename_i idle
      have idle := not_not.mp idle
      cases moved
      simp only [stops, leaving, List.head?_cons]
      refine @called_shared s _ (some sve.2) rfl ?_ rfl rfl rfl
      simp [onTheWay, idle, posted, SaceEvent.stopEvent]
      omega

theorem dispatch_shared (moved : s.step .dispatch = some t) :
    (s.meaning .dispatch).elim (some s.shared) s.shared.step = some t.shared := by
  simp only [step] at moved
  split at moved
  · cases moved
  rename_i free
  have free : s.dispatched = none := by
    by_contra busy
    exact free (.inl busy)
  split at moved
  · cases moved
  · rename_i msg rest looper
    split at moved
    · rename_i other
      have plain : msg ≠ .stopMsg := fun same => other (same ▸ rfl)
      cases moved
      simp [meaning, looper, plain, shared, onTheWay]
    split at moved
    · rename_i refused
      have exit : s.service.mExit = true := by simpa [SaceExcutor.step] using refused
      cases moved
      by_cases stop : msg = .stopMsg
      · have count : s.looper.count .stopMsg = rest.count .stopMsg + 1 := by
          rw [looper, stop, List.count_cons_self]
        have means : s.meaning .dispatch = some .lose := by simp [meaning, looper, stop, exit]
        simp only [means, Option.elim_some, Shared.step, shared, onTheWay, count]
        rw [if_pos (by omega)]
        congr 2
        omega
      · simp [meaning, looper, stop, shared, onTheWay]
    · rename_i service entered
      simp only [SaceExcutor.step, Option.ite_none_left_eq_some, Bool.not_eq_true] at entered
      obtain ⟨running, entered⟩ := entered
      cases entered
      cases moved
      have means : s.meaning .dispatch = none := by simp [meaning, running]
      have count : s.looper.count .stopMsg = rest.count .stopMsg + [msg].count .stopMsg := by
        rw [looper, ← List.singleton_append, List.count_append, Nat.add_comm]
      simp only [means, Option.elim_none, shared, onTheWay, count, free, Option.toList_none,
        Option.toList_some, List.count_nil]
      congr 2
      omega

theorem push_shared (moved : s.step .push = some t) : t.shared = s.shared := by
  simp only [step] at moved
  split at moved
  · cases moved
  · rename_i msg dispatched
    simp only [SaceExcutor.step, Option.map_eq_some_iff, Option.ite_none_left_eq_some] at moved
    obtain ⟨service, ⟨_, pushed⟩, moved⟩ := moved
    cases pushed
    cases moved
    simp only [shared, onTheWay, dispatched, Option.toList_none, Option.toList_some, List.count_nil,
      List.count_append]
    congr 1
    omega

theorem between_shared {service : SaceExcutor} (between : s.service.Between service) :
    ({ s with service } : Stopping).shared = s.shared := by
  simp only [shared, onTheWay, between.queue, between.excuting, between.exited]

theorem test_shared (moved : s.step (.thread .test) = some t) :
    (s.meaning (.thread .test)).elim (some s.shared) s.shared.step = some t.shared := by
  simp only [step, SaceExcutor.step, Option.map_eq_some_iff, Option.ite_none_right_eq_some] at moved
  obtain ⟨service, ⟨woken, tested⟩, moved⟩ := moved
  cases tested
  cases moved
  cases exit : s.service.mExit with
  | true =>
    simp [meaning, exit, Shared.step, shared, onTheWay, SaceExcutor.excuting, woken]
  | false =>
    simp [meaning, exit, shared, onTheWay, SaceExcutor.excuting, woken]

theorem pop_shared (moved : s.step (.thread .pop) = some t) :
    (s.meaning (.thread .pop)).elim (some s.shared) s.shared.step = some t.shared := by
  simp only [step, SaceExcutor.step, Option.map_eq_some_iff, Option.ite_none_right_eq_some] at moved
  obtain ⟨service, ⟨tested, popped⟩, moved⟩ := moved
  split at popped
  · rename_i saceMsg rest queue
    cases popped
    cases moved
    by_cases stop : saceMsg = .stopMsg
    · have means : s.meaning (.thread .pop) = some .take := by simp [meaning, queue, stop]
      have count : s.service.mCmdQueue.count .stopMsg = rest.count .stopMsg + 1 := by
        rw [queue, stop, List.count_cons_self]
      simp only [means, Option.elim_some, Shared.step, shared, onTheWay, count,
        SaceExcutor.excuting, tested, stop]
      rw [if_pos ⟨by simp, by omega⟩]
      congr 2
    · simp [meaning, queue, stop, shared, onTheWay, SaceExcutor.excuting, tested]
  · rename_i queue
    cases popped
    cases moved
    simp [meaning, queue, shared, onTheWay, SaceExcutor.excuting, tested]

theorem excuted_shared (moved : s.step (.thread .excuted) = some t) :
    (s.meaning (.thread .excuted)).elim (some s.shared) s.shared.step = some t.shared := by
  simp only [step, SaceExcutor.step, Option.map_eq_some_iff] at moved
  obtain ⟨service, done, moved⟩ := moved
  split at done
  · rename_i saceMsg excuting
    cases done
    cases moved
    cases saceMsg with
    | none => simp [meaning, shared, onTheWay, SaceExcutor.excuting, excuting]
    | some posted =>
      cases posted with
      | message msg => simp [meaning, shared, onTheWay, SaceExcutor.excuting, excuting, reads]
      | stopMsg =>
        simp [meaning, Shared.step, shared, onTheWay, SaceExcutor.excuting, excuting, reads,
          SaceEvent.mStopMsg]
  · cases done

theorem thread_shared {a : SaceExcutor.Step} (moved : s.step (.thread a) = some t) :
    (s.meaning (.thread a)).elim (some s.shared) s.shared.step = some t.shared := by
  have other (plain : s.meaning (.thread a) = none) (moved : ((s.service.step TIMEOUT a).map
      fun service => ({ s with service } : Stopping)) = some t) (push : ∀ msg, a ≠ .push msg)
      (test : a ≠ .test) (pop : a ≠ .pop) (excuted : a ≠ .excuted) :
      (s.meaning (.thread a)).elim (some s.shared) s.shared.step = some t.shared := by
    obtain ⟨service, stepped, rfl⟩ := Option.map_eq_some_iff.mp moved
    have between := SaceExcutor.thread_between stepped push test pop excuted
    rw [plain, between_shared between]
    rfl
  cases a with
  | enter => cases moved
  | push msg => cases moved
  | test => exact test_shared moved
  | pop => exact pop_shared moved
  | excuted => exact excuted_shared moved
  | post => exact other rfl moved (fun _ => nofun) nofun nofun nofun
  | token => exact other rfl moved (fun _ => nofun) nofun nofun nofun
  | timedOut => exact other rfl moved (fun _ => nofun) nofun nofun nofun
  | timeoutDone => exact other rfl moved (fun _ => nofun) nofun nofun nofun
  | interrupted => exact other rfl moved (fun _ => nofun) nofun nofun nofun
  | exit => exact other rfl moved (fun _ => nofun) nofun nofun nofun
  | exitPost => exact other rfl moved (fun _ => nofun) nofun nofun nofun

/-- Every step keeps the cell as it is or does to it what the step means. -/
theorem step_shared {input : Input} (moved : s.step input = some t) :
    (s.meaning input).elim (some s.shared) s.shared.step = some t.shared := by
  cases input with
  | work work => exact work_shared moved
  | post =>
    cases moved
    refine @called_shared s _ none rfl ?_ rfl (List.append_nil _).symm rfl
    simp only [onTheWay, List.count_nil, List.count_append, Option.toList_none, List.length_nil]
    omega
  | uninit =>
    simp only [step, Option.ite_none_right_eq_some] at moved
    obtain ⟨_, moved⟩ := moved
    cases moved
    rfl
  | stopNext => exact stopNext_shared moved
  | stopPost =>
    cases moved
    refine @called_shared s _ none rfl ?_ rfl (List.append_nil _).symm rfl
    simp only [onTheWay, List.count_nil, List.count_append, Option.toList_none, List.length_nil]
    omega
  | client msg =>
    cases moved
    simp [meaning, stops, shared, onTheWay]
  | dispatch => exact dispatch_shared moved
  | push =>
    rw [push_shared moved]
    rfl
  | thread a => exact thread_shared moved

/-! ### Runs -/

theorem step_good {input : Input} (good : s.shared.Good ∧ s.shared.Base) (careful : s.Careful input)
    (moved : s.step input = some t) : t.shared.Good ∧ t.shared.Base := by
  have simulated := step_shared moved
  cases means : s.meaning input with
  | none =>
    rw [means] at simulated
    exact Option.some.inj simulated ▸ good
  | some event =>
    rw [means] at simulated
    exact ⟨good.1.step (careful_iff.mp careful event means) simulated, good.2.step simulated⟩

theorem step_careless {input : Input} (good : s.shared.Good ∧ s.shared.Base)
    (careless : ¬ s.Careful input) (moved : s.step input = some t) :
    t.shared.Bad ∧ t.shared.Base := by
  have simulated := step_shared moved
  rw [careful_iff, not_forall] at careless
  obtain ⟨event, careless⟩ := careless
  obtain ⟨means, careless⟩ := Classical.not_imp.mp careless
  rw [means] at simulated
  exact ⟨good.1.careless careless simulated, good.2.step simulated⟩

theorem step_bad {input : Input} (bad : s.shared.Bad ∧ s.shared.Base)
    (moved : s.step input = some t) : t.shared.Bad ∧ t.shared.Base := by
  have simulated := step_shared moved
  cases means : s.meaning input with
  | none =>
    rw [means] at simulated
    exact Option.some.inj simulated ▸ bad
  | some event =>
    rw [means] at simulated
    exact ⟨bad.1.step bad.2 simulated, bad.2.step simulated⟩

theorem start_good (e : SaceEvent) :
    ({ event := e } : Stopping).shared.Good ∧ ({ event := e } : Stopping).shared.Base :=
  ⟨⟨rfl, fun _ => rfl⟩, ⟨Nat.le_refl 0, nofun⟩⟩

/-- When all steps of a run are careful, the labels processed are those of the calls, in their
order, and what is outstanding will be read with the label it was posted with; and where nothing
is outstanding, the labels processed are those of the calls only if all steps were careful. -/
theorem ran_processed (e : SaceEvent) {inputs : List Input}
    (ran : Runs.run step { event := e } inputs = some t) :
    (Runs.Admitted step Careful { event := e } inputs →
      t.called = t.processed ++ List.replicate t.outstanding t.event.stopLabel) ∧
    (t.outstanding = 0 →
      (t.processed = t.called ↔ Runs.Admitted step Careful { event := e } inputs)) := by
  rcases Runs.run_decided (fun _ _ _ => step_good) (fun _ _ _ => step_careless)
    (fun _ _ _ => step_bad) ran (start_good e) with ⟨careful, good, _⟩ | ⟨careless, bad, _⟩
  · exact ⟨fun _ => good.called, fun none => iff_of_true (good.exact none) careful⟩
  · exact ⟨fun careful => absurd careful careless,
      fun none => iff_of_false (bad.inexact none) careless⟩

def deliver : List Input :=
  [.dispatch, .push, .thread .post, .thread .token, .thread .test, .thread .pop, .thread .excuted]

def oneRunning : SaceEvent := { SaceEvent.bare with runningEvents := {(str "a", 7)} }

theorem one_processed : ∃ t,
    Runs.run step { event := oneRunning } ([.uninit, .stopNext, .stopPost] ++ deliver) = some t ∧
      (t.processed = t.called ↔ Runs.Admitted step Careful { event := oneRunning }
        ([.uninit, .stopNext, .stopPost] ++ deliver)) :=
  ⟨_, rfl, (ran_processed oneRunning rfl).2 rfl⟩

/-- Two events are running when saced goes, and the executor is slower than the loop. -/
def twoRunning : SaceEvent := { SaceEvent.bare with runningEvents := {(str "a", 7), (str "b", 8)} }

theorem second_overwrites : ∃ t, Runs.run step { event := twoRunning }
    ([.uninit, .stopNext, .stopPost, .stopNext, .stopPost] ++ deliver ++ deliver) = some t ∧
      t.outstanding = 0 ∧ t.called = [7, 8] ∧ t.processed = [8, 8] :=
  ⟨_, rfl, rfl, rfl, rfl⟩

end Stopping
end Sace
