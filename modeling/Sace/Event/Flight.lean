import Sace.Event.Monitor

/-! The STARTs of an event that are on their way: posted and not taken, or refused and the
answer not read. -/
namespace Sace

def SaceWriter.piped (writer : SaceWriter) : Bool :=
  match writer.channel with
  | .pipe _ => true
  | _ => false

def Posted.asks (name : Str) : Posted → Bool
  | .message msg => msg.msgWriter.piped && msg.msgCmd.name = name
  | .stopMsg => false

/-- An answer after which SaceEvent starts the event again. -/
def Notice.refuses (name : Str) : Notice → Bool
  | .result r => r.resultStatus ≠ .ok && r.name = name
  | .response _ => false

/-- What goes out to the service executor or comes back from it refused. -/
def Effect.flies (name : Str) : Effect → Bool
  | .post message => message.asks name
  | .sendResult writer r => writer.piped && (Notice.result r).refuses name
  | _ => false

theorem flies_count (name : Str) (trace : List Effect) :
    trace.countP (Effect.flies name) =
      (posted trace).countP (Posted.asks name) + (piped trace).countP (Notice.refuses name) := by
  induction trace with
  | nil => rfl
  | cons effect rest ih =>
    cases effect with
    | post message =>
      have posts : posted (.post message :: rest) = message :: posted rest := rfl
      have pipes : piped (.post message :: rest) = piped rest := rfl
      have same : Effect.flies name (.post message) = message.asks name := rfl
      rw [posts, pipes, List.countP_cons, List.countP_cons, ih, same]
      omega
    | sendResult writer r =>
      obtain ⟨channel, id⟩ := writer
      have posts : posted (.sendResult ⟨channel, id⟩ r :: rest) = posted rest := rfl
      cases channel with
      | pipe fd =>
        have pipes : piped (.sendResult ⟨.pipe fd, id⟩ r :: rest) = .result r :: piped rest := rfl
        have same : Effect.flies name (.sendResult ⟨.pipe fd, id⟩ r) =
            (Notice.result r).refuses name := rfl
        rw [posts, pipes, List.countP_cons, List.countP_cons, ih, same]
        omega
      | _ => exact ih
    | sendResponse writer response =>
      obtain ⟨channel, id⟩ := writer
      cases channel with
      | pipe fd =>
        have pipes : piped (.sendResponse ⟨.pipe fd, id⟩ response :: rest) =
            .response response :: piped rest := rfl
        have posts : posted (.sendResponse ⟨.pipe fd, id⟩ response :: rest) = posted rest := rfl
        have same : Effect.flies name (.sendResponse ⟨.pipe fd, id⟩ response) =
            (Notice.response response).refuses name := rfl
        rw [posts, pipes, List.countP_cons, List.countP_cons, ih, same]
        omega
      | _ => exact ih
    | _ => exact ih

namespace SaceEvent

variable {e t : SaceEvent} (name : Str)

/-! ### What stays empty -/

theorem request_writers (silent : e.runningEvents = ∅) {saceCmd : SaceCommand}
    {writer : SaceWriter} {env : EventEnv} {outcome : Outcome}
    (done : (e.request saceCmd writer env).result = .ok (t, outcome)) :
    t.writers = e.writers := by
  have idle : saceCmd.name ∉ e.runningEvents := by simp [silent]
  unfold request at done
  split at done
  · rcases delEvent_change done with ⟨_, rfl, _⟩ | ⟨_, rfl, _⟩
    · rfl
    · simp [deleted, silent]
  split at done
  · rcases addEvent_change done with rfl | ⟨_, _, _, _, _, _, rfl⟩ <;> rfl
  split at done
  · rw [infoEvent_refused fun _ => idle] at done
    cases done
    rfl
  · cases done
    rfl

structure Idle (e : SaceEvent) : Prop where
  running : e.runningEvents = ∅
  writers : e.writers = ∅
  failed : e.failedEvents = ∅

theorem Idle.of_same {e t : SaceEvent} (idle : Idle e) (running : t.runningEvents = e.runningEvents)
    (writers : t.writers = e.writers) (failed : t.failedEvents = e.failedEvents) : Idle t :=
  ⟨running.trans idle.running, writers.trans idle.writers, failed.trans idle.failed⟩

theorem Idle.start {e t : SaceEvent} {id : Nat} (idle : Idle e)
    (done : (e.startEvent id).result = .ok t) : Idle t := by
  obtain ⟨_, _, rfl, _⟩ := startEvent_ok done
  exact idle.of_same rfl rfl rfl

theorem Idle.poll {e t : SaceEvent} {properties : Str → Str} {id : Nat} (idle : Idle e)
    (done : (e.pollEvent properties id).result = .ok t) : Idle t := by
  obtain ⟨service, _, started | rfl⟩ := pollEvent_ok done
  · obtain ⟨_, _, rfl, _⟩ := startEvent_ok started
    exact idle.of_same rfl rfl rfl
  · exact idle.of_same rfl rfl rfl

theorem Idle.request {e t : SaceEvent} {msg : SaceReaderMessage} {env : EventEnv} (idle : Idle e)
    (done : (e.excuteNormal msg env).result = .ok t) : Idle t := by
  obtain ⟨_, requested⟩ := excuteNormal_request done
  have change := excuteNormal_change done
  apply idle.of_same (change_running change) (request_writers idle.running requested)
  cases change with
  | same => rfl
  | deleted there => exact (deleted_containers _ _ _).2.1
  | added started free parsed given => rfl
  | asked => exact (addWriters_containers _ _ _).2.1

theorem Idle.notice {e t : SaceEvent} {notice : Notice} (idle : Idle e)
    (plain : ∀ result, notice = .result result → result.resultType ≠ .label)
    (done : (e.handleNotice notice).result = .ok t) : Idle t := by
  cases notice with
  | result result =>
    rw [handleNotice] at done
    rcases handleResult_plain (e := e) (plain result rfl) with passed | ⟨_, id, again⟩
    · rw [passed] at done
      cases passResult_ok done
      exact idle
    · rw [again] at done
      exact idle.start done
  | response response =>
    have absent : e.runningEvents[response.name]? ≠ some response.label := by simp [idle.running]
    simp only [handleNotice, handleResponse, absent, ne_eq, not_false_eq_true, if_true] at done
    cases passResponse_ok done
    exact ⟨by simp [idle.running], by simp [idle.writers], idle.failed⟩

theorem Idle.moved {e t : SaceEvent} {pipe : List Notice} (idle : Idle e) (moved : e.Moved pipe t)
    (plain : ∀ result, .result result ∈ pipe → result.resultType ≠ .label) : Idle t := by
  cases moved with
  | same => exact idle
  | request done => exact idle.request done
  | snapshot => exact ⟨idle.running, idle.writers, rfl⟩
  | poll done => exact idle.poll done
  | start done => exact idle.start done
  | notice read done =>
    exact idle.notice (fun result eq => plain result (eq ▸ read)) done
  | uninit done =>
    rw [onUninit, idle.running] at done
    cases done
    exact idle

theorem Moved.service {e t : SaceEvent} {pipe : List Notice} (moved : e.Moved pipe t) {id : Nat}
    {service : EventService} (held : e.services[id]? = some service) :
    ∃ after, t.services[id]? = some after ∧ after.cmd = service.cmd := by
  cases moved with
  | same => exact ⟨service, held, rfl⟩
  | request done =>
    cases excuteNormal_change done with
    | same => exact ⟨service, held, rfl⟩
    | deleted there => exact (deleted_same e _ _).service held
    | added started free parsed given =>
      have inside := (List.getElem?_eq_some_iff.mp held).1
      exact ⟨service, by simpa [SaceEvent.added, List.getElem?_append_left inside] using held, rfl⟩
    | asked => exact (addWriters_same e _ _).service held
  | snapshot => exact ⟨service, held, rfl⟩
  | poll done => exact (pollEvent_same done).service held
  | start done => exact (startEvent_same done).service held
  | notice read done => exact (handleNotice_same done).service held
  | uninit done => exact (stopAll_same done).1.service held

end SaceEvent
end Sace
