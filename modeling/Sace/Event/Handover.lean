import Sace.Saced.Reach

/-! From start_event to handle_result: what SaceEvent learns about a service that it had
started. -/
namespace Sace

/-- Nothing but a result of the type LABEL is excluded. -/
def Effect.Unlabelled : Effect → Prop
  | .sendResult _ result => result.resultType ≠ .label
  | _ => True

namespace SaceEvent

theorem handleResult_plain {e : SaceEvent} {result : SaceResult}
    (plain : result.resultType ≠ .label) :
    e.handleResult result = e.passResult result ∨ result.resultStatus ≠ .ok ∧
      ∃ id, e.handleResult result = e.startEvent id := by
  unfold handleResult
  split
  · exact .inl rfl
  split
  · rename_i failed
    split
    · exact .inr ⟨failed, _, rfl⟩
    · exact .inl rfl
  · exact .inl rfl

theorem passResult_running {e t : SaceEvent} {result : SaceResult}
    (done : (e.passResult result).result = .ok t) : t.runningEvents = e.runningEvents :=
  passResult_ok done ▸ rfl

theorem startEvent_running {e t : SaceEvent} {id : Nat}
    (done : (e.startEvent id).result = .ok t) : t.runningEvents = e.runningEvents := by
  obtain ⟨service, _, rfl⟩ := startEvent_eq done
  rfl

theorem addWriters_running (e : SaceEvent) (name : Str) (wr : SaceWriter) :
    (e.addWriters name wr).runningEvents = e.runningEvents := by
  obtain ⟨writers, eq⟩ := addWriters_eq e name wr
  rw [eq]

theorem change_running {e t : SaceEvent} {saceCmd : SaceCommand} {writer : SaceWriter}
    (change : Change e saceCmd writer t) : t.runningEvents = e.runningEvents := by
  cases change with
  | same => rfl
  | deleted there =>
    unfold deleted
    dsimp only
    split
    · exact addWriters_running _ _ _
    · rfl
  | added started free parsed given => rfl
  | asked => exact addWriters_running e _ _

theorem handleResponse_running {e t : SaceEvent} {response : SaceStatusResponse}
    (none : e.runningEvents = ∅) (done : (e.handleResponse response).result = .ok t) :
    t.runningEvents = ∅ := by
  have absent : e.runningEvents[response.name]? ≠ some response.label := by simp [none]
  simp only [handleResponse, absent, ne_eq, not_false_eq_true, if_true, passResponse,
    Traced.bind_ok] at done
  obtain ⟨_, _, done⟩ := done
  cases done
  simp [none]

theorem handleResult_running {e t : SaceEvent} {result : SaceResult}
    (plain : result.resultType ≠ .label) (done : (e.handleResult result).result = .ok t) :
    t.runningEvents = e.runningEvents := by
  rcases handleResult_plain (e := e) plain with passed | ⟨_, id, restarted⟩
  · exact passResult_running (passed ▸ done)
  · exact startEvent_running (restarted ▸ done)

theorem Moved.running {e t : SaceEvent} {pipe : List Notice} (moved : e.Moved pipe t)
    (plain : ∀ result, .result result ∈ pipe → result.resultType ≠ .label)
    (none : e.runningEvents = ∅) : t.runningEvents = ∅ := by
  cases moved with
  | same => exact none
  | request done => exact (change_running (excuteNormal_change done)).trans none
  | snapshot => exact none
  | poll done =>
    obtain ⟨service, _, started | rfl⟩ := pollEvent_ok done
    · exact (startEvent_running started).trans none
    · exact none
  | start done => exact (startEvent_running done).trans none
  | @notice t notice read done =>
    cases notice with
    | result result => exact (handleResult_running (plain result read) done).trans none
    | response response => exact handleResponse_running none done
  | uninit done => exact (stopAll_same done).2.1.trans none

end SaceEvent

namespace Saced

structure Unheard (d : Saced) : Prop where
  pipe : ∀ result, .result result ∈ d.pipe → result.resultType ≠ .label
  running : d.server.event.runningEvents = ∅

theorem turn_unlabelled {d : Saced}
    (plain : ∀ result, .result result ∈ d.pipe → result.resultType ≠ .label) (input : Input) :
    Traced.Every Effect.Unlabelled (d.turn input) :=
  turn_every (fun _ _ => trivial) (fun _ _ => trivial) (fun _ _ => trivial) (fun _ _ => trivial)
    (fun _ _ => trivial) (fun _ result piped type => plain result (piped type) type) input

theorem mem_piped {trace : List Effect} {result : SaceResult}
    (member : .result result ∈ piped trace) : ∃ wr, .sendResult wr result ∈ trace := by
  obtain ⟨effect, sent, eq⟩ := List.mem_filterMap.mp member
  split at eq
  · cases eq
    exact ⟨_, sent⟩
  · cases eq
  · cases eq

theorem Unheard.step {d t : Saced} {input : Input} (unheard : Unheard d)
    (provided : d.Provided input) (moved : d.step input = some t) : Unheard t := by
  obtain ⟨server, ran, rfl⟩ := step_eq_some.mp moved
  refine ⟨fun result member => ?_, ?_⟩
  · rcases List.mem_append.mp member with old | new
    · exact unheard.pipe result (prepare_pipe _ old)
    · obtain ⟨wr, sent⟩ := mem_piped new
      exact turn_unlabelled unheard.pipe input _ sent
  · exact (turn_moved provided ran).2.running unheard.pipe unheard.running

theorem reached_unheard {event : SaceEvent} (loaded : event.Loaded) {d : Saced}
    (reached : Runs.Reached step Provided (start event) d) : Unheard d :=
  reached.invariant ⟨fun _ member => (nomatch member), loaded.running⟩
    fun _ _ _ unheard provided moved => unheard.step provided moved

end Saced

/-! ### The hand-over -/

def SaceEvent.HandedOver (e : SaceEvent) (result : SaceResult) : Prop :=
  e.runningEvents[result.name]? = some result.label ∧ result.name ∉ e.startingEvents

namespace Saced

/-- In some run the service executor has taken a START that SaceEvent posted and accepted it
with this result, which is now the next in the event pipe. -/
def Accepted (event : SaceEvent) (result : SaceResult) (d : Saced) : Prop :=
  ∃ before after msg answers service, Runs.Reached step Provided (start event) before ∧
    before.next .service = some (.message msg) ∧
    msg.msgWriter = before.server.event.eventWriter ∧ msg.msgCmd.serviceCmdType = .start ∧
    (before.server.service.request msg answers.env answers.start).result = .ok (service, result) ∧
    result.resultStatus = .ok ∧ before.Provided (.take .service answers) ∧
    before.step (.take .service answers) = some after ∧
    Runs.Reached step Provided after d ∧ d.pipe.head? = some (.result result)

/-- No hand-over ever happens: the answer to a START is not of the type LABEL that
handle_result waits for. -/
theorem never_handed_over {event : SaceEvent} (loaded : event.Loaded) {result : SaceResult}
    {d : Saced} (accepted : Accepted event result d) (more : Nat) :
    ∃ t, d.step (.read more) = some t ∧ ¬ t.server.event.HandedOver result := by
  obtain ⟨before, after, msg, answers, service, reached, _, _, _, requested, ok, provided, taken,
    onward, head⟩ := accepted
  have plain := (SaceServiceExcutor.request_answers requested).1.2
  have whole := (Runs.Reached.next reached provided taken).trans onward
  have passed : d.server.event.handleResult result = d.server.event.passResult result := by
    rcases SaceEvent.handleResult_plain (e := d.server.event) plain with passed | ⟨failed, _⟩
    · exact passed
    · exact absurd ok failed
  have read : (d.turn (.read more)).result = .ok d.server := by
    simp only [turn, head, SaceEvent.handleNotice, passed]
    rfl
  refine ⟨_, step_eq_some.mpr ⟨_, read, rfl⟩, fun known => ?_⟩
  have running : d.server.event.runningEvents[result.name]? = some result.label := known.1
  rw [(reached_unheard loaded whole).running] at running
  cases running

/-! An event is added that is to start at boot. -/

def bootCommand : SaceCommand :=
  { type := .event, sequence := 7, name := str "svc", command := str "sleep 1"
    commandParams := some (.event { boot := true }), subType := SaceEventType.add.byte }

def bootStart : SaceReaderMessage := SaceEvent.bare.eventMsg (serviceCommand bootCommand)

def bootResult : SaceResult :=
  SaceServiceExcutor.startedResult bootStart.msgCmd
    (SaceServiceExcutor.newService bootStart.msgCmd bootStart.msgWriter Answers.quiet.start)

def addBoot : List Input := [.transaction 1 ⟨1000, 200⟩ bootCommand, .take .event .quiet]

theorem boot_accepted : ∃ d, Accepted .bare bootResult d ∧
    (d.step (.read 0)).map (fun t => t.server.event.runningEvents[bootResult.name]?) =
      some none := by
  have ran : (Runs.run step (start .bare) addBoot).isSome := by decide +kernel
  obtain ⟨before, ran⟩ := Option.isSome_iff_exists.mp ran
  have next : (Runs.run step (start .bare) addBoot).map (·.next .service) =
      some (some (.message bootStart)) := by decide +kernel
  have writer : (Runs.run step (start .bare) addBoot).map (·.server.event.eventWriter) =
      some bootStart.msgWriter := by decide +kernel
  have requested : (Runs.run step (start .bare) addBoot).map (fun d =>
      (d.server.service.request bootStart .empty Answers.quiet.start).value.map Prod.snd) =
        some (some bootResult) := by decide +kernel
  have fresh : (Runs.run step (start .bare) addBoot).map (fun d =>
      decide (Answers.quiet.start.address ∈ d.server.service.heap)) = some false := by
    decide +kernel
  have taken : (Runs.run step (start .bare) addBoot).map (fun d =>
      (d.step (.take .service .quiet)).map (·.pipe)) = some (some [.result bootResult]) := by
    decide +kernel
  have read : (Runs.run step (start .bare) addBoot).map (fun d =>
      (d.step (.take .service .quiet)).bind fun d => (d.step (.read 0)).map fun t =>
        t.server.event.runningEvents[bootResult.name]?) = some (some none) := by
    decide +kernel
  simp only [ran, Option.map_some, Option.some.injEq, Option.map_eq_some_iff,
    Traced.value_eq_some, Prod.exists, exists_eq_right, decide_eq_false_iff_not]
    at next writer requested fresh taken
  obtain ⟨service, requested⟩ := requested
  obtain ⟨after, taken, pipe⟩ := taken
  have unused : ((start .bare).step (.transaction 1 ⟨1000, 200⟩ bootCommand)).map (fun d =>
      decide (Answers.quiet.start.address ∈ d.server.service.heap)) = some false := by
    decide +kernel
  have admitted : Runs.Admitted step Provided (start .bare) addBoot := by
    refine ⟨trivial, fun d moved => ⟨?_, fun _ _ => trivial⟩⟩
    rw [moved] at unused
    exact of_decide_eq_false (Option.some.inj unused)
  refine ⟨after, ⟨before, after, bootStart, .quiet, service, Runs.run_reached admitted ran, next,
    writer.symm, rfl, requested, rfl, fresh, taken, .start, by rw [pipe]; rfl⟩, ?_⟩
  rw [ran, Option.map_some, taken] at read
  exact Option.some.inj read

theorem boot_never_handed_over : ∃ d, Accepted .bare bootResult d ∧
    ∃ t, d.step (.read 0) = some t ∧ ¬ t.server.event.HandedOver bootResult := by
  obtain ⟨d, accepted, _⟩ := boot_accepted
  exact ⟨d, accepted, never_handed_over SaceEvent.bare_loaded accepted 0⟩

theorem boot_start_lost : ¬ ∀ (event : SaceEvent) (result : SaceResult) (d t : Saced) (more : Nat),
    event.Loaded → Accepted event result d → d.step (.read more) = some t →
      t.server.event.HandedOver result := by
  intro handsOver
  obtain ⟨d, accepted, read⟩ := boot_accepted
  obtain ⟨t, moved, missing⟩ := Option.map_eq_some_iff.mp read
  have known := (handsOver .bare bootResult d t 0 SaceEvent.bare_loaded accepted moved).1
  rw [missing] at known
  cases known

end Saced
end Sace
