import Sace.Event.Sections

/-! What the threads go on doing with an event that was deleted. -/
namespace Sace

/-- SaceEvent's threads, the service executor, and the queue and the pipe between them. `cmds` and
`restart` are the monitor thread's snapshot. Kept beside them: the events for which a DEL with stop
was answered OK and no ADD has come through its checks since, the labels for which a STOP has been
posted in the section of the last DEL, and the STARTs that were posted for such events. -/
structure Threads where
  event : SaceEvent
  service : SaceServiceExcutor := {}
  cmds : Table Str Nat := ∅
  restart : NameSet := ∅
  monitor : MonitorPlace := .free
  excutor : ExcutorPlace := .free
  queue : List Posted := []
  pipe : List Notice := []
  deleted : NameSet := ∅
  stopped : List (Str × UInt64) := []
  late : List Str := []

namespace Threads

inductive Input where
  | snapshot
  | trigger (name : Str) (properties : Str → Str)
  | restartEvent (name : Str)
  /-- One read of the event pipe, which takes `more` whole messages beside the first. -/
  | read (more : Nat)
  /-- The monitor thread's next section. -/
  | monitor
  /-- The executor's thread takes a request. -/
  | take (msg : SaceReaderMessage) (env : EventEnv)
  /-- The executor's thread's next section, or its reply. -/
  | excutor
  /-- A client posts to the service executor. -/
  | client (msg : SaceReaderMessage)
  | serve (env : ParseEnv) (answers : StartAnswers)
  | monitorService (wait : Nat → WaitAnswer)

def message (s : Threads) : Posted → SaceReaderMessage
  | .message msg => msg
  | .stopMsg => s.event.mStopMsg

def deliver (s : Threads) (event : SaceEvent) (trace : List Effect) : Threads :=
  { s with
    event
    queue := s.queue ++ posted trace
    late := s.late ++ (started trace).filter (· ∈ s.deleted) }

def monitorTurn (s : Threads) (turn : Exec (SaceEvent × MonitorPlace)) : Option Threads :=
  turn.value.map fun out => { s.deliver out.1 turn.trace with monitor := out.2 }

def excutorTurn (s : Threads) (turn : Exec (SaceEvent × ExcutorPlace)) : Option Threads :=
  turn.value.map fun out => { s.deliver out.1 turn.trace with excutor := out.2 }

def leave (s : Threads) : ExcutorPlace → Threads
  | .erase msg _ =>
    if Dels msg.msgCmd then
      { s with stopped := s.stopped.filter fun entry => entry.1 ≠ msg.msgCmd.name }
    else s
  | .stop msg _ =>
    { s with stopped := s.stopped ++
        (s.event.runningEvents[msg.msgCmd.name]?).toList.map fun label => (msg.msgCmd.name, label) }
  | .reply msg _ status =>
    if Dels msg.msgCmd ∧ status = .ok then
      { s with deleted := s.deleted.insert msg.msgCmd.name }
    else s
  | _ => s

def enter (s : Threads) : Threads :=
  match s.excutor.adds with
  | some name => { s with deleted := s.deleted.erase name }
  | none => s

def step (s : Threads) : Input → Option Threads
  | .snapshot =>
    match s.monitor with
    | .free => some { s with
        cmds := s.event.events
        restart := s.event.failedEvents
        event := { s.event with failedEvents := ∅ } }
    | _ => none
  | .trigger name properties =>
    match s.monitor, s.cmds[name]? with
    | .free, some id => s.monitorTurn (s.event.takeTrigger properties id)
    | _, _ => none
  | .restartEvent name =>
    match s.monitor, s.cmds[name]? with
    | .free, some id => if name ∈ s.restart then some { s with monitor := .start id } else none
    | _, _ => none
  | .read more =>
    match s.monitor, s.pipe with
    | .free, notice :: rest =>
      { s with pipe := rest.drop more }.monitorTurn (s.event.takeNotice notice)
    | _, _ => none
  | .monitor => s.monitorTurn (s.event.monitorSection s.monitor)
  | .take msg env =>
    match s.excutor with
    | .free => (s.excutorTurn (s.event.takeRequest msg env)).map enter
    | _ => none
  | .excutor => (s.leave s.excutor).excutorTurn (s.event.excutorSection s.excutor)
  | .client msg => some { s with queue := s.queue ++ [.message msg] }
  | .serve env answers =>
    match s.queue with
    | [] => none
    | posted :: rest =>
      let msg := s.message posted
      (s.service.request msg env answers).value.map fun (service, result) =>
        { s with
          service
          queue := rest
          pipe := s.pipe ++ piped ((s.service.request msg env answers).trace ++
            [.sendResult msg.msgWriter result]) }
  | .monitorService wait =>
    (s.service.monitorServiceStatus wait).value.map fun service =>
      { s with service, pipe := s.pipe ++ piped (s.service.monitorServiceStatus wait).trace }

def starting (s : Threads) : Option Str := s.event.startsAt s.monitor

def Gone (s : Threads) (name : Str) : Prop := name ∈ s.deleted ∨ s.excutor.closes = some name

/-- A trigger or a restart comes for an event of the snapshot that is not deleted since; and a DEL
with stop is answered while the monitor thread is not in start_event for the event. -/
def Careful (s : Threads) : Input → Prop
  | .trigger name properties => ∀ (id : Nat) (service : EventService), s.cmds[name]? = some id →
    s.event.services[id]? = some service →
    (triggeredAny properties service.triggers).1 = true → service.cmd.name ∉ s.deleted
  | .restartEvent name => ∀ (id : Nat) (service : EventService), s.cmds[name]? = some id →
    s.event.services[id]? = some service → service.cmd.name ∉ s.deleted
  | .excutor => ∀ (msg : SaceReaderMessage) (env : EventEnv), s.excutor = .reply msg env .ok →
    Dels msg.msgCmd → s.starting ≠ some msg.msgCmd.name
  | _ => True

/-- No START was posted for a deleted event, and for the label under which one is still listed as
running a STOP was posted. -/
structure Silent (s : Threads) : Prop where
  late : s.late = []
  running : ∀ (name : Str) (label : UInt64), name ∈ s.deleted →
    s.event.runningEvents[name]? = some label → (name, label) ∈ s.stopped

/-- What holds where the executor's thread is. -/
def Fits (s : Threads) : Prop :=
  match s.excutor with
  | .erase msg _ => msg.msgCmd.eventType = .del ∧ msg.msgCmd.name ∈ s.event.events
  | .stop msg _ => Dels msg.msgCmd
  | .start msg _ id | .post msg _ id | .insert msg _ id =>
    msg.msgCmd.eventType = .add ∧ msg.msgCmd.name ∉ s.deleted ∧
      (s.event.services[id]?).map EventService.cmd = some msg.msgCmd
  | .reply msg _ _ => Dels msg.msgCmd → ∀ label,
    s.event.runningEvents[msg.msgCmd.name]? = some label → (msg.msgCmd.name, label) ∈ s.stopped
  | _ => True

structure Plain (s : Threads) : Prop where
  pipe : ∀ result, .result result ∈ s.pipe → result.resultType ≠ .label
  place : ∀ result, s.monitor ≠ .label result

structure Kept (s : Threads) : Prop where
  silent : s.Silent
  named : s.event.Named
  fits : s.Fits
  absent : ∀ name, s.Gone name → name ∉ s.event.events
  quiet : ∀ name ∈ s.deleted, s.starting ≠ some name
  plain : s.Plain

variable {s t : Threads}

theorem fits_neutral (neutral : s.excutor.Neutral) : s.Fits := by
  unfold Fits
  cases place : s.excutor with
  | free | running | info | infoPost | err => trivial
  | erase | stop | start | post | insert | reply =>
    rw [place] at neutral
    exact neutral.elim

theorem late_same {trace : List Effect} (allowed : ∀ name ∈ started trace, name ∉ s.deleted) :
    s.late ++ (started trace).filter (· ∈ s.deleted) = s.late := by
  have none : (started trace).filter (· ∈ s.deleted) = [] :=
    List.filter_eq_nil_iff.mpr fun name member => by simpa using allowed name member
  rw [none, List.append_nil]

theorem Kept.next (kept : s.Kept) (same : SaceEvent.SameEvents s.event t.event)
    (gone : ∀ name, t.Gone name → s.Gone name) (silent : t.Silent) (fits : t.Fits)
    (quiet : ∀ name ∈ t.deleted, t.starting ≠ some name) (plain : t.Plain) : t.Kept where
  silent := silent
  named := SaceEvent.Each.same kept.named same
  fits := fits
  absent := by
    intro name after
    rw [same.events]
    exact kept.absent name (gone name after)
  quiet := quiet
  plain := plain

/-- A step in which the executor's thread stays where it is. -/
theorem Kept.same (kept : s.Kept) (same : SaceEvent.SameEvents s.event t.event)
    (running : ∀ (name : Str) (label : UInt64), t.event.runningEvents[name]? = some label →
      s.event.runningEvents[name]? = some label) (excutor : t.excutor = s.excutor)
    (deleted : t.deleted = s.deleted) (stopped : t.stopped = s.stopped) (late : t.late = s.late)
    (quiet : ∀ name ∈ s.deleted, t.starting ≠ some name) (plain : t.Plain) : t.Kept := by
  refine kept.next same ?_ ⟨late.trans kept.silent.late, ?_⟩ ?_ (deleted ▸ quiet) plain
  · intro name gone
    simpa only [Gone, deleted, excutor] using gone
  · intro name label member runs
    rw [stopped]
    exact kept.silent.running name label (deleted ▸ member) (running name label runs)
  · have fits := kept.fits
    unfold Fits at fits ⊢
    rw [excutor]
    split at fits
    · rw [same.events]
      exact fits
    · exact fits
    · rw [deleted, SaceEvent.cmd_same same]
      exact fits
    · rw [deleted, SaceEvent.cmd_same same]
      exact fits
    · rw [deleted, SaceEvent.cmd_same same]
      exact fits
    · intro dels label runs
      rw [stopped]
      exact fits dels label (running _ label runs)
    all_goals trivial

/-! ### The monitor thread -/

theorem monitorTurn_eq_some {turn : Exec (SaceEvent × MonitorPlace)} :
    s.monitorTurn turn = some t ↔ ∃ event place, turn.result = .ok (event, place) ∧
      t = { s.deliver event turn.trace with monitor := place } := by
  simp only [monitorTurn, Option.map_eq_some_iff, Traced.value_eq_some, Prod.exists]
  exact ⟨fun ⟨event, place, done, eq⟩ => ⟨event, place, done, eq.symm⟩,
    fun ⟨event, place, done, eq⟩ => ⟨event, place, done, eq.symm⟩⟩

/-- A turn of the monitor thread that posts at most the START that it is in. -/
theorem Kept.turned {event : SaceEvent} {trace : List Effect} {place : MonitorPlace}
    (kept : s.Kept) (same : SaceEvent.SameEvents s.event event)
    (running : ∀ (name : Str) (label : UInt64), event.runningEvents[name]? = some label →
      s.event.runningEvents[name]? = some label)
    (posts : ∀ name ∈ started trace, s.starting = some name)
    (plain : ∀ result, place ≠ .label result)
    (quiet : ∀ name ∈ s.deleted, event.startsAt place ≠ some name) :
    ({ s.deliver event trace with monitor := place } : Threads).Kept := by
  refine kept.same same running rfl rfl rfl (late_same ?_) quiet ⟨kept.plain.pipe, plain⟩
  intro name member deleted
  exact kept.quiet name deleted (posts name member)

theorem trigger_kept {name : Str} {properties : Str → Str} (kept : s.Kept)
    (careful : s.Careful (.trigger name properties))
    (moved : s.step (.trigger name properties) = some t) : t.Kept := by
  simp only [step] at moved
  split at moved
  · rename_i id _ found
    obtain ⟨event, place, done, rfl⟩ := monitorTurn_eq_some.mp moved
    obtain ⟨same, running, -, starts⟩ := SaceEvent.takeTrigger_ok done
    have silent := started_nil (SaceEvent.takeTrigger_postless s.event properties id)
    refine kept.turned same ?_ ?_ ?_ ?_
    · intro other label runs
      rwa [running] at runs
    · intro other member
      exact absurd member (silent other)
    · intro result
      rcases starts with rfl | ⟨rfl, _⟩ <;> nofun
    · intro other deleted begins
      rcases starts with rfl | ⟨rfl, service, held, fires⟩
      · cases begins
      · have named : s.event.nameOf id = some service.cmd.name := by
          rw [SaceEvent.nameOf, held, Option.map_some, Option.map_some]
        rw [SaceEvent.startsAt, SaceEvent.nameOf_same same, named] at begins
        cases begins
        exact careful id service found held fires deleted
  · cases moved

theorem restartEvent_kept {name : Str} (kept : s.Kept) (careful : s.Careful (.restartEvent name))
    (moved : s.step (.restartEvent name) = some t) : t.Kept := by
  simp only [step] at moved
  split at moved
  · rename_i id _ found
    obtain ⟨_, moved⟩ := Option.ite_none_right_eq_some.mp moved
    cases moved
    refine kept.same (.refl _) (fun _ _ runs => runs) rfl rfl rfl rfl ?_
      ⟨kept.plain.pipe, fun _ => nofun⟩
    intro other deleted begins
    simp only [starting, SaceEvent.startsAt, SaceEvent.nameOf, Option.map_map,
      Option.map_eq_some_iff] at begins
    obtain ⟨service, held, rfl⟩ := begins
    exact careful id service found held deleted
  · cases moved

theorem read_kept {more : Nat} (kept : s.Kept) (moved : s.step (.read more) = some t) :
    t.Kept := by
  simp only [step] at moved
  split at moved
  · rename_i notice rest _ pipe
    obtain ⟨event, place, done, rfl⟩ := monitorTurn_eq_some.mp moved
    have silent := started_nil (SaceEvent.takeNotice_postless s.event notice)
    have fewer : ({ s with pipe := rest.drop more } : Threads).Kept := by
      refine kept.same (.refl _) (fun _ _ runs => runs) rfl rfl rfl rfl kept.quiet
        ⟨fun result member => kept.plain.pipe result ?_, kept.plain.place⟩
      rw [pipe]
      exact List.mem_cons_of_mem _ (List.mem_of_mem_drop member)
    obtain ⟨rfl, places⟩ := SaceEvent.takeNotice_ok done
    refine fewer.turned (.refl _) (fun _ _ runs => runs) ?_ ?_ ?_
    · intro other member
      exact absurd member (silent other)
    · rintro result rfl
      rcases places with ⟨_, no⟩ | ⟨_, no⟩ | ⟨_, no⟩ | ⟨_, _, rfl, label⟩ | ⟨_, _, no, _⟩
      · cases no
      · cases no
      · cases no
      · exact kept.plain.pipe _ (pipe ▸ List.mem_cons_self) label
      · cases no
    · intro other deleted begins
      rcases places with ⟨_, rfl⟩ | ⟨_, rfl⟩ | ⟨_, rfl⟩ | ⟨_, rfl, _⟩ | ⟨id, name, rfl, listed⟩
      · cases begins
      · cases begins
      · cases begins
      · cases begins
      · -- what handle_result starts again is listed, so it is not deleted
        obtain ⟨service, held, named⟩ := kept.named name id listed
        rw [SaceEvent.startsAt, SaceEvent.nameOf, held, Option.map_some, Option.map_some,
          named] at begins
        cases begins
        have there : s.event.events[other]? = some id := listed
        apply kept.absent other (.inl deleted)
        exact Table.mem_of_some there
  · cases moved

theorem monitor_kept (kept : s.Kept) (moved : s.step .monitor = some t) : t.Kept := by
  obtain ⟨event, place, done, rfl⟩ := monitorTurn_eq_some.mp moved
  obtain ⟨same, running, plain, starts⟩ := SaceEvent.monitorSection_ok done kept.plain.place
  refine kept.turned same running ?_ plain ?_
  · intro name member
    exact SaceEvent.monitorSection_started member
  · intro name deleted begins
    rw [SaceEvent.startsAt_same same] at begins
    rcases starts with none | goesOn
    · cases none.symm.trans begins
    · exact kept.quiet name deleted (goesOn.symm.trans begins)

/-! ### The service executor -/

theorem served_plain {env : ParseEnv} {answers : StartAnswers} {msg : SaceReaderMessage}
    {service : SaceServiceExcutor} {result other : SaceResult}
    (done : (s.service.request msg env answers).result = .ok (service, result))
    (member : .result other ∈ piped ((s.service.request msg env answers).trace ++
      [.sendResult msg.msgWriter result])) : other.resultType ≠ .label := by
  obtain ⟨wr, sent⟩ := Saced.mem_piped member
  rcases List.mem_append.mp sent with inner | last
  · have unlabelled : Traced.Every Effect.Unlabelled (s.service.request msg env answers) :=
      SaceServiceExcutor.request_every (fun _ _ => trivial) (fun _ _ => trivial)
        (fun _ _ => trivial)
    exact unlabelled _ inner
  · cases List.mem_singleton.mp last
    exact (SaceServiceExcutor.request_answers done).1.2

theorem monitored_plain {wait : Nat → WaitAnswer} {other : SaceResult}
    (member : .result other ∈ piped (s.service.monitorServiceStatus wait).trace) :
    other.resultType ≠ .label := by
  obtain ⟨wr, sent⟩ := Saced.mem_piped member
  have unlabelled : Traced.Every Effect.Unlabelled (s.service.monitorServiceStatus wait) :=
    SaceServiceExcutor.monitor_every (fun _ _ => trivial) _ _
  exact unlabelled _ sent

theorem serve_kept {env : ParseEnv} {answers : StartAnswers} (kept : s.Kept)
    (moved : s.step (.serve env answers) = some t) : t.Kept := by
  simp only [step] at moved
  split at moved
  · cases moved
  · rename_i posted rest _
    simp only [Option.map_eq_some_iff, Traced.value_eq_some, Prod.exists] at moved
    obtain ⟨service, result, done, rfl⟩ := moved
    refine kept.same (.refl _) (fun _ _ runs => runs) rfl rfl rfl rfl kept.quiet
      ⟨fun other member => ?_, kept.plain.place⟩
    rcases List.mem_append.mp member with old | new
    · exact kept.plain.pipe other old
    · exact served_plain done new

theorem monitorService_kept {wait : Nat → WaitAnswer} (kept : s.Kept)
    (moved : s.step (.monitorService wait) = some t) : t.Kept := by
  simp only [step, Option.map_eq_some_iff, Traced.value_eq_some] at moved
  obtain ⟨service, done, rfl⟩ := moved
  refine kept.same (.refl _) (fun _ _ runs => runs) rfl rfl rfl rfl kept.quiet
    ⟨fun other member => ?_, kept.plain.place⟩
  rcases List.mem_append.mp member with old | new
  · exact kept.plain.pipe other old
  · exact monitored_plain new

theorem snapshot_kept (kept : s.Kept) (moved : s.step .snapshot = some t) : t.Kept := by
  simp only [step] at moved
  split at moved
  · cases moved
    exact kept.same ⟨rfl, rfl, rfl⟩ (fun _ _ runs => runs) rfl rfl rfl rfl kept.quiet
      ⟨kept.plain.pipe, kept.plain.place⟩
  · cases moved

theorem client_kept {msg : SaceReaderMessage} (kept : s.Kept)
    (moved : s.step (.client msg) = some t) : t.Kept := by
  cases moved
  exact kept.same (.refl _) (fun _ _ runs => runs) rfl rfl rfl rfl kept.quiet
    ⟨kept.plain.pipe, kept.plain.place⟩

/-! ### The executor's thread -/

theorem excutorTurn_eq_some {turn : Exec (SaceEvent × ExcutorPlace)} :
    s.excutorTurn turn = some t ↔ ∃ event place, turn.result = .ok (event, place) ∧
      t = { s.deliver event turn.trace with excutor := place } := by
  simp only [excutorTurn, Option.map_eq_some_iff, Traced.value_eq_some, Prod.exists]
  exact ⟨fun ⟨event, place, done, eq⟩ => ⟨event, place, done, eq.symm⟩,
    fun ⟨event, place, done, eq⟩ => ⟨event, place, done, eq.symm⟩⟩

/-- A turn of the executor's thread that leaves the events as they are. -/
theorem Kept.excuted {event : SaceEvent} {trace : List Effect} {place : ExcutorPlace}
    {stopped : List (Str × UInt64)} (kept : s.Kept) (same : SaceEvent.SameEvents s.event event)
    (running : event.runningEvents = s.event.runningEvents)
    (posts : ∀ name ∈ started trace, name ∉ s.deleted)
    (more : ∀ entry ∈ s.stopped, entry ∈ stopped)
    (closes : ∀ name, place.closes = some name → s.Gone name)
    (fits : ({ s.deliver event trace with excutor := place, stopped } : Threads).Fits) :
    ({ s.deliver event trace with excutor := place, stopped } : Threads).Kept := by
  refine kept.next same ?_ ⟨(late_same posts).trans kept.silent.late, ?_⟩ fits ?_
    ⟨kept.plain.pipe, kept.plain.place⟩
  · rintro name (deleted | closing)
    · exact .inl deleted
    · exact closes name closing
  · intro name label deleted runs
    have runs : event.runningEvents[name]? = some label := runs
    rw [running] at runs
    exact more _ (kept.silent.running name label deleted runs)
  · intro name deleted
    have quiet := kept.quiet name deleted
    rwa [starting, ← SaceEvent.startsAt_same same] at quiet

theorem erase_kept {msg : SaceReaderMessage} {env : EventEnv} (kept : s.Kept)
    (place : s.excutor = .erase msg env) (moved : s.step .excutor = some t) : t.Kept := by
  have fits := kept.fits
  simp only [Fits, place] at fits
  obtain ⟨kind, there⟩ := fits
  have other (name : Str) (gone : s.Gone name) : msg.msgCmd.name ≠ name := by
    rintro rfl
    exact kept.absent _ gone there
  obtain ⟨stopped, left, remain⟩ : ∃ stopped, s.leave (.erase msg env) = { s with stopped } ∧
      ∀ entry ∈ s.stopped, entry.1 ≠ msg.msgCmd.name → entry ∈ stopped := by
    by_cases dels : Dels msg.msgCmd
    · refine ⟨_, if_pos dels, fun entry member other => ?_⟩
      exact List.mem_filter.mpr ⟨member, by simpa using other⟩
    · exact ⟨s.stopped, if_neg dels, fun entry member _ => member⟩
  simp only [step, place, left, SaceEvent.excutorSection] at moved
  obtain ⟨event, next, done, rfl⟩ := excutorTurn_eq_some.mp moved
  cases done
  refine ⟨⟨?_, ?_⟩, ?_, ?_, ?_, kept.quiet, kept.plain.pipe, kept.plain.place⟩
  · exact (List.append_nil s.late).trans kept.silent.late
  · intro name label deleted runs
    exact remain _ (kept.silent.running name label deleted runs) (other name (.inl deleted)).symm
  · intro name id found
    exact kept.named name id ((Table.erase_some ..).mp found).2
  · by_cases stops : SaceEvent.stopFlag msg.msgCmd = true
    · simp only [Fits, if_pos stops]
      exact ⟨kind, stops⟩
    · simp only [Fits, if_neg stops]
      intro dels
      exact absurd dels.2 stops
  · rintro name (deleted | closing) listed
    · exact kept.absent name (.inl deleted) (Std.ExtTreeMap.mem_of_mem_erase listed)
    · have same : msg.msgCmd.name = name := by
        by_cases stops : SaceEvent.stopFlag msg.msgCmd = true
        · simp only [if_pos stops] at closing
          exact Option.some.inj closing
        · simp only [if_neg stops] at closing
          exact Option.some.inj (Option.ite_none_right_eq_some.mp closing).2
      exact (Table.mem_erase.mp listed).1 same

theorem stop_kept {msg : SaceReaderMessage} {env : EventEnv} (kept : s.Kept)
    (place : s.excutor = .stop msg env) (moved : s.step .excutor = some t) : t.Kept := by
  have fits := kept.fits
  simp only [Fits, place] at fits
  simp only [step, place] at moved
  obtain ⟨event, next, done, rfl⟩ := excutorTurn_eq_some.mp moved
  have silent : ∀ name, name ∉ started (s.event.excutorSection (.stop msg env)).trace :=
    SaceEvent.excutorSection_silent fun _ _ _ => nofun
  obtain ⟨same, running, rfl⟩ := SaceEvent.stopSection_ok done
  refine kept.excuted same running (fun name member => absurd member (silent name)) ?_ ?_ ?_
  · intro entry member
    exact List.mem_append_left _ member
  · intro name closing
    rw [Gone, place]
    exact .inr (Option.ite_none_right_eq_some.mp closing).2
  · intro _ label runs
    have runs : event.runningEvents[msg.msgCmd.name]? = some label := runs
    rw [running] at runs
    exact List.mem_append_right _ (by simp [runs])

theorem start_kept {msg : SaceReaderMessage} {env : EventEnv} {id : Nat} (kept : s.Kept)
    (place : s.excutor = .start msg env id) (moved : s.step .excutor = some t) : t.Kept := by
  have fits := kept.fits
  simp only [Fits, place] at fits
  simp only [step, place] at moved
  obtain ⟨event, next, done, rfl⟩ := excutorTurn_eq_some.mp moved
  have silent : ∀ name, name ∉ started (s.event.excutorSection (.start msg env id)).trace :=
    SaceEvent.excutorSection_silent fun _ _ _ => nofun
  obtain ⟨begun, entered, done⟩ := Traced.bind_ok.mp done
  cases done
  obtain ⟨name, rfl⟩ := SaceEvent.startSection_ok entered
  exact kept.excuted ⟨rfl, rfl, rfl⟩ rfl (fun name member => absurd member (silent name))
    (fun entry member => member) nofun fits

theorem post_kept {msg : SaceReaderMessage} {env : EventEnv} {id : Nat} (kept : s.Kept)
    (place : s.excutor = .post msg env id) (moved : s.step .excutor = some t) : t.Kept := by
  have fits := kept.fits
  simp only [Fits, place] at fits
  simp only [step, place] at moved
  obtain ⟨event, next, done, rfl⟩ := excutorTurn_eq_some.mp moved
  obtain ⟨_, _, done⟩ := Traced.bind_ok.mp done
  cases done
  refine kept.excuted (.refl _) rfl ?_ (fun entry member => member) nofun fits
  intro name member
  obtain ⟨_, _, _, same, named⟩ := SaceEvent.excutorSection_started member
  cases same
  rw [SaceEvent.nameOf, fits.2.2] at named
  cases named
  exact fits.2.1

theorem insert_kept {msg : SaceReaderMessage} {env : EventEnv} {id : Nat} (kept : s.Kept)
    (place : s.excutor = .insert msg env id) (moved : s.step .excutor = some t) : t.Kept := by
  have fits := kept.fits
  simp only [Fits, place] at fits
  obtain ⟨kind, fresh, cmd⟩ := fits
  simp only [step, place] at moved
  obtain ⟨event, next, done, rfl⟩ := excutorTurn_eq_some.mp moved
  cases done
  have adds : ¬ Dels msg.msgCmd := by
    rintro ⟨del, _⟩
    cases kind.symm.trans del
  refine ⟨⟨(List.append_nil s.late).trans kept.silent.late, kept.silent.running⟩, ?_,
    fun dels => absurd dels adds, ?_, kept.quiet, kept.plain.pipe, kept.plain.place⟩
  · intro name at_ found
    rcases Table.of_insertIfNew_some found with ⟨rfl, rfl⟩ | old
    · obtain ⟨service, held, eq⟩ := Option.map_eq_some_iff.mp cmd
      exact ⟨service, held, congrArg SaceCommand.name eq⟩
    · exact kept.named name at_ old
  · rintro name (deleted | closing) listed
    · rcases Table.mem_insertIfNew.mp listed with rfl | old
      · exact fresh deleted
      · exact kept.absent name (.inl deleted) old
    · exact adds (Option.ite_none_right_eq_some.mp closing).1

/-- A DEL with stop that is answered OK. -/
theorem Kept.answered {msg : SaceReaderMessage} {env : EventEnv} {trace : List Effect}
    (kept : s.Kept) (careful : s.Careful .excutor) (place : s.excutor = .reply msg env .ok)
    (dels : Dels msg.msgCmd) (silent : ∀ name, name ∉ started trace) :
    ({ { s with deleted := s.deleted.insert msg.msgCmd.name }.deliver s.event trace with
      excutor := .free } : Threads).Kept := by
  have fits := kept.fits
  simp only [Fits, place] at fits
  have late := late_same (s := { s with deleted := s.deleted.insert msg.msgCmd.name })
    fun name member => absurd member (silent name)
  refine kept.next (.refl _) ?_ ⟨late.trans kept.silent.late, ?_⟩ trivial ?_
    ⟨kept.plain.pipe, kept.plain.place⟩
  · rintro name (deleted | closing)
    · rcases Names.mem_insert.mp deleted with rfl | old
      · rw [Gone, place]
        exact .inr (if_pos dels)
      · exact .inl old
    · cases closing
  · intro name label deleted runs
    rcases Names.mem_insert.mp deleted with rfl | old
    · exact fits dels label runs
    · exact kept.silent.running name label old runs
  · intro name deleted
    rcases Names.mem_insert.mp deleted with rfl | old
    · exact careful msg env place dels
    · exact kept.quiet name old

theorem reply_kept {msg : SaceReaderMessage} {env : EventEnv} {status : SaceResultStatus}
    (kept : s.Kept) (careful : s.Careful .excutor) (place : s.excutor = .reply msg env status)
    (moved : s.step .excutor = some t) : t.Kept := by
  simp only [step, place] at moved
  obtain ⟨event, next, done, rfl⟩ := excutorTurn_eq_some.mp moved
  have silent : ∀ name, name ∉ started (s.event.excutorSection (.reply msg env status)).trace :=
    SaceEvent.excutorSection_silent fun _ _ _ => nofun
  obtain ⟨_, _, done⟩ := Traced.bind_ok.mp done
  obtain ⟨_, _, done⟩ := Traced.bind_ok.mp done
  cases done
  by_cases answers : Dels msg.msgCmd ∧ status = .ok
  · obtain ⟨dels, rfl⟩ := answers
    have left : s.leave (.reply msg env .ok) =
        { s with deleted := s.deleted.insert msg.msgCmd.name } := if_pos ⟨dels, rfl⟩
    rw [left]
    exact kept.answered careful place dels silent
  · have left : s.leave (.reply msg env status) = s := if_neg answers
    rw [left]
    exact kept.excuted (.refl _) rfl (fun name member => absurd member (silent name))
      (fun entry member => member) nofun trivial

/-- The other sections and the answer of an error. -/
theorem neutral_kept (kept : s.Kept) (neutral : s.excutor.Neutral)
    (moved : s.step .excutor = some t) : t.Kept := by
  obtain ⟨event, next, done, rfl⟩ := excutorTurn_eq_some.mp moved
  obtain ⟨same, running, after⟩ := SaceEvent.neutralSection_ok neutral done
  have silent : ∀ name, name ∉ started (s.event.excutorSection s.excutor).trace := by
    apply SaceEvent.excutorSection_silent
    intro msg env id posts
    rw [posts] at neutral
    exact neutral
  have left : s.leave s.excutor = s := by
    cases place : s.excutor with
    | free | running | info | infoPost | err => rfl
    | erase | stop | start | post | insert | reply =>
      rw [place] at neutral
      exact neutral.elim
  rw [left]
  exact kept.excuted same running (fun name member => absurd member (silent name))
    (fun entry member => member) (fun name closing => absurd closing (after.closes name))
    (fits_neutral after)

/-- An ADD that has come through its checks: the event is as good as never deleted. -/
theorem Kept.added {service : EventService} {trace : List Effect} {place : ExcutorPlace}
    (kept : s.Kept) (silent : ∀ name, name ∉ started trace) (closes : place.closes = none)
    (fits : ({ s.deliver { s.event with services := s.event.services ++ [service] } trace with
      excutor := place, deleted := s.deleted.erase service.cmd.name } : Threads).Fits) :
    ({ s.deliver { s.event with services := s.event.services ++ [service] } trace with
      excutor := place, deleted := s.deleted.erase service.cmd.name } : Threads).Kept := by
  have late := late_same (s := s) fun name member => absurd member (silent name)
  refine ⟨⟨late.trans kept.silent.late, ?_⟩, ?_, fits, ?_, ?_, kept.plain.pipe, kept.plain.place⟩
  · exact fun name label deleted runs =>
      kept.silent.running name label (Names.mem_erase.mp deleted).2 runs
  · intro name id found
    obtain ⟨before, held, named⟩ := kept.named name id found
    obtain ⟨inside, _⟩ := List.getElem?_eq_some_iff.mp held
    exact ⟨before, (List.getElem?_append_left inside).trans held, named⟩
  · rintro name (deleted | closing)
    · exact kept.absent name (.inl (Names.mem_erase.mp deleted).2)
    · cases closes.symm.trans closing
  · intro name deleted begins
    obtain ⟨other, old⟩ := Names.mem_erase.mp deleted
    rcases SaceEvent.startsAt_append begins with already | same
    · exact kept.quiet name old already
    · exact other same

theorem take_kept {msg : SaceReaderMessage} {env : EventEnv} (kept : s.Kept)
    (moved : s.step (.take msg env) = some t) : t.Kept := by
  simp only [step] at moved
  split at moved
  · obtain ⟨u, turned, rfl⟩ := Option.map_eq_some_iff.mp moved
    obtain ⟨event, place, done, rfl⟩ := excutorTurn_eq_some.mp turned
    have silent := started_nil (SaceEvent.takeRequest_postless s.event msg env)
    rcases SaceEvent.takeRequest_ok done with ⟨rfl, places⟩ | ⟨kind, ⟨triggers, rfl⟩, places⟩
    · have goesOn (closes : ∀ name, place.closes ≠ some name) (fits :
          ({ s.deliver s.event (s.event.takeRequest msg env).trace with excutor := place }
            : Threads).Fits) :
          ({ s.deliver s.event (s.event.takeRequest msg env).trace with excutor := place }
            : Threads).Kept :=
        kept.excuted (.refl _) rfl (fun name member => absurd member (silent name))
          (fun entry member => member) (fun name closing => absurd closing (closes name)) fits
      rcases places with ⟨rfl, erases⟩ | ⟨_, rfl⟩ | rfl | ⟨rfl, other⟩
      · exact goesOn nofun erases
      · exact goesOn nofun trivial
      · exact goesOn nofun trivial
      · exact goesOn (fun name closing => other (Option.ite_none_right_eq_some.mp closing).1.1)
          fun dels => absurd dels.1 other
    · have fresh : msg.msgCmd.name ∉ s.deleted.erase msg.msgCmd.name :=
        fun member => (Names.mem_erase.mp member).1 rfl
      have last := List.getElem?_concat_length (l := s.event.services)
        (a := ⟨triggers, msg.msgCmd⟩)
      rcases places with ⟨rfl, _⟩ | rfl
      · exact kept.added silent rfl ⟨kind, fresh, Option.map_eq_some_iff.mpr ⟨_, last, rfl⟩⟩
      · exact kept.added silent rfl ⟨kind, fresh, Option.map_eq_some_iff.mpr ⟨_, last, rfl⟩⟩
  · cases moved

theorem step_kept {input : Input} (kept : s.Kept) (careful : s.Careful input)
    (moved : s.step input = some t) : t.Kept := by
  cases input with
  | snapshot => exact snapshot_kept kept moved
  | trigger name properties => exact trigger_kept kept careful moved
  | restartEvent name => exact restartEvent_kept kept careful moved
  | read more => exact read_kept kept moved
  | monitor => exact monitor_kept kept moved
  | take msg env => exact take_kept kept moved
  | client msg => exact client_kept kept moved
  | serve env answers => exact serve_kept kept moved
  | monitorService wait => exact monitorService_kept kept moved
  | excutor =>
    cases place : s.excutor with
    | erase msg env => exact erase_kept kept place moved
    | stop msg env => exact stop_kept kept place moved
    | start msg env id => exact start_kept kept place moved
    | post msg env id => exact post_kept kept place moved
    | insert msg env id => exact insert_kept kept place moved
    | reply msg env status => exact reply_kept kept careful place moved
    | free | running | info | infoPost | err =>
      have neutral : s.excutor.Neutral := by
        rw [place]
        trivial
      exact neutral_kept kept neutral moved

def Alone : Input → Prop
  | .take .. | .excutor => True
  | _ => False

/-- While the monitor thread is between two calls, what the executor's thread does is careful. -/
theorem alone_step {input : Input} (alone : Alone input) (idle : s.monitor = .free) :
    s.Careful input ∧ ∀ t, s.step input = some t → t.monitor = .free := by
  cases input with
  | take msg env =>
    refine ⟨trivial, fun t moved => ?_⟩
    simp only [step] at moved
    split at moved
    · obtain ⟨u, turned, rfl⟩ := Option.map_eq_some_iff.mp moved
      obtain ⟨event, place, done, rfl⟩ := excutorTurn_eq_some.mp turned
      unfold enter
      split <;> exact idle
    · cases moved
  | excutor =>
    constructor
    · intro msg env _ _ begins
      rw [starting, idle] at begins
      cases begins
    · intro t moved
      obtain ⟨event, place, done, rfl⟩ := excutorTurn_eq_some.mp moved
      have left : (s.leave s.excutor).monitor = s.monitor := by
        unfold leave
        split
        · split <;> rfl
        · rfl
        · split <;> rfl
        · rfl
      exact left.trans idle
  | snapshot | trigger | restartEvent | read | monitor | client | serve | monitorService =>
    exact alone.elim

theorem admitted_alone {inputs : List Input} (alone : ∀ input ∈ inputs, Alone input)
    (idle : s.monitor = .free) : Runs.Admitted step Careful s inputs := by
  induction inputs generalizing s with
  | nil => trivial
  | cons input rest ih =>
    obtain ⟨careful, keeps⟩ := alone_step (alone input List.mem_cons_self) idle
    refine ⟨careful, fun t moved => ?_⟩
    exact ih (fun other member => alone other (List.mem_cons_of_mem _ member)) (keeps t moved)

/-! ### Steps that are not careful -/

/-- After a step that is not careful the monitor thread is in start_event for a deleted event. -/
theorem careless_begins {input : Input} (careless : ¬ s.Careful input)
    (moved : s.step input = some t) : ∃ name ∈ t.deleted, t.starting = some name := by
  cases input with
  | trigger name properties =>
    simp only [Careful, not_forall, not_not] at careless
    obtain ⟨id, service, found, held, fires, deleted⟩ := careless
    simp only [step, found] at moved
    split at moved
    · rename_i same
      cases same
      obtain ⟨event, place, done, rfl⟩ := monitorTurn_eq_some.mp moved
      refine ⟨_, deleted, ?_⟩
      obtain ⟨same, _, _⟩ := SaceEvent.takeTrigger_ok done
      simp only [SaceEvent.takeTrigger, SaceEvent.pollTriggers, SaceEvent.service, held,
        Traced.pure_then, fires] at done
      cases done
      exact (SaceEvent.nameOf_same same id).trans (by simp [SaceEvent.nameOf, held])
    · cases moved
  | restartEvent name =>
    simp only [Careful, not_forall, not_not] at careless
    obtain ⟨id, service, found, held, deleted⟩ := careless
    simp only [step, found] at moved
    split at moved
    · rename_i same
      cases same
      obtain ⟨_, moved⟩ := Option.ite_none_right_eq_some.mp moved
      cases moved
      exact ⟨_, deleted, by simp [starting, SaceEvent.startsAt, SaceEvent.nameOf, held]⟩
    · cases moved
  | excutor =>
    simp only [Careful, not_forall, not_not] at careless
    obtain ⟨msg, env, place, dels, begins⟩ := careless
    simp only [step, place] at moved
    obtain ⟨event, next, done, rfl⟩ := excutorTurn_eq_some.mp moved
    obtain ⟨_, _, done⟩ := Traced.bind_ok.mp done
    obtain ⟨_, _, done⟩ := Traced.bind_ok.mp done
    cases done
    have left : s.leave (.reply msg env .ok) =
        { s with deleted := s.deleted.insert msg.msgCmd.name } := if_pos ⟨dels, rfl⟩
    rw [left]
    exact ⟨msg.msgCmd.name, Std.ExtTreeSet.mem_insert_self, begins⟩
  | snapshot | read | monitor | take | client | serve | monitorService =>
    exact absurd trivial careless

theorem start_next {id : Nat} (place : s.monitor = .start id) (moved : s.step .monitor = some t) :
    t.monitor = .post id ∧ t.event.nameOf id = s.event.nameOf id ∧ t.deleted = s.deleted := by
  simp only [step, place] at moved
  obtain ⟨event, next, done, rfl⟩ := monitorTurn_eq_some.mp moved
  obtain ⟨begun, entered, done⟩ := Traced.bind_ok.mp done
  cases done
  obtain ⟨name, rfl⟩ := SaceEvent.startSection_ok entered
  exact ⟨rfl, rfl, rfl⟩

theorem post_late {id : Nat} {name : Str} (place : s.monitor = .post id)
    (named : s.event.nameOf id = some name) (deleted : name ∈ s.deleted)
    (moved : s.step .monitor = some t) : name ∈ t.late := by
  simp only [step, place] at moved
  obtain ⟨event, next, done, rfl⟩ := monitorTurn_eq_some.mp moved
  refine List.mem_append_right _ (List.mem_filter.mpr ⟨?_, by simpa using deleted⟩)
  rw [SaceEvent.monitorSection, Traced.bind_pure_eq]
  exact SaceEvent.startPost_starts named

/-- After a step that is not careful the monitor thread's next two sections post a START that comes
too late. -/
theorem careless_late {input : Input} (careless : ¬ s.Careful input)
    (ran : Runs.run step s [input, .monitor, .monitor] = some t) : ¬ t.Silent := by
  simp only [Runs.run, Option.bind_eq_some_iff, Option.some.injEq] at ran
  obtain ⟨u, moved, v, next, w, last, rfl⟩ := ran
  obtain ⟨name, deleted, begins⟩ := careless_begins careless moved
  suffices late : name ∈ w.late by
    intro silent
    rw [silent.late] at late
    cases late
  cases place : u.monitor with
  | start id =>
    have named : u.event.nameOf id = some name := by rwa [starting, place] at begins
    obtain ⟨posts, same, kept⟩ := start_next place next
    exact post_late posts (same.trans named) (kept ▸ deleted) last
  | post id =>
    have named : u.event.nameOf id = some name := by rwa [starting, place] at begins
    obtain ⟨event, after, _, rfl⟩ := monitorTurn_eq_some.mp last
    exact List.mem_append_left _ (post_late place named deleted next)
  | free | label | pass | restart | finish =>
    rw [starting, place] at begins
    cases begins

/-! ### Runs -/

/-- In a run of which every step is careful, no START is posted for an event after its DEL with
stop was answered OK and before the next ADD, and no label under which the event is still listed as
running is without a STOP. -/
theorem reached_silent {e : SaceEvent} (named : e.Named) {s : Threads}
    (reached : Runs.Reached step Careful { event := e } s) : s.Silent := by
  have kept : s.Kept := by
    refine reached.invariant ?_ fun _ _ _ kept careful moved => step_kept kept careful moved
    exact {
      silent := ⟨rfl, fun name label deleted => absurd deleted Std.ExtTreeSet.not_mem_empty⟩
      named
      fits := trivial
      absent := by
        rintro name (deleted | closing)
        · exact absurd deleted Std.ExtTreeSet.not_mem_empty
        · cases closing
      quiet := fun name deleted => absurd deleted Std.ExtTreeSet.not_mem_empty
      plain := ⟨nofun, nofun⟩ }
  exact kept.silent

def svcParams : SaceEventParams :=
  { propertyKey := [str "p"], propertyValue := [str "1"], boot := false }

def svcAdd : SaceReaderMessage :=
  { msgHandler := .event
    msgCmd := { SaceCommand.init (str "svc") 1 with
      type := .event
      subType := SaceEventType.add.byte
      command := str "/system/bin/svc"
      commandParams := some (.event svcParams) }
    msgWriter := ⟨.socket 5, 5⟩
    msgClient := ⟨1000, 5⟩ }

def svcDel : SaceReaderMessage :=
  { svcAdd with
    msgCmd := { SaceCommand.init (str "svc") 2 with
      type := .event
      subType := SaceEventType.del.byte
      extra := [1]
      extraLen := 1 } }

def env0 : EventEnv := { properties := fun _ => [], iniOpens := true }

def listed : SaceEvent :=
  { SaceEvent.bare with
    services := [⟨[.property (str "p") (str "1") []], svcAdd.msgCmd⟩]
    events := {(str "svc", 0)}
    runningEvents := {(str "svc", 7)} }

theorem listed_named : listed.Named := by
  intro name id found
  rcases (Table.insert_some ∅ (str "svc") name 0 id).mp found with ⟨rfl, rfl⟩ | ⟨_, none⟩
  · exact ⟨_, rfl, rfl⟩
  · simp at none

def delAlone : List Input := [.take svcDel env0, .excutor, .excutor, .excutor]

/-- The DEL finds the event running, and nothing else goes on. -/
theorem deleted_silent : ∃ s, Runs.run step { event := listed } delAlone = some s ∧
    str "svc" ∈ s.deleted ∧ s.stopped = [(str "svc", 7)] ∧ s.Silent := by
  have careful : Runs.Admitted step Careful { event := listed } delAlone :=
    admitted_alone (by simp [delAlone, Alone]) rfl
  have ran : ∃ s, Runs.run step { event := listed } delAlone = some s ∧
      str "svc" ∈ s.deleted ∧ s.stopped = [(str "svc", 7)] := ⟨_, rfl, by decide, rfl⟩
  obtain ⟨s, ran, deleted, stopped⟩ := ran
  exact ⟨s, ran, deleted, stopped, reached_silent listed_named (Runs.run_reached careful ran)⟩

/-- The monitor thread takes its snapshot before the DEL, and the property is set after it. -/
theorem deleted_starts : ∃ s, Runs.run step { event := SaceEvent.bare }
    [.take svcAdd env0, .excutor, .excutor, .snapshot,
      .take svcDel env0, .excutor, .excutor, .excutor,
      .trigger (str "svc") (fun _ => str "1"), .monitor, .monitor] = some s ∧
      str "svc" ∈ s.deleted ∧ s.late = [str "svc"] :=
  ⟨_, rfl, by decide, rfl⟩

end Threads
end Sace
