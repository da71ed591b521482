import Sace.Event.Bytewise
import Sace.Event.Deleted
import Sace.Event.Flight

/-! How many STARTs of one event can be under way while SaceEvent's threads come in between each
other's sections. -/
namespace Sace

def inside (place : Option Str) (name : Str) : Nat := if place = some name then 1 else 0

namespace SaceEvent

def addsAt (e : SaceEvent) : ExcutorPlace → Option Str
  | .start _ _ id | .post _ _ id => e.nameOf id
  | _ => none

variable {e t : SaceEvent}

theorem addsAt_same (same : SameEvents e t) (place : ExcutorPlace) :
    t.addsAt place = e.addsAt place := by
  cases place with
  | start msg env id => exact nameOf_same same id
  | post msg env id => exact nameOf_same same id
  | _ => rfl

theorem nameOf_held {id : Nat} {service : EventService} (held : e.services[id]? = some service) :
    e.nameOf id = some service.cmd.name := by
  rw [nameOf, held]
  rfl

/-- The rest of start_event posts one request, and it is about the event. -/
theorem startPost_asks {id : Nat} (piped : e.eventWriter.piped = true)
    (done : (e.startPost id).result = .ok ()) (name : Str) :
    (posted (e.startPost id).trace).countP (Posted.asks name) = inside (e.nameOf id) name := by
  obtain ⟨service, found, -⟩ := Traced.bind_ok.mp done
  have held := service_ok.mp found
  have trace : (e.startPost id).trace =
      [.post (.message (e.eventMsg (serviceCommand service.cmd)))] := by
    simp only [startPost, SaceEvent.service, held, Traced.pure_then, Traced.emit_trace]
  have asks : Posted.asks name (.message (e.eventMsg (serviceCommand service.cmd))) =
      decide (service.cmd.name = name) := by
    show (e.eventWriter.piped && decide (service.cmd.name = name)) = _
    rw [piped, Bool.true_and]
  rw [trace, nameOf_held held, inside]
  simp only [posted, List.filterMap_cons, List.filterMap_nil, List.countP_cons, List.countP_nil,
    asks, decide_eq_true_eq, Option.some.injEq, Nat.zero_add]

/-- A section of the monitor thread turns being in start_event into a request, and does nothing
else of the kind. -/
theorem monitorSection_asks {place next : MonitorPlace} (piped : e.eventWriter.piped = true)
    (done : (e.monitorSection place).result = .ok (t, next)) (name : Str) :
    inside (t.startsAt next) name +
      (posted (e.monitorSection place).trace).countP (Posted.asks name) =
    inside (e.startsAt place) name := by
  have elsewhere (other : ∀ id, place ≠ .post id) (same : t.startsAt next = e.startsAt place) :
      inside (t.startsAt next) name +
        (posted (e.monitorSection place).trace).countP (Posted.asks name) =
      inside (e.startsAt place) name := by
    rw [posted_postless (monitorSection_postless other), same]
    rfl
  cases place with
  | post id =>
    obtain ⟨_, posts, ended⟩ := Traced.bind_ok.mp done
    cases ended
    rw [monitorSection, Traced.bind_pure_eq]
    exact (Nat.zero_add _).trans (startPost_asks piped posts name)
  | start id =>
    obtain ⟨u, entered, ended⟩ := Traced.bind_ok.mp done
    obtain ⟨_, rfl⟩ := startSection_ok entered
    cases ended
    exact elsewhere (by simp) rfl
  | free =>
    cases done
    exact elsewhere (by simp) rfl
  | label result =>
    cases done
    exact elsewhere (by simp) rfl
  | pass result =>
    obtain ⟨_, _, ended⟩ := Traced.bind_ok.mp done
    cases ended
    exact elsewhere (by simp) rfl
  | restart response =>
    obtain ⟨⟨_, restarted⟩, _, ended⟩ := Traced.bind_ok.mp done
    cases ended
    cases restarted <;> exact elsewhere (by simp) rfl
  | finish response =>
    obtain ⟨_, _, ended⟩ := Traced.bind_ok.mp done
    cases ended
    exact elsewhere (by simp) rfl

/-- The executor's thread is in no section of an INFO that finds its event running. -/
def Uninformed : ExcutorPlace → Prop
  | .info _ | .infoPost _ => False
  | _ => True

theorem excutorSection_asks {place next : ExcutorPlace} (piped : e.eventWriter.piped = true)
    (idle : e.runningEvents = ∅) (place_ok : Uninformed place)
    (done : (e.excutorSection place).result = .ok (t, next)) (name : Str) :
    inside (t.addsAt next) name +
      (posted (e.excutorSection place).trace).countP (Posted.asks name) =
    inside (e.addsAt place) name := by
  have elsewhere (starts : ∀ msg env id, place ≠ .post msg env id)
      (same : t.addsAt next = e.addsAt place) :
      inside (t.addsAt next) name +
        (posted (e.excutorSection place).trace).countP (Posted.asks name) =
      inside (e.addsAt place) name := by
    have quiet : Traced.Every Effect.Postless (e.excutorSection place) := by
      refine excutorSection_postless starts ?_ ?_
      · rintro msg rfl
        exact place_ok.elim
      · intro msg env _
        simp [idle]
    rw [posted_postless quiet, same]
    rfl
  cases place with
  | post msg env id =>
    obtain ⟨_, posts, ended⟩ := Traced.bind_ok.mp done
    cases ended
    rw [excutorSection, Traced.bind_pure_eq]
    exact (Nat.zero_add _).trans (startPost_asks piped posts name)
  | start msg env id =>
    obtain ⟨u, entered, ended⟩ := Traced.bind_ok.mp done
    obtain ⟨_, rfl⟩ := startSection_ok entered
    cases ended
    exact elsewhere (by simp) rfl
  | stop msg env =>
    obtain ⟨_, _, rfl⟩ := stopSection_ok done
    exact elsewhere (by simp) rfl
  | erase msg env =>
    cases done
    refine elsewhere (by simp) ?_
    split <;> rfl
  | running msg =>
    simp only [excutorSection, idle, Std.ExtTreeMap.not_mem_empty, not_false_eq_true, if_true]
      at done
    cases done
    exact elsewhere (by simp) rfl
  | free | insert =>
    cases done
    exact elsewhere (by simp) rfl
  | reply msg env status =>
    obtain ⟨_, _, ended⟩ := Traced.bind_ok.mp done
    obtain ⟨_, _, ended⟩ := Traced.bind_ok.mp ended
    cases ended
    exact elsewhere (by simp) rfl
  | err msg status =>
    obtain ⟨_, _, ended⟩ := Traced.bind_ok.mp done
    cases ended
    exact elsewhere (by simp) rfl
  | info | infoPost => exact place_ok.elim

structure Still (e : SaceEvent) : Prop where
  running : e.runningEvents = ∅
  failed : e.failedEvents = ∅

/-- The monitor thread enters no label and restarts nothing, and what it starts has a Service. -/
def Aimed (e : SaceEvent) : MonitorPlace → Prop
  | .start id | .post id => ∃ name, e.nameOf id = some name
  | .label _ | .restart _ => False
  | _ => True

theorem Aimed.kept {place : MonitorPlace} (aimed : e.Aimed place)
    (ids : ∀ (id : Nat) (name : Str), e.nameOf id = some name → t.nameOf id = some name) :
    t.Aimed place ∧ t.startsAt place = e.startsAt place := by
  cases place with
  | start id | post id =>
    obtain ⟨name, named⟩ := aimed
    exact ⟨⟨name, ids id name named⟩, (ids id name named).trans named.symm⟩
  | label | restart => exact aimed.elim
  | free | pass | finish => exact ⟨trivial, rfl⟩

theorem monitorSection_still {place next : MonitorPlace} (silent : e.Still)
    (aimed : e.Aimed place) (done : (e.monitorSection place).result = .ok (t, next)) :
    SameEvents e t ∧ t.Still ∧ t.Aimed next := by
  cases place with
  | free =>
    cases done
    exact ⟨.refl _, silent, trivial⟩
  | start id =>
    obtain ⟨u, entered, done⟩ := Traced.bind_ok.mp done
    obtain ⟨name, rfl⟩ := startSection_ok entered
    cases done
    exact ⟨⟨rfl, rfl, rfl⟩, ⟨silent.running, silent.failed⟩, aimed⟩
  | post id =>
    obtain ⟨_, _, done⟩ := Traced.bind_ok.mp done
    cases done
    exact ⟨.refl _, silent, trivial⟩
  | pass result =>
    obtain ⟨u, passed, done⟩ := Traced.bind_ok.mp done
    cases passResult_ok passed
    cases done
    exact ⟨.refl _, silent, trivial⟩
  | finish response =>
    obtain ⟨u, passed, done⟩ := Traced.bind_ok.mp done
    cases passResponse_ok passed
    cases done
    exact ⟨⟨rfl, rfl, rfl⟩, ⟨by simp [silent.running], silent.failed⟩, trivial⟩
  | label | restart => exact aimed.elim

/-- Without a result of the type LABEL nothing is entered as running, so a response is passed on
whatever it says. -/
theorem takeNotice_still {notice : Notice} {place : MonitorPlace} (silent : e.Still)
    (named : e.Named) (plain : ∀ result, notice = .result result → result.resultType ≠ .label)
    (done : (e.takeNotice notice).result = .ok (t, place)) :
    t = e ∧ e.Aimed place ∧
      ∀ name, e.startsAt place = some name → notice.refuses name = true := by
  cases notice with
  | response response =>
    have absent : e.runningEvents[response.name]? ≠ some response.label := by
      simp [silent.running]
    rw [takeNotice, if_pos absent] at done
    cases done
    exact ⟨rfl, trivial, fun name begins => by cases begins⟩
  | result result =>
    simp only [takeNotice] at done
    split at done
    · cases done
      exact ⟨rfl, trivial, fun name begins => by cases begins⟩
    split at done
    · rename_i failed
      split at done
      · rename_i id found
        cases done
        obtain ⟨service, held, own⟩ := named _ id found
        refine ⟨rfl, ⟨_, nameOf_held held⟩, fun name begins => ?_⟩
        rw [startsAt, nameOf_held held, Option.some.injEq, own] at begins
        exact Bool.and_eq_true_iff.mpr ⟨decide_eq_true failed, decide_eq_true begins⟩
      · cases done
        exact ⟨rfl, trivial, fun name begins => by cases begins⟩
    split at done
    · rename_i label
      exact absurd label (plain result rfl)
    · cases done
      exact ⟨rfl, trivial, fun name begins => by cases begins⟩

def Placed (e : SaceEvent) : ExcutorPlace → Prop
  | .start msg _ id | .post msg _ id | .insert msg _ id => e.nameOf id = some msg.msgCmd.name
  | .info _ | .infoPost _ => False
  | _ => True

theorem Placed.uninformed {place : ExcutorPlace} (placed : e.Placed place) : Uninformed place := by
  cases place with
  | info | infoPost => exact placed.elim
  | _ => trivial

theorem excutorSection_still {place next : ExcutorPlace} (silent : e.Still)
    (placed : e.Placed place) (done : (e.excutorSection place).result = .ok (t, next)) :
    t.services = e.services ∧ t.eventWriter = e.eventWriter ∧ t.Still ∧ t.Placed next ∧
      (e.Named → t.Named) := by
  cases place with
  | free =>
    cases done
    exact ⟨rfl, rfl, silent, trivial, id⟩
  | erase msg env =>
    cases done
    refine ⟨rfl, rfl, ⟨silent.running, silent.failed⟩, ?_, fun named name id found => ?_⟩
    · split <;> trivial
    · exact named name id ((Table.erase_some ..).mp found).2
  | stop msg env =>
    have none : e.runningEvents[msg.msgCmd.name]? = none := by simp [silent.running]
    rw [excutorSection, none] at done
    cases done
    exact ⟨rfl, rfl, silent, trivial, id⟩
  | start msg env id =>
    obtain ⟨u, entered, done⟩ := Traced.bind_ok.mp done
    obtain ⟨name, rfl⟩ := startSection_ok entered
    cases done
    exact ⟨rfl, rfl, ⟨silent.running, silent.failed⟩, placed, fun named => named⟩
  | post msg env id =>
    obtain ⟨_, _, done⟩ := Traced.bind_ok.mp done
    cases done
    exact ⟨rfl, rfl, silent, placed, fun named => named⟩
  | insert msg env id =>
    cases done
    refine ⟨rfl, rfl, ⟨silent.running, silent.failed⟩, trivial, fun named name other found => ?_⟩
    rcases Table.of_insertIfNew_some found with ⟨rfl, rfl⟩ | old
    · obtain ⟨cmd, found, own⟩ := Option.map_eq_some_iff.mp placed
      obtain ⟨service, held, rfl⟩ := Option.map_eq_some_iff.mp found
      exact ⟨service, held, own⟩
    · exact named name other old
  | running msg =>
    simp only [excutorSection, silent.running, Std.ExtTreeMap.not_mem_empty, not_false_eq_true,
      if_true] at done
    cases done
    exact ⟨rfl, rfl, silent, trivial, id⟩
  | reply msg env status =>
    obtain ⟨_, _, done⟩ := Traced.bind_ok.mp done
    obtain ⟨_, _, done⟩ := Traced.bind_ok.mp done
    cases done
    exact ⟨rfl, rfl, silent, trivial, id⟩
  | err msg status =>
    obtain ⟨_, _, done⟩ := Traced.bind_ok.mp done
    cases done
    exact ⟨rfl, rfl, silent, trivial, id⟩
  | info | infoPost => exact placed.elim

end SaceEvent

namespace Threads

def adding (s : Threads) : Option Str := s.event.addsAt s.excutor

/-- The STARTs of the event that SaceEvent has posted and that are not answered. The one at the
head of the queue may be in the hands of the service executor already. -/
def unanswered (s : Threads) (name : Str) : Nat :=
  s.queue.countP fun
    | .message msg => msg.msgWriter = s.event.eventWriter &&
        msg.msgCmd.serviceCmdType = .start && msg.msgCmd.name = name
    | .stopMsg => false

/-- The threads that are in start_event for the event, the requests of SaceEvent about it in the
queue, and the refusals in the event pipe. -/
def underWay (s : Threads) (name : Str) : Nat :=
  inside s.starting name + inside s.adding name + s.queue.countP (Posted.asks name) +
    s.pipe.countP (Notice.refuses name)

/-- The readers give the messages of their clients sockets and transactions to answer to. -/
def Provided : Input → Prop
  | .client msg => msg.msgWriter.piped = false
  | _ => True

/-- A trigger fires, at the ADD or at a poll, only while nothing of its event is under way. -/
def Spaced (s : Threads) : Input → Prop
  | .take msg env => s.event.StartsAtOnce msg.msgCmd env → s.underWay msg.msgCmd.name = 0
  | .trigger name properties => ∀ id, s.cmds[name]? = some id → s.event.Fires properties id →
      s.underWay name = 0
  | _ => True

structure Orderly (s : Threads) : Prop where
  named : s.event.Named
  still : s.event.Still
  restart : s.restart = ∅
  cmds : ∀ (name : Str) (id : Nat), s.cmds[name]? = some id → s.event.nameOf id = some name
  writer : s.event.eventWriter.piped = true
  placed : s.event.Placed s.excutor
  aimed : s.event.Aimed s.monitor
  labels : ∀ result, .result result ∈ s.pipe → result.resultType ≠ .label
  single : ∀ name, s.underWay name ≤ 1

variable {s t : Threads}

theorem nameOf_named {e : SaceEvent} (named : e.Named) {name : Str} {id : Nat}
    (found : e.events[name]? = some id) : e.nameOf id = some name := by
  obtain ⟨service, held, own⟩ := named name id found
  rw [SaceEvent.nameOf_held held, own]

/-- A turn of the monitor thread. -/
theorem Orderly.turned {event : SaceEvent} {trace : List Effect} {place : MonitorPlace}
    (orderly : s.Orderly) (same : SaceEvent.SameEvents s.event event) (still : event.Still)
    (aimed : event.Aimed place)
    (single : ∀ name, inside (event.startsAt place) name + inside s.adding name +
      (s.queue ++ posted trace).countP (Posted.asks name) +
      s.pipe.countP (Notice.refuses name) ≤ 1) :
    ({ s.deliver event trace with monitor := place } : Threads).Orderly where
  named := SaceEvent.Each.same orderly.named same
  still := still
  restart := orderly.restart
  cmds name id found := (SaceEvent.nameOf_same same id).trans (orderly.cmds name id found)
  writer := (congrArg SaceWriter.piped same.writer).trans orderly.writer
  placed := by
    have placed := orderly.placed
    show event.Placed s.excutor
    cases where_ : s.excutor with
    | start msg env id | post msg env id | insert msg env id =>
      rw [where_] at placed
      exact (SaceEvent.nameOf_same same id).trans placed
    | info | infoPost =>
      rw [where_] at placed
      exact placed.elim
    | _ => trivial
  aimed := aimed
  labels := orderly.labels
  single name := by
    have adds : event.addsAt s.excutor = s.adding := SaceEvent.addsAt_same same _
    have one := single name
    simp only [underWay, starting, adding, deliver] at one ⊢
    rw [adds]
    exact one

theorem Orderly.monitor (orderly : s.Orderly) (moved : s.step .monitor = some t) : t.Orderly := by
  obtain ⟨event, place, done, rfl⟩ := monitorTurn_eq_some.mp moved
  obtain ⟨same, still, aimed⟩ := SaceEvent.monitorSection_still orderly.still orderly.aimed done
  refine orderly.turned same still aimed fun name => ?_
  have asks := SaceEvent.monitorSection_asks orderly.writer done name
  have one := orderly.single name
  rw [underWay, starting] at one
  rw [List.countP_append]
  omega

theorem Orderly.trigger {name : Str} {properties : Str → Str} (orderly : s.Orderly)
    (spaced : s.Spaced (.trigger name properties))
    (moved : s.step (.trigger name properties) = some t) : t.Orderly := by
  simp only [step] at moved
  split at moved
  · rename_i id idle found
    obtain ⟨event, place, done, rfl⟩ := monitorTurn_eq_some.mp moved
    obtain ⟨same, running, failed, starts⟩ := SaceEvent.takeTrigger_ok done
    have quiet := posted_postless (SaceEvent.takeTrigger_postless s.event properties id)
    refine orderly.turned same ⟨running.trans orderly.still.running,
      failed.trans orderly.still.failed⟩ ?_ fun other => ?_
    · rcases starts with rfl | ⟨rfl, _⟩
      · trivial
      · exact ⟨name, (SaceEvent.nameOf_same same id).trans (orderly.cmds name id found)⟩
    have one := orderly.single other
    have free : s.starting = none := by rw [starting, idle]; rfl
    rw [quiet, List.append_nil]
    rcases starts with rfl | ⟨rfl, service, held, fires⟩
    · rw [underWay, free] at one
      exact one
    · have named : event.startsAt (.start id) = some name :=
        (SaceEvent.nameOf_same same id).trans (orderly.cmds name id found)
      have none := spaced id found ⟨service, held, fires⟩
      rw [named, inside]
      split
      · rename_i own
        cases Option.some.inj own
        rw [underWay] at none
        omega
      · rw [underWay, free] at one
        exact one
  · cases moved

theorem Orderly.read {more : Nat} (orderly : s.Orderly) (moved : s.step (.read more) = some t) :
    t.Orderly := by
  simp only [step] at moved
  split at moved
  · rename_i notice rest idle pipe
    obtain ⟨event, place, done, rfl⟩ := monitorTurn_eq_some.mp moved
    have quiet := posted_postless (SaceEvent.takeNotice_postless s.event notice)
    have head : notice ∈ s.pipe := pipe ▸ List.mem_cons_self
    obtain ⟨rfl, aimed, again⟩ := SaceEvent.takeNotice_still orderly.still orderly.named
      (fun result eq => orderly.labels result (eq ▸ head)) done
    have less (name : Str) : inside s.starting name + inside s.adding name +
        s.queue.countP (Posted.asks name) + (rest.drop more).countP (Notice.refuses name) +
        (if notice.refuses name then 1 else 0) ≤ s.underWay name := by
      have dropped : (rest.drop more).countP (Notice.refuses name) ≤
        rest.countP (Notice.refuses name) := (List.drop_sublist _ _).countP_le
      rw [underWay, pipe, List.countP_cons]
      omega
    have fewer : ({ s with pipe := rest.drop more } : Threads).Orderly := {
      named := orderly.named
      still := orderly.still
      restart := orderly.restart
      cmds := orderly.cmds
      writer := orderly.writer
      placed := orderly.placed
      aimed := orderly.aimed
      labels := fun result member =>
        orderly.labels result (pipe ▸ List.mem_cons_of_mem _ (List.mem_of_mem_drop member))
      single := fun name =>
        (Nat.le_add_right _ _).trans ((less name).trans (orderly.single name)) }
    refine fewer.turned (.refl _) orderly.still aimed fun name => ?_
    have one := (less name).trans (orderly.single name)
    rw [quiet, List.append_nil]
    show inside (s.event.startsAt place) name + inside s.adding name +
      s.queue.countP (Posted.asks name) + (rest.drop more).countP (Notice.refuses name) ≤ 1
    by_cases begins : s.event.startsAt place = some name
    · rw [again name begins, if_pos rfl] at one
      rw [inside, if_pos begins]
      omega
    · rw [inside, if_neg begins]
      omega
  · cases moved

/-- A turn of the executor's thread. -/
theorem Orderly.excuted {event : SaceEvent} {trace : List Effect} {place : ExcutorPlace}
    (orderly : s.Orderly) (named : event.Named) (still : event.Still)
    (ids : ∀ (id : Nat) (name : Str), s.event.nameOf id = some name → event.nameOf id = some name)
    (writer : event.eventWriter = s.event.eventWriter) (placed : event.Placed place)
    (single : ∀ name, inside s.starting name + inside (event.addsAt place) name +
      (s.queue ++ posted trace).countP (Posted.asks name) +
      s.pipe.countP (Notice.refuses name) ≤ 1) :
    ({ s.deliver event trace with excutor := place } : Threads).Orderly where
  named := named
  still := still
  restart := orderly.restart
  cmds name id found := ids id name (orderly.cmds name id found)
  writer := (congrArg SaceWriter.piped writer).trans orderly.writer
  placed := placed
  aimed := (orderly.aimed.kept ids).1
  labels := orderly.labels
  single name := by
    have one := single name
    have starts : event.startsAt s.monitor = s.starting := (orderly.aimed.kept ids).2
    rw [← starts] at one
    exact one

/-- What is recorded of a place says nothing of what is under way. -/
theorem leave_eq (s : Threads) (place : ExcutorPlace) :
    ∃ deleted stopped, s.leave place = { s with deleted, stopped } := by
  unfold leave
  split
  · split
    · exact ⟨_, _, rfl⟩
    · exact ⟨s.deleted, s.stopped, rfl⟩
  · exact ⟨_, _, rfl⟩
  · split
    · exact ⟨_, _, rfl⟩
    · exact ⟨s.deleted, s.stopped, rfl⟩
  · exact ⟨s.deleted, s.stopped, rfl⟩

theorem Orderly.recorded (orderly : s.Orderly) (deleted : NameSet)
    (stopped : List (Str × UInt64)) : ({ s with deleted, stopped } : Threads).Orderly :=
  ⟨orderly.named, orderly.still, orderly.restart, orderly.cmds, orderly.writer, orderly.placed,
    orderly.aimed, orderly.labels, orderly.single⟩

theorem Orderly.excutor (orderly : s.Orderly) (moved : s.step .excutor = some t) : t.Orderly := by
  obtain ⟨deleted, stopped, left⟩ := leave_eq s s.excutor
  simp only [step, left] at moved
  obtain ⟨event, place, done, rfl⟩ := excutorTurn_eq_some.mp moved
  obtain ⟨services, writer, still, placed, named⟩ :=
    SaceEvent.excutorSection_still orderly.still orderly.placed done
  have same (id : Nat) : event.nameOf id = s.event.nameOf id := by
    rw [SaceEvent.nameOf, services, SaceEvent.nameOf]
  refine (orderly.recorded deleted stopped).excuted (named orderly.named) still
    (fun id name found => (same id).trans found) writer placed fun name => ?_
  have asks := SaceEvent.excutorSection_asks orderly.writer orderly.still.running
    orderly.placed.uninformed done name
  have one := orderly.single name
  rw [underWay, adding] at one
  rw [List.countP_append]
  show inside s.starting name + _ + (s.queue.countP (Posted.asks name) + _) +
    s.pipe.countP (Notice.refuses name) ≤ 1
  omega

theorem enter_eq (s : Threads) : ∃ deleted, s.enter = { s with deleted } := by
  unfold enter
  split
  · exact ⟨_, rfl⟩
  · exact ⟨s.deleted, rfl⟩

/-- A new Service comes under an id that no other event has. -/
theorem nameOf_append {e : SaceEvent} (service : EventService) {id : Nat} {name : Str}
    (named : e.nameOf id = some name) :
    ({ e with services := e.services ++ [service] } : SaceEvent).nameOf id = some name := by
  obtain ⟨cmd, found, rfl⟩ := Option.map_eq_some_iff.mp named
  obtain ⟨old, held, rfl⟩ := Option.map_eq_some_iff.mp found
  obtain ⟨short, -⟩ := List.getElem?_eq_some_iff.mp held
  rw [SaceEvent.nameOf, List.getElem?_append_left short, held]
  rfl

theorem Orderly.take {msg : SaceReaderMessage} {env : EventEnv} (orderly : s.Orderly)
    (spaced : s.Spaced (.take msg env)) (moved : s.step (.take msg env) = some t) : t.Orderly := by
  simp only [step] at moved
  split at moved
  · rename_i idle
    obtain ⟨u, turned, rfl⟩ := Option.map_eq_some_iff.mp moved
    obtain ⟨deleted, entered⟩ := enter_eq u
    rw [entered]
    obtain ⟨event, place, done, rfl⟩ := excutorTurn_eq_some.mp turned
    refine Orderly.recorded ?_ deleted _
    have quiet := posted_postless (SaceEvent.takeRequest_postless s.event msg env)
    have free : s.adding = none := by rw [adding, idle]; rfl
    have before (name : Str) : inside s.starting name + inside none name +
        (s.queue ++ posted (s.event.takeRequest msg env).trace).countP (Posted.asks name) +
        s.pipe.countP (Notice.refuses name) ≤ 1 := by
      have one := orderly.single name
      rw [underWay, free] at one
      rw [quiet, List.append_nil]
      exact one
    rcases SaceEvent.takeRequest_ok done with ⟨rfl, places⟩ | ⟨kind, ⟨triggers, rfl⟩, places⟩
    · have goesOn (placed : s.event.Placed place) (adds : s.event.addsAt place = none) :
          ({ s.deliver s.event (s.event.takeRequest msg env).trace with excutor := place }
            : Threads).Orderly :=
        orderly.excuted orderly.named orderly.still (fun _ _ named => named) rfl placed
          fun name => by
            rw [adds]
            exact before name
      rcases places with ⟨rfl, _⟩ | ⟨_, rfl⟩ | rfl | ⟨rfl, _⟩ <;> exact goesOn trivial rfl
    · have named : SaceEvent.Named
          { s.event with services := s.event.services ++ [⟨triggers, msg.msgCmd⟩] } := by
        intro name id found
        obtain ⟨service, held, own⟩ := orderly.named name id found
        obtain ⟨short, -⟩ := List.getElem?_eq_some_iff.mp held
        exact ⟨service, (List.getElem?_append_left short).trans held, own⟩
      have last : (s.event.services ++ [⟨triggers, msg.msgCmd⟩])[s.event.services.length]? =
          some ⟨triggers, msg.msgCmd⟩ := List.getElem?_concat_length
      have own := SaceEvent.nameOf_held
        (e := { s.event with services := s.event.services ++ [⟨triggers, msg.msgCmd⟩] }) last
      refine orderly.excuted named ⟨orderly.still.running, orderly.still.failed⟩
        (fun _ _ named => nameOf_append _ named) rfl ?_ fun name => ?_
      · rcases places with ⟨rfl, _⟩ | rfl <;> exact own
      · rcases places with ⟨rfl, now⟩ | rfl
        · rw [SaceEvent.addsAt, own]
          by_cases same : msg.msgCmd.name = name
          · have none := spaced now
            have one : inside (some msg.msgCmd.name) name = 1 := if_pos (congrArg some same)
            rw [same, underWay] at none
            rw [quiet, List.append_nil, one]
            omega
          · have zero : inside (some msg.msgCmd.name) name = 0 :=
              if_neg fun eq => same (Option.some.inj eq)
            rw [zero]
            exact before name
        · exact before name
  · cases moved

/-- What the service executor answers to a request, as far as it is a refusal that SaceEvent
reads, is about the request's service. -/
theorem served_refusals {env : ParseEnv} {answers : StartAnswers} {posted : Posted}
    {service : SaceServiceExcutor} {result : SaceResult}
    (done : (s.service.request (s.message posted) env answers).result = .ok (service, result))
    (name : Str) :
    (piped ((s.service.request (s.message posted) env answers).trace ++
      [.sendResult (s.message posted).msgWriter result])).countP (Notice.refuses name) ≤
    if posted.asks name then 1 else 0 := by
  have quiet : Traced.Every (fun effect => effect.flies name = false)
      (s.service.request (s.message posted) env answers) :=
    SaceServiceExcutor.request_every (fun _ _ => rfl) (fun _ _ => rfl) fun _ _ => rfl
  have none : (s.service.request (s.message posted) env answers).trace.countP
      (Effect.flies name) = 0 := by
    rw [List.countP_eq_zero]
    intro effect member
    rw [quiet effect member]
    exact Bool.false_ne_true
  have count := flies_count name ((s.service.request (s.message posted) env answers).trace ++
    [.sendResult (s.message posted).msgWriter result])
  rw [List.countP_append, none, List.countP_singleton] at count
  have asks : Effect.flies name (.sendResult (s.message posted).msgWriter result) = true →
      posted.asks name = true := by
    intro flies
    have named := (SaceServiceExcutor.request_answers done).2
    simp only [Effect.flies, Notice.refuses, Bool.and_eq_true, decide_eq_true_eq, named] at flies
    obtain ⟨piped, -, own⟩ := flies
    cases posted with
    | message msg => exact Bool.and_eq_true_iff.mpr ⟨piped, decide_eq_true own⟩
    | stopMsg => cases piped
  split at count
  · rename_i flies
    rw [if_pos (asks flies)]
    omega
  · omega

/-- A step of the service executor: it takes at most requests away, and refuses what it takes. -/
theorem Orderly.served {service : SaceServiceExcutor} {queue : List Posted} {pipe : List Notice}
    (orderly : s.Orderly)
    (labels : ∀ result, .result result ∈ pipe → result.resultType ≠ .label)
    (fewer : ∀ name, queue.countP (Posted.asks name) + pipe.countP (Notice.refuses name) ≤
      s.queue.countP (Posted.asks name) + s.pipe.countP (Notice.refuses name)) :
    ({ s with service, queue, pipe } : Threads).Orderly where
  named := orderly.named
  still := orderly.still
  restart := orderly.restart
  cmds := orderly.cmds
  writer := orderly.writer
  placed := orderly.placed
  aimed := orderly.aimed
  labels := labels
  single name := by
    have one := orderly.single name
    have less := fewer name
    rw [underWay] at one
    show inside s.starting name + inside s.adding name + queue.countP (Posted.asks name) +
      pipe.countP (Notice.refuses name) ≤ 1
    omega

theorem Orderly.serve {env : ParseEnv} {answers : StartAnswers} (orderly : s.Orderly)
    (moved : s.step (.serve env answers) = some t) : t.Orderly := by
  simp only [step] at moved
  split at moved
  · cases moved
  · rename_i posted rest queue
    simp only [Option.map_eq_some_iff, Traced.value_eq_some, Prod.exists] at moved
    obtain ⟨service, result, done, rfl⟩ := moved
    refine orderly.served (fun other member => ?_) fun name => ?_
    · rcases List.mem_append.mp member with old | new
      · exact orderly.labels other old
      · exact served_plain done new
    · have refusals := served_refusals done name
      rw [queue, List.countP_append, List.countP_cons]
      omega

theorem Orderly.monitorService {wait : Nat → WaitAnswer} (orderly : s.Orderly)
    (moved : s.step (.monitorService wait) = some t) : t.Orderly := by
  simp only [step, Option.map_eq_some_iff, Traced.value_eq_some] at moved
  obtain ⟨service, done, rfl⟩ := moved
  refine orderly.served (fun other member => ?_) fun name => ?_
  · rcases List.mem_append.mp member with old | new
    · exact orderly.labels other old
    · exact monitored_plain new
  · -- a pass tells of ends and refuses nothing
    have none : (piped (s.service.monitorServiceStatus wait).trace).countP
        (Notice.refuses name) = 0 := by
      have quiet : Traced.Every (fun effect => effect.flies name = false)
          (s.service.monitorServiceStatus wait) :=
        SaceServiceExcutor.monitor_every (fun _ _ => rfl) _ _
      have count := flies_count name (s.service.monitorServiceStatus wait).trace
      rw [List.countP_eq_zero.mpr fun effect member => by
        rw [quiet effect member]; exact Bool.false_ne_true] at count
      omega
    rw [List.countP_append, none]
    exact Nat.le_refl _

theorem Orderly.client {msg : SaceReaderMessage} (orderly : s.Orderly)
    (outer : msg.msgWriter.piped = false) (moved : s.step (.client msg) = some t) :
    t.Orderly := by
  cases moved
  refine orderly.served orderly.labels fun name => ?_
  have foreign : Posted.asks name (.message msg) = false := by
    show (msg.msgWriter.piped && _) = false
    rw [outer, Bool.false_and]
  rw [List.countP_append, List.countP_singleton, foreign]
  exact Nat.le_refl _

theorem Orderly.snapshot (orderly : s.Orderly) (moved : s.step .snapshot = some t) :
    t.Orderly := by
  simp only [step] at moved
  split at moved
  · cases moved
    exact {
      named := orderly.named
      still := ⟨orderly.still.running, rfl⟩
      restart := orderly.still.failed
      cmds := fun name id found => nameOf_named orderly.named found
      writer := orderly.writer
      placed := orderly.placed
      aimed := orderly.aimed
      labels := orderly.labels
      single := orderly.single }
  · cases moved

theorem Orderly.step {input : Input} (orderly : s.Orderly) (provided : Provided input)
    (spaced : s.Spaced input) (moved : s.step input = some t) : t.Orderly := by
  cases input with
  | snapshot => exact orderly.snapshot moved
  | trigger name properties => exact orderly.trigger spaced moved
  | restartEvent name =>
    simp only [Threads.step, orderly.restart, Std.ExtTreeSet.not_mem_empty, if_false] at moved
    split at moved <;> cases moved
  | read more => exact orderly.read moved
  | monitor => exact orderly.monitor moved
  | take msg env => exact orderly.take spaced moved
  | excutor => exact orderly.excutor moved
  | client msg => exact orderly.client provided moved
  | serve env answers => exact orderly.serve moved
  | monitorService wait => exact orderly.monitorService moved

theorem start_orderly {event : SaceEvent} (loaded : event.Loaded) (named : event.Named) :
    Threads.Orderly { event } where
  named := named
  still := ⟨loaded.running, loaded.failed⟩
  restart := rfl
  cmds name id found := by simp at found
  writer := by
    obtain ⟨fd, pipe⟩ := loaded.pipe
    simp only [SaceWriter.piped, pipe]
  placed := trivial
  aimed := trivial
  labels result member := by cases member
  single name := Nat.zero_le 1

theorem Orderly.unanswered (orderly : s.Orderly) (name : Str) : s.unanswered name ≤ 1 := by
  have fewer : s.unanswered name ≤ s.queue.countP (Posted.asks name) := by
    apply List.countP_mono_left
    intro posted _ own
    cases posted with
    | message msg =>
      simp only [Bool.and_eq_true, decide_eq_true_eq] at own
      refine Bool.and_eq_true_iff.mpr ⟨?_, decide_eq_true own.2⟩
      rw [own.1.1]
      exact orderly.writer
    | stopMsg => cases own
  have one := orderly.single name
  rw [underWay] at one
  omega

/-! ### Over the bytes of the event pipe -/

def machine : PipeMachine Threads Input where
  step := step
  pipe s := s.pipe
  withPipe s pipe := { s with pipe }
  selects s := match s.monitor with
    | .free => true
    | _ => false
  reads
    | .read _ => true
    | _ => false
  read := .read 0

/-- How a message comes out of its bytes makes no difference here, and of lost ones there are only
fewer. -/
theorem orderly_keeps (F : ParcelFormat) :
    Bytewise.Keeps F machine (fun s input => Provided input ∧ s.Spaced input) Orderly where
  moves _ _ _ orderly admitted moved := orderly.step admitted.1 admitted.2 moved
  reads _ := ⟨trivial, trivial⟩
  same _ orderly := orderly
  onWire s notice rest orderly := by
    have refuses (name : Str) : (notice.onWire F).refuses name = notice.refuses name := by
      cases notice <;> rfl
    refine orderly.served (fun result member => ?_) fun name => ?_
    · rcases List.mem_cons.mp member with head | later
      · cases notice with
        | result r =>
          cases head
          exact orderly.labels r List.mem_cons_self
        | response => cases head
      · exact orderly.labels result (List.mem_cons_of_mem _ later)
    · show _ ≤ _ + (notice :: rest).countP (Notice.refuses name)
      rw [List.countP_cons, List.countP_cons, refuses]
      exact Nat.le_refl _
  lost s notice rest k orderly := by
    have fewer : (notice :: rest.drop k).Sublist (notice :: rest) :=
      (List.drop_sublist k rest).cons_cons notice
    refine orderly.served (fun result member => orderly.labels result (fewer.subset member)) ?_
    exact fun name => Nat.add_le_add_left fewer.countP_le _

/-- As long as triggers fire only while nothing of their event is under way and each read of the
event pipe begins with a whole message, at most one START of an event is unanswered, and none is
posted for a name in running_events. -/
theorem reached_single (F : ParcelFormat) {event : SaceEvent} (loaded : event.Loaded)
    (named : event.Named) {w : Bytewise Threads}
    (reached : Runs.Reached (Bytewise.step F machine)
      (Bytewise.Allowed F machine fun s input => Provided input ∧ s.Spaced input)
      { base := { event } } w) (name : Str) :
    w.base.unanswered name ≤ 1 ∧ ∀ (input : Bytewise.Input Input) (v : Bytewise Threads),
      w.step F machine input = some v → w.base.unanswered name < v.base.unanswered name →
        name ∉ w.base.event.runningEvents := by
  have orderly := (orderly_keeps F).reached (start_orderly loaded named) reached
  refine ⟨orderly.unanswered name, fun _ _ _ _ => ?_⟩
  simp [orderly.still.running]

/-! The ADD of a boot event whose START fails, and of one with a property trigger beside the boot
trigger. -/

def bootAdd : SaceReaderMessage :=
  { msgHandler := .event
    msgCmd := Saced.bootCommand
    msgWriter := ⟨.binder 1, 200⟩
    msgClient := ⟨1000, 200⟩ }

def bootFails : List (Bytewise.Input Input) :=
  [.other (.take bootAdd env0), .other .excutor, .other .excutor, .other .excutor, .other .excutor,
    .other (.serve .empty { Answers.quiet.start with fork := -1 })]

def bootRefused : Notice :=
  .result { sequence := 7, name := str "svc", resultStatus := .fail, resultType := .none }

def bootAgain : List (Bytewise.Input Input) :=
  [.read (bootRefused.encode Android.parcel).length, .other .monitor, .other .monitor]

theorem bootFails_refused : (Runs.run (Bytewise.step Android.parcel machine)
    { base := { event := .bare } } bootFails).map (fun w => (w.base.pipe, w.bytes)) =
      some ([bootRefused], bootRefused.encode Android.parcel) := by
  decide +kernel

theorem bootRefused_valid : bootRefused.WellFormed Android.parcel :=
  ⟨{ type := rfl, name := show Android.Ascii _ by decide +kernel, extraLen := by decide },
    by decide⟩

theorem bootAgain_spaced : Runs.Admitted (Bytewise.step Android.parcel machine)
    (Bytewise.Allowed Android.parcel machine fun s input => Provided input ∧ s.Spaced input)
    { base := { event := .bare } } (bootFails ++ bootAgain) := by
  have sections (s : Threads) : Provided .excutor ∧ s.Spaced .excutor := ⟨trivial, trivial⟩
  refine Runs.Admitted.append ?_ fun w ran => ?_
  · exact ⟨⟨trivial, fun _ => rfl⟩, fun _ _ => ⟨sections _, fun _ _ => ⟨sections _, fun _ _ =>
      ⟨sections _, fun _ _ => ⟨sections _, fun _ _ => ⟨⟨trivial, trivial⟩, fun _ _ => trivial⟩⟩⟩⟩⟩⟩
  · have refused := bootFails_refused
    rw [ran, Option.map_some, Option.some.injEq, Prod.mk.injEq] at refused
    obtain ⟨pipe, bytes⟩ := refused
    have whole : w.bytes = w.base.pipe.flatMap (Notice.encode Android.parcel) := by
      rw [pipe, bytes, List.flatMap_cons, List.flatMap_nil, List.append_nil]
    exact ⟨⟨whole, bootRefused, [], pipe, bootRefused_valid, Nat.le_refl _⟩,
      fun _ _ => ⟨⟨trivial, trivial⟩, fun _ _ => ⟨⟨trivial, trivial⟩, fun _ _ => trivial⟩⟩⟩

theorem boot_single : ∃ w : Bytewise Threads,
    Runs.run (Bytewise.step Android.parcel machine) { base := { event := .bare } }
      (bootFails ++ bootAgain) = some w ∧
    w.base.unanswered (str "svc") = 1 ∧ w.base.unanswered (str "svc") ≤ 1 ∧
    ∀ (input : Bytewise.Input Input) (v : Bytewise Threads),
      w.step Android.parcel machine input = some v →
        w.base.unanswered (str "svc") < v.base.unanswered (str "svc") →
          str "svc" ∉ w.base.event.runningEvents := by
  have counts : (Runs.run (Bytewise.step Android.parcel machine) { base := { event := .bare } }
      (bootFails ++ bootAgain)).map (·.base.unanswered (str "svc")) = some 1 := by
    decide +kernel
  obtain ⟨w, ran, one⟩ := Option.map_eq_some_iff.mp counts
  exact ⟨w, ran, one, reached_single Android.parcel SaceEvent.bare_loaded SaceEvent.bare_named
    (Runs.run_reached bootAgain_spaced ran) (str "svc")⟩

def twoTriggers : SaceReaderMessage :=
  { bootAdd with
    msgCmd := { Saced.bootCommand with
      commandParams := some (.event { propertyKey := [str "x"], propertyValue := [str "1"] }) } }

/-- The ADD starts the event at once, and the property is set before the START is taken. -/
def addTwo : List (Bytewise.Input Input) :=
  [.other (.take twoTriggers env0), .other .excutor, .other .excutor, .other .excutor,
    .other .excutor, .other .snapshot, .other (.trigger (str "svc") fun _ => str "1"),
    .other .monitor, .other .monitor]

theorem two_unanswered : ¬ ∀ (event : SaceEvent) (w : Bytewise Threads) (name : Str),
    event.Loaded → event.Named →
    Runs.Reached (Bytewise.step Android.parcel machine)
      (Bytewise.Allowed Android.parcel machine fun _ input => Provided input)
      { base := { event } } w → w.base.unanswered name ≤ 1 := by
  intro single
  have counts : (Runs.run (Bytewise.step Android.parcel machine) { base := { event := .bare } }
      addTwo).map (·.base.unanswered (str "svc")) = some 2 := by
    decide +kernel
  obtain ⟨w, ran, two⟩ := Option.map_eq_some_iff.mp counts
  have admitted : Runs.Admitted (Bytewise.step Android.parcel machine)
      (Bytewise.Allowed Android.parcel machine fun _ input => Provided input)
      { base := { event := .bare } } addTwo :=
    ⟨trivial, fun _ _ => ⟨trivial, fun _ _ => ⟨trivial, fun _ _ => ⟨trivial, fun _ _ => ⟨trivial,
      fun _ _ => ⟨trivial, fun _ _ => ⟨trivial, fun _ _ => ⟨trivial, fun _ _ => ⟨trivial,
        fun _ _ => trivial⟩⟩⟩⟩⟩⟩⟩⟩⟩
  have one := single .bare w (str "svc") SaceEvent.bare_loaded SaceEvent.bare_named
    (Runs.run_reached admitted ran)
  rw [two] at one
  exact absurd one (by decide)

end Threads
end Sace
